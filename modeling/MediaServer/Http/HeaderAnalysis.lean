import MediaServer.Http.HttpSession
import MediaServer.Lib.Run

/-!
# The analysis of a header

`analyze_header` takes a line apart at its colon and goes on two bytes behind it, and
takes the version from the third field five bytes behind `HTTP`.  `substr` throws when
there is nothing up to there.  `CutShort` says in which headers this happens, and
`analysed_iff` that in all others the analysis does what it should.
-/

namespace MediaServer

namespace HttpInput

/-- The header has come and is as it should be. -/
def WellFormed (data : Bytes) : Prop :=
  ∃ pos firstLine lines method uri version,
    find (crlf ++ crlf) data = some pos ∧ data.take pos ≠ [] ∧
    stringSplitAt (data.take pos) crlf = firstLine :: lines ∧
    stringSplitAt firstLine [space] = [method, uri, version] ∧ http <:+: version ∧
    ∀ line ∈ lines, colon ∈ line

/-- Some line ends with its first colon, and those before it have colons. -/
def EndsAtColon (lines : List Bytes) : Prop :=
  ∃ good key rest, lines = good ++ (key ++ [colon]) :: rest ∧ (∀ line ∈ good, colon ∈ line) ∧
    colon ∉ key

/-- The third field of the first line ends with its first `HTTP`, or a line behind it
with its first colon. -/
def CutShort (data : Bytes) : Prop :=
  ∃ pos firstLine lines method uri version place,
    find (crlf ++ crlf) data = some pos ∧
    stringSplitAt (data.take pos) crlf = firstLine :: lines ∧
    stringSplitAt firstLine [space] = [method, uri, version] ∧
    find http version = some place ∧ (version.length = place + 4 ∨ EndsAtColon lines)

/-- `analyze_header` returns 0 or -1, and 0 with the header ready just when the header
is well-formed. -/
def Analysed (s : HttpInput) : Prop :=
  ∃ ret s', s.analyzeHeader = .ok (ret, s') ∧ (ret = 0 ∨ ret = -1) ∧
    (ret = 0 ∧ s'.headerIsReady = true ↔ WellFormed s.headerData)

/-! ## The lines -/

theorem endsAtColon_cons {line : Bytes} {lines : List Bytes} :
    EndsAtColon (line :: lines) ↔
      (∃ key, line = key ++ [colon] ∧ colon ∉ key) ∨ colon ∈ line ∧ EndsAtColon lines := by
  constructor
  · rintro ⟨good, key, rest, heq, hgood, hkey⟩
    cases good with
    | nil =>
      cases heq
      exact .inl ⟨key, rfl, hkey⟩
    | cons g good =>
      cases heq
      exact .inr ⟨hgood line List.mem_cons_self, good, key, rest, rfl,
        fun l hl => hgood l (List.mem_cons_of_mem _ hl), hkey⟩
  · rintro (⟨key, rfl, hkey⟩ | ⟨hline, good, key, rest, rfl, hgood, hkey⟩)
    · exact ⟨[], key, lines, rfl, by simp, hkey⟩
    · refine ⟨line :: good, key, rest, rfl, ?_, hkey⟩
      intro l hl
      rcases List.mem_cons.mp hl with rfl | hl
      · exact hline
      · exact hgood l hl

theorem readHeaders_of_find {line : Bytes} {pos : Nat} (hfind : find [colon] line = some pos)
    (lines : List Bytes) (r : HttpRequest) :
    readHeaders (line :: lines) r =
      (substr line (pos + 2) >>= fun value =>
        readHeaders lines (addHeader (line.take pos) value r)) := by
  rw [readHeaders, hfind]

/-- How the loop over the lines ends. -/
theorem readHeaders_cases (lines : List Bytes) (r : HttpRequest) :
    EndsAtColon lines ∧ readHeaders lines r = .error .outOfBounds ∨
    ¬ EndsAtColon lines ∧ ∃ ret r', readHeaders lines r = .ok (ret, r') ∧ (ret = 0 ∨ ret = -1) ∧
      (ret = 0 ↔ ∀ line ∈ lines, colon ∈ line) := by
  induction lines generalizing r with
  | nil =>
    refine .inr ⟨?_, 0, r, rfl, .inl rfl, by simp⟩
    rintro ⟨good, key, rest, heq, -⟩
    simp at heq
  | cons line lines ih =>
    rw [endsAtColon_cons]
    rcases hfind : find [colon] line with _ | pos
    · have hno := find_singleton_none.mp hfind
      refine .inr ⟨?_, -1, r, by rw [readHeaders, hfind], .inr rfl, ?_⟩
      · rintro (⟨key, rfl, -⟩ | ⟨hmem, -⟩)
        · exact hno (by simp)
        · exact hno hmem
      · constructor
        · intro h
          cases h
        · intro h
          exact absurd (h line List.mem_cons_self) hno
    · rw [readHeaders_of_find hfind]
      obtain ⟨key, value, rfl, hkey, rfl⟩ := find_singleton_some.mp hfind
      have hcolon : colon ∈ key ++ colon :: value := by simp
      cases value with
      | nil =>
        refine .inl ⟨.inl ⟨key, rfl, hkey⟩, ?_⟩
        have hshort : (key ++ [colon]).length < key.length + 2 := by
          rw [List.length_append, List.length_singleton]
          omega
        rw [substr_of_lt hshort]
        rfl
      | cons c value =>
        have hnot : ¬ ∃ key', key ++ colon :: c :: value = key' ++ [colon] ∧ colon ∉ key' := by
          rintro ⟨key', heq, hkey'⟩
          obtain ⟨init, last, hvalue⟩ : ∃ init last, c :: value = init ++ [last] :=
            (List.eq_nil_or_concat' (c :: value)).resolve_left (by simp)
          rw [hvalue, ← List.cons_append, ← List.append_assoc] at heq
          obtain ⟨rfl, -⟩ := List.append_inj' heq rfl
          exact hkey' (by simp)
        have hlen : key.length + 2 ≤ (key ++ colon :: c :: value).length := by
          simp only [List.length_append, List.length_cons]
          omega
        rw [substr_of_le hlen, Run.ok_bind]
        rcases ih _ with ⟨hends, herror⟩ | ⟨hends, ret, r', hok, hret, hiff⟩
        · exact .inl ⟨.inr ⟨hcolon, hends⟩, herror⟩
        · refine .inr ⟨?_, ret, r', hok, hret, ?_⟩
          · rintro (hkey' | ⟨-, hends'⟩)
            · exact hnot hkey'
            · exact hends hends'
          · rw [hiff, List.forall_mem_cons, and_iff_right hcolon]

/-! ## The header -/

theorem readLines_of_find {firstLine method uri version : Bytes} {place : Nat}
    (hfields : stringSplitAt firstLine [space] = [method, uri, version])
    (hfind : find http version = some place) (lines : List Bytes) (r : HttpRequest) :
    readLines firstLine lines r =
      (substr version (place + 5) >>= fun version =>
        readHeaders lines { r with method := method, uri := uri, version := version }) := by
  simp only [readLines, hfields, hfind]

/-- How the analysis of the lines ends, when the first one has three fields. -/
theorem readLines_cases {firstLine : Bytes} {method uri version : Bytes}
    (hfields : stringSplitAt firstLine [space] = [method, uri, version]) (lines : List Bytes)
    (r : HttpRequest) :
    (∃ place, find http version = some place ∧ (version.length = place + 4 ∨ EndsAtColon lines)) ∧
        readLines firstLine lines r = .error .outOfBounds ∨
    (¬ ∃ place, find http version = some place ∧
        (version.length = place + 4 ∨ EndsAtColon lines)) ∧
      ∃ ret r', readLines firstLine lines r = .ok (ret, r') ∧ (ret = 0 ∨ ret = -1) ∧
        (ret = 0 ↔ http <:+: version ∧ ∀ line ∈ lines, colon ∈ line) := by
  rcases hfind : find http version with _ | place
  · have hno := find_eq_none_iff.mp hfind
    refine .inr ⟨?_, -1, { r with method := method, uri := uri }, ?_, .inr rfl, ?_⟩
    · rintro ⟨place, hplace, -⟩
      cases hplace
    · simp only [readLines, hfields, hfind]
    · constructor
      · intro h
        cases h
      · intro h
        exact absurd h.1 hno
  · have hmem : http <:+: version := by
      by_contra hno
      rw [find_eq_none_iff.mpr hno] at hfind
      cases hfind
    have hlen : place + 4 ≤ version.length := by
      have happend := congrArg List.length (find_eq_some hfind)
      rw [List.length_append, List.length_append, List.length_take, List.length_drop] at happend
      have hhttp : http.length = 4 := rfl
      omega
    rw [readLines_of_find hfields hfind]
    by_cases hend : version.length = place + 4
    · refine .inl ⟨⟨place, rfl, .inl hend⟩, ?_⟩
      rw [substr_of_lt (show version.length < place + 5 by omega)]
      rfl
    · rw [substr_of_le (show place + 5 ≤ version.length by omega), Run.ok_bind]
      rcases readHeaders_cases lines
        { r with method := method, uri := uri, version := version.drop (place + 5) } with
        ⟨hends, herror⟩ | ⟨hends, ret, r', hok, hret, hiff⟩
      · exact .inl ⟨⟨place, rfl, .inr hends⟩, herror⟩
      · refine .inr ⟨?_, ret, r', hok, hret, by rw [hiff, and_iff_right hmem]⟩
        rintro ⟨place', hplace, hcut⟩
        cases hplace
        exact hcut.elim hend hends

section Header

variable {s : HttpInput} {pos : Nat} {firstLine : Bytes} {lines : List Bytes}

theorem wellFormed_iff (hpos : find (crlf ++ crlf) s.headerData = some pos)
    (hlines : stringSplitAt (s.headerData.take pos) crlf = firstLine :: lines) :
    WellFormed s.headerData ↔ ∃ method uri version,
      stringSplitAt firstLine [space] = [method, uri, version] ∧ http <:+: version ∧
        ∀ line ∈ lines, colon ∈ line := by
  constructor
  · rintro ⟨pos', firstLine', lines', method, uri, version, hpos', -, hlines', hrest⟩
    rw [hpos] at hpos'
    cases hpos'
    rw [hlines] at hlines'
    cases hlines'
    exact ⟨method, uri, version, hrest⟩
  · rintro ⟨method, uri, version, hrest⟩
    refine ⟨pos, firstLine, lines, method, uri, version, hpos, ?_, hlines, hrest⟩
    intro hempty
    rw [hempty, stringSplitAt_nil] at hlines
    cases hlines

theorem cutShort_iff (hpos : find (crlf ++ crlf) s.headerData = some pos)
    (hlines : stringSplitAt (s.headerData.take pos) crlf = firstLine :: lines) :
    CutShort s.headerData ↔ ∃ method uri version,
      stringSplitAt firstLine [space] = [method, uri, version] ∧
        ∃ place, find http version = some place ∧
          (version.length = place + 4 ∨ EndsAtColon lines) := by
  constructor
  · rintro ⟨pos', firstLine', lines', method, uri, version, place, hpos', hlines', hfields, hcut⟩
    rw [hpos] at hpos'
    cases hpos'
    rw [hlines] at hlines'
    cases hlines'
    exact ⟨method, uri, version, hfields, place, hcut⟩
  · rintro ⟨method, uri, version, hfields, place, hcut⟩
    exact ⟨pos, firstLine, lines, method, uri, version, place, hpos, hlines, hfields, hcut⟩

theorem analyzeHeader_of_wait (hpos : find (crlf ++ crlf) s.headerData = none) :
    s.analyzeHeader = .ok (0, { s with headerIsReady := false }) := by
  rw [analyzeHeader, hpos]

theorem analyzeHeader_of_empty (hpos : find (crlf ++ crlf) s.headerData = some pos)
    (hlines : stringSplitAt (s.headerData.take pos) crlf = []) :
    s.analyzeHeader = .ok (-1, { s with contentStart := pos + 4, headerIsReady := true }) := by
  simp only [analyzeHeader, hpos, hlines]

theorem analyzeHeader_of_lines (hpos : find (crlf ++ crlf) s.headerData = some pos)
    (hlines : stringSplitAt (s.headerData.take pos) crlf = firstLine :: lines) :
    s.analyzeHeader = (readLines firstLine lines s.request >>= fun r =>
      .ok (r.1, { s with contentStart := pos + 4, headerIsReady := true, request := r.2 })) := by
  simp only [analyzeHeader, hpos, hlines]
  rfl

/-- A first line without three fields. -/
theorem readLines_of_fields
    (hfields : ∀ method uri version, stringSplitAt firstLine [space] ≠ [method, uri, version])
    (r : HttpRequest) : readLines firstLine lines r = .ok (-1, r) := by
  rw [readLines]
  split
  · rename_i method uri version heq
    exact absurd heq (hfields method uri version)
  · rfl

/-- A header that does not come apart into lines and fields is rejected, or waits. -/
theorem analysed_iff_of_apart
    (hapart : ∀ pos firstLine lines method uri version,
      find (crlf ++ crlf) s.headerData = some pos →
      stringSplitAt (s.headerData.take pos) crlf = firstLine :: lines →
      stringSplitAt firstLine [space] ≠ [method, uri, version])
    {ret : Int} {s' : HttpInput} (hok : s.analyzeHeader = .ok (ret, s'))
    (hret : ret = 0 ∨ ret = -1) (hnot : ¬ (ret = 0 ∧ s'.headerIsReady = true)) :
    Analysed s ↔ ¬ CutShort s.headerData := by
  have hcut : ¬ CutShort s.headerData := by
    rintro ⟨pos, firstLine, lines, method, uri, version, place, hpos, hlines, hfields, -⟩
    exact hapart pos firstLine lines method uri version hpos hlines hfields
  have hwell : ¬ WellFormed s.headerData := by
    rintro ⟨pos, firstLine, lines, method, uri, version, hpos, -, hlines, hfields, -⟩
    exact hapart pos firstLine lines method uri version hpos hlines hfields
  exact iff_of_true ⟨ret, s', hok, hret, iff_of_false hnot hwell⟩ hcut

/-- A header whose first line has three fields. -/
theorem analysed_iff_of_fields {method uri version : Bytes}
    (hpos : find (crlf ++ crlf) s.headerData = some pos)
    (hlines : stringSplitAt (s.headerData.take pos) crlf = firstLine :: lines)
    (hfields : stringSplitAt firstLine [space] = [method, uri, version]) :
    Analysed s ↔ ¬ CutShort s.headerData := by
  have hsame : ∀ {P : Bytes → Prop}, (∃ method uri version',
      stringSplitAt firstLine [space] = [method, uri, version'] ∧ P version') ↔ P version := by
    intro P
    constructor
    · rintro ⟨method', uri', version', heq, hP⟩
      rw [hfields] at heq
      cases heq
      exact hP
    · exact fun hP => ⟨method, uri, version, hfields, hP⟩
  rw [Analysed, wellFormed_iff hpos hlines, cutShort_iff hpos hlines,
    analyzeHeader_of_lines hpos hlines, hsame, hsame]
  rcases readLines_cases hfields lines s.request with
    ⟨hcut, herror⟩ | ⟨hcut, ret, r', hok, hret, hiff⟩
  · refine ⟨?_, fun hno => absurd hcut hno⟩
    rintro ⟨ret, s', heq, -⟩
    rw [herror] at heq
    cases heq
  · refine ⟨fun _ => hcut, fun _ => ?_⟩
    refine ⟨ret, _, by rw [hok]; rfl, hret, ?_⟩
    rw [hiff]
    exact and_iff_left rfl

end Header

/-- **The analysis of a header.**  It does what it should just when no `substr` goes
behind the end of its line. -/
theorem analysed_iff (s : HttpInput) : Analysed s ↔ ¬ CutShort s.headerData := by
  rcases hpos : find (crlf ++ crlf) s.headerData with _ | pos
  · -- the end of the header has not come
    refine analysed_iff_of_apart ?_ (analyzeHeader_of_wait hpos) (.inl rfl) (by simp)
    intro pos firstLine lines method uri version hpos'
    rw [hpos] at hpos'
    cases hpos'
  · rcases hlines : stringSplitAt (s.headerData.take pos) crlf with _ | ⟨firstLine, lines⟩
    · refine analysed_iff_of_apart ?_ (analyzeHeader_of_empty hpos hlines) (.inr rfl) (by simp)
      intro pos' firstLine lines method uri version hpos' hlines'
      rw [hpos, Option.some.injEq] at hpos'
      rw [← hpos', hlines] at hlines'
      cases hlines'
    · by_cases hfields : ∃ method uri version,
          stringSplitAt firstLine [space] = [method, uri, version]
      · obtain ⟨method, uri, version, hfields⟩ := hfields
        exact analysed_iff_of_fields hpos hlines hfields
      · simp only [not_exists] at hfields
        have hok : s.analyzeHeader =
            .ok (-1, { s with contentStart := pos + 4, headerIsReady := true }) := by
          rw [analyzeHeader_of_lines hpos hlines, readLines_of_fields hfields]
          rfl
        refine analysed_iff_of_apart ?_ hok (.inr rfl) (by simp)
        intro pos' firstLine' lines' method uri version hpos' hlines'
        rw [hpos, Option.some.injEq] at hpos'
        rw [← hpos', hlines, List.cons.injEq] at hlines'
        rw [← hlines'.1]
        exact hfields method uri version

/-- A request with one header line. -/
def requestWith (line : String) : HttpInput :=
  { headerData := ascii "GET / HTTP/1.1" ++ crlf ++ ascii line ++ crlf ++ crlf }

/-- A line that ends with its colon. -/
theorem analyzeHeader_throws :
    (requestWith "Host:").analyzeHeader = .error .outOfBounds ∧ ¬ Analysed (requestWith "Host:") := by
  have herror : (requestWith "Host:").analyzeHeader = .error .outOfBounds := by
    decide +kernel
  refine ⟨herror, ?_⟩
  rintro ⟨ret, s', hok, -⟩
  rw [herror] at hok
  cases hok

-- With a blank behind the colon the same header is read.
example : ((requestWith "Host: h").analyzeHeader.toOption.map fun r => (r.1, r.2.request.headers)) =
    some (0, [(ascii "Host", ascii "h")]) := by
  decide +kernel

end HttpInput

end MediaServer
