import Mathlib.Data.List.TakeWhile
import MediaServer.Lib.Run
import MediaServer.Utils.Stringex

/-!
# RTMP urls

`get_rtmp_url_info` of `net/rtmp/rtmp_pub.hpp` cuts a url at its slashes and prints the
parts into two buffers of 512 bytes.  The place of a print is the sum of what `snprintf`
has returned before, which is what it would have printed.

`tcText` and `appText` are what the prints amount to while there is room
(`fill_of_room`).  Without it the buffer still bounds what can be read from it, and
this is enough to show that the url is not got back (`decomposed_iff`).
-/

namespace MediaServer

/-- A buffer with the sum of what its prints have returned.  A byte that has not been
written is `none`. -/
structure PrintBuffer where
  buffer : List (Option UInt8)
  len : Int
  size : buffer.length = 512

namespace PrintBuffer

/-- A buffer that nothing was printed into. -/
def new : PrintBuffer := ⟨List.replicate 512 none, 0, List.length_replicate⟩

/-- `out` is written over a buffer from `pos` on. -/
def overwrite (buffer : List (Option UInt8)) (pos : Nat) (out : Bytes) : List (Option UInt8) :=
  buffer.take pos ++ out.map some ++ buffer.drop (pos + out.length)

theorem length_overwrite {buffer : List (Option UInt8)} {pos : Nat} {out : Bytes}
    (h : pos + out.length ≤ buffer.length) : (overwrite buffer pos out).length = buffer.length := by
  rw [overwrite, List.length_append, List.length_append, List.length_take, List.length_map,
    List.length_drop]
  omega

/-- `len += snprintf(buffer + len, sizeof(buffer) - len, ..)`, where the format gives
`text`.  A print that does not start inside the buffer is a fault.  The length of the
text is returned, or -1 when it is no `int`. -/
def snprintf (text : Bytes) (p : PrintBuffer) : Except Fault PrintBuffer :=
  if h : 0 ≤ p.len ∧ p.len < 512 then
    .ok
      { buffer := overwrite p.buffer p.len.toNat (text.take (511 - p.len.toNat) ++ [0])
        len := p.len + if text.length < 2 ^ 31 then (text.length : Int) else -1
        size := by
          rw [length_overwrite, p.size]
          rw [p.size, List.length_append, List.length_take, List.length_singleton]
          omega }
  else .error .outOfBounds

/-- The string in a buffer, up to its zero.  To read a byte that has not been written
is a fault. -/
def readString : List (Option UInt8) → Except Fault Bytes
  | [] | none :: _ => .error .outOfBounds
  | some c :: rest => if c = 0 then .ok [] else do return c :: (← readString rest)

end PrintBuffer

/-- The output parameters. -/
structure RtmpUrlInfo where
  host : Bytes := []
  port : UInt16 := 0
  tcUrl : Bytes := []
  app : Bytes := []
  streamname : Bytes := []
  deriving DecidableEq, Repr

namespace RtmpUrlInfo

/-- `rtmp://`. -/
def scheme : Bytes := [114, 116, 109, 112, 58, 47, 47]

/-- `/`. -/
def slash : UInt8 := 47

/-- Host and port of the first part. -/
def hostPort (info : Bytes) : Bytes × Int :=
  match find [58] info with
  | none => (info, 1935)
  | some pos => (info.take pos, atoi (info.drop (pos + 1)))

/-- `tcurl_sz` and `app_sz`. -/
structure Buffers where
  tcurl : PrintBuffer
  app : PrintBuffer

/-- The turns of the loop from index 1 on. -/
def addSegments : List Bytes → Buffers → Except Fault Buffers
  | [], b => .ok b
  | segment :: rest, b => do
    let tcurl ← b.tcurl.snprintf (slash :: cStr segment)
    let app ← b.app.snprintf (cStr segment)
    let app ← if rest.length > 0 then app.snprintf [slash] else .ok app
    addSegments rest { tcurl := tcurl, app := app }

/-- The prints, for the parts before the last one. -/
def fill (first : Bytes) (segments : List Bytes) : Except Fault Buffers := do
  let tcurl ← PrintBuffer.new.snprintf scheme
  let tcurl ← tcurl.snprintf (cStr first)
  addSegments segments { tcurl := tcurl, app := .new }

/-- `get_rtmp_url_info` behind the split. -/
def takeParts (infoVec : List Bytes) (out : RtmpUrlInfo) : Except Fault (Int × RtmpUrlInfo) :=
  if infoVec.length < 2 then .ok (-3, out)
  else if (hostPort (infoVec.headD [])).2 < 0 then
    .ok (-4, { out with host := (hostPort (infoVec.headD [])).1 })
  else do
    let b ← fill (infoVec.headD []) infoVec.tail.dropLast
    let app ← PrintBuffer.readString b.app.buffer
    let tcUrl ← PrintBuffer.readString b.tcurl.buffer
    return (0,
      { host := (hostPort (infoVec.headD [])).1
        port := UInt16.ofInt (hostPort (infoVec.headD [])).2
        tcUrl := tcUrl
        app := app
        streamname := infoVec.getLastD [] })

/-- `get_rtmp_url_info`. -/
def getRtmpUrlInfo (url : Bytes) (out : RtmpUrlInfo) : Except Fault (Int × RtmpUrlInfo) :=
  if find scheme url ≠ some 0 then .ok (-1, out)
  else if url.length < 8 then .ok (-2, out)
  else do
    let info ← substr url 7
    takeParts (stringSplitAt info [slash]) out

end RtmpUrlInfo

/-! ## Strings without zeros -/

theorem zero_not_mem_cStr (s : Bytes) : 0 ∉ cStr s := by
  intro h
  have hne := List.mem_takeWhile_imp h
  simp at hne

theorem length_cStr_le (s : Bytes) : (cStr s).length ≤ s.length :=
  (List.takeWhile_sublist _).length_le

theorem cStr_of_not_mem {s : Bytes} (h : 0 ∉ s) : cStr s = s := by
  rw [cStr, List.takeWhile_eq_self_iff]
  intro c hc
  have hne : c ≠ 0 := fun hzero => h (hzero ▸ hc)
  simpa using hne

namespace PrintBuffer

/-! ## What is printed -/

/-- The prints have come to a text, and there is a zero behind it. -/
structure Printed (text : Bytes) (p : PrintBuffer) : Prop where
  len : p.len = text.length
  buffer : ∃ rest, p.buffer = text.map some ++ some 0 :: rest

section Print

variable {text : Bytes} {p : PrintBuffer}

/-- A print that has room. -/
theorem snprintf_of_room (more : Bytes) (hlen : p.len = text.length)
    (hbuffer : ∃ rest, p.buffer = text.map some ++ rest)
    (hroom : text.length + more.length ≤ 511) :
    ∃ p', p.snprintf more = .ok p' ∧ Printed (text ++ more) p' := by
  obtain ⟨rest, hrest⟩ := hbuffer
  have hstart : p.len.toNat = text.length := by omega
  have hall : more.take (511 - text.length) = more := List.take_of_length_le (by omega)
  have hhead : (text.map some).length = text.length := List.length_map _
  rw [snprintf, dif_pos (by omega)]
  refine ⟨_, rfl, ?_, ?_⟩
  · show p.len + (if more.length < 2 ^ 31 then (more.length : Int) else -1) = _
    rw [if_pos (by omega), hlen, List.length_append]
    omega
  · refine ⟨p.buffer.drop (text.length + (more.length + 1)), ?_⟩
    show overwrite p.buffer p.len.toNat (more.take (511 - p.len.toNat) ++ [0]) = _
    rw [hstart, hall, overwrite, List.length_append, List.length_singleton]
    have htake : p.buffer.take text.length = text.map some := by
      rw [hrest, ← hhead, List.take_left]
    rw [htake]
    simp [List.append_assoc]

theorem Printed.snprintf (h : Printed text p) (more : Bytes) (hroom : text.length + more.length ≤ 511) :
    ∃ p', p.snprintf more = .ok p' ∧ Printed (text ++ more) p' := by
  obtain ⟨rest, hrest⟩ := h.buffer
  exact snprintf_of_room more h.len ⟨_, hrest⟩ hroom

theorem new_snprintf (more : Bytes) (hroom : more.length ≤ 511) :
    ∃ p', new.snprintf more = .ok p' ∧ Printed more p' :=
  @snprintf_of_room [] new more rfl ⟨_, rfl⟩ (by rw [List.length_nil]; omega)

theorem Printed.readString (h : Printed text p) (hzero : 0 ∉ text) :
    readString p.buffer = .ok text := by
  obtain ⟨rest, hrest⟩ := h.buffer
  rw [hrest]
  clear hrest h
  induction text with
  | nil => rfl
  | cons c text ih =>
    have hc : c ≠ 0 := fun heq => hzero (by simp [heq])
    rw [List.map_cons, List.cons_append, PrintBuffer.readString, if_neg hc,
      ih fun hmem => hzero (List.mem_cons_of_mem _ hmem)]
    rfl

/-- What can be read from a buffer at all. -/
theorem of_readString {buffer : List (Option UInt8)} (h : readString buffer = .ok text) :
    0 ∉ text ∧ text.length < buffer.length := by
  induction buffer generalizing text with
  | nil => cases h
  | cons c buffer ih =>
    rcases c with _ | c
    · cases h
    · rw [PrintBuffer.readString] at h
      split at h
      · cases h
        simp
      · rename_i hc
        obtain ⟨text', hread, hok⟩ := Run.exists_of_bind_ok h
        cases hok
        obtain ⟨hzero, hlen⟩ := ih hread
        refine ⟨?_, ?_⟩
        · rw [List.mem_cons, not_or]
          exact ⟨Ne.symm hc, hzero⟩
        · rw [List.length_cons, List.length_cons]
          omega

theorem readString_new : readString new.buffer = .error .outOfBounds := rfl

end Print

end PrintBuffer

namespace RtmpUrlInfo

open PrintBuffer

/-! ## Parts and slashes -/

/-- Parts with slashes between them. -/
def joined (parts : List Bytes) : Bytes := [slash].intercalate parts

theorem joined_cons (part : Bytes) (parts : List Bytes) :
    joined (part :: parts) = part ++ parts.flatMap fun s => slash :: s := by
  induction parts generalizing part with
  | nil => simp [joined]
  | cons next parts ih =>
    rw [joined, List.intercalate_cons_cons, ← joined, ih, List.flatMap_cons]
    simp

theorem joined_concat {parts : List Bytes} (h : parts ≠ []) (name : Bytes) :
    joined (parts ++ [name]) = joined parts ++ slash :: name := by
  obtain ⟨part, parts, rfl⟩ := List.exists_cons_of_ne_nil h
  rw [List.cons_append, joined_cons, joined_cons, List.flatMap_append]
  simp

theorem joined_splitOn (s : Bytes) : joined (s.splitOn slash) = s := List.intercalate_splitOn _

theorem zero_not_mem_joined {parts : List Bytes} :
    0 ∉ joined parts ↔ ∀ part ∈ parts, 0 ∉ part := by
  cases parts with
  | nil => simp [joined]
  | cons part parts =>
    rw [joined_cons]
    simp [slash]

theorem length_joined_cStr_le (parts : List Bytes) :
    (joined (parts.map cStr)).length ≤ (joined parts).length := by
  have hrest : ∀ parts : List Bytes, ((parts.map cStr).flatMap fun s => slash :: s).length ≤
      (parts.flatMap fun s => slash :: s).length := by
    intro parts
    induction parts with
    | nil => simp
    | cons part parts ih =>
      have hpart := length_cStr_le part
      simp only [List.map_cons, List.flatMap_cons, List.length_append, List.length_cons]
      omega
  cases parts with
  | nil => simp
  | cons part parts =>
    have hpart := length_cStr_le part
    have hparts := hrest parts
    rw [List.map_cons, joined_cons, joined_cons, List.length_append, List.length_append]
    omega

theorem map_cStr_of_not_mem {parts : List Bytes} (h : 0 ∉ joined parts) : parts.map cStr = parts := by
  have hparts := zero_not_mem_joined.mp h
  exact (List.map_congr_left (g := id) fun part hpart => cStr_of_not_mem (hparts part hpart)).trans
    (List.map_id parts)

/-! ## What the buffers hold -/

/-- The text for `tcurl_sz`. -/
def tcText (parts : List Bytes) : Bytes := scheme ++ joined (parts.map cStr)

/-- The text for `app_sz`. -/
def appText (segments : List Bytes) : Bytes := joined (segments.map cStr)

theorem zero_not_mem_joined_cStr (parts : List Bytes) : 0 ∉ joined (parts.map cStr) := by
  rw [zero_not_mem_joined]
  intro part hpart
  obtain ⟨s, -, rfl⟩ := List.mem_map.mp hpart
  exact zero_not_mem_cStr s

theorem zero_not_mem_tcText (parts : List Bytes) : 0 ∉ tcText parts := by
  rw [tcText, List.mem_append, not_or]
  exact ⟨by decide, zero_not_mem_joined_cStr parts⟩

theorem addSegments_of_room {segments : List Bytes} {b : Buffers} {tc app : Bytes}
    (hne : segments ≠ []) (htc : Printed tc b.tcurl) (hlen : b.app.len = app.length)
    (happ : ∃ rest, b.app.buffer = app.map some ++ rest)
    (htcroom : tc.length + ((segments.map cStr).flatMap fun s => slash :: s).length ≤ 511)
    (happroom : app.length + (appText segments).length ≤ 511) :
    ∃ b', addSegments segments b = .ok b' ∧
      Printed (tc ++ (segments.map cStr).flatMap fun s => slash :: s) b'.tcurl ∧
      Printed (app ++ appText segments) b'.app := by
  induction segments generalizing b tc app with
  | nil => exact absurd rfl hne
  | cons segment rest ih =>
    simp only [List.map_cons, List.flatMap_cons, List.length_append, List.length_cons] at htcroom
    rw [appText, List.map_cons, joined_cons, List.length_append] at happroom
    obtain ⟨tcurl₁, htc₁, hprinted₁⟩ := htc.snprintf (slash :: cStr segment)
      (by rw [List.length_cons]; omega)
    obtain ⟨app₁, happ₁, hprinted₂⟩ := snprintf_of_room (cStr segment) hlen happ (by omega)
    rw [addSegments, htc₁, Run.ok_bind, happ₁, Run.ok_bind]
    cases rest with
    | nil =>
      refine ⟨{ tcurl := tcurl₁, app := app₁ }, rfl, ?_, ?_⟩
      · simpa using hprinted₁
      · simpa [appText, joined] using hprinted₂
    | cons next rest =>
      obtain ⟨app₂, happ₂, hprinted₃⟩ := hprinted₂.snprintf [slash] (by
        simp only [List.map_cons, List.flatMap_cons, List.length_append, List.length_cons] at happroom
        rw [List.length_append, List.length_singleton]
        omega)
      obtain ⟨after, hafter⟩ := hprinted₃.buffer
      rw [if_pos (by simp), happ₂, Run.ok_bind]
      obtain ⟨b', hadd, htc', happ'⟩ := ih (b := { tcurl := tcurl₁, app := app₂ }) (by simp)
        hprinted₁ hprinted₃.len ⟨_, hafter⟩ (by
          simp only [List.length_append, List.length_cons, List.map_cons] at htcroom ⊢
          omega) (by
          simp only [appText, List.map_cons, joined_cons, List.flatMap_cons, List.length_append,
            List.length_cons, List.length_nil] at happroom ⊢
          omega)
      refine ⟨b', hadd, ?_, ?_⟩
      · simpa [List.append_assoc] using htc'
      · rw [appText, List.map_cons, joined_cons]
        rw [appText, List.map_cons, joined_cons] at happ'
        simpa [List.append_assoc] using happ'

/-- The prints while there is room in the buffers. -/
theorem fill_of_room {first : Bytes} {segments : List Bytes} (hne : segments ≠ [])
    (hroom : (tcText (first :: segments)).length ≤ 511) :
    ∃ b, fill first segments = .ok b ∧
      readString b.tcurl.buffer = .ok (tcText (first :: segments)) ∧
      readString b.app.buffer = .ok (appText segments) := by
  have htext : tcText (first :: segments) =
      scheme ++ cStr first ++ (segments.map cStr).flatMap fun s => slash :: s := by
    rw [tcText, List.map_cons, joined_cons, List.append_assoc]
  have happ : (appText segments).length ≤
      ((segments.map cStr).flatMap fun s => slash :: s).length := by
    obtain ⟨segment, rest, rfl⟩ := List.exists_cons_of_ne_nil hne
    rw [appText, List.map_cons, joined_cons, List.flatMap_cons, List.cons_append, List.length_cons]
    omega
  have hscheme : scheme.length = 7 := rfl
  rw [htext, List.length_append, List.length_append] at hroom
  obtain ⟨tcurl₁, htc₁, hprinted₁⟩ := new_snprintf scheme (by omega)
  obtain ⟨tcurl₂, htc₂, hprinted₂⟩ := hprinted₁.snprintf (cStr first) (by omega)
  obtain ⟨b, hadd, htc, happ⟩ := addSegments_of_room (b := { tcurl := tcurl₂, app := .new }) hne
    hprinted₂ (show (0 : Int) = ([] : Bytes).length from rfl) ⟨_, rfl⟩
    (by rw [List.length_append]; omega) (by rw [List.length_nil]; omega)
  refine ⟨b, ?_, ?_, ?_⟩
  · rw [fill, htc₁, Run.ok_bind, htc₂, Run.ok_bind, hadd]
  · rw [htext]
    refine htc.readString ?_
    rw [← htext]
    exact zero_not_mem_tcText _
  · refine happ.readString ?_
    rw [List.nil_append]
    exact zero_not_mem_joined_cStr _

/-- Without a part between the first and the last nothing is printed into `app_sz`. -/
theorem fill_nil {first : Bytes} {b : Buffers} (h : fill first [] = .ok b) : b.app = .new := by
  rw [fill] at h
  obtain ⟨tcurl₁, -, h⟩ := Run.exists_of_bind_ok h
  obtain ⟨tcurl₂, -, h⟩ := Run.exists_of_bind_ok h
  cases h
  rfl

/-! ## When a url is got back -/

/-- The url is given back, and `app` is what stands between the authority and the
stream name. -/
structure Lossless (url : Bytes) (out : RtmpUrlInfo) : Prop where
  whole : out.tcUrl ++ slash :: out.streamname = url
  app : out.app = joined ((url.drop 7).splitOn slash).tail.dropLast

/-- What is asked of a decomposition: no print starts outside its buffer, and what is
returned with 0 loses nothing. -/
def Decomposed (url : Bytes) (out : RtmpUrlInfo) : Prop :=
  ∃ ret out', getRtmpUrlInfo url out = .ok (ret, out') ∧ (ret = 0 → Lossless url out')

/-- The url has another scheme, less than two parts, or a port below 0. -/
def Refused (url : Bytes) : Prop :=
  find scheme url ≠ some 0 ∨ url.length < 8 ∨ (stringSplitAt (url.drop 7) [slash]).length < 2 ∨
    (hostPort ((stringSplitAt (url.drop 7) [slash]).headD [])).2 < 0

/-- The url does not end with a slash, there is a part between the first and the last,
and what is before the last slash has at most 511 bytes and no zero. -/
def Fits (url : Bytes) : Prop :=
  ∃ before name, url = before ++ slash :: name ∧ slash ∉ name ∧ name ≠ [] ∧
    slash ∈ before.drop 7 ∧ before.length ≤ 511 ∧ 0 ∉ before

section Cases

variable {url : Bytes}

theorem getRtmpUrlInfo_of_refused (h : Refused url) (out : RtmpUrlInfo) :
    ∃ ret out', getRtmpUrlInfo url out = .ok (ret, out') ∧ ret ≠ 0 := by
  rw [getRtmpUrlInfo]
  split
  · exact ⟨-1, out, rfl, by decide⟩
  · rename_i hscheme
    split
    · exact ⟨-2, out, rfl, by decide⟩
    · rename_i hlen
      rw [substr, if_pos (by omega), Run.ok_bind, takeParts]
      split
      · exact ⟨-3, out, rfl, by decide⟩
      · rename_i hparts
        rw [if_pos (((h.resolve_left hscheme).resolve_left hlen).resolve_left hparts)]
        exact ⟨-4, _, rfl, by decide⟩

/-- The parts of a url that is not refused, and what is done with them. -/
theorem getRtmpUrlInfo_of_not_refused (h : ¬ Refused url) (out : RtmpUrlInfo) :
    ∃ first segments name, stringSplitAt (url.drop 7) [slash] = first :: (segments ++ [name]) ∧
      url = scheme ++ url.drop 7 ∧ url.drop 7 ≠ [] ∧
      getRtmpUrlInfo url out = do
        let b ← fill first segments
        let app ← readString b.app.buffer
        let tcUrl ← readString b.tcurl.buffer
        return (0,
          { host := (hostPort first).1
            port := UInt16.ofInt (hostPort first).2
            tcUrl := tcUrl
            app := app
            streamname := name }) := by
  simp only [Refused, not_or, not_not] at h
  obtain ⟨hscheme, hlen, hparts, hport⟩ := h
  obtain ⟨first, rest, hsplit⟩ : ∃ first rest, stringSplitAt (url.drop 7) [slash] = first :: rest :=
    List.exists_cons_of_length_pos (by omega)
  have hrest : rest ≠ [] := by
    rintro rfl
    rw [hsplit] at hparts
    exact hparts Nat.one_lt_two
  obtain ⟨segments, name, rfl⟩ := List.eq_nil_or_concat' rest |>.resolve_left hrest
  rw [hsplit] at hparts hport
  refine ⟨first, segments, name, hsplit, ?_, ?_, ?_⟩
  · exact find_eq_some hscheme
  · intro hnil
    have hdrop := congrArg List.length hnil
    rw [List.length_drop, List.length_nil] at hdrop
    omega
  · have hmiddle : (segments ++ [name]).dropLast = segments := List.dropLast_concat
    have hlast : (first :: (segments ++ [name])).getLastD [] = name := by
      rw [← List.cons_append, List.getLastD_concat]
    rw [getRtmpUrlInfo, if_neg (not_not.mpr hscheme), if_neg hlen, substr, if_pos (by omega),
      Run.ok_bind, hsplit, takeParts, if_neg hparts, if_neg hport, hlast, List.tail_cons, hmiddle]
    rfl

/-- The last slash of a string. -/
theorem exists_last_slash {s : Bytes} (h : slash ∈ s) :
    ∃ before name, s = before ++ slash :: name ∧ slash ∉ name := by
  obtain ⟨as, bs, heq, hmem⟩ := List.eq_append_cons_of_mem (List.mem_reverse.mpr h)
  refine ⟨bs.reverse, as.reverse, ?_, by simpa using hmem⟩
  rw [← List.reverse_reverse s, heq]
  simp

theorem getLast?_ne_slash {before name : Bytes} (hname : slash ∉ name) (hne : name ≠ []) :
    (before ++ slash :: name).getLast? ≠ some slash := by
  rw [List.getLast?_append, List.getLast?_cons_of_ne_nil hne]
  intro hlast
  rcases hget : name.getLast? with _ | c
  · exact hne (List.getLast?_eq_none_iff.mp hget)
  · rw [hget] at hlast
    cases hlast
    exact hname (List.mem_of_getLast? hget)

theorem splitOn_last_slash {before name : Bytes} (h : slash ∉ name) :
    (before ++ slash :: name).splitOn slash = before.splitOn slash ++ [name] := by
  rw [List.splitOn_append_cons_self, List.splitOn_eq_singleton h]

theorem not_mem_of_splitOn {s name : Bytes} {parts : List Bytes}
    (h : s.splitOn slash = parts ++ [name]) : slash ∉ name := by
  by_cases hmem : slash ∈ s
  · obtain ⟨before, name', rfl, hname⟩ := exists_last_slash hmem
    rw [splitOn_last_slash hname] at h
    cases (List.append_inj' h rfl).2
    exact hname
  · rw [List.splitOn_eq_singleton hmem] at h
    have hlast := (List.append_inj' (show [] ++ [s] = parts ++ [name] from h) rfl).2
    cases hlast
    exact hmem

/-- A single part has no slash. -/
theorem not_mem_of_splitOn_singleton {s part : Bytes} (hsplit : s.splitOn slash = [part]) :
    slash ∉ s := by
  intro hmem
  obtain ⟨before, name, rfl, hname⟩ := exists_last_slash hmem
  rw [splitOn_last_slash hname] at hsplit
  have hlen := congrArg List.length hsplit
  rw [List.length_append, List.length_singleton] at hlen
  have hpos := List.length_pos_iff.mpr (List.splitOn_ne_nil slash before)
  rw [List.length_singleton] at hlen
  omega

/-- A url that fits is got back. -/
theorem decomposed_of_fits (h : ¬ Refused url) (hfits : Fits url) (out : RtmpUrlInfo) :
    Decomposed url out := by
  obtain ⟨first, segments, name, hsplit, hscheme, hne, hget⟩ := getRtmpUrlInfo_of_not_refused h out
  obtain ⟨before, name', hurl, hname, hend, hmid, hroom, hzero⟩ := hfits
  -- what is behind the scheme
  have hlong : 7 ≤ before.length := by
    by_contra hshort
    rw [List.drop_of_length_le (by omega)] at hmid
    cases hmid
  have hinfo : url.drop 7 = before.drop 7 ++ slash :: name' := by
    rw [hurl, List.drop_append_of_le_length hlong]
  have hbefore : before = scheme ++ before.drop 7 := by
    have hboth : before ++ slash :: name' = scheme ++ before.drop 7 ++ slash :: name' := by
      rw [List.append_assoc, ← hinfo, ← hscheme, hurl]
    exact List.append_cancel_right hboth
  have hlast : (url.drop 7).getLast? ≠ some slash := by
    rw [hinfo]
    exact getLast?_ne_slash hname hend
  rw [stringSplitAt_of_getLast? hne hlast, hinfo, splitOn_last_slash hname, ← List.cons_append] at hsplit
  obtain ⟨hparts, hlastname⟩ := List.append_inj' hsplit rfl
  have hsegments : segments ≠ [] := by
    rintro rfl
    exact not_mem_of_splitOn_singleton hparts hmid
  have hjoined : joined (first :: segments) = before.drop 7 := by
    rw [← hparts, joined_splitOn]
  have hclean : (first :: segments).map cStr = first :: segments := by
    refine map_cStr_of_not_mem ?_
    rw [hjoined]
    exact fun hmem => hzero (List.mem_of_mem_drop hmem)
  have htext : tcText (first :: segments) = before := by
    rw [tcText, hclean, hjoined, ← hbefore]
  obtain ⟨b, hfill, htc, happ⟩ := fill_of_room hsegments (by rw [htext]; exact hroom)
  refine ⟨0,
    { host := (hostPort first).1
      port := UInt16.ofInt (hostPort first).2
      tcUrl := tcText (first :: segments)
      app := appText segments
      streamname := name }, ?_, fun _ => ⟨?_, ?_⟩⟩
  · rw [hget, hfill, Run.ok_bind, happ, Run.ok_bind, htc, Run.ok_bind]
    rfl
  · show tcText (first :: segments) ++ slash :: name = url
    cases hlastname
    rw [htext, hurl]
  · show appText segments = _
    have hrest : segments.map cStr = segments := (List.cons.inj hclean).2
    rw [appText, hrest, hinfo, splitOn_last_slash hname, hparts, List.cons_append, List.tail_cons,
      List.dropLast_concat]

/-- A slash at the end is lost. -/
theorem whole_ne_of_slash {first name tcUrl : Bytes} {segments : List Bytes} {b : Buffers}
    (hsplit : stringSplitAt (url.drop 7) [slash] = first :: (segments ++ [name]))
    (hscheme : url = scheme ++ url.drop 7) (hend : (url.drop 7).getLast? = some slash)
    (hsegments : segments ≠ []) (hfill : fill first segments = .ok b)
    (htc : readString b.tcurl.buffer = .ok tcUrl) (hroom : tcUrl.length ≤ 511) :
    tcUrl ++ slash :: name ≠ url := by
  intro hwhole
  obtain ⟨t, ht⟩ := List.getLast?_eq_some_iff.mp hend
  rw [ht, stringSplitAt_concat] at hsplit
  have hjoined : t = joined (first :: segments) ++ slash :: name := by
    rw [← joined_concat (by simp), List.cons_append, ← hsplit, joined_splitOn]
  have hname : slash ∉ name := not_mem_of_splitOn (by rw [hsplit, List.cons_append])
  have hempty : name = [] := by
    by_contra hne
    refine @getLast?_ne_slash tcUrl name hname hne ?_
    rw [hwhole, hscheme, ht, ← List.append_assoc, List.getLast?_concat]
  -- then the buffer has a byte more than was printed into it
  have hlengths : tcUrl.length = 8 + (joined (first :: segments)).length := by
    have htotal := congrArg List.length hwhole
    rw [hscheme, ht, hjoined, hempty] at htotal
    simp only [List.length_append, List.length_cons, List.length_nil] at htotal
    have hscheme7 : scheme.length = 7 := rfl
    omega
  have hshort : (tcText (first :: segments)).length ≤ 7 + (joined (first :: segments)).length := by
    rw [tcText, List.length_append]
    exact Nat.add_le_add_left (length_joined_cStr_le _) 7
  obtain ⟨b', hfill', htc', -⟩ := @fill_of_room first segments hsegments (by omega)
  rw [hfill] at hfill'
  cases hfill'
  rw [htc] at htc'
  cases htc'
  omega

/-- A url that is got back fits. -/
theorem fits_of_decomposed (h : ¬ Refused url) {out : RtmpUrlInfo} (hdec : Decomposed url out) :
    Fits url := by
  obtain ⟨first, segments, name, hsplit, hscheme, hne, hget⟩ := getRtmpUrlInfo_of_not_refused h out
  obtain ⟨ret, out', hret, hlossless⟩ := hdec
  rw [hget] at hret
  obtain ⟨b, hfill, hret⟩ := Run.exists_of_bind_ok hret
  obtain ⟨app, happ, hret⟩ := Run.exists_of_bind_ok hret
  obtain ⟨tcUrl, htc, hret⟩ := Run.exists_of_bind_ok hret
  cases hret
  have hwhole : tcUrl ++ slash :: name = url := (hlossless rfl).whole
  -- the buffer bounds what was read
  obtain ⟨hzero, hlen⟩ := of_readString htc
  rw [b.tcurl.size] at hlen
  have hsegments : segments ≠ [] := by
    rintro rfl
    rw [fill_nil hfill, readString_new] at happ
    cases happ
  by_cases hend : (url.drop 7).getLast? = some slash
  · exact absurd hwhole (whole_ne_of_slash hsplit hscheme hend hsegments hfill htc (by omega))
  · rw [stringSplitAt_of_getLast? hne hend] at hsplit
    have hjoined : url.drop 7 = joined (first :: segments) ++ slash :: name := by
      rw [← joined_concat (by simp), List.cons_append, ← hsplit, joined_splitOn]
    have hname : slash ∉ name := not_mem_of_splitOn (by rw [hsplit, List.cons_append])
    have htext : tcUrl = scheme ++ joined (first :: segments) := by
      have hboth : tcUrl ++ slash :: name = scheme ++ joined (first :: segments) ++ slash :: name := by
        rw [List.append_assoc, ← hjoined, ← hscheme, hwhole]
      exact List.append_cancel_right hboth
    refine ⟨tcUrl, name, hwhole.symm, hname, ?_, ?_, by omega, hzero⟩
    · rintro rfl
      exact hend (by rw [hjoined]; simp)
    · obtain ⟨segment, rest, rfl⟩ := List.exists_cons_of_ne_nil hsegments
      have hdrop : tcUrl.drop 7 = joined (first :: segment :: rest) := by
        rw [htext]
        show (scheme ++ joined (first :: segment :: rest)).drop scheme.length = _
        rw [List.drop_left]
      rw [hdrop, joined_cons]
      simp

end Cases

/-- **Which urls are got back.**  Besides those that are refused, the urls that fit. -/
theorem decomposed_iff (url : Bytes) (out : RtmpUrlInfo) :
    Decomposed url out ↔ Refused url ∨ Fits url := by
  constructor
  · intro hdec
    by_cases hrefused : Refused url
    · exact .inl hrefused
    · exact .inr (fits_of_decomposed hrefused hdec)
  · intro h
    by_cases hrefused : Refused url
    · obtain ⟨ret, out', hget, hret⟩ := getRtmpUrlInfo_of_refused hrefused out
      exact ⟨ret, out', hget, fun hzero => absurd hzero hret⟩
    · exact decomposed_of_fits hrefused (h.resolve_left hrefused) out

/-- A slash at the end is lost, and with two parts the buffer of `app` has not been
written. -/
theorem rtmp_url_lossy :
    getRtmpUrlInfo (ascii "rtmp://h/a/b/") {} = .ok (0,
      { host := ascii "h"
        port := 1935
        tcUrl := ascii "rtmp://h/a"
        app := ascii "a"
        streamname := ascii "b" }) ∧
    ¬ Decomposed (ascii "rtmp://h/a/b/") {} ∧
    getRtmpUrlInfo (ascii "rtmp://h/a") {} = .error .outOfBounds ∧
    ¬ Decomposed (ascii "rtmp://h/a") {} := by
  have hget : getRtmpUrlInfo (ascii "rtmp://h/a/b/") {} = .ok (0,
      { host := ascii "h"
        port := 1935
        tcUrl := ascii "rtmp://h/a"
        app := ascii "a"
        streamname := ascii "b" }) ∧
      getRtmpUrlInfo (ascii "rtmp://h/a") {} = .error .outOfBounds ∧
      ascii "rtmp://h/a" ++ slash :: ascii "b" ≠ ascii "rtmp://h/a/b/" := by
    decide +kernel
  obtain ⟨hslash, htwo, hlost⟩ := hget
  refine ⟨hslash, ?_, htwo, ?_⟩
  · rintro ⟨ret, out', hok, hlossless⟩
    rw [hslash] at hok
    cases hok
    exact hlost (hlossless rfl).whole
  · rintro ⟨ret, out', hok, -⟩
    rw [htwo] at hok
    cases hok

end RtmpUrlInfo

end MediaServer
