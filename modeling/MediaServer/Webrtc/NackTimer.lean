import MediaServer.Lib.Run
import MediaServer.Rtprtcp.RtcpPackets
import MediaServer.Webrtc.NackGenerator

/-!
# Asking for missing packets

The timer of `nack_generator` collects the numbers that are due and hands them to
`rtp_recv_stream::generate_nacklist`, which writes them into one `rtcp_fb_nack` of
1500 bytes.

`insert_block` shifts by a negative amount for the number that closes a block.
What a machine stores then is a parameter here, a `Shift`, so that the length of the
packet can be followed all the same, with `insertSeqListWith`.

`reports_length_le_iff` says how many blocks a list takes: the loop of
`insert_seq_list` cuts it into as few pieces as possible.  `nack_fits_iff` is the
result for all runs of the generator.
-/

namespace MediaServer

/-- What `1 << amount`, stored in 16 bits, is on a machine, also where the language
does not say it. -/
structure Shift where
  one : Int → UInt16
  defined : ∀ amount, 0 ≤ amount → amount < 31 → one amount = UInt16.ofNat (2 ^ amount.toNat)

/-- A machine that looks at the low five bits of the amount. -/
def Shift.masked : Shift where
  one amount := UInt16.ofNat (2 ^ (amount % 32).toNat)
  defined amount hlow hhigh := by rw [Int.emod_eq_of_lt hlow (by omega)]

namespace RtcpFbNack

/-! ## The packet on a machine -/

variable {shift : Shift} {seqs report rest : List UInt16} {base : UInt16} {p q : RtcpFbNack}

/-- A packet that is written without undefined behaviour is the one of every machine. -/
theorem insertSeqListWith_eq (h : insertSeqList seqs p = .ok q) :
    insertSeqListWith shift.one seqs p = .ok q := by
  apply insertSeqListWith_of_insertSeqList ?_ h
  intro amount v hone
  rw [shiftOne] at hone
  split_ifs at hone with hrange
  cases hone
  exact shift.defined amount hrange.1 hrange.2

/-- How many blocks have room behind the header. -/
def BLOCKS_MAX : Nat := (PACKET_MAX - HEADER_LEN) / BLOCK_LEN

theorem insertBlockWith_ok (hroom : p.data.length + BLOCK_LEN ≤ PACKET_MAX)
    (hheader : HEADER_LEN ≤ p.data.length) :
    ∃ q, p.insertBlockWith shift.one (base :: rest) = .ok q ∧
      q.data.length = p.data.length + BLOCK_LEN := by
  refine ⟨_, if_neg (by omega), ?_⟩
  rw [HEADER_LEN] at hheader
  simp only [setLength, List.length_append, List.length_take, List.length_drop,
    write2bytes_length, BLOCK_LEN]
  omega

/-- No list of the loop is empty. -/
theorem nil_not_mem_reports {blocks : List UInt16} (h : [] ∈ reports blocks seqs) : False := by
  induction seqs generalizing blocks with
  | nil =>
    cases blocks with
    | nil => simp [reports] at h
    | cons b blocks => simp [reports] at h
  | cons x seqs ih =>
    rw [reports] at h
    split at h
    · rcases List.mem_cons.mp h with hnil | hmem
      · exact absurd hnil.symm (by simp)
      · exact ih hmem
    · exact ih h

/-- The blocks are written as long as they have room, and the first one that has none
is an access behind the packet. -/
theorem insertBlocks_cases {blocks : List (List UInt16)} (hne : [] ∉ blocks)
    (hheader : HEADER_LEN ≤ p.data.length) (hmax : p.data.length ≤ PACKET_MAX) :
    (∃ q, blocks.foldlM (fun p report => p.insertBlockWith shift.one report) p = .ok q ∧
        q.data.length = p.data.length + BLOCK_LEN * blocks.length ∧
        q.data.length ≤ PACKET_MAX) ∨
      blocks.foldlM (fun p report => p.insertBlockWith shift.one report) p = .error .outOfBounds ∧
        PACKET_MAX < p.data.length + BLOCK_LEN * blocks.length := by
  induction blocks generalizing p with
  | nil => exact .inl ⟨p, rfl, rfl, hmax⟩
  | cons report blocks ih =>
    rw [List.mem_cons, not_or] at hne
    cases report with
    | nil => exact absurd rfl hne.1
    | cons base rest =>
      by_cases hroom : p.data.length + BLOCK_LEN ≤ PACKET_MAX
      · obtain ⟨p', hwrite, hlen⟩ := @insertBlockWith_ok shift rest base p hroom hheader
        rw [List.foldlM_cons, hwrite]
        have hnext := @ih p' hne.2 (by omega) (by omega)
        have hmore : BLOCK_LEN + BLOCK_LEN * blocks.length = BLOCK_LEN * (blocks.length + 1) := by
          rw [Nat.mul_succ, Nat.add_comm]
        rw [hlen, Nat.add_assoc, hmore] at hnext
        exact hnext
      · right
        rw [List.foldlM_cons, insertBlockWith]
        refine ⟨?_, ?_⟩
        · rw [if_pos (by omega)]
          rfl
        · rw [List.length_cons, Nat.mul_succ]
          omega

theorem new_length (senderSsrc mediaSsrc : UInt32) :
    (new senderSsrc mediaSsrc).data.length = HEADER_LEN := by
  simp [new, HEADER_LEN]

/-- A list is written without leaving the packet exactly when its blocks have room. -/
theorem insertSeqListWith_iff (shift : Shift) (senderSsrc mediaSsrc : UInt32)
    (seqs : List UInt16) :
    (∃ q, insertSeqListWith shift.one seqs (new senderSsrc mediaSsrc) = .ok q) ↔
      (reports [] seqs).length ≤ BLOCKS_MAX := by
  have hlen := new_length senderSsrc mediaSsrc
  rcases @insertBlocks_cases shift (new senderSsrc mediaSsrc) (reports [] seqs)
    (fun h => nil_not_mem_reports h) (by omega) (by rw [hlen]; decide) with
    ⟨q, hwrite, hsize, hfits⟩ | ⟨hwrite, hfull⟩
  · refine ⟨fun _ => ?_, fun _ => ⟨q, hwrite⟩⟩
    rw [BLOCKS_MAX]
    rw [hlen] at hsize
    simp only [HEADER_LEN, BLOCK_LEN, PACKET_MAX] at *
    omega
  · refine ⟨?_, ?_⟩
    · rintro ⟨q, hok⟩
      rw [insertSeqListWith, hwrite] at hok
      cases hok
    · intro hfits
      rw [BLOCKS_MAX] at hfits
      rw [hlen] at hfull
      simp only [HEADER_LEN, BLOCK_LEN, PACKET_MAX] at *
      omega

/-- What is written stays in the packet. -/
theorem insertSeqListWith_length {senderSsrc mediaSsrc : UInt32}
    (h : insertSeqListWith shift.one seqs (new senderSsrc mediaSsrc) = .ok q) :
    q.data.length ≤ PACKET_MAX := by
  have hlen := new_length senderSsrc mediaSsrc
  rcases @insertBlocks_cases shift (new senderSsrc mediaSsrc) (reports [] seqs)
    (fun h => nil_not_mem_reports h) (by omega) (by rw [hlen]; decide) with
    ⟨q', hwrite, -, hfits⟩ | ⟨hwrite, -⟩
  · rw [insertSeqListWith, hwrite] at h
    cases h
    exact hfits
  · rw [insertSeqListWith, hwrite] at h
    cases h

/-! ## How many blocks a list takes -/

/-- The numbers of one block: all but the last are at most 16 behind the first. -/
def OneBlock : List UInt16 → Prop
  | [] => False
  | base :: rest => ∀ x ∈ rest.dropLast, x.toNat ≤ base.toNat + 16

/-- The block that the loop is filling takes in what is near its base and one more. -/
theorem reports_near {near : List UInt16} (hnear : ∀ x ∈ near, x.toNat ≤ base.toNat + 16) :
    reports (base :: report) (near ++ rest) = reports (base :: (report ++ near)) rest := by
  induction near generalizing report with
  | nil => simp
  | cons x near ih =>
    have hx := hnear x List.mem_cons_self
    have hclose : ¬(x.toNat : Int) - base.toNat > 16 := by omega
    rw [List.cons_append, reports, List.headD_cons, if_neg hclose, List.cons_append,
      ih fun y hy => hnear y (List.mem_cons_of_mem _ hy)]
    simp

/-- A block is closed behind at least one more number, when there is one. -/
theorem exists_reports_eq :
    ∃ block left, reports (base :: report) rest = block :: reports [] left ∧ left <:+ rest.tail := by
  induction rest generalizing report with
  | nil => exact ⟨base :: report, [], by simp [reports], List.nil_suffix⟩
  | cons x rest ih =>
    rw [reports, List.headD_cons]
    split
    · exact ⟨_, rest, rfl, List.suffix_refl _⟩
    · obtain ⟨block, left, heq, hleft⟩ := @ih (report ++ [x])
      refine ⟨block, left, heq, hleft.trans ?_⟩
      exact List.tail_suffix rest

/-- The first block of the loop takes in at least the numbers of any one block that
starts there. -/
theorem exists_reports_oneBlock {piece : List UInt16} (h : OneBlock piece) :
    ∃ block left, reports [] (piece ++ rest) = block :: reports [] left ∧ left <:+ rest := by
  cases piece with
  | nil => cases h
  | cons base others =>
    have hfirst : reports [] (base :: others ++ rest) = reports [base] (others ++ rest) := by
      rw [List.cons_append, reports, List.headD_nil, if_neg (by omega)]
      rfl
    rw [hfirst]
    rcases List.eq_nil_or_concat others with rfl | ⟨near, last, rfl⟩
    · obtain ⟨block, left, heq, hleft⟩ := @exists_reports_eq [] rest base
      exact ⟨block, left, heq, hleft.trans (List.tail_suffix rest)⟩
    · have hnear : ∀ x ∈ near, x.toNat ≤ base.toNat + 16 := by
        intro x hx
        exact h x (by simpa using hx)
      rw [List.concat_eq_append, List.append_assoc, reports_near hnear]
      obtain ⟨block, left, heq, hleft⟩ := @exists_reports_eq ([] ++ near) ([last] ++ rest) base
      exact ⟨block, left, heq, hleft⟩

/-- The end of a block of an ascending list is one block. -/
theorem OneBlock.suffix {piece left : List UInt16} (h : OneBlock piece)
    (hsorted : piece.Pairwise (· < ·)) (hsuffix : left <:+ piece) (hne : left ≠ []) :
    OneBlock left := by
  obtain ⟨front, rfl⟩ := hsuffix
  cases front with
  | nil => exact h
  | cons base front =>
    cases left with
    | nil => exact absurd rfl hne
    | cons b left =>
      intro x hx
      have hbase : base.toNat < b.toNat :=
        UInt16.lt_iff_toNat_lt.mp ((List.pairwise_cons.mp hsorted).1 b (by simp))
      have hnear := h x (by
        show x ∈ (front ++ b :: left).dropLast
        rw [List.dropLast_append_of_ne_nil (by simp)]
        apply List.mem_append_right
        cases left with
        | nil => cases hx
        | cons c left => exact List.mem_cons_of_mem _ hx)
      omega

/-- What is left of two lists in a row. -/
theorem suffix_append_cases {left front back : List UInt16} (h : left <:+ front ++ back) :
    left <:+ back ∨ ∃ middle, middle ≠ [] ∧ middle <:+ front ∧ left = middle ++ back := by
  obtain ⟨taken, heq⟩ := h
  rcases List.append_eq_append_iff.mp heq with ⟨more, hfront, hleft⟩ | ⟨more, htaken, hback⟩
  · cases more with
    | nil => exact .inl ⟨[], by simp [hleft]⟩
    | cons x more => exact .inr ⟨x :: more, by simp, ⟨taken, hfront.symm⟩, hleft⟩
  · exact .inl ⟨more, hback.symm⟩

/-- The loop never takes more blocks than another way to cut the list, also when it
starts somewhere in the list. -/
theorem reports_length_le {pieces : List (List UInt16)} {left : List UInt16}
    (hsorted : pieces.flatten.Pairwise (· < ·)) (hpieces : ∀ piece ∈ pieces, OneBlock piece)
    (hleft : left <:+ pieces.flatten) : (reports [] left).length ≤ pieces.length := by
  induction pieces generalizing left with
  | nil =>
    rw [List.flatten_nil, List.suffix_nil] at hleft
    rw [hleft]
    exact Nat.le_refl 0
  | cons piece pieces ih =>
    rw [List.flatten_cons] at hsorted hleft
    obtain ⟨hpiece, hpieces⟩ := List.forall_mem_cons.mp hpieces
    have hparts := List.pairwise_append.mp hsorted
    rcases suffix_append_cases hleft with hback | ⟨middle, hne, hmiddle, rfl⟩
    · have hle := ih hparts.2.1 hpieces hback
      rw [List.length_cons]
      omega
    · have hone := hpiece.suffix hparts.1 hmiddle hne
      obtain ⟨block, rest, heq, hrest⟩ := exists_reports_oneBlock hone
      have hle := ih hparts.2.1 hpieces hrest
      rw [heq, List.length_cons, List.length_cons]
      omega

/-- The loop cuts the list into its blocks. -/
theorem reports_flatten (report seqs : List UInt16) :
    (reports report seqs).flatten = report ++ seqs := by
  induction seqs generalizing report with
  | nil =>
    cases report with
    | nil => rfl
    | cons b report => simp [reports]
  | cons x seqs ih =>
    rw [reports]
    split
    · rw [List.flatten_cons, ih, List.nil_append, List.append_assoc, List.singleton_append]
    · rw [ih, List.append_assoc, List.singleton_append]

/-- Each of the lists that the loop makes is one block. -/
theorem reports_oneBlock {report seqs block : List UInt16}
    (hreport : ∀ base rest, report = base :: rest → ∀ x ∈ rest, x.toNat ≤ base.toNat + 16)
    (h : block ∈ reports report seqs) : OneBlock block := by
  induction seqs generalizing report with
  | nil =>
    cases report with
    | nil => simp [reports] at h
    | cons base rest =>
      rw [reports, List.isEmpty_cons, if_neg (by simp), List.mem_singleton] at h
      rw [h]
      intro x hx
      exact hreport base rest rfl x ((List.dropLast_sublist rest).subset hx)
  | cons x seqs ih =>
    rw [reports] at h
    split at h
    · rename_i hfar
      rcases List.mem_cons.mp h with rfl | h
      · cases report with
        | nil =>
          rw [List.headD_nil] at hfar
          omega
        | cons base rest =>
          intro y hy
          replace hy : y ∈ (rest ++ [x]).dropLast := hy
          rw [List.dropLast_concat] at hy
          exact hreport base rest rfl y hy
      · exact ih (by simp) h
    · rename_i hclose
      refine ih ?_ h
      intro base rest hcons y hy
      cases report with
      | nil =>
        cases hcons
        cases hy
      | cons b report =>
        rw [List.cons_append, List.cons.injEq] at hcons
        obtain ⟨rfl, rfl⟩ := hcons
        rcases List.mem_append.mp hy with hy | hy
        · exact hreport b report rfl y hy
        · rw [List.mem_singleton.mp hy]
          rw [List.headD_cons] at hclose
          omega

/-- An ascending list takes at most `n` blocks exactly when it can be cut into at most
`n` pieces of one block. -/
theorem reports_length_le_iff {n : Nat} (hsorted : seqs.Pairwise (· < ·)) :
    (reports [] seqs).length ≤ n ↔
      ∃ pieces : List (List UInt16), pieces.flatten = seqs ∧ pieces.length ≤ n ∧
        ∀ piece ∈ pieces, OneBlock piece := by
  constructor
  · intro h
    exact ⟨reports [] seqs, reports_flatten [] seqs, h,
      fun block hblock => reports_oneBlock (by simp) hblock⟩
  · rintro ⟨pieces, rfl, hlen, hpieces⟩
    exact (reports_length_le hsorted hpieces (List.suffix_refl _)).trans hlen

end RtcpFbNack

/-! ## The timer -/

/-- How many missing packets are kept. -/
def NACK_LIST_MAX : Nat := 5000

/-- Behind more requests than this a packet is given up. -/
def NACK_RETRY_MAX : Int := 20

/-- The round trip time in milliseconds until one is measured. -/
def NACK_DEFAULT_RTT : Int := 20

/-- `nack_generator` with its timer, and what `generate_nacklist` has passed on. -/
structure NackTimer where
  generator : NackGenerator := {}
  rtt : Int := NACK_DEFAULT_RTT
  sent : List Bytes := []

namespace NackTimer

/-- The map of the missing packets and `lost_seq_list`, while the timer goes over the
map. -/
abbrev Sweep := OrderedMap UInt16 NackInfo × List UInt16

/-- One turn of the loop over the map. -/
def sweepEntry (nowMs rtt : Int) (st : Sweep) (e : UInt16 × NackInfo) : Sweep :=
  if e.2.retry > NACK_RETRY_MAX then (st.1.erase e.1, st.2)
  else if nowMs - e.2.sentMs < rtt then st
  else (st.1.assign e.1 { e.2 with sentMs := nowMs, retry := e.2.retry + 1 }, st.2 ++ [e.1])

/-- The loop of `on_timer` over the list. -/
def sweep (nowMs rtt : Int) (nackMap : OrderedMap UInt16 NackInfo) : Sweep :=
  nackMap.entries.foldl (sweepEntry nowMs rtt) (nackMap, [])

/-- Erases the smallest numbers as long as there are more than `NACK_LIST_MAX`. -/
def trim (nackMap : OrderedMap UInt16 NackInfo) : OrderedMap UInt16 NackInfo where
  entries := nackMap.entries.drop (nackMap.size - NACK_LIST_MAX)
  sorted := nackMap.sorted.sublist (List.drop_sublist _ _)

/-- `generate_nacklist` of the stream with this number. -/
def generateNacklist (shift : Shift) (ssrc : UInt32) (seqVec : List UInt16) :
    Except Fault Bytes :=
  (RtcpFbNack.insertSeqListWith shift.one seqVec (.new 0 ssrc)).map fun nackPkt => nackPkt.data

/-- `on_timer`. -/
def onTimer (shift : Shift) (ssrc : UInt32) (nowMs : Int) (t : NackTimer) :
    Except Fault NackTimer :=
  if t.generator.nackMap.entries.isEmpty then .ok t
  else
    let swept := sweep nowMs t.rtt t.generator.nackMap
    let t := { t with generator.nackMap := trim swept.1 }
    if swept.2.isEmpty then .ok t
    else
      match generateNacklist shift ssrc (swept.2.mergeSort fun a b => decide (a ≤ b)) with
      | .error f => .error f
      | .ok data => .ok { t with sent := t.sent ++ [data] }

/-- What happens to a generator. -/
inductive Event where
  | packet (seq : UInt16)
  | updateRtt (rtt : Int)
  | timer (nowMs : Int)
  deriving DecidableEq, Repr

/-- One step of the list. -/
def step (shift : Shift) (ssrc : UInt32) : Event → NackTimer → Except Fault NackTimer
  | .packet seq, t => .ok { t with generator := t.generator.updateNacklist seq }
  | .updateRtt rtt, t => .ok { t with rtt }
  | .timer nowMs, t => onTimer shift ssrc nowMs t

/-! ## The numbers of a request -/

/-- The numbers that the timer asks for: those that have not been asked for too often,
and not in the last round trip. -/
def due (nowMs : Int) (t : NackTimer) : List UInt16 :=
  (t.generator.nackMap.entries.filter fun e =>
    decide (e.2.retry ≤ NACK_RETRY_MAX ∧ t.rtt ≤ nowMs - e.2.sentMs)).map Prod.fst

variable {shift : Shift} {ssrc : UInt32} {nowMs : Int} {t : NackTimer} {events : List Event}

theorem due_sorted (nowMs : Int) (t : NackTimer) : (due nowMs t).Pairwise (· < ·) :=
  List.pairwise_map.mpr (t.generator.nackMap.sorted.filter _)

/-- The numbers are in order before they are sorted. -/
theorem mergeSort_due (nowMs : Int) (t : NackTimer) :
    (due nowMs t).mergeSort (fun a b => decide (a ≤ b)) = due nowMs t := by
  apply List.mergeSort_of_pairwise
  refine (due_sorted nowMs t).imp ?_
  intro a b hab
  rw [decide_eq_true_eq]
  exact UInt16.le_of_lt hab

theorem sweep_snd (nowMs : Int) (t : NackTimer) :
    (sweep nowMs t.rtt t.generator.nackMap).2 = due nowMs t := by
  have hloop : ∀ (entries : List (UInt16 × NackInfo)) (st : Sweep),
      (entries.foldl (sweepEntry nowMs t.rtt) st).2 = st.2 ++ (entries.filter fun e =>
        decide (e.2.retry ≤ NACK_RETRY_MAX ∧ t.rtt ≤ nowMs - e.2.sentMs)).map Prod.fst := by
    intro entries
    induction entries with
    | nil => simp
    | cons e entries ih =>
      intro st
      rw [List.foldl_cons, ih, List.filter_cons, sweepEntry]
      split
      · rw [if_neg (by simp; omega)]
      · split
        · rw [if_neg (by simp; omega)]
        · rw [if_pos (by simp; omega)]
          simp
  exact (hloop _ _).trans (List.nil_append _)

/-- The due numbers can be cut into as many pieces as the packet has room for blocks. -/
def Spares (nowMs : Int) (t : NackTimer) : Prop :=
  ∃ pieces : List (List UInt16), pieces.flatten = due nowMs t ∧ pieces.length ≤ 372 ∧
    ∀ piece ∈ pieces, RtcpFbNack.OneBlock piece

/-- The condition of a step. -/
def Allowed : Event → NackTimer → Prop
  | .timer nowMs, t => Spares nowMs t
  | _, _ => True

/-- The timer hands over the due numbers, which are in order before they are sorted. -/
theorem onTimer_iff : (∃ t', onTimer shift ssrc nowMs t = .ok t') ↔ Spares nowMs t := by
  have hpieces := RtcpFbNack.reports_length_le_iff (n := 372) (due_sorted nowMs t)
  have hfits : (∃ data, generateNacklist shift ssrc (due nowMs t) = .ok data) ↔ Spares nowMs t := by
    rw [Spares, ← hpieces]
    refine Iff.trans ?_ (RtcpFbNack.insertSeqListWith_iff shift 0 ssrc (due nowMs t))
    unfold generateNacklist
    cases RtcpFbNack.insertSeqListWith shift.one (due nowMs t) (.new 0 ssrc) with
    | error f => simp [Except.map]
    | ok q => simp [Except.map]
  simp only [onTimer, sweep_snd, mergeSort_due]
  split
  · rename_i hempty
    refine ⟨fun _ => ?_, fun _ => ⟨t, rfl⟩⟩
    refine ⟨[], ?_, by simp, by simp⟩
    rw [due, List.isEmpty_iff.mp hempty]
    rfl
  · split
    · rename_i hempty
      refine ⟨fun _ => ?_, fun _ => ⟨_, rfl⟩⟩
      exact ⟨[], (List.isEmpty_iff.mp hempty).symm, by simp, by simp⟩
    · rw [← hfits]
      cases generateNacklist shift ssrc (due nowMs t) with
      | error f => simp
      | ok data => simp

/-- What a step passes on stays in the packet. -/
theorem step_sent {a : Event} {t' : NackTimer} (h : step shift ssrc a t = .ok t')
    (hsent : ∀ data ∈ t.sent, data.length ≤ RtcpFbNack.PACKET_MAX) :
    ∀ data ∈ t'.sent, data.length ≤ RtcpFbNack.PACKET_MAX := by
  cases a with
  | packet seq =>
    cases h
    exact hsent
  | updateRtt rtt =>
    cases h
    exact hsent
  | timer nowMs =>
    simp only [step, onTimer] at h
    split at h
    · cases h
      exact hsent
    · split at h
      · cases h
        exact hsent
      · split at h
        · cases h
        · rename_i data hdata
          obtain ⟨nackPkt, hwrite, rfl⟩ := Run.exists_of_map_ok hdata
          cases h
          intro data hmem
          rcases List.mem_append.mp hmem with hmem | hmem
          · exact hsent data hmem
          · rw [List.mem_singleton.mp hmem]
            exact RtcpFbNack.insertSeqListWith_length hwrite

/-- Every list that the generator asks for is written without leaving the packet,
exactly when the due numbers can be cut at every tick of the timer. -/
theorem nack_fits_iff (shift : Shift) (ssrc : UInt32) (events : List Event) :
    (∃ t, Run.run (step shift ssrc) events {} = .ok t ∧
        ∀ data ∈ t.sent, data.length ≤ RtcpFbNack.PACKET_MAX) ↔
      Run.Along (step shift ssrc) Allowed events {} := by
  have hsteps : Run.Along (step shift ssrc) (fun a t => ∃ t', step shift ssrc a t = .ok t')
      events {} ↔ Run.Along (step shift ssrc) Allowed events {} := by
    have hinv : ∀ (a : Event) (t t' : NackTimer), True → step shift ssrc a t = .ok t' → True :=
      fun _ _ _ _ _ => trivial
    refine Run.along_iff_along hinv ?_ trivial
    intro a t _
    cases a with
    | packet seq => exact ⟨fun _ => trivial, fun _ => ⟨_, rfl⟩⟩
    | updateRtt rtt => exact ⟨fun _ => trivial, fun _ => ⟨_, rfl⟩⟩
    | timer nowMs => exact onTimer_iff
  rw [← hsteps, ← Run.exists_run_iff_along]
  constructor
  · rintro ⟨t, hrun, -⟩
    exact ⟨t, hrun⟩
  · rintro ⟨t, hrun⟩
    refine ⟨t, hrun, ?_⟩
    exact Run.run_preserves (fun _ _ _ hsent h => step_sent h hsent) (by simp) hrun

/-! ## A gap that is too large -/

/-- One block has at most 18 numbers. -/
theorem length_le_of_oneBlock {piece : List UInt16} (h : RtcpFbNack.OneBlock piece)
    (hsorted : piece.Pairwise (· < ·)) : piece.length ≤ 18 := by
  cases piece with
  | nil => cases h
  | cons base rest =>
    obtain ⟨hbase, hrest⟩ := List.pairwise_cons.mp hsorted
    have hnodup : (rest.dropLast.map UInt16.toNat).Nodup := by
      refine List.pairwise_map.mpr ((hrest.sublist (List.dropLast_sublist rest)).imp ?_)
      intro a b hab
      exact (UInt16.lt_iff_toNat_lt.mp hab).ne
    have hrange : rest.dropLast.map UInt16.toNat ⊆ List.range' (base.toNat + 1) 16 := by
      intro n hn
      obtain ⟨x, hx, rfl⟩ := List.mem_map.mp hn
      have hlow := UInt16.lt_iff_toNat_lt.mp (hbase x ((List.dropLast_sublist rest).subset hx))
      have hhigh := h x hx
      rw [List.mem_range'_1]
      omega
    have hlen := (List.subperm_of_subset hnodup hrange).length_le
    rw [List.length_map, List.length_dropLast, List.length_range'] at hlen
    rw [List.length_cons]
    omega

theorem length_flatten_le {pieces : List (List UInt16)}
    (hsorted : pieces.flatten.Pairwise (· < ·))
    (hpieces : ∀ piece ∈ pieces, RtcpFbNack.OneBlock piece) :
    pieces.flatten.length ≤ 18 * pieces.length := by
  induction pieces with
  | nil => simp
  | cons piece pieces ih =>
    rw [List.flatten_cons] at hsorted
    obtain ⟨hpiece, hpieces⟩ := List.forall_mem_cons.mp hpieces
    have hparts := List.pairwise_append.mp hsorted
    have hfirst := length_le_of_oneBlock hpiece hparts.1
    have hrest := ih hparts.2.1 hpieces
    rw [List.flatten_cons, List.length_append, List.length_cons]
    omega

/-- The entries that a jump adds have not been asked for. -/
theorem new_entries {keys : List UInt16} {m : OrderedMap UInt16 NackInfo} {e : UInt16 × NackInfo}
    (hm : ∀ e ∈ m.entries, e.2.sentMs = 0 ∧ e.2.retry = 0)
    (he : e ∈ (keys.foldl NackGenerator.addKey m).entries) : e.2.sentMs = 0 ∧ e.2.retry = 0 := by
  induction keys generalizing m with
  | nil => exact hm e he
  | cons key keys ih =>
    refine ih ?_ he
    intro f hf
    rw [NackGenerator.addKey] at hf
    split at hf
    · rcases OrderedMap.mem_assign.mp hf with rfl | ⟨hf, -⟩
      · exact ⟨rfl, rfl⟩
      · exact hm f hf
    · exact hm f hf

/-- The generator after the packets 0 and 6700. -/
def afterGap : NackTimer :=
  { generator := {
      initFlag := true
      lastSeq := 6700
      nackMap := (NackGenerator.keySeqs 0 6700).foldl NackGenerator.addKey OrderedMap.empty } }

theorem not_spares_afterGap : ¬Spares 1000 afterGap := by
  have hnodup : (NackGenerator.keySeqs 0 6700).Nodup := by
    refine List.Nodup.map_on ?_ List.nodup_range
    intro i hi j hj heq
    have hcount : (6700 : UInt16).toNat - ((0 : UInt16) + 1).toNat = 6699 := rfl
    have hone : ((0 : UInt16) + 1).toNat = 1 := rfl
    rw [hcount, List.mem_range] at hi hj
    have hnat := congrArg UInt16.toNat heq
    rw [UInt16.toNat_add (0 + 1), UInt16.toNat_add (0 + 1), UInt16.toNat_ofNat',
      UInt16.toNat_ofNat', hone] at hnat
    omega
  have hdue : NackGenerator.keySeqs 0 6700 ⊆ due 1000 afterGap := by
    intro k hk
    obtain ⟨v, hv⟩ := OrderedMap.mem_keys.mp
      ((@NackGenerator.mem_keys_addKeys OrderedMap.empty _ k).mpr (.inl hk))
    obtain ⟨hsent, hretry⟩ := new_entries (by simp) hv
    refine List.mem_map.mpr ⟨(k, v), List.mem_filter.mpr ⟨hv, ?_⟩, rfl⟩
    rw [hsent, hretry]
    decide
  rintro ⟨pieces, hflatten, hlen, hpieces⟩
  have hsorted := due_sorted 1000 afterGap
  rw [← hflatten] at hsorted hdue
  have hlong := (List.subperm_of_subset hnodup hdue).length_le
  have hshort := length_flatten_le hsorted hpieces
  have hcount : (NackGenerator.keySeqs 0 6700).length = 6699 := by
    rw [NackGenerator.keySeqs, List.length_map, List.length_range]
    rfl
  omega

/-- The 6699 numbers between two packets need 373 blocks. -/
theorem not_nack_fits :
    ¬∃ t, Run.run (step .masked 1) [.packet 0, .packet 6700, .timer 1000] {} = .ok t := by
  rintro ⟨t, hrun⟩
  have halong := Run.exists_run_iff_along.mp ⟨t, hrun⟩
  have hgap := (halong.2 _ rfl).2 afterGap rfl
  exact not_spares_afterGap (onTimer_iff.mp hgap.1)

end NackTimer

end MediaServer
