import MediaServer.Rtmp.Isolation

/-!
# Basic headers of two and three bytes

`gen_data` writes a chunk stream id of 64 or more as it is, in one byte or two, and
`read_fmt_csid` adds 64 to the byte, or to the sum of the two bytes.  The two sides agree
on the format and on the length of the header, and on no such id (`basic_header_differs`).
-/

namespace MediaServer

namespace ChunkStream

/-- The bytes that `gen_data` puts behind those that are there. -/
def emitted (cs : ChunkStream) (data : Bytes) : Bytes :=
  (cs.genData data).2.chunkAll.drop cs.chunkAll.length

/-- The two forms of a basic header for a large id. -/
theorem genBasicHeader_of_le {cs : ChunkStream} (h : 64 ≤ cs.csid) :
    cs.genBasicHeader = some
      (if cs.csid.toNat < 320 then [(cs.fmt <<< 6) &&& 0xc0, cs.csid.toUInt8]
      else ((cs.fmt <<< 6) &&& 0xc0 ||| 0x01) :: write2bytes cs.csid) := by
  have hlt := cs.csid.toNat_lt
  have hle : 64 ≤ cs.csid.toNat := UInt16.le_iff_toNat_le.mp h
  rw [genBasicHeader, if_neg (UInt16.not_lt.mpr h)]
  by_cases hsmall : cs.csid.toNat < 320
  · rw [if_pos (by omega), if_pos hsmall]
  · rw [if_neg (by omega), if_pos (by omega), if_neg hsmall]

theorem emitted_eq {cs : ChunkStream} {basic : Bytes} (h : cs.genBasicHeader = some basic)
    (data : Bytes) : cs.emitted data = basic ++ (cs.genMessageHeader ++ data) := by
  rw [emitted, genData, h]
  simp only [DataBuffer.appendData, List.append_assoc, List.drop_left]

end ChunkStream

namespace SessionBase

/-- The first bytes of the two forms. -/
theorem longHeader_decode {fmt : UInt8} (h : fmt < 4) :
    ((((fmt <<< 6) &&& 0xc0) >>> 6) &&& 0x3 = fmt ∧
      (((fmt <<< 6) &&& 0xc0) &&& 0x3f).toUInt16 = 0) ∧
    ((((fmt <<< 6) &&& 0xc0 ||| 0x01) >>> 6) &&& 0x3 = fmt ∧
      (((fmt <<< 6) &&& 0xc0 ||| 0x01) &&& 0x3f).toUInt16 = 1) := by
  have hall : ∀ f ∈ [(0 : UInt8), 1, 2, 3],
      ((((f <<< 6) &&& 0xc0) >>> 6) &&& 0x3 = f ∧
        (((f <<< 6) &&& 0xc0) &&& 0x3f).toUInt16 = 0) ∧
      ((((f <<< 6) &&& 0xc0 ||| 0x01) >>> 6) &&& 0x3 = f ∧
        (((f <<< 6) &&& 0xc0 ||| 0x01) &&& 0x3f).toUInt16 = 1) := by decide +kernel
  exact hall fmt (mem_of_fmt_lt h)

theorem readFmtCsid_twoBytes {s : SessionBase} {p q : UInt8} {rest : Bytes}
    (hbuf : s.recvBuffer = p :: q :: rest) (hp : (p &&& 0x3f).toUInt16 = 0) :
    s.readFmtCsid = (.ok, { s with
      fmt := (p >>> 6) &&& 0x3, csid := 64 + q.toUInt16, recvBuffer := rest }) := by
  rw [readFmtCsid, hbuf]
  simp only [hp, if_true]

theorem readFmtCsid_threeBytes {s : SessionBase} {p q r : UInt8} {rest : Bytes}
    (hbuf : s.recvBuffer = p :: q :: r :: rest) (hp : (p &&& 0x3f).toUInt16 = 1) :
    s.readFmtCsid = (.ok, { s with
      fmt := (p >>> 6) &&& 0x3, csid := 64 + q.toUInt16 + r.toUInt16, recvBuffer := rest }) := by
  have h10 : ¬ (1 : UInt16) = 0 := by decide
  rw [readFmtCsid, hbuf]
  simp only [hp, if_neg h10, if_true]

/-- **Basic headers.**  A basic header with an id of 64 or more is read to its end and
with its format, but never with its id. -/
theorem basic_header_differs {cs : ChunkStream} (hfmt : cs.fmt < 4) (hcsid : 64 ≤ cs.csid)
    (data rest : Bytes) {s : SessionBase} (hbuf : s.recvBuffer = cs.emitted data ++ rest) :
    ∃ basic s', cs.genBasicHeader = some basic ∧
      cs.emitted data = basic ++ (cs.genMessageHeader ++ data) ∧ s.readFmtCsid = (.ok, s') ∧
      s'.recvBuffer = cs.genMessageHeader ++ data ++ rest ∧ s'.fmt = cs.fmt ∧
      s'.csid.toNat = (if cs.csid.toNat < 320 then 64 + cs.csid.toNat % 256
        else 64 + cs.csid.toNat / 256 + cs.csid.toNat % 256) ∧
      s'.csid ≠ cs.csid := by
  have hlt := cs.csid.toNat_lt
  have hle : 64 ≤ cs.csid.toNat := UInt16.le_iff_toNat_le.mp hcsid
  have h64 : (64 : UInt16).toNat = 64 := rfl
  obtain ⟨⟨hfmt2, hzero⟩, hfmt3, hone⟩ := longHeader_decode hfmt
  have hgen := ChunkStream.genBasicHeader_of_le hcsid
  have hemit := ChunkStream.emitted_eq hgen data
  rw [hemit, List.append_assoc] at hbuf
  by_cases hsmall : cs.csid.toNat < 320
  · rw [if_pos hsmall] at hgen hemit hbuf ⊢
    have hread := readFmtCsid_twoBytes hbuf hzero
    have hid : (64 + cs.csid.toUInt8.toUInt16).toNat = 64 + cs.csid.toNat % 256 := by
      rw [UInt16.toNat_add, UInt8.toNat_toUInt16, UInt16.toNat_toUInt8, h64]
      omega
    refine ⟨_, _, hgen, hemit, hread, rfl, hfmt2, hid, ?_⟩
    intro heq
    have hsame := (congrArg UInt16.toNat heq).symm.trans hid
    omega
  · rw [if_neg hsmall, write2bytes] at hgen hemit hbuf
    rw [if_neg hsmall]
    have hread := readFmtCsid_threeBytes hbuf hone
    have hhigh : cs.csid.toNat / 256 < 256 := by omega
    have hid : (64 + (UInt8.ofNat (cs.csid.toNat / 256 ^ 1)).toUInt16 +
        (UInt8.ofNat (cs.csid.toNat / 256 ^ 0)).toUInt16).toNat =
          64 + cs.csid.toNat / 256 + cs.csid.toNat % 256 := by
      rw [UInt16.toNat_add, UInt16.toNat_add, UInt8.toNat_toUInt16, UInt8.toNat_toUInt16,
        UInt8.toNat_ofNat', UInt8.toNat_ofNat', h64, Nat.pow_one, Nat.pow_zero, Nat.div_one, Nat.mod_eq_of_lt hhigh]
      omega
    refine ⟨_, _, hgen, hemit, hread, rfl, hfmt3, hid, ?_⟩
    intro heq
    have hsame := (congrArg UInt16.toNat heq).symm.trans hid
    omega

/-- The id 64, with format 1 and one byte of data. -/
theorem basic_header_differs_64 :
    ∃ s', readFmtCsid { recvBuffer := (ChunkStream.new 1 64 128).emitted [7] ++ [9] } = (.ok, s') ∧
      s'.csid ≠ 64 := by
  have hfmt : (ChunkStream.new 1 64 128).fmt < 4 := by decide
  have hcsid : 64 ≤ (ChunkStream.new 1 64 128).csid := by decide
  obtain ⟨-, s', -, -, hread, -, -, -, hne⟩ := basic_header_differs hfmt hcsid [7] [9]
    (s := { recvBuffer := (ChunkStream.new 1 64 128).emitted [7] ++ [9] }) rfl
  exact ⟨s', hread, hne⟩

/-- The id 64 is written as `00 40` and read as 128, the id 320 as `01 01 40` and read as
129. -/
theorem basic_header_not_kept :
    (ChunkStream.new 0 64 128).genBasicHeader = some [0x00, 0x40] ∧
      (readFmtCsid { recvBuffer := (ChunkStream.new 0 64 128).emitted [] }).2.csid = 128 ∧
      (ChunkStream.new 0 320 128).genBasicHeader = some [0x01, 0x01, 0x40] ∧
      (readFmtCsid { recvBuffer := (ChunkStream.new 0 320 128).emitted [] }).2.csid = 129 := by
  decide

end SessionBase

end MediaServer
