import Mathlib.Tactic.Common
import MediaServer.Rtmp.Handshake
import MediaServer.Lib.Run

/-!
# The parts of a C1

`KeySplit` and `DigestSplit` say how a block of 764 bytes is cut.  The offset in the
block is the peer's, and its remainder leaves room for the part behind it whatever it
is: `calcValidKeyOffset_lt` and `calcValidDigestOffset_lt`.

The place of the digest is computed twice, by `parse_digest` in the block and by
`check_digest_valid` in the message.  `Sliced` says that they agree.
-/

namespace MediaServer

namespace C1s1Handle

/-- The block of a key: random bytes, the key, random bytes, the offset. -/
structure KeySplit (block : Bytes) (h : C1s1Handle) : Prop where
  bytes : block = h.keyRandom0 ++ h.c1KeyData ++ h.keyRandom1 ++ write4bytes h.c1KeyOffset
  key : h.c1KeyData.length = 128
  offset : h.keyRandom0.length = (calcValidKeyOffset h.c1KeyOffset).toNat

/-- The block of a digest: the offset, random bytes, the digest, random bytes. -/
structure DigestSplit (block : Bytes) (h : C1s1Handle) : Prop where
  bytes : block = write4bytes h.c1DigestOffset ++ h.digestRandom0 ++ h.digestData ++ h.digestRandom1
  digest : h.digestData.length = 32
  offset : h.digestRandom0.length = (calcValidDigestOffset h.c1DigestOffset).toNat

/-! ## The offsets -/

theorem calcValidKeyOffset_lt (offset : UInt32) : (calcValidKeyOffset offset).toNat < 632 := by
  rw [calcValidKeyOffset, UInt32.toNat_mod]
  exact Nat.mod_lt _ (by decide)

theorem calcValidDigestOffset_lt (offset : UInt32) :
    (calcValidDigestOffset offset).toNat < 728 := by
  rw [calcValidDigestOffset, UInt32.toNat_mod]
  exact Nat.mod_lt _ (by decide)

/-- The offset is the sum of the four bytes of its field. -/
theorem toNat_byteSum_read4bytes (a b c d : UInt8) (rest : Bytes) :
    (byteSum (read4bytes (a :: b :: c :: d :: rest))).toNat =
      a.toNat + b.toNat + c.toNat + d.toNat := by
  have ha := a.toNat_lt
  have hb := b.toNat_lt
  have hc := c.toNat_lt
  have hd := d.toNat_lt
  have hvalue : (read4bytes (a :: b :: c :: d :: rest)).toNat =
      a.toNat * 16777216 + (b.toNat * 65536 + (c.toNat * 256 + d.toNat)) := by
    rw [read4bytes, UInt32.toNat_ofNat']
    simp only [List.take_succ_cons, List.take_zero, BigEndian.value, List.length_cons,
      List.length_nil]
    omega
  generalize (read4bytes (a :: b :: c :: d :: rest)) = field at hvalue ⊢
  have h0 : field.toNat % 256 = d.toNat := by omega
  have h8 : field.toNat / 256 % 256 = c.toNat := by omega
  have h16 : field.toNat / 65536 % 256 = b.toNat := by omega
  have h24 : field.toNat / 16777216 % 256 = a.toNat := by omega
  simp only [byteSum, UInt32.toNat_add, UInt8.toNat_toUInt32, UInt32.toNat_toUInt8,
    UInt32.toNat_shiftRight, Nat.shiftRight_eq_div_pow, UInt32.reduceToNat, Nat.reduceMod,
    Nat.reducePow, h0, h8, h16, h24]
  omega

/-! ## Cutting a block -/

theorem readAt_of_le {block : Bytes} {pos n : Nat} (h : pos + n ≤ block.length) :
    readAt block pos n = .ok ((block.drop pos).take n) := if_pos h

theorem assertThat_of {c : Prop} [Decidable c] (h : c) : assertThat c = .ok () := if_pos h

theorem write4bytes_read4bytes {data : Bytes} (h : data.length = 4) :
    write4bytes (read4bytes data) = data := by
  have hlt := BigEndian.value_lt data
  have hdigits := BigEndian.digits_value data
  rw [h] at hlt hdigits
  rw [read4bytes, write4bytes, UInt32.toNat_ofNat', List.take_of_length_le (by omega),
    Nat.mod_eq_of_lt (show _ < 2 ^ 32 from hlt), hdigits]

/-- A list is its parts. -/
theorem eq_append_three (data : Bytes) (m n : Nat) :
    data = data.take m ++ (data.drop m).take n ++ data.drop (m + n) := by
  rw [List.append_assoc, ← List.drop_drop, List.take_append_drop, List.take_append_drop]

/-- What `parse_key` leaves in the handle. -/
def withKey (data : Bytes) (h : C1s1Handle) : C1s1Handle :=
  let offset := read4bytes (data.drop 760)
  let size := (calcValidKeyOffset offset).toNat
  { h with
    c1KeyOffset := offset
    keyRandom0 := data.take size
    c1KeyData := (data.drop size).take 128
    keyRandom1 := (data.drop (size + 128)).take (632 - size) }

theorem parseKey_eq {data : Bytes} (h : C1s1Handle) (hlen : data.length = 764) :
    h.parseKey data = .ok (h.withKey data) := by
  have hfield : (data.drop (764 - 4)).take 4 = data.drop 760 :=
    List.take_of_length_le (by rw [List.length_drop]; omega)
  have hlt := calcValidKeyOffset_lt (read4bytes (data.drop 760))
  have hsize : (764 - calcValidKeyOffset (read4bytes (data.drop 760)) - 128 - 4).toNat =
      632 - (calcValidKeyOffset (read4bytes (data.drop 760))).toNat := by
    simp only [UInt32.toNat_sub, UInt32.reduceToNat]
    omega
  simp only [parseKey, readAt_of_le (show 764 - 4 + 4 ≤ data.length by omega), Run.ok_bind, hfield,
    hsize]
  rw [assertThat_of (by omega), Run.ok_bind, readAt_of_le (by omega), Run.ok_bind,
    readAt_of_le (by omega), Run.ok_bind, assertThat_of (by omega), Run.ok_bind,
    readAt_of_le (by omega), Run.ok_bind, assertThat_of (by omega)]
  rfl

theorem keySplit_withKey {data : Bytes} (h : C1s1Handle) (hlen : data.length = 764) :
    KeySplit data (h.withKey data) := by
  have hlt := calcValidKeyOffset_lt (read4bytes (data.drop 760))
  have hfield : write4bytes (read4bytes (data.drop 760)) = data.drop 760 :=
    write4bytes_read4bytes (by rw [List.length_drop]; omega)
  refine ⟨?_, ?_, ?_⟩
  · show data = data.take _ ++ (data.drop _).take 128 ++ (data.drop (_ + 128)).take (632 - _) ++
      write4bytes (read4bytes (data.drop 760))
    generalize (calcValidKeyOffset (read4bytes (data.drop 760))).toNat = size at hlt
    rw [hfield]
    conv_lhs => rw [eq_append_three data size 128, ← List.take_append_drop (632 - size)
      (data.drop (size + 128)), List.drop_drop, show size + 128 + (632 - size) = 760 by omega]
    simp only [List.append_assoc]
  · show ((data.drop _).take 128).length = 128
    rw [List.length_take, List.length_drop]
    omega
  · show (data.take _).length = _
    rw [List.length_take]
    exact Nat.min_eq_left (by omega)

/-- What `parse_digest` leaves in the handle. -/
def withDigest (data : Bytes) (h : C1s1Handle) : C1s1Handle :=
  let offset := read4bytes (data.take 4)
  let size := (calcValidDigestOffset offset).toNat
  { h with
    c1DigestOffset := offset
    digestRandom0 := (data.drop 4).take size
    digestData := (data.drop (4 + size)).take 32
    digestRandom1 := (data.drop (4 + size + 32)).take (728 - size) }

theorem parseDigest_eq {data : Bytes} (h : C1s1Handle) (hlen : data.length = 764) :
    h.parseDigest data = .ok (h.withDigest data) := by
  have hlt := calcValidDigestOffset_lt (read4bytes (data.take 4))
  have hsize : (764 - 4 - calcValidDigestOffset (read4bytes (data.take 4)) - 32).toNat =
      728 - (calcValidDigestOffset (read4bytes (data.take 4))).toNat := by
    simp only [UInt32.toNat_sub, UInt32.reduceToNat]
    omega
  simp only [parseDigest, readAt_of_le (show 0 + 4 ≤ data.length by omega), Run.ok_bind,
    List.drop_zero, hsize]
  rw [assertThat_of (by omega), Run.ok_bind, readAt_of_le (by omega), Run.ok_bind,
    readAt_of_le (by omega), Run.ok_bind, assertThat_of (by omega), Run.ok_bind,
    readAt_of_le (by omega), Run.ok_bind, assertThat_of (by omega)]
  rfl

theorem digestSplit_withDigest {data : Bytes} (h : C1s1Handle) (hlen : data.length = 764) :
    DigestSplit data (h.withDigest data) := by
  have hlt := calcValidDigestOffset_lt (read4bytes (data.take 4))
  have hfield : write4bytes (read4bytes (data.take 4)) = data.take 4 :=
    write4bytes_read4bytes (by rw [List.length_take]; omega)
  refine ⟨?_, ?_, ?_⟩
  · show data = write4bytes (read4bytes (data.take 4)) ++ (data.drop 4).take _ ++
      (data.drop (4 + _)).take 32 ++ (data.drop (4 + _ + 32)).take (728 - _)
    generalize (calcValidDigestOffset (read4bytes (data.take 4))).toNat = size at hlt
    have hlast : (data.drop (4 + size + 32)).take (728 - size) = data.drop (4 + size + 32) :=
      List.take_of_length_le (by rw [List.length_drop]; omega)
    rw [hfield, hlast]
    conv_lhs => rw [eq_append_three data 4 size, ← List.take_append_drop 32 (data.drop (4 + size)),
      List.drop_drop]
    simp only [List.append_assoc]
  · show ((data.drop _).take 32).length = 32
    rw [List.length_take, List.length_drop]
    omega
  · show ((data.drop 4).take _).length = _
    rw [List.length_take, List.length_drop]
    exact Nat.min_eq_left (by omega)

/-! ## The message -/

/-- Where the block of the key begins. -/
def keyStart : HandshakeSchema → Nat
  | .schema1 => 8 + 764
  | _ => 8

/-- Where the block of the digest begins. -/
def digestStart : HandshakeSchema → Nat
  | .schema0 => 8 + 764
  | _ => 8

/-- A block of the message. -/
def blockAt (message : Bytes) (start : Nat) : Bytes := (message.drop start).take 764

/-- A C1 is cut as the schema says, and the HMAC gets it without the digest. -/
structure Sliced (schema : HandshakeSchema) (c1 : Bytes) (h : C1s1Handle) : Prop where
  key : KeySplit (blockAt c1 (keyStart schema)) h
  digest : DigestSplit (blockAt c1 (digestStart schema)) h
  hashed : ∃ first second, h.hashedParts schema = .ok (first, second) ∧
    (∀ hmac, h.checkDigestValid hmac schema =
      .ok (decide (h.digestData = hmac.code (GENUINE_FLASH_PLAYER_KEY.take 30) (first ++ second)))) ∧
    c1 = first ++ h.digestData ++ second ∧
    first.length = digestStart schema + 4 + h.digestRandom0.length

section Message

variable {c1 : Bytes} {start : Nat}

theorem length_blockAt (hlen : c1.length = 1536) (hstart : start ≤ 772) :
    (blockAt c1 start).length = 764 := by
  rw [blockAt, List.length_take, List.length_drop]
  omega

/-- What `check_digest_valid` reads, for a digest block at `start`. -/
theorem hashedParts_eq {schema : HandshakeSchema} {h : C1s1Handle}
    (hschema : schema = .schema0 ∨ schema = .schema1) (hlen : h.c1Data.length = 1536)
    (hrandom : h.digestRandom0.length < 728) :
    h.hashedParts schema =
      .ok (h.c1Data.take (digestStart schema + 4 + h.digestRandom0.length),
        h.c1Data.drop (digestStart schema + 4 + h.digestRandom0.length + 32)) := by
  have hfirst : (firstPartLen schema (UInt32.ofNat h.digestRandom0.length)).toNat =
      digestStart schema + 4 + h.digestRandom0.length := by
    rcases hschema with rfl | rfl
    · simp only [firstPartLen, if_true, UInt32.toNat_toUInt64, UInt32.toNat_add,
        UInt32.toNat_ofNat', UInt32.reduceToNat, digestStart]
      omega
    · simp only [firstPartLen, reduceCtorEq, if_false, UInt32.toNat_toUInt64, UInt32.toNat_add,
        UInt32.toNat_ofNat', UInt32.reduceToNat, digestStart]
      omega
  have hpos : digestStart schema + 4 + h.digestRandom0.length < 1504 := by
    rcases hschema with rfl | rfl
    · rw [digestStart]
      omega
    · simp only [digestStart]
      omega
  generalize digestStart schema + 4 + h.digestRandom0.length = pos at hfirst hpos ⊢
  have hsecond :
      (1536 - firstPartLen schema (UInt32.ofNat h.digestRandom0.length) - 32).toNat = 1504 - pos := by
    simp only [UInt64.toNat_sub, UInt64.reduceToNat, hfirst]
    omega
  have hrest : (h.c1Data.drop (pos + 32)).take (1504 - pos) = h.c1Data.drop (pos + 32) :=
    List.take_of_length_le (by rw [List.length_drop]; omega)
  simp only [hashedParts, hfirst, hsecond]
  rw [readAt_of_le (by omega), Run.ok_bind, readAt_of_le (by omega), Run.ok_bind, hrest,
    List.drop_zero]
  rfl

theorem sliced_of_split {schema : HandshakeSchema} {h : C1s1Handle}
    (hschema : schema = .schema0 ∨ schema = .schema1) (hlen : c1.length = 1536)
    (hdata : h.c1Data = c1) (hkey : KeySplit (blockAt c1 (keyStart schema)) h)
    (hdigest : DigestSplit (blockAt c1 (digestStart schema)) h) : Sliced schema c1 h := by
  have hrandom : h.digestRandom0.length < 728 := by
    rw [hdigest.offset]
    exact calcValidDigestOffset_lt _
  have hstart : digestStart schema ≤ 772 := by
    rcases hschema with rfl | rfl <;> decide
  have hparts := hashedParts_eq hschema (by rw [hdata]; exact hlen) hrandom
  rw [hdata] at hparts
  refine ⟨hkey, hdigest, _, _, hparts, fun hmac => ?_, ?_, ?_⟩
  · have hne : schema ≠ .init := by
      rcases hschema with rfl | rfl <;> decide
    rw [checkDigestValid, if_neg hne, hparts]
    rfl
  · -- the digest stands in the message where the HMAC leaves it out
    have hplace : (c1.drop (digestStart schema + 4 + h.digestRandom0.length)).take 32 =
        h.digestData := by
      have hblock : (blockAt c1 (digestStart schema)).drop (4 + h.digestRandom0.length) =
          h.digestData ++ h.digestRandom1 := by
        have hhead : (write4bytes h.c1DigestOffset ++ h.digestRandom0).length =
            4 + h.digestRandom0.length := by
          rw [List.length_append, write4bytes_length]
        rw [hdigest.bytes, List.append_assoc, ← hhead, List.drop_left]
      have htake : (h.digestData ++ h.digestRandom1).take 32 = h.digestData := by
        rw [← hdigest.digest, List.take_left]
      rw [← htake, ← hblock, blockAt, List.drop_take, List.drop_drop, List.take_take,
        Nat.min_eq_left (by omega), Nat.add_assoc]
    rw [← hplace]
    exact eq_append_three c1 _ 32
  · rw [List.length_take]
    omega

theorem blockAt_drop : ((c1.drop 8).drop 764).take 764 = blockAt c1 (8 + 764) := by
  rw [blockAt, List.drop_drop]

theorem trySchema0_eq (h : C1s1Handle) (hlen : c1.length = 1536) :
    trySchema0 (c1.drop 8) h =
      .ok ((h.withKey (blockAt c1 8)).withDigest (blockAt c1 (8 + 764))) := by
  rw [trySchema0, blockAt_drop]
  show (parseKey (blockAt c1 8) h >>= _) = _
  rw [parseKey_eq h (length_blockAt hlen (by decide)), Run.ok_bind,
    parseDigest_eq _ (length_blockAt hlen (by decide))]

theorem trySchema1_eq (h : C1s1Handle) (hlen : c1.length = 1536) :
    trySchema1 (c1.drop 8) h =
      .ok ((h.withDigest (blockAt c1 8)).withKey (blockAt c1 (8 + 764))) := by
  rw [trySchema1, blockAt_drop]
  show (parseDigest (blockAt c1 8) h >>= _) = _
  rw [parseDigest_eq h (length_blockAt hlen (by decide)), Run.ok_bind,
    parseKey_eq _ (length_blockAt hlen (by decide))]

theorem sliced_schema0 {h : C1s1Handle} (hlen : c1.length = 1536) (hdata : h.c1Data = c1) :
    Sliced .schema0 c1 ((h.withKey (blockAt c1 8)).withDigest (blockAt c1 (8 + 764))) := by
  have hkey := keySplit_withKey h (show (blockAt c1 8).length = 764 from length_blockAt hlen (by decide))
  exact sliced_of_split (.inl rfl) hlen hdata ⟨hkey.bytes, hkey.key, hkey.offset⟩
    (digestSplit_withDigest _ (length_blockAt hlen (by decide)))

theorem sliced_schema1 {h : C1s1Handle} (hlen : c1.length = 1536) (hdata : h.c1Data = c1) :
    Sliced .schema1 c1 ((h.withDigest (blockAt c1 8)).withKey (blockAt c1 (8 + 764))) := by
  have hdigest := digestSplit_withDigest h (show (blockAt c1 8).length = 764 from length_blockAt hlen (by decide))
  exact sliced_of_split (.inr rfl) hlen hdata
    (keySplit_withKey _ (length_blockAt hlen (by decide)))
    ⟨hdigest.bytes, hdigest.digest, hdigest.offset⟩

/-- **The parts of a C1.**  Under both schemas the blocks are cut without a gap, no
assert fails and no read leaves its block.  The HMAC is fed with the C1 without the
digest that `parse_digest` has copied. -/
theorem c1_slicing_exact (c1 : Bytes) (h : C1s1Handle) (hlen : c1.length = 1536) :
    (∃ h', trySchema0 (c1.drop 8) { h with c1Data := c1 } = .ok h' ∧ Sliced .schema0 c1 h') ∧
    (∃ h', trySchema1 (c1.drop 8) { h with c1Data := c1 } = .ok h' ∧ Sliced .schema1 c1 h') :=
  ⟨⟨_, trySchema0_eq _ hlen, sliced_schema0 hlen rfl⟩,
    ⟨_, trySchema1_eq _ hlen, sliced_schema1 hlen rfl⟩⟩

/-- A C1 of zeros. -/
theorem c1_slicing_exact_zeros :
    (∃ h', trySchema0 ((List.replicate 1536 0).drop 8) { c1Data := List.replicate 1536 0 } = .ok h' ∧
      Sliced .schema0 (List.replicate 1536 0) h') ∧
    (∃ h', trySchema1 ((List.replicate 1536 0).drop 8) { c1Data := List.replicate 1536 0 } = .ok h' ∧
      Sliced .schema1 (List.replicate 1536 0) h') :=
  c1_slicing_exact (List.replicate 1536 0) {} List.length_replicate

end Message

end C1s1Handle

end MediaServer
