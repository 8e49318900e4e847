import MediaServer.Lib.Crc
import MediaServer.Utils.ByteCrypto

/-!
# CRC-32

`get_crc32` of `utils/byte_crypto` computes the reflected CRC with the polynomial
0xEDB88320.  The table stands in the source as 256 constants, and each of them is
compared here with the eight steps that it stands for.
-/

namespace MediaServer

namespace ByteCrypto

/-- The polynomial of CRC-32, least significant bit first. -/
def polynomial : BitVec 32 := 0xEDB88320#32

theorem crc32Table_steps :
    ∀ i < 256, (crc32Table.getD i 0).toBitVec = Crc.steps polynomial 8 (BitVec.ofNat 32 i) := by
  decide +kernel

theorem length_crc32Table : crc32Table.length = 256 := by decide +kernel

theorem crc32Byte_toBitVec (crc : UInt32) (b : UInt8) :
    (crc32Byte crc b).toBitVec = Crc.byteStep polynomial crc.toBitVec b := by
  have hword : ((crc ^^^ b.toUInt32) &&& 0xFF).toBitVec =
      (crc.toBitVec ^^^ b.toBitVec.setWidth 32) &&& BitVec.ofNat 32 255 := rfl
  have hindex : ((crc ^^^ b.toUInt32) &&& 0xFF).toNat < 256 := by
    rw [UInt32.toNat_and]
    exact Nat.and_lt_two_pow _ (n := 8) (by decide)
  rw [crc32Byte, UInt32.toBitVec_xor, crc32Table_steps _ hindex, ← UInt32.toNat_toBitVec,
    BitVec.ofNat_toNat, BitVec.setWidth_eq, hword, Crc.byteStep_eq_lookup]
  rfl

theorem foldl_crc32Byte (crc : UInt32) (data : Bytes) :
    (data.foldl crc32Byte crc).toBitVec = data.foldl (Crc.byteStep polynomial) crc.toBitVec := by
  induction data generalizing crc with
  | nil => rfl
  | cons b data ih => rw [List.foldl_cons, ih, crc32Byte_toBitVec, List.foldl_cons]

/-- The table holds the remainders of the 256 bytes, a turn of the loop is eight
steps of the register, and the sum of any bytes is their bitwise CRC. -/
theorem getCrc32_bitwise :
    (crc32Table.length = 256 ∧
      ∀ i < 256, (crc32Table.getD i 0).toBitVec = Crc.steps polynomial 8 (BitVec.ofNat 32 i)) ∧
    (∀ crc b, (crc32Byte crc b).toBitVec = Crc.byteStep polynomial crc.toBitVec b) ∧
    ∀ data, (getCrc32 data).toBitVec = Crc.crc polynomial 0xFFFFFFFF#32 0xFFFFFFFF#32 data := by
  refine ⟨⟨length_crc32Table, crc32Table_steps⟩, crc32Byte_toBitVec, fun data => ?_⟩
  rw [getCrc32, UInt32.toBitVec_xor, foldl_crc32Byte, Crc.crc_eq_foldl_byteStep _ (by decide)]
  rfl

-- The check value of the nine digits.
example : getCrc32 (ascii "123456789") = 0xCBF43926 := by decide +kernel

end ByteCrypto

end MediaServer
