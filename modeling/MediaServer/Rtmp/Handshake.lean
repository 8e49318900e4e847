import MediaServer.Utils.DataBuffer

/-!
# The C1 and S1 of the handshake

`c1s1_handle` of `net/rtmp/rtmp_handshake`: a C1 has a time, a version, and two blocks
of 764 bytes, one with a key and one with a digest.  The schema says which block is
first.  S1 is put together from the parts of C1, with a key and a digest of its own.

A pointer into C1 is the block behind it here, and a read that leaves the block is a
fault.  HMAC-SHA256 and the exchange of keys are computed by OpenSSL and are parameters.
-/

namespace MediaServer

/-- `HANDSHAKE_SCHEMA`. -/
inductive HandshakeSchema where
  | init
  | schema0
  | schema1
  deriving DecidableEq, Repr

/-- What `hmac_sha256_handler` computes: the code of a text under a key. -/
structure HmacSha256 where
  code : Bytes → Bytes → Bytes
  length : ∀ key data, (code key data).length = 32

/-- What `copy_shared_key` leaves in `s1_key_data_` for a key, or `none` when it or the
`init` before it fails. -/
structure DhGenKey where
  copySharedKey : Bytes → Option Bytes
  length : ∀ key skey, copySharedKey key = some skey → skey.length = 128

/-- A code of 32 zeros for every text. -/
def HmacSha256.zeros : HmacSha256 where
  code _ _ := List.replicate 32 0
  length _ _ := List.length_replicate

/-- The same key for every peer. -/
def DhGenKey.const (byte : UInt8) : DhGenKey where
  copySharedKey _ := some (List.replicate 128 byte)
  length _ _ h := by
    cases h
    exact List.length_replicate

/-- The key of the Flash player, of which the first bytes are used. -/
def GENUINE_FLASH_PLAYER_KEY : Bytes := [
  0x47, 0x65, 0x6E, 0x75, 0x69, 0x6E, 0x65, 0x20,
  0x41, 0x64, 0x6F, 0x62, 0x65, 0x20, 0x46, 0x6C,
  0x61, 0x73, 0x68, 0x20, 0x50, 0x6C, 0x61, 0x79,
  0x65, 0x72, 0x20, 0x30, 0x30, 0x31,
  0xF0, 0xEE, 0xC2, 0x4A, 0x80, 0x68, 0xBE, 0xE8,
  0x2E, 0x00, 0xD0, 0xD1, 0x02, 0x9E, 0x7E, 0x57,
  0x6E, 0xEC, 0x5D, 0x2D, 0x29, 0x80, 0x6F, 0xAB,
  0x93, 0xB8, 0xE6, 0x36, 0xCF, 0xEB, 0x31, 0xAE]

/-- `c1s1_handle`.  A random part is kept with its size, which is the length of the
list.  The members that the constructor leaves unset are empty or 0. -/
structure C1s1Handle where
  schema : HandshakeSchema := .init
  c1Data : Bytes := []
  c1Time : UInt32 := 0
  c1Version : UInt32 := 0
  keyRandom0 : Bytes := []
  keyRandom1 : Bytes := []
  c1KeyOffset : UInt32 := 0
  c1KeyData : Bytes := []
  c1DigestOffset : UInt32 := 0
  digestRandom0 : Bytes := []
  digestRandom1 : Bytes := []
  digestData : Bytes := []
  s1TimeSec : UInt32 := 0
  s1Version : UInt32 := 0
  s1KeyData : Bytes := []
  s1DigestData : Bytes := []
  deriving DecidableEq, Repr

namespace C1s1Handle

/-- The `n` bytes at a position of a block. -/
def readAt (block : Bytes) (pos n : Nat) : Except Fault Bytes :=
  if pos + n ≤ block.length then .ok ((block.drop pos).take n) else .error .outOfBounds

/-- `assert`. -/
def assertThat (c : Prop) [Decidable c] : Except Fault Unit :=
  if c then .ok () else .error .assertFailed

/-- The sum of the four bytes of an offset field. -/
def byteSum (offset : UInt32) : UInt32 :=
  offset.toUInt8.toUInt32 + (offset >>> 8).toUInt8.toUInt32 + (offset >>> 16).toUInt8.toUInt32 +
    (offset >>> 24).toUInt8.toUInt32

/-- `calc_valid_key_offset`. -/
def calcValidKeyOffset (offset : UInt32) : UInt32 := byteSum offset % (764 - 128 - 4)

/-- `calc_valid_digest_offset`. -/
def calcValidDigestOffset (offset : UInt32) : UInt32 := byteSum offset % (764 - 32 - 4)

/-! ## C1 -/

/-- `parse_key`. -/
def parseKey (data : Bytes) (h : C1s1Handle) : Except Fault C1s1Handle := do
  let c1KeyOffset := read4bytes (← readAt data (764 - 4) 4)
  let realOffset := calcValidKeyOffset c1KeyOffset
  assertThat (realOffset.toNat < 764 - 4)
  let keyRandom0 ← readAt data 0 realOffset.toNat
  let c1KeyData ← readAt data realOffset.toNat 128
  let keyRandom1Size := 764 - realOffset - 128 - 4
  assertThat (keyRandom1Size.toNat < 764 - 4)
  let keyRandom1 ← readAt data (realOffset.toNat + 128) keyRandom1Size.toNat
  assertThat (realOffset.toNat + 128 + keyRandom1Size.toNat + 4 = 764)
  return { h with
    c1KeyOffset := c1KeyOffset
    keyRandom0 := keyRandom0
    c1KeyData := c1KeyData
    keyRandom1 := keyRandom1 }

/-- `parse_digest`. -/
def parseDigest (data : Bytes) (h : C1s1Handle) : Except Fault C1s1Handle := do
  let c1DigestOffset := read4bytes (← readAt data 0 4)
  let realOffset := calcValidDigestOffset c1DigestOffset
  assertThat (realOffset.toNat < 764 - 4)
  let digestRandom0 ← readAt data 4 realOffset.toNat
  let digestData ← readAt data (4 + realOffset.toNat) 32
  let digestRandom1Size := 764 - 4 - realOffset - 32
  assertThat (digestRandom1Size.toNat < 764 - 4)
  let digestRandom1 ← readAt data (4 + realOffset.toNat + 32) digestRandom1Size.toNat
  assertThat (4 + realOffset.toNat + 32 + digestRandom1Size.toNat = 764)
  return { h with
    c1DigestOffset := c1DigestOffset
    digestRandom0 := digestRandom0
    digestData := digestData
    digestRandom1 := digestRandom1 }

/-- Key first, then digest.  `data` is what is behind time and version. -/
def trySchema0 (data : Bytes) (h : C1s1Handle) : Except Fault C1s1Handle := do
  let h ← h.parseKey (data.take 764)
  h.parseDigest ((data.drop 764).take 764)

/-- Digest first, then key. -/
def trySchema1 (data : Bytes) (h : C1s1Handle) : Except Fault C1s1Handle := do
  let h ← h.parseDigest (data.take 764)
  h.parseKey ((data.drop 764).take 764)

/-- The place of the digest in the message. -/
def firstPartLen (schema : HandshakeSchema) (digestRandom0Size : UInt32) : UInt64 :=
  if schema = .schema0 then (8 + 764 + 4 + digestRandom0Size).toUInt64
  else (8 + 4 + digestRandom0Size).toUInt64

/-- The two texts that `check_digest_valid` gives to the HMAC. -/
def hashedParts (schema : HandshakeSchema) (h : C1s1Handle) : Except Fault (Bytes × Bytes) := do
  let firstPartLen := firstPartLen schema (UInt32.ofNat h.digestRandom0.length)
  let secondPartLen := 1536 - firstPartLen - 32
  let first ← readAt h.c1Data 0 firstPartLen.toNat
  let second ← readAt h.c1Data (firstPartLen.toNat + 32) secondPartLen.toNat
  return (first, second)

/-- `check_digest_valid`. -/
def checkDigestValid (hmac : HmacSha256) (schema : HandshakeSchema) (h : C1s1Handle) :
    Except Fault Bool :=
  if schema = .init then .ok true -- the code -1, as a `bool`
  else do
    let (first, second) ← h.hashedParts schema
    return h.digestData = hmac.code (GENUINE_FLASH_PLAYER_KEY.take 30) (first ++ second)

/-- `parse_c1`: the code, and the handle. -/
def parseC1 (hmac : HmacSha256) (c1 : Bytes) (h : C1s1Handle) : Except Fault (Int × C1s1Handle) := do
  let c1Data ← readAt c1 0 1536
  let h := { h with c1Data := c1Data, c1Time := read4bytes c1, c1Version := read4bytes (c1.drop 4) }
  let h ← h.trySchema1 (c1.drop 8)
  if ← h.checkDigestValid hmac .schema1 then return (0, { h with schema := .schema0 })
  else
    let h ← h.trySchema0 (c1.drop 8)
    if ← h.checkDigestValid hmac .schema0 then return (0, { h with schema := .schema1 })
    else return (-1, h)

/-! ## S1 -/

/-- The bytes that `make_s1_digest` joins. -/
def joinedBytes (h : C1s1Handle) : Bytes :=
  write4bytes h.s1TimeSec ++ write4bytes h.s1Version ++
    (h.keyRandom0 ++ h.c1KeyData ++ h.keyRandom1 ++ write4bytes h.c1KeyOffset) ++
    (write4bytes h.c1DigestOffset ++ h.digestRandom0 ++ h.digestRandom1)

/-- `make_s1_digest`. -/
def makeS1Digest (hmac : HmacSha256) (h : C1s1Handle) : Bytes :=
  hmac.code (GENUINE_FLASH_PLAYER_KEY.take 36) h.joinedBytes

/-- `make_key`. -/
def makeKey (h : C1s1Handle) : Bytes :=
  h.keyRandom0 ++ h.s1KeyData ++ h.keyRandom1 ++ write4bytes h.c1KeyOffset

/-- `make_digest`. -/
def makeDigest (h : C1s1Handle) : Bytes :=
  write4bytes h.c1DigestOffset ++ h.digestRandom0 ++ h.s1DigestData ++ h.digestRandom1

/-- The second block is written 764 bytes behind the first, which is its length. -/
def makeSchema0 (h : C1s1Handle) : Bytes := h.makeKey ++ h.makeDigest

/-- `make_schema1`. -/
def makeSchema1 (h : C1s1Handle) : Bytes := h.makeDigest ++ h.makeKey

/-- `make_s1`: S1 and the handle, or `none` for an error. -/
def makeS1 (hmac : HmacSha256) (dh : DhGenKey) (h : C1s1Handle) : Option (Bytes × C1s1Handle) := do
  let h := { h with s1TimeSec := h.c1Time, s1Version := 0x01000504 }
  let s1KeyData ← dh.copySharedKey h.c1KeyData
  let h := { h with s1KeyData := s1KeyData }
  let h := { h with s1DigestData := h.makeS1Digest hmac }
  let head := write4bytes h.s1TimeSec ++ write4bytes h.s1Version
  match h.schema with
  | .schema0 => some (head ++ h.makeSchema0, h)
  | .schema1 => some (head ++ h.makeSchema1, h)
  | .init => none

end C1s1Handle

end MediaServer
