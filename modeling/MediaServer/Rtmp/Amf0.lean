import MediaServer.Rtmp.ChunkStream

/-!
# AMF0 values

`net/rtmp/amf/amf0`.  A decoder moves a pointer `data` and a count `left_len`
over the payload of a message.  It looks at the bytes behind the pointer
without asking whether the payload still has them, so the pointer is a
`Cursor` over the payload and the memory that follows it, and a read behind
the end of that memory is a fault.  The count may become negative.  It is an
integer without bounds, as no call that stays in fewer than `2 ^ 31` bytes of
memory leaves the range of an `int` (`AmfMemory.decode_of_cursor`).

The end marker of an object is looked at and not consumed.  A value that fails
to decode leaves what was decoded of it.

Numbers are kept as their 64-bit patterns: the program copies them and never
calculates with them.
-/

namespace MediaServer

/-- `AMF_ITERM`: the type and, for each type, the fields it uses. -/
inductive AmfItem where
  | unknown
  | number (bits : UInt64)
  | bool (enable : Bool)
  | string (desc : Bytes)
  | object (fields : List (Bytes × AmfItem))
  | null
  | undefined
  | array (items : List AmfItem)
  | date (bits : UInt64)
  | longString (desc : Bytes)

/-! ## Decoding -/

/-- The pointer and the count of a decoder. -/
structure Cursor where
  data : Bytes
  leftLen : Int
  deriving DecidableEq, Repr

namespace Cursor

/-- The `n` bytes behind the pointer. -/
def peek (n : Nat) (c : Cursor) : Except Fault Bytes :=
  if c.data.length < n then .error .outOfBounds else .ok (c.data.take n)

/-- The pointer moves on, whether or not there is memory behind it. -/
def skip (n : Nat) (c : Cursor) : Cursor :=
  { data := c.data.drop n, leftLen := c.leftLen - n }

end Cursor

namespace AmfDecoder

/-- `std::unordered_map::insert`: the first value of a key stays. -/
def insertField (key : Bytes) (item : AmfItem) (fields : List (Bytes × AmfItem)) :
    List (Bytes × AmfItem) :=
  if fields.any (·.1 = key) then fields else fields ++ [(key, item)]

/-- A string body of `len` bytes. -/
def decodeText (len : Nat) (c : Cursor) : Except Fault (Bytes × Cursor) := do
  let desc ← c.peek len
  return (desc, c.skip len)

mutual

/-- `AMF_Decoder::decode`.  The fuel bounds the nesting and the loops; it is
more than the bytes there are to read. -/
def decode : Nat → Cursor → Except Fault (RtmpRet × AmfItem × Cursor)
  | 0, _ => .error .hang
  | fuel + 1, c => do
    let type := (← c.peek 1).headD 0
    if type > 0x0d then return (.error, .unknown, c)
    let c := c.skip 1
    if type = 0x00 then
      let bits := read8bytes (← c.peek 8)
      return (.ok, .number bits, c.skip 8)
    else if type = 0x01 then
      let value := (← c.peek 1).headD 0
      return (.ok, .bool (value != 0), c.skip 1)
    else if type = 0x02 then
      let len := read2bytes (← c.peek 2)
      let (desc, c) ← decodeText len.toNat (c.skip 2)
      return (.ok, .string desc, c)
    else if type = 0x03 then
      let (ret, fields, c) ← decodeAmfObject fuel [] c
      return (ret, .object fields, c)
    else if type = 0x05 then return (.ok, .null, c)
    else if type = 0x06 then return (.ok, .undefined, c)
    else if type = 0x07 then .error .assertFailed
    else if type = 0x08 then
      let _ ← c.peek 4
      let (ret, fields, c) ← decodeAmfObject fuel [] (c.skip 4)
      return (ret, .object fields, c)
    else if type = 0x0a then
      let (_, items, c) ← decodeAmfArray fuel c
      return (.ok, .array items, c)
    else if type = 0x0b then
      let bits := read8bytes (← c.peek 8)
      return (.ok, .date bits, (c.skip 8).skip 2)
    else if type = 0x0c then
      let len := read4bytes (← c.peek 4)
      let (desc, c) ← decodeText len.toNat (c.skip 4)
      return (.ok, .longString desc, c)
    else if type = 0x0d then return (.ok, .longString [], c)
    else return (.error, .unknown, c)

/-- `decode_amf_object`, with the fields decoded so far. -/
def decodeAmfObject : Nat → List (Bytes × AmfItem) → Cursor →
    Except Fault (RtmpRet × List (Bytes × AmfItem) × Cursor)
  | 0, _, _ => .error .hang
  | fuel + 1, fields, c => do
    if ¬ c.leftLen > 0 then return (.ok, fields, c)
    let keyLen := read2bytes (← c.peek 2)
    let c := c.skip 2
    if keyLen = 0 then
      let marker := (← c.peek 1).headD 0
      if marker ≠ 0x09 then .error .assertFailed
      else return (.ok, fields, c)
    else
      let (key, c) ← decodeText keyLen.toNat c
      let type := (← c.peek 1).headD 0
      if type > 0x0d then return (.error, fields, c)
      else
        let (ret, item, c) ← decode fuel c
        if ret ≠ .ok then return (ret, fields, c)
        else decodeAmfObject fuel (insertField key item fields) c

/-- `decode_amf_array`. -/
def decodeAmfArray : Nat → Cursor → Except Fault (RtmpRet × List AmfItem × Cursor)
  | 0, _ => .error .hang
  | fuel + 1, c => do
    let arrayLen := read4bytes (← c.peek 4)
    decodeItems fuel arrayLen.toNat [] (c.skip 4)

/-- The loop of `decode_amf_array`, with `count` values to go. -/
def decodeItems : Nat → Nat → List AmfItem → Cursor →
    Except Fault (RtmpRet × List AmfItem × Cursor)
  | 0, _, _, _ => .error .hang
  | _ + 1, 0, items, c => .ok (.ok, items, c)
  | fuel + 1, count + 1, items, c => do
    let (ret, item, c) ← decode fuel c
    if ret ≠ .ok then return (ret, items, c)
    else decodeItems fuel count (items ++ [item]) c

end

/-- The loop of `handle_client_command_message` over the values of a payload.
A marker that `decode` rejects is not consumed, so the loop does not end. -/
def decodeAll : Nat → List AmfItem → Cursor → Except Fault (List AmfItem)
  | 0, _, _ => .error .hang
  | fuel + 1, items, c => do
    if c.leftLen > 0 then
      let (_, item, c) ← decode (c.data.length + 1) c
      decodeAll fuel (items ++ [item]) c
    else return items

/-- The values of `payload`, with the memory `after` it. -/
def decodePayload (payload after : Bytes) : Except Fault (List AmfItem) :=
  decodeAll ((payload ++ after).length + 1) []
    { data := payload ++ after, leftLen := payload.length }

end AmfDecoder

/-! ## Encoding -/

namespace AmfEncoder

/-- `encode` of a number. -/
def encodeNumber (bits : UInt64) (buffer : DataBuffer) : DataBuffer :=
  buffer.appendData (0x00 :: write8bytes bits)

/-- `encode_null`. -/
def encodeNull (buffer : DataBuffer) : DataBuffer := buffer.appendData [0x05]

/-- `encode` of a boolean. -/
def encodeBool (flag : Bool) (buffer : DataBuffer) : DataBuffer :=
  buffer.appendData [0x01, if flag then 0x01 else 0x00]

/-- `encode` of a string, with its marker or without. -/
def encodeString (str : Bytes) (skipMarker : Bool) (buffer : DataBuffer) : DataBuffer :=
  if str.length > 0xffff then
    buffer.appendData ((if skipMarker then [] else [0x0c]) ++
      write4bytes (UInt32.ofNat str.length) ++ str)
  else
    buffer.appendData ((if skipMarker then [] else [0x02]) ++
      write2bytes (UInt16.ofNat str.length) ++ str)

/-- The value of a property.  The types that are not implemented append
nothing, and the others end the object with an error. -/
def encodeValue : AmfItem → DataBuffer → RtmpRet × DataBuffer
  | .number bits, buffer => (.ok, encodeNumber bits buffer)
  | .bool enable, buffer => (.ok, encodeBool enable buffer)
  | .string desc, buffer => (.ok, encodeString desc false buffer)
  | .null, buffer => (.ok, buffer.appendData [0x05])
  | .undefined, buffer => (.ok, buffer.appendData [0x06])
  | .array _, buffer => (.ok, buffer)
  | .date _, buffer => (.ok, buffer)
  | .longString desc, buffer => (.ok, encodeString desc false buffer)
  | .object _, buffer => (.error, buffer)
  | .unknown, buffer => (.error, buffer)

/-- The properties of an object and its end. -/
def encodeFields : List (Bytes × AmfItem) → DataBuffer → RtmpRet × DataBuffer
  | [], buffer => (.ok, (encodeString [] true buffer).appendData [0x09])
  | (key, item) :: rest, buffer =>
    match encodeValue item (encodeString key true buffer) with
    | (.ok, buffer) => encodeFields rest buffer
    | other => other

/-- `AMF_Encoder::encode` of an object.  The order of the properties is not
specified by the source; here it is the order in which they were inserted. -/
def encodeObject (fields : List (Bytes × AmfItem)) (buffer : DataBuffer) :
    RtmpRet × DataBuffer :=
  encodeFields fields (buffer.appendData [0x03])

end AmfEncoder

end MediaServer
