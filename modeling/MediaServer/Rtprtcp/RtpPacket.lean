import Mathlib.Tactic.SplitIfs
import MediaServer.Lib.OrderedMap
import MediaServer.Lib.Run
import MediaServer.Rtprtcp.RtcpPackets
import MediaServer.Stun.StunPacket

/-!
# RTP packets

`net/rtprtcp/rtp_packet`: `parse` finds the parts of a datagram, `clone` copies the
packet and parses the copy, and `rtx_demux` turns a retransmitted packet into the one
that it carries, in place.

The source keeps pointers into the datagram.  Here `buffer` is the memory behind
`header`, and a pointer is an offset in it.  The bytes of the packet are the first
`data_len` of the buffer.  Every read checks that it stays inside the buffer, and a loop
has a number of turns, so that a read outside and a loop that does not end are faults.

The two forms of header extensions are read by the same loop.  `ExtForm` says in what
they differ: how long the head of an element is, and what it says.
-/

namespace MediaServer

/-- What `MS_THROW_ERROR` is called with. -/
inductive RtpError where
  | tooLarge (len : Nat)
  | tooSmall (len : Nat)
  | noPayload (len : Nat)
  | padding (payloadLen : Nat) (padLen : UInt8)
  | extensionId (id : UInt16)
  | onebyteLength (length : UInt16)
  | twobytesLength (length : UInt16)
  | rtxPayload (payloadLen : Nat)
  deriving DecidableEq, Repr

namespace Rtp

/-- The longest packet that is parsed. -/
def RTP_PACKET_MAX_SIZE : Nat := 1500

/-- `sizeof(rtp_common_header)`. -/
def HEADER_LEN : Nat := 12

/-- The id and the length of `header_extension`. -/
def EXT_HEAD_LEN : Nat := 4

/-! ## Fields of the header -/

/-- `version`. -/
def version (data : Bytes) : UInt8 := data.getD 0 0 >>> 6

/-- `has_padding`. -/
def hasPadding (data : Bytes) : Bool := (data.getD 0 0 >>> 5) &&& 1 = 1

/-- `has_extension`. -/
def hasExtension (data : Bytes) : Bool := (data.getD 0 0 >>> 4) &&& 1 = 1

/-- `csrc_count`. -/
def csrcCount (data : Bytes) : UInt8 := data.getD 0 0 &&& 0x0f

/-- `get_marker`. -/
def getMarker (data : Bytes) : UInt8 := data.getD 1 0 >>> 7

/-- `get_payload_type`. -/
def getPayloadType (data : Bytes) : UInt8 := data.getD 1 0 &&& 0x7f

/-- `get_seq`. -/
def getSeq (data : Bytes) : UInt16 := read2bytes (data.drop 2)

/-- `get_timestamp`. -/
def getTimestamp (data : Bytes) : UInt32 := read4bytes (data.drop 4)

/-- `get_ssrc`. -/
def getSsrc (data : Bytes) : UInt32 := read4bytes (data.drop 8)

/-- A copy over the bytes from `at` on. -/
def writeAt (offset : Nat) (bytes data : Bytes) : Bytes :=
  data.take offset ++ bytes ++ data.drop (offset + bytes.length)

/-- `set_padding`. -/
def setPadding (flag : Bool) (data : Bytes) : Bytes :=
  data.set 0 ((data.getD 0 0 &&& 0xdf) ||| (if flag then 0x20 else 0))

/-- `set_payload_type`. -/
def setPayloadType (type : UInt8) (data : Bytes) : Bytes :=
  data.set 1 ((data.getD 1 0 &&& 0x80) ||| (type &&& 0x7f))

/-- `set_seq`. -/
def setSeq (seq : UInt16) (data : Bytes) : Bytes := writeAt 2 (write2bytes seq) data

/-- `set_ssrc`. -/
def setSsrc (ssrc : UInt32) (data : Bytes) : Bytes := writeAt 8 (write4bytes ssrc) data

/-! ## Reading -/

/-- Bytes that are read through a pointer.  Outside of the buffer the read is a fault. -/
def readBytes (data : Bytes) (offset len : Nat) : Except (Stop RtpError) Bytes :=
  if offset + len ≤ data.length then .ok ((data.drop offset).take len)
  else .error (.fault .outOfBounds)

/-- One byte of the buffer. -/
def readByte (data : Bytes) (offset : Nat) : Except (Stop RtpError) UInt8 := do
  return (← readBytes data offset 1).headD 0

/-- A field of two bytes. -/
def readField (data : Bytes) (offset : Nat) : Except (Stop RtpError) UInt16 := do
  return read2bytes (← readBytes data offset 2)

/-! ## Header extensions -/

/-- A form of header extensions: the head of an element, the id and the length of the
data in it, and the id that ends the elements. -/
structure ExtForm where
  headLen : Nat
  id : Bytes → UInt8
  len : Bytes → Nat
  ends : UInt8 → Bool
  error : UInt16 → RtpError

/-- `onebyte_extension`. -/
def onebyteExtension : ExtForm where
  headLen := 1
  id head := (head.headD 0 &&& 0xf0) >>> 4
  len head := (head.headD 0 &&& 0x0f).toNat + 1
  ends id := id = 0x0f
  error := .onebyteLength

/-- `twobytes_extension`. -/
def twobytesExtension : ExtForm where
  headLen := 2
  id head := head.headD 0
  len head := (head.getD 1 0).toNat
  ends _ := false
  error := .twobytesLength

/-- The elements by their id, as offsets. -/
abbrev ExtMap := OrderedMap Nat Nat

/-- The loop behind an element: it goes over the padding. -/
def skipZeros (data : Bytes) (extEnd : Nat) : Nat → Nat → Except (Stop RtpError) Nat
  | 0, _ => .error (.fault .hang)
  | turns + 1, p =>
    if p < extEnd then do
      let byte ← readByte data p
      if byte = 0 then skipZeros data extEnd turns (p + 1) else return p
    else return p

/-- The loop over the elements up to `extEnd`; `length` is the length of all of them. -/
def parseElements (form : ExtForm) (length : UInt16) (data : Bytes) (extEnd : Nat) :
    Nat → Nat → ExtMap → Except (Stop RtpError) ExtMap
  | 0, _, _ => .error (.fault .hang)
  | turns + 1, p, map =>
    if p + form.headLen ≤ extEnd then do
      let head ← readBytes data p form.headLen
      if form.ends (form.id head) then return map
      else if form.id head ≠ 0 then
        if p + form.headLen + form.len head > extEnd then .error (.thrown (form.error length))
        else
          let next ← skipZeros data extEnd (extEnd + 1) (p + form.headLen + form.len head)
          parseElements form length data extEnd turns next (map.assign (form.id head).toNat p)
      else
        let next ← skipZeros data extEnd (extEnd + 1) (p + 1)
        parseElements form length data extEnd turns next map
    else return map

/-- `get_ext_id`, of the extension at `ext`. -/
def getExtId (data : Bytes) (ext : Nat) : Except (Stop RtpError) UInt16 := readField data ext

/-- `get_ext_length`: the product is cut to 16 bits. -/
def getExtLength (data : Bytes) (ext : Nat) : Except (Stop RtpError) UInt16 := do
  return (← readField data (ext + 2)) * 4

/-- The elements behind the id and the length of an extension. -/
def parseForm (form : ExtForm) (data : Bytes) (ext : Nat) : Except (Stop RtpError) ExtMap := do
  let length ← getExtLength data ext
  let extEnd := ext + EXT_HEAD_LEN + length.toNat
  parseElements form length data extEnd (extEnd + 1) (ext + EXT_HEAD_LEN) OrderedMap.empty

/-- `parse_onebyte_ext`. -/
def parseOnebyteExt (data : Bytes) (ext : Nat) : Except (Stop RtpError) ExtMap :=
  parseForm onebyteExtension data ext

/-- `parse_twobytes_ext`. -/
def parseTwobytesExt (data : Bytes) (ext : Nat) : Except (Stop RtpError) ExtMap :=
  parseForm twobytesExtension data ext

/-- `parse_ext`, which gives the two maps.  The error has the id as it stands in memory. -/
def parseExt (data : Bytes) (ext : Option Nat) : Except (Stop RtpError) (ExtMap × ExtMap) :=
  match ext with
  | none => .ok (OrderedMap.empty, OrderedMap.empty)
  | some ext =>
    if !hasExtension data then .ok (OrderedMap.empty, OrderedMap.empty)
    else do
      let id ← getExtId data ext
      if id = 0xbede then return (← parseOnebyteExt data ext, OrderedMap.empty)
      else if id &&& 0xfff0 = 0x1000 then return (OrderedMap.empty, ← parseTwobytesExt data ext)
      else .error (.thrown (.extensionId (htons id)))

/-! ## Packets -/

/-- `rtp_packet`. -/
structure Packet where
  buffer : Bytes
  ext : Option Nat
  payload : Nat
  payloadLen : Nat
  padLen : UInt8
  dataLen : Nat
  localMs : Int
  isClone : Bool := false
  onebyteExtMap : ExtMap
  twobytesExtMap : ExtMap
  deriving DecidableEq

/-- The part of `parse` that goes over the extension, from the end of the CSRCs on. -/
def passExtension (data : Bytes) (p : Nat) : Except (Stop RtpError) (Option Nat × Nat) :=
  if hasExtension data then
    if data.length < p + 4 then .error (.thrown (.tooSmall data.length))
    else do
      let extensionByte := (← readField data (p + 2)).toNat * 4
      if data.length < p + 4 + extensionByte then .error (.thrown (.tooSmall data.length))
      else return (some p, p + 4 + extensionByte)
  else .ok (none, p)

/-- The part of `parse` before the payload: the extension and the end of the header. -/
def parseHeader (data : Bytes) : Except (Stop RtpError) (Option Nat × Nat) := do
  let _ ← readByte data 0
  let (ext, p) ← passExtension data (HEADER_LEN + 4 * (csrcCount data).toNat)
  if data.length ≤ p then .error (.thrown (.noPayload data.length))
  else return (ext, p)

/-- The part of `parse` that takes the padding from the payload. -/
def parsePadding (data : Bytes) (payload : Nat) : Except (Stop RtpError) (Nat × UInt8) :=
  let payloadLen := data.length - payload
  if hasPadding data then do
    let padLen ← readByte data (data.length - 1)
    if padLen > 0 then
      if payloadLen ≤ padLen.toNat then .error (.thrown (.padding payloadLen padLen))
      else return (payloadLen - padLen.toNat, padLen)
    else return (payloadLen, padLen)
  else .ok (payloadLen, 0)

/-- The constructor of `rtp_packet`, at the time `nowMs`. -/
def create (nowMs : Int) (data : Bytes) (ext : Option Nat) (payload payloadLen : Nat)
    (padLen : UInt8) (dataLen : Nat) : Except (Stop RtpError) Packet :=
  if dataLen > RTP_PACKET_MAX_SIZE then .error (.thrown (.tooLarge dataLen))
  else do
    let (onebyteExtMap, twobytesExtMap) ← parseExt data ext
    return { buffer := data, ext := ext, payload := payload, payloadLen := payloadLen
             padLen := padLen, dataLen := dataLen, localMs := nowMs
             onebyteExtMap := onebyteExtMap, twobytesExtMap := twobytesExtMap }

/-- `parse`, at the time `nowMs`. -/
def parse (nowMs : Int) (data : Bytes) : Except (Stop RtpError) Packet :=
  if data.length > RTP_PACKET_MAX_SIZE then .error (.thrown (.tooLarge data.length))
  else do
    let (ext, payload) ← parseHeader data
    let (payloadLen, padLen) ← parsePadding data payload
    create nowMs data ext payload payloadLen padLen data.length

namespace Packet

/-- The bytes of the packet. -/
def getData (p : Packet) : Bytes := p.buffer.take p.dataLen

/-- The payload of the packet. -/
def getPayload (p : Packet) : Bytes := (p.buffer.drop p.payload).take p.payloadLen

/-- `clone`: the bytes are parsed again. -/
def clone (nowMs : Int) (p : Packet) : Except (Stop RtpError) Packet := do
  return { (← parse nowMs p.getData) with isClone := true }

/-- `rtx_demux`: the number of the packet that is repaired stands before its payload. -/
def rtxDemux (ssrc : UInt32) (payloadtype : UInt8) (p : Packet) :
    Except (Stop RtpError) Packet := do
  if p.payloadLen < 2 then .error (.thrown (.rtxPayload p.payloadLen))
  else
    let replaceSeq ← readField p.buffer p.payload
    let buffer := setSsrc ssrc (setSeq replaceSeq (setPayloadType payloadtype p.buffer))
    let moved ← readBytes buffer (p.payload + 2) (p.payloadLen - 2)
    let p := { p with
      buffer := writeAt p.payload moved buffer
      payloadLen := p.payloadLen - 2
      dataLen := p.dataLen - 2 }
    if hasPadding p.buffer then
      return { p with
        buffer := setPadding false p.buffer
        dataLen := p.dataLen - p.padLen.toNat
        padLen := 0 }
    else return p

end Packet

end Rtp

end MediaServer
