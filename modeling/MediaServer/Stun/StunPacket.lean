import MediaServer.Utils.ByteCrypto

/-!
# STUN messages

`net/stun/stun_packet`: a message has a header of twenty bytes and attributes, each
of which is a type, a length and a value that is filled up to a multiple of four
bytes.  `parse` reads a datagram, `serialize` writes a message into the array
`data` of the packet and `check_auth` compares the code that stands in the
MESSAGE-INTEGRITY attribute with the one of the text before it.

The length in the header is not the same in the three places.  The code covers a
header whose length ends with the MESSAGE-INTEGRITY attribute, the fingerprint
covers one with the length of the whole message.
-/

namespace MediaServer

/-- How a call ends that does not return: with an exception, or outside of the
defined behaviour. -/
inductive Stop (ε : Type) where
  | thrown (e : ε)
  | fault (f : Fault)
  deriving DecidableEq, Repr

/-- `STUN_CLASS_ENUM`. -/
inductive StunClass where
  | request
  | indication
  | successResponse
  | errorResponse
  deriving DecidableEq, Repr

namespace StunClass

/-- The number of the class. -/
def code : StunClass → UInt16
  | .request => 0
  | .indication => 1
  | .successResponse => 2
  | .errorResponse => 3

/-- The class that two bits of the message type stand for. -/
def ofCode (code : UInt8) : StunClass :=
  if code = 0 then .request
  else if code = 1 then .indication
  else if code = 2 then .successResponse
  else .errorResponse

end StunClass

/-- The only value of `STUN_METHOD_ENUM`.  `parse` casts any number to it. -/
def BINDING : UInt16 := 1

/-- The attribute with the name of the user. -/
def STUN_USERNAME : UInt16 := 0x0006

/-- The attribute with the HMAC of the message. -/
def STUN_MESSAGE_INTEGRITY : UInt16 := 0x0008

/-- The attribute with the code of an error. -/
def STUN_ERROR_CODE : UInt16 := 0x0009

/-- The attribute with the address of the peer. -/
def STUN_XOR_MAPPED_ADDRESS : UInt16 := 0x0020

/-- The attribute with the priority of a candidate. -/
def STUN_PRIORITY : UInt16 := 0x0024

/-- The attribute that nominates a candidate. -/
def STUN_USE_CANDIDATE : UInt16 := 0x0025

/-- The attribute with the CRC of the message. -/
def STUN_FINGERPRINT : UInt16 := 0x8028

/-- The attribute of the controlled side. -/
def STUN_ICE_CONTROLLED : UInt16 := 0x8029

/-- The attribute of the controlling side. -/
def STUN_ICE_CONTROLLING : UInt16 := 0x802A

/-- The length of a STUN header. -/
def STUN_HEADER_SIZE : Nat := 20

/-- `sizeof(stun_packet::data)`. -/
def STUN_DATA_SIZE : Nat := 1500

/-- `STUN_AUTHENTICATION`. -/
inductive StunAuthentication where
  | ok
  | unauthorized
  | badRequest
  deriving DecidableEq, Repr

/-- The exceptions of `parse` and `serialize`. -/
inductive StunError where
  | notStun
  | messageLen
  | packetTooLarge
  | attributeTooLong
  | fingerprintNotLast
  | afterMessageIntegrity
  | attributeLen (attrType : UInt16)
  | dataOffset
  | fingerprint
  | dataEnd
  deriving DecidableEq, Repr

/-- The bytes in memory of a `sockaddr_in`, whose family is always `AF_INET` here. -/
structure SockaddrIn where
  sinPort : Bytes
  sinAddr : Bytes
  deriving DecidableEq, Repr

/-- `stun_packet`.  The defaults are those of `stun_packet()`. -/
structure StunPacket where
  stunClass : StunClass
  stunMethod : UInt16
  transactionId : Bytes
  userName : Bytes := []
  password : Bytes := []
  priority : UInt32 := 0
  iceControlling : UInt64 := 0
  iceControlled : UInt64 := 0
  fingerprint : UInt32 := 0
  errorCode : UInt16 := 0
  /-- Where `message_integrity` points to, counted from `origin_data`. -/
  messageIntegrity : Option Nat := none
  xorAddress : Option SockaddrIn := none
  hasUseCandidate : Bool := false
  hasFingerprint : Bool := false
  /-- The bytes at `origin_data` when it does not point to `data`. -/
  originData : Option Bytes := none
  data : Bytes := List.replicate STUN_DATA_SIZE 0
  dataLen : Nat := 0
  deriving DecidableEq, Repr

/-- The four bytes behind the length of a message. -/
def magicCookie : Bytes := [0x21, 0x12, 0xA4, 0x42]

/-- `pad_to_4bytes`. -/
def padTo4bytes (size : UInt16) : UInt16 :=
  if size &&& 0x03 ≠ 0 then (size &&& 0xFFFC) + 4 else size

namespace StunPacket

/-- The bytes of a message. -/
def wire (pkt : StunPacket) : Bytes := pkt.data.take pkt.dataLen

/-- The bytes that `origin_data` points to. -/
def origin (pkt : StunPacket) : Bytes := pkt.originData.getD pkt.data

/-- `write_2bytes(data + 2, len)`. -/
def writeLength (data : Bytes) (len : UInt16) : Bytes :=
  data.take 2 ++ write2bytes len ++ data.drop 4

/-! ## Reading -/

/-- `is_stun`. -/
def isStun (data : Bytes) : Bool :=
  decide (STUN_HEADER_SIZE ≤ data.length) && decide (data.getD 0 0 < 3) &&
    decide ((data.drop 4).take 4 = magicCookie)

/-- The local variables of `parse`. -/
structure ParseState where
  retPacket : StunPacket
  hasFingerprint : Bool := false
  hasMessageIntegrity : Bool := false
  fingerprintPos : Nat := 0

/-- The switch over `attr_type`, for a value that starts at `pos`. -/
def parseAttribute (attrType : UInt16) (attrData : Bytes) (pos : Nat) (st : ParseState) :
    Except StunError ParseState :=
  let attrLen := attrData.length
  if attrType = STUN_USERNAME then
    .ok { st with retPacket.userName := attrData }
  else if attrType = STUN_PRIORITY then
    if attrLen ≠ 4 then .error (.attributeLen attrType)
    else .ok { st with retPacket.priority := read4bytes attrData }
  else if attrType = STUN_ICE_CONTROLLING then
    if attrLen ≠ 8 then .error (.attributeLen attrType)
    else .ok { st with retPacket.iceControlling := read8bytes attrData }
  else if attrType = STUN_ICE_CONTROLLED then
    if attrLen ≠ 8 then .error (.attributeLen attrType)
    else .ok { st with retPacket.iceControlled := read8bytes attrData }
  else if attrType = STUN_USE_CANDIDATE then
    if attrLen ≠ 0 then .error (.attributeLen attrType)
    else .ok { st with retPacket.hasUseCandidate := true }
  else if attrType = STUN_MESSAGE_INTEGRITY then
    if attrLen ≠ 20 then .error (.attributeLen attrType)
    else .ok { st with hasMessageIntegrity := true, retPacket.messageIntegrity := some pos }
  else if attrType = STUN_FINGERPRINT then
    if attrLen ≠ 4 then .error (.attributeLen attrType)
    else .ok { st with
      hasFingerprint := true, fingerprintPos := pos - 4,
      retPacket.fingerprint := read4bytes attrData }
  else if attrType = STUN_ERROR_CODE then
    let errorClass := (attrData.getD 2 0).toNat
    let errorNumber := (attrData.getD 3 0).toNat
    if attrLen ≠ 4 then .error (.attributeLen attrType)
    else .ok { st with retPacket.errorCode := UInt16.ofNat (errorClass * 100 + errorNumber) }
  else .ok st

/-- The loop over the attributes.  `p` is the offset of the read pointer and `rest`
are the bytes from there on.  A turn takes at least four bytes, so that `fuel` is
enough when there are fewer bytes. -/
def parseAttributes : Nat → Nat → Bytes → ParseState → Except (Stop StunError) (Nat × ParseState)
  | 0, _, _, _ => .error (.fault .hang)
  | fuel + 1, p, rest, st =>
    if rest.length ≤ 4 then .ok (p, st)
    else
      let attrType := read2bytes rest
      let attrLen := read2bytes (rest.drop 2)
      let attrData := rest.drop 4
      if attrData.length < attrLen.toNat then .error (.thrown .attributeTooLong)
      else if st.hasFingerprint then .error (.thrown .fingerprintNotLast)
      else if st.hasMessageIntegrity ∧ attrType ≠ STUN_FINGERPRINT then
        .error (.thrown .afterMessageIntegrity)
      else
        let skipLen := (padTo4bytes attrLen).toNat
        match parseAttribute attrType (attrData.take attrLen.toNat) (p + 4) st with
        | .error e => .error (.thrown e)
        | .ok st => parseAttributes fuel (p + 4 + skipLen) (attrData.drop skipLen) st

/-- `msg_method`. -/
def methodOf (msgType : UInt16) : UInt16 :=
  (msgType &&& (0x000f : UInt16)) ||| ((msgType &&& (0x00e0 : UInt16)) >>> (1 : UInt16)) |||
    ((msgType &&& (0x3E00 : UInt16)) >>> (2 : UInt16))

/-- `msg_class`. -/
def classOf (data : Bytes) : StunClass :=
  .ofCode (((data.getD 0 0 &&& (0x01 : UInt8)) <<< (1 : UInt8)) |||
    ((data.getD 1 0 &&& (0x10 : UInt8)) >>> (4 : UInt8)))

/-- `stun_packet(data, len)` with the fields of the header. -/
def ofHeader (data : Bytes) : StunPacket where
  stunClass := classOf data
  stunMethod := methodOf (read2bytes data)
  transactionId := (data.drop 8).take 12
  originData := some data
  data := data ++ List.replicate (STUN_DATA_SIZE - data.length) 0
  dataLen := data.length

/-- `caculate_fingerprint`. -/
def caculateFingerprint (signed : Bytes) : UInt32 := ByteCrypto.getCrc32 signed ^^^ 0x5354554e

/-- `parse`. -/
def parse (data : Bytes) : Except (Stop StunError) StunPacket :=
  let msgLen := read2bytes (data.drop 2)
  if !isStun data then .error (.thrown .notStun)
  else if msgLen.toNat ≠ data.length - 20 ∨ msgLen &&& 0x03 ≠ 0 then .error (.thrown .messageLen)
  else if data.length > STUN_DATA_SIZE then .error (.thrown .packetTooLarge)
  else
    let attributes := data.drop STUN_HEADER_SIZE
    match parseAttributes (attributes.length + 1) STUN_HEADER_SIZE attributes
        { retPacket := ofHeader data } with
    | .error e => .error e
    | .ok (p, st) =>
      if p ≠ data.length then .error (.thrown .dataOffset)
      else if st.hasFingerprint then
        if st.retPacket.fingerprint ≠ caculateFingerprint (data.take st.fingerprintPos) then
          .error (.thrown .fingerprint)
        else .ok { st.retPacket with hasFingerprint := true }
      else .ok st.retPacket

/-! ## Writing -/

/-- An attribute whose value needs no filling. -/
def attr (attrType : UInt16) (attrData : Bytes) : Bytes :=
  write2bytes attrType ++ write2bytes (UInt16.ofNat attrData.length) ++ attrData

/-- `type_field`. -/
def typeField (pkt : StunPacket) : UInt16 :=
  ((pkt.stunMethod &&& (0x0f80 : UInt16)) <<< (2 : UInt16)) |||
    ((pkt.stunMethod &&& (0x0070 : UInt16)) <<< (1 : UInt16)) |||
    (pkt.stunMethod &&& (0x000f : UInt16)) |||
    ((pkt.stunClass.code &&& (0x02 : UInt16)) <<< (7 : UInt16)) |||
    ((pkt.stunClass.code &&& (0x01 : UInt16)) <<< (4 : UInt16))

/-- `add_msg_integrity`. -/
def addMsgIntegrity (pkt : StunPacket) : Bool :=
  decide (pkt.stunClass ≠ .errorResponse) && !pkt.password.isEmpty

/-- `add_error`. -/
def addError (pkt : StunPacket) : Bool :=
  decide (pkt.errorCode ≠ 0) && decide (pkt.stunClass = .errorResponse)

/-- The address that goes into the message, if there is one (`add_xor_address`). -/
def addXorAddress (pkt : StunPacket) : Option SockaddrIn :=
  if pkt.stunMethod = BINDING ∧ pkt.stunClass = .successResponse then pkt.xorAddress else none

/-- The length of the user name with its filling. -/
def userNamePadLen (pkt : StunPacket) : Nat :=
  (padTo4bytes (UInt16.ofNat pkt.userName.length)).toNat

/-- The length that `serialize` computes before it writes. -/
def serializedLen (pkt : StunPacket) : Nat :=
  STUN_HEADER_SIZE + (if pkt.userName.isEmpty then 0 else 4 + pkt.userNamePadLen) +
    (if pkt.priority = 0 then 0 else 4 + 4) + (if pkt.iceControlling = 0 then 0 else 4 + 8) +
    (if pkt.iceControlled = 0 then 0 else 4 + 8) + (if pkt.hasUseCandidate then 4 else 0) +
    (if pkt.addXorAddress.isSome then 4 + 8 else 0) + (if pkt.addError then 4 + 4 else 0) +
    (if pkt.addMsgIntegrity then 4 + 20 else 0) + (4 + 4)

/-- The header of the message. -/
def header (pkt : StunPacket) : Bytes :=
  write2bytes pkt.typeField ++
    write2bytes (UInt16.ofNat (pkt.serializedLen - STUN_HEADER_SIZE)) ++
    magicCookie ++ pkt.transactionId

/-- The user name is not filled up with zeros: the write pointer moves over what
was in `data` before. -/
def userNameAttribute (pkt : StunPacket) : Bytes :=
  if pkt.userName.isEmpty then []
  else attr STUN_USERNAME pkt.userName ++
    (pkt.data.drop (STUN_HEADER_SIZE + 4 + pkt.userName.length)).take
      (pkt.userNamePadLen - pkt.userName.length)

/-- The value of XOR-MAPPED-ADDRESS. -/
def xorMappedAddress (address : SockaddrIn) : Bytes :=
  [0, 0x01] ++ address.sinPort.zipWith (· ^^^ ·) magicCookie ++
    address.sinAddr.zipWith (· ^^^ ·) magicCookie

/-- The value of ERROR-CODE. -/
def errorValue (errorCode : UInt16) : Bytes :=
  let codeClass := (errorCode / 100).toUInt8
  let codeNumber := errorCode.toUInt8 - codeClass * 100
  write2bytes 0 ++ [codeClass, codeNumber]

/-- The message up to MESSAGE-INTEGRITY. -/
def body (pkt : StunPacket) : Bytes :=
  pkt.header ++ pkt.userNameAttribute ++
    (if pkt.priority = 0 then [] else attr STUN_PRIORITY (write4bytes pkt.priority)) ++
    (if pkt.iceControlling = 0 then []
      else attr STUN_ICE_CONTROLLING (write8bytes pkt.iceControlling)) ++
    (if pkt.iceControlled = 0 then []
      else attr STUN_ICE_CONTROLLED (write8bytes pkt.iceControlled)) ++
    (if pkt.hasUseCandidate then attr STUN_USE_CANDIDATE [] else []) ++
    (match pkt.addXorAddress with
      | some address => attr STUN_XOR_MAPPED_ADDRESS (xorMappedAddress address)
      | none => []) ++
    (if pkt.addError then attr STUN_ERROR_CODE (errorValue pkt.errorCode) else [])

/-- The code of the message, over a header whose length leaves out the
fingerprint. -/
def integrity (hmac : HmacSha1) (pkt : StunPacket) : Bytes :=
  hmac.code pkt.password
    (writeLength pkt.body (UInt16.ofNat (pkt.serializedLen - STUN_HEADER_SIZE - 8)))

/-- MESSAGE-INTEGRITY, if it goes into the message. -/
def integrityAttribute (hmac : HmacSha1) (pkt : StunPacket) : Bytes :=
  if pkt.addMsgIntegrity then attr STUN_MESSAGE_INTEGRITY (integrity hmac pkt) else []

/-- The message up to the fingerprint. -/
def signed (hmac : HmacSha1) (pkt : StunPacket) : Bytes :=
  pkt.body ++ integrityAttribute hmac pkt

/-- Everything that `serialize` writes. -/
def written (hmac : HmacSha1) (pkt : StunPacket) : Bytes :=
  signed hmac pkt ++
    attr STUN_FINGERPRINT (write4bytes (caculateFingerprint (signed hmac pkt)))

/-- The copy of the user name and the rest of the message have to stay in `data`. -/
def serialize (hmac : HmacSha1) (pkt : StunPacket) : Except (Stop StunError) StunPacket :=
  let bytes := written hmac pkt
  if STUN_DATA_SIZE < STUN_HEADER_SIZE + 4 + pkt.userName.length ∨
      STUN_DATA_SIZE < bytes.length then .error (.fault .outOfBounds)
  else if bytes.length ≠ pkt.serializedLen then .error (.thrown .dataEnd)
  else .ok { pkt with
    data := bytes ++ pkt.data.drop bytes.length
    dataLen := pkt.serializedLen
    messageIntegrity := if pkt.addMsgIntegrity then some (pkt.body.length + 4) else none
    hasFingerprint := true }

/-! ## Authentication -/

/-- The user name starts with the local one and a colon. -/
def namesLocal (pkt : StunPacket) (localUsername : Bytes) : Bool :=
  decide (localUsername.length < pkt.userName.length) &&
    decide (pkt.userName.getD localUsername.length 0 = ':'.toNat.toUInt8) &&
    decide (pkt.userName.take localUsername.length = localUsername)

/-- The packet with other bytes at `origin_data`. -/
def setOrigin (pkt : StunPacket) (bytes : Bytes) : StunPacket :=
  match pkt.originData with
  | some _ => { pkt with originData := some bytes }
  | none => { pkt with data := bytes }

/-- The second half of `check_auth`, and the packet after it: the length at
`origin_data` is changed while the code is computed. -/
def checkIntegrity (hmac : HmacSha1) (pkt : StunPacket) (localPwd : Bytes) :
    Except Fault (StunAuthentication × StunPacket) :=
  let signed := if pkt.hasFingerprint
    then writeLength pkt.origin (UInt16.ofNat pkt.dataLen - 20 - 8) else pkt.origin
  match pkt.messageIntegrity with
  | none => .error .nullPointer
  | some pos =>
    let ret := if hmac.code localPwd (signed.take (pos - 4)) = (signed.drop pos).take 20
      then .ok else .unauthorized
    .ok (ret, pkt.setOrigin (writeLength signed (UInt16.ofNat pkt.dataLen - 20)))

/-- `check_auth`. -/
def checkAuth (hmac : HmacSha1) (pkt : StunPacket) (localUsername localPwd : Bytes) :
    Except Fault (StunAuthentication × StunPacket) :=
  match pkt.stunClass with
  | .successResponse | .errorResponse => .ok (.badRequest, pkt)
  | .request | .indication =>
    if pkt.userName.isEmpty then .ok (.badRequest, pkt)
    else if !pkt.namesLocal localUsername then .ok (.unauthorized, pkt)
    else pkt.checkIntegrity hmac localPwd

/-- `create_success_response`. -/
def createSuccessResponse (pkt : StunPacket) : StunPacket where
  stunClass := .successResponse
  stunMethod := pkt.stunMethod
  transactionId := pkt.transactionId

/-- `create_error_response`. -/
def createErrorResponse (pkt : StunPacket) (errCode : UInt16) : StunPacket where
  stunClass := .errorResponse
  stunMethod := pkt.stunMethod
  password := pkt.password
  transactionId := pkt.transactionId
  errorCode := errCode

end StunPacket

end MediaServer
