import MediaServer.Stun.StunGrammar
import MediaServer.Webrtc.Routing

/-!
# The address in a binding response

A binding response tells the peer the address that its request has come from.  The
address goes through three functions: `get_ipv4_sockaddr` makes a `sockaddr` of a
text and a port, `serialize` copies two of its fields and combines them with the
magic cookie byte by byte, and `on_handle_stun_packet` puts the two together.

`decodeXorMappedAddress` is the reader on the other side, which takes both fields as
big-endian numbers.  `decode_serialize` says what it reads from any response that
carries a `sockaddr`: the port is stored in the order of the host, so its two bytes
come out swapped.
-/

namespace MediaServer

/-- An address of four bytes, the first one most significant. -/
structure Ipv4 where
  a : UInt8
  b : UInt8
  c : UInt8
  d : UInt8
  deriving DecidableEq, Repr

namespace Ipv4

/-- The address in network byte order. -/
def octets (ip : Ipv4) : Bytes := [ip.a, ip.b, ip.c, ip.d]

/-- The number that the four bytes stand for. -/
def value (ip : Ipv4) : UInt32 := read4bytes ip.octets

/-- The dotted text of an address. -/
def text (ip : Ipv4) : Bytes :=
  decimal ip.a.toNat ++ ascii "." ++ decimal ip.b.toNat ++ ascii "." ++ decimal ip.c.toNat ++
    ascii "." ++ decimal ip.d.toNat

end Ipv4

namespace StunPacket

/-! ## Reading a response -/

/-- The value of the first attribute of a type.  An attribute takes at least four
bytes, so that `fuel` is enough when there are not more bytes. -/
def findAttribute (attrType : UInt16) : Nat → Bytes → Option Bytes
  | 0, _ => none
  | fuel + 1, rest =>
    let attrLen := (read2bytes (rest.drop 2)).toNat
    if rest.length < 4 + attrLen then none
    else if read2bytes rest = attrType then some ((rest.drop 4).take attrLen)
    else findAttribute attrType fuel ((rest.drop 4).drop ((attrLen + 3) / 4 * 4))

/-- The port and the address of XOR-MAPPED-ADDRESS, whose family has to be IPv4. -/
def decodeXorMappedAddress (data : Bytes) : Option (UInt16 × UInt32) :=
  (findAttribute STUN_XOR_MAPPED_ADDRESS data.length (data.drop STUN_HEADER_SIZE)).bind fun value =>
    if value.length = 8 ∧ value.getD 1 0 = 0x01 then
      some (read2bytes (value.drop 2) ^^^ 0x2112, read4bytes (value.drop 4) ^^^ 0x2112A442)
    else none

variable {attrType : UInt16} {attrData tail : Bytes} {attributes : List Attribute}

theorem read2bytes_attr : read2bytes (attr attrType attrData ++ tail) = attrType := by
  rw [attr, List.append_assoc, List.append_assoc]
  exact read2bytes_write2bytes _ _

/-- The two fields in front of a value. -/
theorem attrLen_attr (hlen : attrData.length < 65536) :
    (read2bytes ((attr attrType attrData ++ tail).drop 2)).toNat = attrData.length := by
  have hdrop : (attr attrType attrData ++ tail).drop 2 =
      write2bytes (UInt16.ofNat attrData.length) ++ (attrData ++ tail) := by
    rw [attr, List.append_assoc, List.append_assoc]
    exact List.drop_left' (write2bytes_length _)
  rw [hdrop, read2bytes_write2bytes, UInt16.toNat_ofNat_of_lt' hlen]

theorem drop_attr : (attr attrType attrData ++ tail).drop 4 = attrData ++ tail := by
  rw [attr, List.append_assoc]
  apply List.drop_left'
  simp

theorem findAttribute_attr {fuel : Nat} (hlen : attrData.length < 65536) :
    findAttribute attrType (fuel + 1) (attr attrType attrData ++ tail) = some attrData := by
  have hsize : ¬(attr attrType attrData ++ tail).length < 4 + attrData.length := by
    rw [List.length_append, attr_length]
    omega
  rw [findAttribute, attrLen_attr hlen, if_neg hsize, if_pos read2bytes_attr, drop_attr,
    List.take_left]

/-- Attributes of other types are passed by. -/
theorem findAttribute_wires {fuel : Nat} (hother : ∀ a ∈ attributes, a.attrType ≠ attrType) :
    findAttribute attrType (attributes.length + fuel) (wires attributes ++ tail) =
      findAttribute attrType fuel tail := by
  induction attributes with
  | nil => simp
  | cons a attributes ih =>
    obtain ⟨hne, hother⟩ := List.forall_mem_cons.mp hother
    have hwire : wires (a :: attributes) ++ tail =
        attr a.attrType a.value ++ (a.filling ++ (wires attributes ++ tail)) := by
      rw [wires_cons, Attribute.wire, List.append_assoc, List.append_assoc]
    have hsize : ¬(wires (a :: attributes) ++ tail).length < 4 + a.value.length := by
      rw [hwire, List.length_append, attr_length]
      omega
    rw [hwire] at hsize
    rw [hwire, List.length_cons, Nat.add_right_comm, findAttribute, attrLen_attr a.short,
      if_neg hsize, if_neg (by rwa [read2bytes_attr]), drop_attr, ← List.append_assoc,
      ← a.padded, ← List.length_append, List.drop_left, ih hother]

/-! ## The response -/

/-- A piece of a message that is attributes of other types. -/
def Others (piece : Bytes) : Prop :=
  ∃ attributes : List Attribute, piece = wires attributes ∧
    ∀ a ∈ attributes, a.attrType ≠ STUN_XOR_MAPPED_ADDRESS

theorem Others.append {before after : Bytes} (hbefore : Others before) (hafter : Others after) :
    Others (before ++ after) := by
  obtain ⟨as, rfl, has⟩ := hbefore
  obtain ⟨bs, rfl, hbs⟩ := hafter
  refine ⟨as ++ bs, wires_append.symm, ?_⟩
  intro a ha
  rcases List.mem_append.mp ha with ha | ha
  · exact has a ha
  · exact hbs a ha

theorem others_attr {filling : Bytes} (hlen : attrData.length < 65536)
    (hpadded : attrData.length + filling.length = (attrData.length + 3) / 4 * 4)
    (hne : attrType ≠ STUN_XOR_MAPPED_ADDRESS) : Others (attr attrType attrData ++ filling) := by
  refine ⟨[⟨attrType, attrData, filling, hlen, hpadded⟩], ?_, ?_⟩
  · simp [Attribute.wire]
  · intro a ha
    rw [List.mem_singleton.mp ha]
    exact hne

theorem others_optional {c : Prop} [Decidable c] (hlen : attrData.length < 65536)
    (hfour : attrData.length % 4 = 0) (hne : attrType ≠ STUN_XOR_MAPPED_ADDRESS) :
    Others (if c then [] else attr attrType attrData) := by
  split
  · exact ⟨[], rfl, by simp⟩
  · have hpadded : attrData.length + ([] : Bytes).length = (attrData.length + 3) / 4 * 4 := by
      rw [List.length_nil]
      omega
    simpa using others_attr hlen hpadded hne

/-- What `on_handle_stun_packet` and the type of a packet say about the answer to a
request from `address`.  All other fields are free. -/
structure AnswersTo (libs : RtcLibs) (address : UdpTuple) (resp : StunPacket) : Prop where
  binding : resp.stunMethod = BINDING
  success : resp.stunClass = .successResponse
  xorAddress : resp.xorAddress = some (getIpv4Sockaddr libs address)
  transactionId : resp.transactionId.length = 12
  dataSize : resp.data.length = STUN_DATA_SIZE

variable {libs : RtcLibs} {address : UdpTuple} {resp out : StunPacket}

theorem others_userName (hsize : resp.data.length = STUN_DATA_SIZE)
    (hroom : STUN_HEADER_SIZE + 4 + resp.userName.length ≤ STUN_DATA_SIZE) :
    Others resp.userNameAttribute := by
  rw [STUN_HEADER_SIZE, STUN_DATA_SIZE] at hroom
  rw [STUN_DATA_SIZE] at hsize
  rw [userNameAttribute]
  split
  · exact ⟨[], rfl, by simp⟩
  · have hpad : resp.userNamePadLen = (resp.userName.length + 3) / 4 * 4 :=
      padTo4bytes_toNat (by omega)
    refine others_attr (by omega) ?_ (by decide)
    rw [List.length_take, List.length_drop, hpad, hsize, STUN_HEADER_SIZE]
    omega

/-- The message around XOR-MAPPED-ADDRESS. -/
theorem AnswersTo.written_eq (h : AnswersTo libs address resp)
    (hroom : STUN_HEADER_SIZE + 4 + resp.userName.length ≤ STUN_DATA_SIZE) :
    ∃ before after, Others before ∧
      written libs.hmac resp = resp.header ++ (before ++ (attr STUN_XOR_MAPPED_ADDRESS
        (xorMappedAddress (getIpv4Sockaddr libs address)) ++ after)) := by
  have haddress : resp.addXorAddress = some (getIpv4Sockaddr libs address) := by
    rw [addXorAddress, if_pos ⟨h.binding, h.success⟩, h.xorAddress]
  have huse : Others (if resp.hasUseCandidate then attr STUN_USE_CANDIDATE [] else []) := by
    rw [← ite_not]
    exact others_optional (by decide) (by decide) (by decide)
  have hpriority : Others (if resp.priority = 0 then []
      else attr STUN_PRIORITY (write4bytes resp.priority)) :=
    others_optional (by simp) (by simp) (by decide)
  have hcontrolling : Others (if resp.iceControlling = 0 then []
      else attr STUN_ICE_CONTROLLING (write8bytes resp.iceControlling)) :=
    others_optional (by simp) (by simp) (by decide)
  have hcontrolled : Others (if resp.iceControlled = 0 then []
      else attr STUN_ICE_CONTROLLED (write8bytes resp.iceControlled)) :=
    others_optional (by simp) (by simp) (by decide)
  refine ⟨_, (if resp.addError then attr STUN_ERROR_CODE (errorValue resp.errorCode) else []) ++
    (integrityAttribute libs.hmac resp ++
      attr STUN_FINGERPRINT (write4bytes (caculateFingerprint (signed libs.hmac resp)))),
    (others_userName h.dataSize hroom).append (hpriority.append
      (hcontrolling.append (hcontrolled.append huse))), ?_⟩
  rw [written, signed, body, haddress]
  simp only [List.append_assoc]

theorem length_le_wires (attributes : List Attribute) :
    4 * attributes.length ≤ (wires attributes).length := by
  induction attributes with
  | nil => simp
  | cons a attributes ih =>
    rw [wires_cons, List.length_append, Attribute.wire_length, List.length_cons]
    omega

/-- Reading XOR-MAPPED-ADDRESS gives the bytes of the `sockaddr` as big-endian
numbers. -/
theorem read_xorMappedAddress (p₁ p₀ a b c d : UInt8) :
    read2bytes ((xorMappedAddress ⟨[p₁, p₀], [a, b, c, d]⟩).drop 2) ^^^ 0x2112 =
        read2bytes [p₁, p₀] ∧
      read4bytes ((xorMappedAddress ⟨[p₁, p₀], [a, b, c, d]⟩).drop 4) ^^^ 0x2112A442 =
        read4bytes [a, b, c, d] := by
  have hport : read2bytes ((xorMappedAddress ⟨[p₁, p₀], [a, b, c, d]⟩).drop 2) =
      UInt16.ofNat (BigEndian.value (List.zipWith (· ^^^ ·) [p₁, p₀] [0x21, 0x12])) := rfl
  have haddr : read4bytes ((xorMappedAddress ⟨[p₁, p₀], [a, b, c, d]⟩).drop 4) =
      UInt32.ofNat (BigEndian.value (List.zipWith (· ^^^ ·) [a, b, c, d] magicCookie)) := rfl
  have hport' := @BigEndian.value_zipWith_xor [p₁, p₀] [0x21, 0x12] rfl
  have haddr' := @BigEndian.value_zipWith_xor [a, b, c, d] magicCookie rfl
  constructor
  · rw [hport, hport', UInt16.ofNat_xor, UInt16.xor_assoc]
    exact UInt16.xor_zero
  · rw [haddr, haddr', UInt32.ofNat_xor, UInt32.xor_assoc]
    exact UInt32.xor_zero

theorem serialize_ok (h : resp.serialize libs.hmac = .ok out) :
    STUN_HEADER_SIZE + 4 + resp.userName.length ≤ STUN_DATA_SIZE ∧
      out.wire = written libs.hmac resp := by
  rw [serialize] at h
  split at h
  · cases h
  · rename_i hroom
    split at h
    · cases h
    · rename_i hlen
      cases h
      refine ⟨by omega, ?_⟩
      rw [wire, ← not_not.mp hlen, List.take_left]

/-- The bytes of a port, the first one most significant. -/
theorem write2bytes_eq (port : UInt16) :
    write2bytes port = [UInt8.ofNat (port.toNat / 256), UInt8.ofNat port.toNat] := by
  simp [write2bytes, BigEndian.digits]

/-- What a peer reads from a response: the address, and the port with its two bytes
swapped. -/
theorem decode_serialize {ip : Ipv4} {port : UInt16} (hpton : libs.inetPton ip.text = ip.octets)
    (h : AnswersTo libs ⟨ip.text, port⟩ resp) (hout : resp.serialize libs.hmac = .ok out) :
    decodeXorMappedAddress out.wire = some (read2bytes (write2bytes port).reverse, ip.value) := by
  obtain ⟨hroom, hwire⟩ := serialize_ok hout
  obtain ⟨before, after, ⟨attributes, rfl, hother⟩, hwritten⟩ := h.written_eq hroom
  have hheader : resp.header.length = STUN_HEADER_SIZE := by
    simp [header, h.transactionId, magicCookie, STUN_HEADER_SIZE]
  have haddress : getIpv4Sockaddr libs ⟨ip.text, port⟩ =
      ⟨[UInt8.ofNat port.toNat, UInt8.ofNat (port.toNat / 256)], [ip.a, ip.b, ip.c, ip.d]⟩ := by
    rw [getIpv4Sockaddr, hpton, write2bytes_eq]
    rfl
  have hvalue : (xorMappedAddress (getIpv4Sockaddr libs ⟨ip.text, port⟩)).length = 8 := by
    rw [haddress]
    rfl
  have hfuel : ∃ fuel, (written libs.hmac resp).length = attributes.length + (fuel + 1) := by
    have hattributes := length_le_wires attributes
    have hlong : attributes.length + 1 ≤ (written libs.hmac resp).length := by
      rw [hwritten, List.length_append, List.length_append, hheader, STUN_HEADER_SIZE]
      omega
    obtain ⟨fuel, hfuel⟩ := Nat.exists_eq_add_of_le hlong
    exact ⟨fuel, by omega⟩
  obtain ⟨fuel, hfuel⟩ := hfuel
  have hread := read_xorMappedAddress (UInt8.ofNat port.toNat) (UInt8.ofNat (port.toNat / 256))
    ip.a ip.b ip.c ip.d
  rw [← haddress] at hread
  rw [decodeXorMappedAddress, hwire, hfuel, hwritten, List.drop_left' hheader,
    findAttribute_wires hother, findAttribute_attr (by omega), Option.bind_some,
    if_pos ⟨hvalue, rfl⟩, hread.1, hread.2, write2bytes_eq]
  rfl

/-- A response without a user name can be written. -/
theorem exists_serialize (hmac : HmacSha1) (htransaction : resp.transactionId.length = 12)
    (hname : resp.userName = [])
    (haddress : ∀ a, resp.addXorAddress = some a → (xorMappedAddress a).length = 8) :
    ∃ out, resp.serialize hmac = .ok out := by
  have hheader : resp.header.length = 20 := by
    simp [header, htransaction, magicCookie]
  have hlen : (written hmac resp).length = resp.serializedLen := by
    simp only [written, signed, integrityAttribute, body, userNameAttribute, hname,
      List.isEmpty_nil, if_true, List.length_append, hheader, serializedLen, STUN_HEADER_SIZE,
      apply_ite List.length, attr_length, write4bytes_length, write8bytes_length,
      errorValue_length, integrity_length, List.length_nil]
    cases hadd : resp.addXorAddress with
    | none => rfl
    | some a => simp only [attr_length, haddress a hadd, Option.isSome_some, if_true]
  have hfits : resp.serializedLen ≤ 108 := by
    simp only [serializedLen, hname, List.isEmpty_nil, if_true, STUN_HEADER_SIZE]
    split_ifs <;> omega
  have hroom : ¬(STUN_DATA_SIZE < STUN_HEADER_SIZE + 4 + resp.userName.length ∨
      STUN_DATA_SIZE < (written hmac resp).length) := by
    rw [hname, hlen, STUN_DATA_SIZE, STUN_HEADER_SIZE, List.length_nil]
    omega
  exact ⟨_, by rw [serialize, if_neg hroom, if_neg (not_not.mpr hlen)]⟩

/-- Swapping the bytes of a port leaves it only when they are equal. -/
theorem read2bytes_reverse_eq_iff (port : UInt16) :
    read2bytes (write2bytes port).reverse = port ↔ port.toNat / 256 = port.toNat % 256 := by
  have hlt := port.toNat_lt
  have hhigh : port.toNat / 256 % 256 = port.toNat / 256 := Nat.mod_eq_of_lt (by omega)
  have hswap : (read2bytes (write2bytes port).reverse).toNat =
      port.toNat % 256 * 256 + port.toNat / 256 := by
    rw [write2bytes_eq]
    show (UInt16.ofNat ((UInt8.ofNat port.toNat).toNat * 256 ^ 1 +
      ((UInt8.ofNat (port.toNat / 256)).toNat * 256 ^ 0 + 0))).toNat = _
    rw [UInt8.toNat_ofNat', UInt8.toNat_ofNat', UInt16.toNat_ofNat']
    simp only [Nat.reducePow, hhigh]
    omega
  rw [← UInt16.toNat_inj, hswap]
  omega

end StunPacket

namespace WebrtcSession

open StunPacket

/-! ## The session -/

/-- A request that the session answers with a success. -/
structure Accepted (libs : RtcLibs) (s : WebrtcSession) (pkt : StunPacket) : Prop where
  binding : pkt.stunMethod = BINDING
  fingerprint : pkt.hasFingerprint = true
  request : pkt.stunClass = .request
  messageIntegrity : pkt.messageIntegrity ≠ none
  priority : pkt.priority ≠ 0
  userName : pkt.userName ≠ []
  authenticated : ∃ pkt',
    pkt.checkAuth libs.hmac s.usernameFragment.text s.userPwd.text = .ok (.ok, pkt')
  notControlled : pkt.iceControlled = 0

variable {libs : RtcLibs} {pkt pkt' resp : StunPacket} {name pwd : Bytes}
  {ret : StunAuthentication} {ip : Ipv4} {port : UInt16} {s : WebrtcSession}

/-- `check_auth` changes at most bytes at `origin_data`. -/
theorem checkAuth_keeps (h : pkt.checkAuth libs.hmac name pwd = .ok (ret, pkt')) :
    pkt'.stunMethod = pkt.stunMethod ∧ pkt'.transactionId = pkt.transactionId ∧
      pkt'.iceControlled = pkt.iceControlled := by
  have hkeeps : ∀ bytes, (pkt.setOrigin bytes).stunMethod = pkt.stunMethod ∧
      (pkt.setOrigin bytes).transactionId = pkt.transactionId ∧
        (pkt.setOrigin bytes).iceControlled = pkt.iceControlled := by
    intro bytes
    rw [setOrigin]
    split <;> exact ⟨rfl, rfl, rfl⟩
  have hintegrity : pkt.checkIntegrity libs.hmac pwd = .ok (ret, pkt') →
      ∃ bytes, pkt' = pkt.setOrigin bytes := by
    intro hcheck
    simp only [checkIntegrity] at hcheck
    split at hcheck
    · cases hcheck
    · simp only [Except.ok.injEq, Prod.mk.injEq] at hcheck
      exact ⟨_, hcheck.2.symm⟩
  simp only [checkAuth] at h
  split at h
  · cases h
    exact ⟨rfl, rfl, rfl⟩
  · cases h
    exact ⟨rfl, rfl, rfl⟩
  all_goals
    split_ifs at h
    · cases h
      exact ⟨rfl, rfl, rfl⟩
    · cases h
      exact ⟨rfl, rfl, rfl⟩
    · obtain ⟨bytes, rfl⟩ := hintegrity h
      exact hkeeps bytes

/-- The response to an accepted request. -/
theorem Accepted.answer (h : Accepted libs s pkt) (htransaction : pkt.transactionId.length = 12)
    (hpton : libs.inetPton ip.text = ip.octets) :
    ∃ resp out, AnswersTo libs ⟨ip.text, port⟩ resp ∧ resp.serialize libs.hmac = .ok out ∧
      onHandleStunPacket libs pkt ⟨ip.text, port⟩ s = .ok {
        session := { s with
          authenticated := ⟨ip.text, port⟩ :: s.authenticated
          remoteAddress := some ⟨ip.text, port⟩ }
        sent := [(⟨ip.text, port⟩, out.wire)] } := by
  obtain ⟨pkt', hauth⟩ := h.authenticated
  obtain ⟨hmethod, htransaction', hcontrolled⟩ := checkAuth_keeps hauth
  have hanswers : AnswersTo libs ⟨ip.text, port⟩ { pkt'.createSuccessResponse with
      xorAddress := some (getIpv4Sockaddr libs ⟨ip.text, port⟩)
      password := s.userPwd.text } := by
    refine ⟨?_, rfl, rfl, ?_, List.length_replicate⟩
    · exact hmethod.trans h.binding
    · exact (congrArg List.length htransaction').trans htransaction
  have hmapped : (xorMappedAddress (getIpv4Sockaddr libs ⟨ip.text, port⟩)).length = 8 := by
    rw [getIpv4Sockaddr, hpton, write2bytes_eq]
    rfl
  obtain ⟨out, hout⟩ := exists_serialize libs.hmac hanswers.transactionId rfl (by
    intro a ha
    rw [addXorAddress, if_pos ⟨hanswers.binding, hanswers.success⟩] at ha
    cases ha
    exact hmapped)
  refine ⟨_, out, hanswers, hout, ?_⟩
  have hcomplete : ¬(pkt.messageIntegrity = none ∨ pkt.priority = 0 ∨ pkt.userName = []) := by
    rw [not_or, not_or]
    exact ⟨h.messageIntegrity, h.priority, h.userName⟩
  rw [onHandleStunPacket, if_neg (not_not.mpr h.binding), if_neg (by simp [h.fingerprint]),
    if_pos h.request, if_neg hcomplete, authenticate, hauth]
  simp only [hcontrolled, h.notControlled, ne_eq, not_true_eq_false, if_false]
  rw [writeSuccess, respond, hout]
  rfl

/-- The address that a peer reads from the response is its own, and the port is its own
when the two bytes of the port are equal.  This is so for every response to it, and the
response to an accepted request is one. -/
theorem xor_mapped_address_iff (libs : RtcLibs) (ip : Ipv4) (port : UInt16)
    (hpton : libs.inetPton ip.text = ip.octets) :
    (∀ resp out, AnswersTo libs ⟨ip.text, port⟩ resp → resp.serialize libs.hmac = .ok out →
      (decodeXorMappedAddress out.wire = some (port, ip.value) ↔
        port.toNat / 256 = port.toNat % 256)) ∧
    (∀ s pkt, Accepted libs s pkt → pkt.transactionId.length = 12 →
      ∃ resp out, AnswersTo libs ⟨ip.text, port⟩ resp ∧ resp.serialize libs.hmac = .ok out ∧
        onHandleStunPacket libs pkt ⟨ip.text, port⟩ s = .ok {
          session := { s with
            authenticated := ⟨ip.text, port⟩ :: s.authenticated
            remoteAddress := some ⟨ip.text, port⟩ }
          sent := [(⟨ip.text, port⟩, out.wire)] }) := by
  refine ⟨?_, ?_⟩
  · intro resp out hanswers hout
    rw [decode_serialize hpton hanswers hout, ← read2bytes_reverse_eq_iff, Option.some.injEq,
      Prod.mk.injEq]
    simp only [and_true]
  · intro s pkt haccepted htransaction
    exact haccepted.answer htransaction hpton

/-- Reads the numbers between the dots. -/
def dottedOctets (text : Bytes) : Bytes :=
  (text.splitOn '.'.toNat.toUInt8).map fun digits =>
    digits.foldl (fun n c => n * 10 + (c - '0'.toNat.toUInt8)) 0

/-- Libraries that read dotted addresses, with a code of zeros. -/
def dottedLibs : RtcLibs where
  hmac := .zeros
  inetPton := dottedOctets

/-- The address 10.0.0.9. -/
def peerIp : Ipv4 := ⟨10, 0, 0, 9⟩

theorem xor_mapped_address_peer :
    dottedLibs.inetPton peerIp.text = peerIp.octets ∧
    (∀ resp out, AnswersTo dottedLibs ⟨peerIp.text, 0x0F0F⟩ resp →
      resp.serialize dottedLibs.hmac = .ok out →
      (decodeXorMappedAddress out.wire = some (0x0F0F, peerIp.value) ↔
        (0x0F0F : UInt16).toNat / 256 = (0x0F0F : UInt16).toNat % 256)) :=
  ⟨by decide +kernel,
    (xor_mapped_address_iff dottedLibs peerIp 0x0F0F (by decide +kernel)).1⟩

/-- A binding request whose code is twenty zeros. -/
def peerRequest : StunPacket where
  stunClass := .request
  stunMethod := BINDING
  transactionId := List.replicate 12 0
  userName := (Routing.zeros 16).text ++ ascii ":p"
  priority := 1
  messageIntegrity := some 24
  hasFingerprint := true
  originData := some (List.replicate 52 0)
  dataLen := 52

/-- A session with a fragment and a password of zeros. -/
def zeroSession : WebrtcSession where
  usernameFragment := Routing.zeros 16
  userPwd := Routing.zeros 32

theorem peerRequest_accepted : Accepted dottedLibs zeroSession peerRequest where
  binding := rfl
  fingerprint := rfl
  request := rfl
  messageIntegrity := by decide
  priority := by decide
  userName := by decide
  authenticated := ⟨_, rfl⟩
  notControlled := rfl

/-- A peer at port 4000 is told that its port is 40975. -/
theorem not_xor_mapped_address :
    ∃ st bytes, onHandleStunPacket dottedLibs peerRequest ⟨peerIp.text, 4000⟩ zeroSession = .ok st ∧
      st.sent = [(⟨peerIp.text, 4000⟩, bytes)] ∧
      decodeXorMappedAddress bytes = some (40975, peerIp.value) ∧
      decodeXorMappedAddress bytes ≠ some (4000, peerIp.value) := by
  have hpton : dottedLibs.inetPton peerIp.text = peerIp.octets := by decide +kernel
  obtain ⟨resp, out, hanswers, hout, hhandle⟩ := peerRequest_accepted.answer rfl hpton
  have hdecode := decode_serialize hpton hanswers hout
  have hswap : read2bytes (write2bytes 4000).reverse = 40975 := by decide
  rw [hswap] at hdecode
  refine ⟨_, out.wire, hhandle, rfl, hdecode, ?_⟩
  rw [hdecode]
  intro hsame
  have hport := congrArg (Option.map Prod.fst) hsame
  revert hport
  decide

end WebrtcSession

end MediaServer
