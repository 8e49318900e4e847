import MediaServer.Webrtc.MappedAddress

/-!
# What a binding request makes the session do

`onHandleStunPacket` says what is sent and what the session is afterwards.  The
`stunTrace` of a packet is the same handling as a list of effects in the order in
which they happen: the call of `check_auth` with the pointer it reads, the
assignment of `remote_address_`, the responses and the start of DTLS.
`onHandleStunPacket_eq` connects the two.

`answers_once_iff` is about every request that `parse` returns.  The check for the
attributes that a request needs writes its error and goes on, so that a request
without one of them gets two responses or has its code looked for at a null pointer.
-/

namespace MediaServer.WebrtcSession

open StunPacket

/-- What the handling of a STUN message does to the world. -/
inductive Effect where
  /-- `check_auth` of a packet with this `message_integrity`. -/
  | checkAuth (messageIntegrity : Option Nat)
  /-- `remote_address_ = address`. -/
  | setRemoteAddress (address : UdpTuple)
  /-- `write_udp_data` of a response that has been serialized. -/
  | response (out : StunPacket) (address : UdpTuple)
  /-- `dtls_trans_->start(ROLE_SERVER)`. -/
  | dtlsStart
  deriving DecidableEq

/-- The effects of a call, and the undefined behaviour that it ends with, if it does. -/
structure Trace where
  effects : List Effect
  fault : Option Fault := none

/-- Another effect in front. -/
def Trace.after (effect : Effect) (t : Trace) : Trace :=
  { t with effects := effect :: t.effects }

/-- A call of `serialize`, whose exception ends the handling. -/
def serializing (libs : RtcLibs) (resp : StunPacket) (next : StunPacket → Trace) : Trace :=
  match resp.serialize libs.hmac with
  | .ok out => next out
  | .error (.thrown _) => { effects := [] }
  | .error (.fault f) => { effects := [], fault := some f }

/-- `write_error_stun_packet` and what follows it. -/
def errorTrace (libs : RtcLibs) (pkt : StunPacket) (err : UInt16) (address : UdpTuple)
    (next : Trace) : Trace :=
  serializing libs (pkt.createErrorResponse err) fun out => next.after (.response out address)

/-- The end of the handling of a request. -/
def successTrace (libs : RtcLibs) (pkt : StunPacket) (address : UdpTuple) (s : WebrtcSession) :
    Trace :=
  let resp := { pkt.createSuccessResponse with
    xorAddress := some (getIpv4Sockaddr libs address)
    password := s.userPwd.text }
  serializing libs resp fun out =>
    { effects := [.setRemoteAddress address, .response out address, .dtlsStart] }

/-- The handling of a request, from `check_auth` on. -/
def authenticateTrace (libs : RtcLibs) (pkt : StunPacket) (address : UdpTuple)
    (s : WebrtcSession) : Trace :=
  Trace.after (.checkAuth pkt.messageIntegrity)
    (match pkt.checkAuth libs.hmac s.usernameFragment.text s.userPwd.text with
    | .error f => { effects := [], fault := some f }
    | .ok (.unauthorized, pkt) => errorTrace libs pkt 401 address { effects := [] }
    | .ok (.badRequest, pkt) => errorTrace libs pkt 400 address { effects := [] }
    | .ok (.ok, pkt) =>
      if pkt.iceControlled ≠ 0 then errorTrace libs pkt 487 address { effects := [] }
      else successTrace libs pkt address s)

/-- `on_handle_stun_packet`. -/
def stunTrace (libs : RtcLibs) (pkt : StunPacket) (address : UdpTuple) (s : WebrtcSession) :
    Trace :=
  if pkt.stunMethod ≠ BINDING then errorTrace libs pkt 400 address { effects := [] }
  else if !pkt.hasFingerprint ∧ pkt.stunClass ≠ .indication then
    errorTrace libs pkt 400 address { effects := [] }
  else if pkt.stunClass = .request then
    if pkt.messageIntegrity = none ∨ pkt.priority = 0 ∨ pkt.userName = [] then
      errorTrace libs pkt 400 address (authenticateTrace libs pkt address s)
    else authenticateTrace libs pkt address s
  else { effects := [] }

/-! ## The effects and the session -/

/-- The responses among the effects. -/
def Trace.responses (t : Trace) : List (UdpTuple × StunPacket) :=
  t.effects.filterMap fun
    | .response out address => some (address, out)
    | _ => none

/-- `remote_address_` after the effects. -/
def Trace.remoteAddress (t : Trace) (before : Option UdpTuple) : Option UdpTuple :=
  t.effects.foldl (fun before effect =>
    match effect with
    | .setRemoteAddress address => some address
    | _ => before) before

/-- A handling that starts with `st` ends as the trace says. -/
inductive Follows (st : Handled) (t : Trace) : Except Fault Handled → Prop where
  | error {f : Fault} (hfault : t.fault = some f) : Follows st t (.error f)
  | ok {st' : Handled} (hfault : t.fault = none)
      (hsent : st'.sent = st.sent ++ t.responses.map fun r => (r.1, r.2.wire))
      (haddress : st'.session.remoteAddress = t.remoteAddress st.session.remoteAddress) :
      Follows st t (.ok st')

variable {libs : RtcLibs} {pkt resp out : StunPacket} {address : UdpTuple} {s : WebrtcSession}
  {st : Handled} {t : Trace} {err : UInt16}

theorem follows_respond {next : StunPacket → Trace} {go : Handled → Except Fault Handled}
    (hnext : ∀ out, resp.serialize libs.hmac = .ok out →
      Follows st (next out) (go { st with sent := st.sent ++ [(address, out.wire)] })) :
    Follows st (serializing libs resp next) (respond libs resp address st go) := by
  unfold serializing respond
  cases hout : resp.serialize libs.hmac with
  | ok out => exact hnext out hout
  | error e =>
    cases e with
    | thrown e => exact .ok rfl (List.append_nil _).symm rfl
    | fault f => exact .error rfl

/-- A response in front of a handling that goes on. -/
theorem Follows.after_response {result : Except Fault Handled}
    (h : Follows { st with sent := st.sent ++ [(address, out.wire)] } t result) :
    Follows st (t.after (.response out address)) result := by
  cases h with
  | error hfault => exact .error hfault
  | ok hfault hsent haddress =>
    refine .ok hfault ?_ haddress
    rw [hsent, List.append_assoc]
    rfl

theorem follows_writeError :
    Follows st (errorTrace libs pkt err address { effects := [] })
      (writeErrorStunPacket libs pkt err address st) := by
  apply follows_respond
  intro out _
  apply Follows.after_response
  exact .ok rfl (List.append_nil _).symm rfl

theorem follows_writeSuccess :
    Follows st (successTrace libs pkt address st.session) (writeSuccess libs pkt address st) := by
  unfold successTrace writeSuccess
  apply follows_respond
  intro out _
  exact .ok rfl rfl rfl

/-- An effect that neither writes nor assigns. -/
theorem Follows.after_checkAuth {mi : Option Nat} {result : Except Fault Handled}
    (h : Follows st t result) : Follows st (t.after (.checkAuth mi)) result := by
  cases h with
  | error hfault => exact .error hfault
  | ok hfault hsent haddress => exact .ok hfault hsent haddress

/-- The list of authenticated addresses is not an effect. -/
theorem follows_authenticated {authenticated : List UdpTuple} {result : Except Fault Handled}
    (h : Follows { st with session.authenticated := authenticated } t result) :
    Follows st t result := by
  cases h with
  | error hfault => exact .error hfault
  | ok hfault hsent haddress => exact .ok hfault hsent haddress

theorem follows_authenticate :
    Follows st (authenticateTrace libs pkt address st.session)
      (authenticate libs pkt address st) := by
  unfold authenticateTrace authenticate
  apply Follows.after_checkAuth
  cases pkt.checkAuth libs.hmac st.session.usernameFragment.text st.session.userPwd.text with
  | error f => exact .error rfl
  | ok r =>
    obtain ⟨ret, pkt'⟩ := r
    cases ret with
    | unauthorized =>
      simp only
      exact follows_writeError
    | badRequest =>
      simp only
      exact follows_writeError
    | ok =>
      simp only
      apply follows_authenticated
      split
      · exact follows_writeError
      · exact follows_writeSuccess

/-- The trace is the handling: it ends in the same way, with the same datagrams sent and
the same `remote_address_`. -/
theorem onHandleStunPacket_eq :
    Follows { session := s } (stunTrace libs pkt address s)
      (onHandleStunPacket libs pkt address s) := by
  unfold stunTrace onHandleStunPacket
  split
  · exact follows_writeError
  · split
    · exact follows_writeError
    · split
      · split
        · apply follows_respond
          intro out _
          apply Follows.after_response
          exact follows_authenticate
        · exact follows_authenticate
      · exact .ok rfl rfl rfl

/-! ## The answer to a request -/

/-- One response in the end, `check_auth` only with a code to look at, and nothing
else changed for a request that is not complete and authenticated. -/
structure AnswersOnce (libs : RtcLibs) (pkt : StunPacket) (address : UdpTuple)
    (s : WebrtcSession) : Prop where
  one : ∃ out, (stunTrace libs pkt address s).responses = [(address, out)] ∧
    out.transactionId = pkt.transactionId ∧
      (out.stunClass = .successResponse ∨ out.stunClass = .errorResponse)
  integrity : ∀ mi, .checkAuth mi ∈ (stunTrace libs pkt address s).effects → mi ≠ none
  moved : (∃ a, .setRemoteAddress a ∈ (stunTrace libs pkt address s).effects) ∨
      .dtlsStart ∈ (stunTrace libs pkt address s).effects →
    (pkt.messageIntegrity ≠ none ∧ pkt.priority ≠ 0 ∧ pkt.userName ≠ []) ∧
      ∃ pkt', pkt.checkAuth libs.hmac s.usernameFragment.text s.userPwd.text = .ok (.ok, pkt')

/-- What `serialize` leaves as it is. -/
theorem serialize_keeps (h : resp.serialize libs.hmac = .ok out) :
    out.transactionId = resp.transactionId ∧ out.stunClass = resp.stunClass := by
  rw [serialize] at h
  split at h
  · cases h
  · split at h
    · cases h
    · cases h
      exact ⟨rfl, rfl⟩

/-- An error response is written in any case. -/
theorem errorTrace_eq (libs : RtcLibs) (address : UdpTuple)
    (htransaction : pkt.transactionId.length = 12) (err : UInt16) (next : Trace) :
    ∃ out, errorTrace libs pkt err address next = next.after (.response out address) ∧
      out.transactionId = pkt.transactionId ∧ out.stunClass = .errorResponse := by
  have haddress : (pkt.createErrorResponse err).addXorAddress = none := by
    simp [addXorAddress, createErrorResponse]
  obtain ⟨out, hout⟩ := @exists_serialize (pkt.createErrorResponse err) libs.hmac htransaction
    rfl (by
      intro a ha
      rw [haddress] at ha
      cases ha)
  obtain ⟨htransaction', hclass⟩ := serialize_keeps hout
  refine ⟨out, ?_, htransaction', hclass⟩
  rw [errorTrace, serializing, hout]

/-- So is the response to an accepted request, when the address has four bytes. -/
theorem successTrace_eq (htransaction : pkt.transactionId.length = 12)
    (hpton : (libs.inetPton address.ipAddress).length = 4) :
    ∃ out, successTrace libs pkt address s =
        { effects := [.setRemoteAddress address, .response out address, .dtlsStart] } ∧
      out.transactionId = pkt.transactionId ∧ out.stunClass = .successResponse := by
  have hmapped : (xorMappedAddress (getIpv4Sockaddr libs address)).length = 8 := by
    simp [xorMappedAddress, getIpv4Sockaddr, hpton, magicCookie]
  obtain ⟨out, hout⟩ := @exists_serialize { pkt.createSuccessResponse with
      xorAddress := some (getIpv4Sockaddr libs address)
      password := s.userPwd.text } libs.hmac htransaction rfl (by
    intro a ha
    unfold addXorAddress at ha
    split at ha
    · cases ha
      exact hmapped
    · cases ha)
  obtain ⟨htransaction', hclass⟩ := serialize_keeps hout
  refine ⟨out, ?_, htransaction', hclass⟩
  rw [successTrace, serializing, hout]

/-- `check_auth` goes wrong only without a code. -/
theorem checkAuth_fault {name pwd : Bytes} {f : Fault}
    (h : pkt.checkAuth libs.hmac name pwd = .error f) : pkt.messageIntegrity = none := by
  have hintegrity : pkt.checkIntegrity libs.hmac pwd = .error f → pkt.messageIntegrity = none := by
    intro hcheck
    cases hmi : pkt.messageIntegrity with
    | none => rfl
    | some pos => simp [checkIntegrity, hmi] at hcheck
  simp only [checkAuth] at h
  split at h
  · cases h
  · cases h
  all_goals
    split_ifs at h
    exact hintegrity h

/-- How `check_auth` and what follows it go, when there is a code to look at. -/
theorem authenticateTrace_cases (htransaction : pkt.transactionId.length = 12)
    (hpton : (libs.inetPton address.ipAddress).length = 4) :
    (∃ f, authenticateTrace libs pkt address s =
        { effects := [.checkAuth pkt.messageIntegrity], fault := some f } ∧
      pkt.messageIntegrity = none) ∨
    (∃ out, authenticateTrace libs pkt address s =
        { effects := [.checkAuth pkt.messageIntegrity, .response out address] } ∧
      out.transactionId = pkt.transactionId ∧ out.stunClass = .errorResponse) ∨
    ∃ out pkt', authenticateTrace libs pkt address s =
        { effects := [.checkAuth pkt.messageIntegrity, .setRemoteAddress address,
          .response out address, .dtlsStart] } ∧
      out.transactionId = pkt.transactionId ∧ out.stunClass = .successResponse ∧
      pkt.checkAuth libs.hmac s.usernameFragment.text s.userPwd.text = .ok (.ok, pkt') := by
  unfold authenticateTrace
  cases hauth : pkt.checkAuth libs.hmac s.usernameFragment.text s.userPwd.text with
  | error f => exact .inl ⟨f, rfl, checkAuth_fault hauth⟩
  | ok r =>
    obtain ⟨ret, pkt'⟩ := r
    obtain ⟨-, hsame, -⟩ := checkAuth_keeps hauth
    have htransaction' : pkt'.transactionId.length = 12 := by
      rw [hsame]
      exact htransaction
    have herror : ∀ err, ∃ out, errorTrace libs pkt' err address { effects := [] } =
        { effects := [.response out address] } ∧
          out.transactionId = pkt.transactionId ∧ out.stunClass = .errorResponse := by
      intro err
      obtain ⟨out, htrace, hid, hclass⟩ :=
        errorTrace_eq libs address htransaction' err { effects := [] }
      exact ⟨out, htrace, hid.trans hsame, hclass⟩
    right
    cases ret with
    | unauthorized =>
      obtain ⟨out, htrace, hid, hclass⟩ := herror 401
      left
      refine ⟨out, ?_, hid, hclass⟩
      simp only [htrace]
      rfl
    | badRequest =>
      obtain ⟨out, htrace, hid, hclass⟩ := herror 400
      left
      refine ⟨out, ?_, hid, hclass⟩
      simp only [htrace]
      rfl
    | ok =>
      by_cases hcontrolled : pkt'.iceControlled ≠ 0
      · obtain ⟨out, htrace, hid, hclass⟩ := herror 487
        left
        refine ⟨out, ?_, hid, hclass⟩
        simp only [if_pos hcontrolled, htrace]
        rfl
      · obtain ⟨out, htrace, hid, hclass⟩ := successTrace_eq (s := s) htransaction' hpton
        right
        refine ⟨out, pkt', ?_, hid.trans hsame, hclass, rfl⟩
        simp only [if_neg hcontrolled, htrace]
        rfl

/-- One error and nothing else. -/
theorem answersOnce_of_error (htransaction : pkt.transactionId.length = 12)
    (h : stunTrace libs pkt address s = errorTrace libs pkt err address { effects := [] }) :
    AnswersOnce libs pkt address s := by
  obtain ⟨out, htrace, hid, hclass⟩ := errorTrace_eq libs address htransaction err { effects := [] }
  rw [htrace] at h
  refine ⟨?_, ?_, ?_⟩
  · rw [h]
    exact ⟨out, rfl, hid, .inr hclass⟩
  · intro mi hmi
    rw [h] at hmi
    simp [Trace.after] at hmi
  · intro hmoved
    rw [h] at hmoved
    simp [Trace.after] at hmoved

/-- The attributes that a request needs. -/
def Complete (pkt : StunPacket) : Prop :=
  pkt.messageIntegrity ≠ none ∧ pkt.priority ≠ 0 ∧ pkt.userName ≠ []

theorem not_complete_iff :
    ¬Complete pkt ↔ pkt.messageIntegrity = none ∨ pkt.priority = 0 ∨ pkt.userName = [] := by
  unfold Complete
  tauto

section Requests

variable (hpton : (libs.inetPton address.ipAddress).length = 4)
  (htransaction : pkt.transactionId.length = 12) (hbinding : pkt.stunMethod = BINDING)
  (hfingerprint : pkt.hasFingerprint = true) (hrequest : pkt.stunClass = .request)
include hpton htransaction hbinding hfingerprint hrequest

/-- A request with all attributes is handled by `check_auth` and what follows it. -/
theorem answersOnce_of_complete (hcomplete : Complete pkt) : AnswersOnce libs pkt address s := by
  have htrace : stunTrace libs pkt address s = authenticateTrace libs pkt address s := by
    rw [stunTrace, if_neg (not_not.mpr hbinding), if_neg (by simp [hfingerprint]), if_pos hrequest,
      if_neg (fun h => not_complete_iff.mpr h hcomplete)]
  have hcases := authenticateTrace_cases (s := s) htransaction hpton
  rw [← htrace] at hcases
  have hmi : ∀ {effects : List Effect} {mi : Option Nat},
      .checkAuth mi ∈ .checkAuth pkt.messageIntegrity :: effects →
      (∀ mi, Effect.checkAuth mi ∉ effects) → mi ≠ none := by
    intro effects mi hmem hrest
    rcases List.mem_cons.mp hmem with hfirst | hmem
    · cases hfirst
      exact hcomplete.1
    · exact absurd hmem (hrest mi)
  rcases hcases with ⟨f, -, hnone⟩ | ⟨out, h, hid, hclass⟩ | ⟨out, pkt', h, hid, hclass, hauth⟩
  · exact absurd hnone hcomplete.1
  · refine ⟨?_, ?_, ?_⟩
    · rw [h]
      exact ⟨out, rfl, hid, .inr hclass⟩
    · intro mi hmem
      rw [h] at hmem
      exact hmi hmem (by simp)
    · intro hmoved
      rw [h] at hmoved
      simp at hmoved
  · refine ⟨?_, ?_, ?_⟩
    · rw [h]
      exact ⟨out, rfl, hid, .inl hclass⟩
    · intro mi hmem
      rw [h] at hmem
      exact hmi hmem (by simp)
    · intro _
      exact ⟨hcomplete, pkt', hauth⟩

/-- Without one of them the error is written, and then `check_auth` is entered. -/
theorem AnswersOnce.complete (h : AnswersOnce libs pkt address s) : Complete pkt := by
  by_contra hincomplete
  have htrace : stunTrace libs pkt address s =
      errorTrace libs pkt 400 address (authenticateTrace libs pkt address s) := by
    rw [stunTrace, if_neg (not_not.mpr hbinding), if_neg (by simp [hfingerprint]), if_pos hrequest,
      if_pos (not_complete_iff.mp hincomplete)]
  obtain ⟨first, herror, -, -⟩ := errorTrace_eq libs address htransaction 400
    (authenticateTrace libs pkt address s)
  rw [herror] at htrace
  obtain ⟨last, hone, -, -⟩ := h.one
  rcases authenticateTrace_cases (s := s) htransaction hpton with
    ⟨f, hauth, hmi⟩ | ⟨out, hauth, -, -⟩ | ⟨out, pkt', hauth, -, -, -⟩
  · have hnull : Effect.checkAuth none ∈ (stunTrace libs pkt address s).effects := by
      rw [htrace, hauth, hmi]
      simp [Trace.after]
    exact absurd rfl (h.integrity none hnull)
  · rw [htrace, hauth] at hone
    cases hone
  · rw [htrace, hauth] at hone
    cases hone

end Requests

/-- A request is answered once exactly when it is turned away before the check of its
attributes or has all of them. -/
theorem answers_once_iff (libs : RtcLibs) (data : Bytes) (pkt : StunPacket) (address : UdpTuple)
    (s : WebrtcSession) (hpton : (libs.inetPton address.ipAddress).length = 4)
    (hparse : parse data = .ok pkt) (hrequest : pkt.stunClass = .request) :
    AnswersOnce libs pkt address s ↔
      pkt.stunMethod ≠ BINDING ∨ pkt.hasFingerprint = false ∨ Complete pkt := by
  have htransaction := transactionId_length hparse
  by_cases hmethod : pkt.stunMethod ≠ BINDING
  · have htrace : stunTrace libs pkt address s =
        errorTrace libs pkt 400 address { effects := [] } := by
      rw [stunTrace, if_pos hmethod]
    exact ⟨fun _ => .inl hmethod, fun _ => answersOnce_of_error htransaction htrace⟩
  have hbinding := not_not.mp hmethod
  by_cases hfingerprint : pkt.hasFingerprint = false
  · have htrace : stunTrace libs pkt address s =
        errorTrace libs pkt 400 address { effects := [] } := by
      rw [stunTrace, if_neg hmethod, if_pos (by simp [hfingerprint, hrequest])]
    exact ⟨fun _ => .inr (.inl hfingerprint), fun _ => answersOnce_of_error htransaction htrace⟩
  rw [Bool.not_eq_false] at hfingerprint
  constructor
  · intro h
    exact .inr (.inr (h.complete hpton htransaction hbinding hfingerprint hrequest))
  · intro h
    rcases h with h | h | hcomplete
    · exact absurd h hmethod
    · rw [hfingerprint] at h
      cases h
    · exact answersOnce_of_complete hpton htransaction hbinding hfingerprint hrequest hcomplete

/-- A binding request that has a fingerprint and nothing else. -/
def bareRequest : Bytes :=
  written .zeros
    { stunClass := .request, stunMethod := BINDING, transactionId := List.replicate 12 0 }

theorem answers_once_iff_bare :
    ∃ pkt, parse bareRequest = .ok pkt ∧ pkt.stunClass = .request ∧
      (AnswersOnce dottedLibs pkt ⟨peerIp.text, 4000⟩ zeroSession ↔
        pkt.stunMethod ≠ BINDING ∨ pkt.hasFingerprint = false ∨ Complete pkt) := by
  obtain ⟨pkt, hparse, hrequest⟩ := Run.exists_of_map_toOption (x := parse bareRequest)
    (f := fun pkt => pkt.stunClass) (b := .request) (by decide +kernel)
  exact ⟨pkt, hparse, hrequest, answers_once_iff dottedLibs bareRequest pkt ⟨peerIp.text, 4000⟩
    zeroSession (by decide +kernel) hparse hrequest⟩

/-- After the error the code is looked for at a null pointer. -/
theorem not_answers_once :
    ∃ pkt, parse bareRequest = .ok pkt ∧ pkt.stunClass = .request ∧
      ¬AnswersOnce dottedLibs pkt ⟨peerIp.text, 4000⟩ zeroSession := by
  obtain ⟨pkt, hparse, hfields⟩ := Run.exists_of_map_toOption (x := parse bareRequest)
    (f := fun pkt => (pkt.stunClass, pkt.stunMethod, pkt.hasFingerprint, pkt.messageIntegrity))
    (b := (.request, BINDING, true, none)) (by decide +kernel)
  simp only [Prod.mk.injEq] at hfields
  obtain ⟨hrequest, hbinding, hfingerprint, hmi⟩ := hfields
  refine ⟨pkt, hparse, hrequest, ?_⟩
  intro h
  have hcomplete := h.complete (by decide +kernel) (transactionId_length hparse) hbinding
    hfingerprint hrequest
  exact hcomplete.1 hmi

end MediaServer.WebrtcSession
