import Mathlib.Tactic.Common
import MediaServer.Webrtc.WebrtcSession

/-!
# The map of sessions and the address of a peer

Two results about every run of the sessions and the socket.

`routes_soundly_iff` is about `single_webrtc_map`.  Its values are sessions that are
open, an open session is found under its fragment, and an address leads to the same
session until that one is closed.  This holds if and only if no constructor of a session
throws, because the constructor enters the session before the part that can throw.

`media_address_iff` is about `remote_address_`.  It takes only addresses that have
been authenticated if and only if no DTLS datagram comes from an address that is in
the map without that.

`Delivers` says what a datagram can do to the map and to the one session it reaches,
and both results go through it.
-/

namespace MediaServer

namespace WebrtcSession

/-! ## What a session does with a datagram -/

/-- A binding request that passes `check_auth` of the session. -/
def Passes (libs : RtcLibs) (pkt : StunPacket) (s : WebrtcSession) : Prop :=
  pkt.stunMethod = BINDING ∧ pkt.stunClass = .request ∧
    ∃ pkt', pkt.checkAuth libs.hmac s.usernameFragment.text s.userPwd.text = .ok (.ok, pkt')

/-- The session `s` after a datagram from `address` that is not a DTLS one.  The
datagram is a request that passes only if `passes` holds. -/
structure Admits (passes : Prop) (address : UdpTuple) (s s' : WebrtcSession) : Prop where
  usernameFragment : s'.usernameFragment = s.usernameFragment
  userPwd : s'.userPwd = s.userPwd
  closeSession : s'.closeSession = s.closeSession
  authenticated : s.authenticated ⊆ s'.authenticated
  passed : ∀ a ∈ s'.authenticated, a ∈ s.authenticated ∨ a = address ∧ passes
  remoteAddress : s'.remoteAddress = s.remoteAddress ∨
    s'.remoteAddress = some address ∧ address ∈ s'.authenticated

theorem Admits.refl (passes : Prop) (address : UdpTuple) (s : WebrtcSession) :
    Admits passes address s s :=
  ⟨rfl, rfl, rfl, List.Subset.refl _, fun _ ha => .inl ha, .inl rfl⟩

variable {libs : RtcLibs} {pkt resp : StunPacket} {address : UdpTuple} {s : WebrtcSession}
  {st st' : Handled} {passes : Prop}

theorem respond_admits {next : Handled → Except Fault Handled}
    (h : respond libs resp address st next = .ok st') (hst : Admits passes address s st.session)
    (hnext : ∀ st₁, st₁.session = st.session → next st₁ = .ok st' →
      Admits passes address s st'.session) : Admits passes address s st'.session := by
  unfold respond at h
  split at h
  · refine hnext _ ?_ h
    rfl
  · cases h
    exact hst
  · cases h

theorem writeErrorStunPacket_admits {err : UInt16}
    (h : writeErrorStunPacket libs pkt err address st = .ok st')
    (hst : Admits passes address s st.session) : Admits passes address s st'.session := by
  refine respond_admits h hst fun st₁ hsame hnext => ?_
  cases hnext
  rw [hsame]
  exact hst

theorem writeSuccess_admits (h : writeSuccess libs pkt address st = .ok st')
    (hst : Admits passes address s st.session) (hauth : address ∈ st.session.authenticated) :
    Admits passes address s st'.session := by
  unfold writeSuccess at h
  refine respond_admits h hst fun st₁ hsame hnext => ?_
  cases hnext
  rw [← hsame] at hst hauth
  exact { hst with remoteAddress := .inr ⟨rfl, hauth⟩ }

/-- The request has passed. -/
theorem Admits.authenticate (h : Admits passes address s st.session) (hpasses : passes) :
    Admits passes address s
      { st.session with authenticated := address :: st.session.authenticated } := by
  refine ⟨h.usernameFragment, h.userPwd, h.closeSession,
    List.subset_cons_of_subset _ h.authenticated, ?_, ?_⟩
  · intro a ha
    rcases List.mem_cons.mp ha with rfl | ha
    · exact .inr ⟨rfl, hpasses⟩
    · exact h.passed a ha
  · rcases h.remoteAddress with hremote | ⟨hremote, hmem⟩
    · exact .inl hremote
    · exact .inr ⟨hremote, List.mem_cons_of_mem _ hmem⟩

theorem authenticate_admits (hmethod : pkt.stunMethod = BINDING)
    (hclass : pkt.stunClass = .request) (hsame : st.session = s)
    (h : authenticate libs pkt address st = .ok st') :
    Admits (Passes libs pkt s) address s st'.session := by
  have hst : Admits (Passes libs pkt s) address s st.session := hsame ▸ .refl _ address _
  unfold authenticate at h
  split at h
  · cases h
  · exact writeErrorStunPacket_admits h hst
  · exact writeErrorStunPacket_admits h hst
  · rename_i hauth
    rw [hsame] at hauth
    have hadded := hst.authenticate ⟨hmethod, hclass, _, hauth⟩
    simp only at h
    split at h
    · exact writeErrorStunPacket_admits h hadded
    · exact writeSuccess_admits h hadded List.mem_cons_self

/-- A STUN message moves the session only to an address that it authenticates. -/
theorem onHandleStunPacket_admits (h : onHandleStunPacket libs pkt address s = .ok st') :
    Admits (Passes libs pkt s) address s st'.session := by
  unfold onHandleStunPacket at h
  split at h
  · exact writeErrorStunPacket_admits h (.refl _ address s)
  · rename_i hmethod
    rw [ne_eq, not_not] at hmethod
    split at h
    · exact writeErrorStunPacket_admits h (.refl _ address s)
    · split at h
      · rename_i hclass
        split at h
        · refine respond_admits h (.refl _ address s) fun st₁ hsame hnext => ?_
          exact authenticate_admits hmethod hclass hsame hnext
        · exact authenticate_admits hmethod hclass rfl h
      · cases h
        exact .refl _ address s

/-- The datagram is a binding request that passes `check_auth` of the session. -/
def Authenticates (libs : RtcLibs) (data : Bytes) (s : WebrtcSession) : Prop :=
  ∃ pkt, StunPacket.parse data = .ok pkt ∧ Passes libs pkt s

theorem Admits.authenticates {data : Bytes} {s' : WebrtcSession}
    (hparse : StunPacket.parse data = .ok pkt) (h : Admits (Passes libs pkt s) address s s') :
    Admits (Authenticates libs data s) address s s' :=
  { h with
    passed := fun a ha => (h.passed a ha).imp_right fun ⟨heq, hpasses⟩ =>
      ⟨heq, pkt, hparse, hpasses⟩ }

/-- The first byte tells DTLS from the other kinds. -/
theorem eq_false_of_isDtls {data : Bytes} (h : isDtls data = true) :
    StunPacket.isStun data = false ∧ isRtcp data = false ∧ isRtp data = false := by
  rw [isDtls, Bool.and_eq_true, decide_eq_true_eq, decide_eq_true_eq, UInt8.lt_iff_toNat_lt,
    UInt8.lt_iff_toNat_lt] at h
  have hbyte : (19 : UInt8).toNat = 19 ∧ (64 : UInt8).toNat = 64 ∧ (3 : UInt8).toNat = 3 ∧
      (127 : UInt8).toNat = 127 := by decide
  have hlow : ¬data.getD 0 0 < 3 := by
    rw [UInt8.lt_iff_toNat_lt]
    omega
  have hhigh : ¬127 < data.getD 0 0 := by
    rw [UInt8.lt_iff_toNat_lt]
    omega
  simp only [StunPacket.isStun, isRtcp, isRtp, decide_eq_false hlow, hhigh, false_and,
    decide_false, Bool.and_false, Bool.false_and, and_self]

/-- A datagram for a session is a DTLS one, or it moves the session only to an address
that it authenticates. -/
theorem onRecvPacket_cases {data : Bytes} (h : onRecvPacket libs data address s = .ok st') :
    isDtls data = true ∧ st'.session = onHandleDtlsData address s ∨
      isDtls data = false ∧ Admits (Authenticates libs data s) address s st'.session := by
  by_cases hdtls : isDtls data = true
  · obtain ⟨hstun, hrtcp, hrtp⟩ := eq_false_of_isDtls hdtls
    unfold onRecvPacket at h
    split at h
    · cases h
    · simp only [hstun, hrtcp, hrtp, Bool.false_eq_true, if_false] at h
      cases h
      exact .inl ⟨hdtls, rfl⟩
  · rw [Bool.not_eq_true] at hdtls
    refine .inr ⟨hdtls, ?_⟩
    unfold onRecvPacket at h
    simp only [hdtls, Bool.false_eq_true, if_false] at h
    repeat' split at h
    all_goals first
      | exact (onHandleStunPacket_admits h).authenticates ‹_›
      | (cases h; exact .refl _ address s)
      | cases h

end WebrtcSession

namespace Routing

open WebrtcSession (Admits Authenticates Handled)

/-! ## What a datagram does to the map and to the sessions -/

@[simp] theorem setSession_self {r : Routing} {p : SessionPtr} {s : Option WebrtcSession} :
    (r.setSession p s).sessions p = s := by
  simp [setSession]

theorem setSession_of_ne {r : Routing} {p q : SessionPtr} {s : Option WebrtcSession} (h : q ≠ p) :
    (r.setSession p s).sessions q = r.sessions q := by
  simp [setSession, h]

@[simp] theorem setSession_map {r : Routing} {p : SessionPtr} {s : Option WebrtcSession} :
    (r.setSession p s).singleWebrtcMap = r.singleWebrtcMap := rfl

@[simp] theorem insertWebrtcSession_sessions {r : Routing} {key : Bytes} {p : SessionPtr} :
    (r.insertWebrtcSession key p).sessions = r.sessions := by
  unfold insertWebrtcSession
  split <;> rfl

/-- An entry that was not there before is the new one. -/
theorem insertWebrtcSession_cases {r : Routing} {key k : Bytes} {p q : SessionPtr}
    (h : (r.insertWebrtcSession key p).singleWebrtcMap k = some q) :
    r.singleWebrtcMap k = some q ∨ r.singleWebrtcMap k = none ∧ k = key ∧ q = p := by
  unfold insertWebrtcSession at h
  split at h
  · exact .inl h
  · rename_i hnone
    simp only at h
    split at h
    · rename_i hk
      exact .inr ⟨hk ▸ hnone, hk, (Option.some.inj h).symm⟩
    · exact .inl h

theorem insertWebrtcSession_of_some {r : Routing} {key k : Bytes} {p q : SessionPtr}
    (h : r.singleWebrtcMap k = some q) :
    (r.insertWebrtcSession key p).singleWebrtcMap k = some q := by
  unfold insertWebrtcSession
  split
  · exact h
  · rename_i hnone
    have hne : k ≠ key := by
      rintro rfl
      rw [hnone] at h
      cases h
    simp [hne, h]

theorem insertWebrtcSession_self {r : Routing} {key : Bytes} {p : SessionPtr}
    (h : r.singleWebrtcMap key = none) :
    (r.insertWebrtcSession key p).singleWebrtcMap key = some p := by
  unfold insertWebrtcSession
  rw [h]
  simp

/-- A datagram from `address` has reached the session `s` at `p`, which is `s'`
afterwards. -/
structure Delivers (libs : RtcLibs) (data : Bytes) (address : UdpTuple) (p : SessionPtr)
    (s s' : WebrtcSession) (r r' : Routing) : Prop where
  before : r.sessions p = some s
  after : r'.sessions p = some s'
  others : ∀ q, q ≠ p → r'.sessions q = r.sessions q
  /-- The address is in the map, or it is put into it. -/
  entry : r'.singleWebrtcMap = r.singleWebrtcMap ∧ r.singleWebrtcMap address.toText = some p ∨
    r.singleWebrtcMap address.toText = none ∧ (∃ key, r.singleWebrtcMap key = some p) ∧
      r'.singleWebrtcMap = (r.insertWebrtcSession address.toText p).singleWebrtcMap
  handled : r.singleWebrtcMap address.toText = some p ∧ isDtls data = true ∧
      s' = s.onHandleDtlsData address ∨
    ¬(r.singleWebrtcMap address.toText = some p ∧ isDtls data = true) ∧
      Admits (Authenticates libs data s) address s s'

theorem onSession_cases {r r' : Routing} {p : SessionPtr}
    {call : WebrtcSession → Except Fault Handled} (h : r.onSession p call = .ok r') :
    ∃ s st, r.sessions p = some s ∧ call s = .ok st ∧
      r'.singleWebrtcMap = r.singleWebrtcMap ∧
      r'.sessions = (r.setSession p (some st.session)).sessions := by
  unfold onSession at h
  split at h
  · cases h
  · rename_i s hs
    split at h
    · cases h
    · rename_i st hcall
      cases h
      exact ⟨s, st, hs, hcall, rfl, rfl⟩

theorem onRead_cases {libs : RtcLibs} {r r' : Routing} {data : Bytes} {address : UdpTuple}
    (h : r.onRead libs data address = .ok r') :
    r' = r ∧ r.singleWebrtcMap address.toText = none ∨
      ∃ p s s', Delivers libs data address p s s' r r' := by
  unfold onRead at h
  split at h
  · rename_i p hp
    obtain ⟨s, st, hs, hcall, hmap, hsessions⟩ := onSession_cases h
    refine .inr ⟨p, s, st.session, hs, ?_, ?_, .inl ⟨hmap, hp⟩, ?_⟩
    · rw [hsessions, setSession_self]
    · intro q hq
      rw [hsessions, setSession_of_ne hq]
    · rcases WebrtcSession.onRecvPacket_cases hcall with ⟨hdtls, hs'⟩ | ⟨hdtls, hs'⟩
      · exact .inl ⟨hp, hdtls, hs'⟩
      · refine .inr ⟨fun hboth => ?_, hs'⟩
        rw [hdtls] at hboth
        cases hboth.2
  · rename_i hnone
    split at h
    · split at h
      · cases h
        exact .inl ⟨rfl, hnone⟩
      · cases h
      · rename_i packet hparse
        split at h
        · cases h
          exact .inl ⟨rfl, hnone⟩
        · rename_i p hp
          obtain ⟨s, st, hs, hcall, hmap, hsessions⟩ := onSession_cases h
          rw [insertWebrtcSession_sessions] at hs
          refine .inr ⟨p, s, st.session, hs, ?_, ?_, .inr ⟨hnone, ⟨_, hp⟩, hmap⟩, ?_⟩
          · rw [hsessions, setSession_self]
          · intro q hq
            rw [hsessions, setSession_of_ne hq, insertWebrtcSession_sessions]
          · refine .inr ⟨fun hboth => ?_,
              (WebrtcSession.onHandleStunPacket_admits hcall).authenticates hparse⟩
            rw [hnone] at hboth
            cases hboth.1
    · cases h
      exact .inl ⟨rfl, hnone⟩

/-! ## The values of the map -/

/-- The values of the map are open sessions, and an open session is found under its
fragment. -/
structure Sound (r : Routing) : Prop where
  live : ∀ key p, r.singleWebrtcMap key = some p →
    ∃ s, r.sessions p = some s ∧ s.closeSession = false
  found : ∀ p s, r.sessions p = some s → s.closeSession = false →
    r.singleWebrtcMap s.usernameFragment.text = some p

theorem sound_init : Sound {} := by
  refine ⟨fun key p h => ?_, fun p s h => ?_⟩
  · cases h
  · cases h

/-- The event is not a construction that fails. -/
def Completes (e : Event) (r : Routing) : Prop :=
  ∀ p usernameFragment userPwd, e = .construct p usernameFragment userPwd false →
    r.sessions p ≠ none

/-- The fragment of a new session is not in the map. -/
def Fresh (e : Event) (r : Routing) : Prop :=
  ∀ p usernameFragment userPwd dtlsMade,
    e = .construct p usernameFragment userPwd dtlsMade →
      r.singleWebrtcMap usernameFragment.text = none

variable {libs : RtcLibs} {r r' : Routing}

theorem Sound.deliver {data : Bytes} {address : UdpTuple} {p : SessionPtr} {s s' : WebrtcSession}
    (h : Sound r) (hd : Delivers libs data address p s s' r r') : Sound r' := by
  obtain ⟨hkept, hopen⟩ : s'.usernameFragment = s.usernameFragment ∧
      s'.closeSession = s.closeSession := by
    rcases hd.handled with ⟨-, -, rfl⟩ | ⟨-, hadmits⟩
    · exact ⟨rfl, rfl⟩
    · exact ⟨hadmits.usernameFragment, hadmits.closeSession⟩
  -- an entry stays, and a new one leads to the session that got the datagram
  have hstays : ∀ {key q}, r.singleWebrtcMap key = some q → r'.singleWebrtcMap key = some q := by
    intro key q hq
    rcases hd.entry with ⟨hmap, -⟩ | ⟨-, -, hmap⟩
    · rw [hmap, hq]
    · rw [hmap]
      exact insertWebrtcSession_of_some hq
  have hp : ∃ key, r.singleWebrtcMap key = some p := by
    rcases hd.entry with ⟨-, hp⟩ | ⟨-, hp, -⟩
    · exact ⟨_, hp⟩
    · exact hp
  have hvalues : ∀ {key q}, r'.singleWebrtcMap key = some q →
      ∃ key', r.singleWebrtcMap key' = some q := by
    intro key q hq
    rcases hd.entry with ⟨hmap, -⟩ | ⟨-, -, hmap⟩
    · rw [hmap] at hq
      exact ⟨key, hq⟩
    · rw [hmap] at hq
      rcases insertWebrtcSession_cases hq with hq | ⟨-, -, rfl⟩
      · exact ⟨key, hq⟩
      · exact hp
  refine ⟨?_, ?_⟩
  · intro key q hq
    obtain ⟨key', hq'⟩ := hvalues hq
    obtain ⟨t, ht, htopen⟩ := h.live key' q hq'
    by_cases hqp : q = p
    · subst hqp
      rw [hd.before, Option.some.injEq] at ht
      subst ht
      exact ⟨s', hd.after, hopen.trans htopen⟩
    · exact ⟨t, (hd.others q hqp).trans ht, htopen⟩
  · intro q t ht htopen
    by_cases hqp : q = p
    · subst hqp
      rw [hd.after, Option.some.injEq] at ht
      subst ht
      rw [hkept]
      exact hstays (h.found q s hd.before (hopen.symm.trans htopen))
    · exact hstays (h.found q t ((hd.others q hqp).symm.trans ht) htopen)

theorem Sound.construct {p : SessionPtr} {usernameFragment : ByteCrypto.RandomString 16}
    {userPwd : ByteCrypto.RandomString 32} (h : Sound r) (hfree : r.sessions p = none)
    (hfresh : r.singleWebrtcMap usernameFragment.text = none) :
    Sound (r.construct p usernameFragment userPwd true) := by
  have hne : ∀ {key q}, r.singleWebrtcMap key = some q → q ≠ p := by
    intro key q hq hqp
    obtain ⟨s, hs, -⟩ := h.live key q hq
    rw [hqp, hfree] at hs
    cases hs
  simp only [Routing.construct, if_true]
  refine ⟨?_, ?_⟩
  · intro key q hq
    rw [setSession_map] at hq
    rcases insertWebrtcSession_cases hq with hq | ⟨-, -, rfl⟩
    · rw [setSession_of_ne (hne hq), insertWebrtcSession_sessions]
      exact h.live key q hq
    · exact ⟨_, setSession_self, rfl⟩
  · intro q s hs hopen
    rw [setSession_map]
    by_cases hqp : q = p
    · subst hqp
      rw [setSession_self, Option.some.injEq] at hs
      subst hs
      exact insertWebrtcSession_self hfresh
    · rw [setSession_of_ne hqp, insertWebrtcSession_sessions] at hs
      exact insertWebrtcSession_of_some (h.found q s hs hopen)

theorem removeWebrtcSession_eq_some {key : Bytes} {p q : SessionPtr} :
    (r.removeWebrtcSession p).singleWebrtcMap key = some q ↔
      r.singleWebrtcMap key = some q ∧ q ≠ p := by
  simp only [removeWebrtcSession]
  split
  · rename_i hp
    rw [hp, Option.some.injEq]
    refine ⟨fun hq => ?_, ?_⟩
    · cases hq
    · rintro ⟨rfl, hne⟩
      exact absurd rfl hne
  · rename_i hp
    refine ⟨fun hq => ⟨hq, ?_⟩, fun hq => hq.1⟩
    rintro rfl
    exact hp hq

theorem Sound.closeSession {p : SessionPtr} {s : WebrtcSession} (h : Sound r) :
    Sound (r.closeSession p s) := by
  unfold Routing.closeSession
  split
  · exact h
  · refine ⟨?_, ?_⟩
    · intro key q hq
      obtain ⟨hq, hne⟩ := removeWebrtcSession_eq_some.mp hq
      obtain ⟨t, ht, htopen⟩ := h.live key q hq
      exact ⟨t, (setSession_of_ne hne).trans ht, htopen⟩
    · intro q t ht htopen
      by_cases hqp : q = p
      · subst hqp
        rw [show ((r.setSession q _).removeWebrtcSession q).sessions q =
          (r.setSession q _).sessions q from rfl, setSession_self, Option.some.injEq] at ht
        subst ht
        cases htopen
      · refine removeWebrtcSession_eq_some.mpr ⟨?_, hqp⟩
        exact h.found q t ((setSession_of_ne hqp).symm.trans ht) htopen

/-- A session that is closed is not in the map. -/
theorem Sound.not_mem_of_closed {p : SessionPtr} {s : WebrtcSession} (h : Sound r)
    (hs : r.sessions p = some s) (hclosed : s.closeSession = true) (key : Bytes) :
    r.singleWebrtcMap key ≠ some p := by
  intro hp
  obtain ⟨t, ht, hopen⟩ := h.live key p hp
  rw [hs, Option.some.injEq] at ht
  rw [← ht, hclosed] at hopen
  cases hopen

theorem closeSession_sessions {p : SessionPtr} {s : WebrtcSession} (hs : r.sessions p = some s) :
    ∃ s', (r.closeSession p s).sessions p = some s' ∧ s'.closeSession = true := by
  unfold Routing.closeSession
  split
  · rename_i hclosed
    exact ⟨s, hs, hclosed⟩
  · exact ⟨{ s with closeSession := true }, setSession_self, rfl⟩

theorem Sound.destruct {p : SessionPtr} {s : WebrtcSession} (h : Sound r)
    (hs : r.sessions p = some s) : Sound ((r.closeSession p s).setSession p none) := by
  have hclose : Sound (r.closeSession p s) := h.closeSession
  obtain ⟨s', hs', hclosed⟩ := closeSession_sessions hs
  have habsent := hclose.not_mem_of_closed hs' hclosed
  refine ⟨?_, ?_⟩
  · intro key q hq
    rw [setSession_map] at hq
    have hne : q ≠ p := by
      rintro rfl
      exact habsent key hq
    rw [setSession_of_ne hne]
    exact hclose.live key q hq
  · intro q t ht htopen
    by_cases hqp : q = p
    · subst hqp
      rw [setSession_self] at ht
      cases ht
    · rw [setSession_of_ne hqp] at ht
      exact hclose.found q t ht htopen

/-- A step keeps the map sound exactly when it is not a construction that fails. -/
theorem sound_step_iff {e : Event} (hfresh : Fresh e r) (h : Sound r)
    (hstep : step libs e r = .ok r') : Sound r' ↔ Completes e r := by
  cases e with
  | construct p usernameFragment userPwd dtlsMade =>
    have hnew := hfresh p usernameFragment userPwd dtlsMade rfl
    simp only [step] at hstep
    split at hstep
    · rename_i s hs
      cases hstep
      refine iff_of_true h ?_
      intro q f pwd heq
      cases heq
      rw [hs]
      exact Option.some_ne_none s
    · rename_i hfree
      cases hstep
      cases dtlsMade with
      | true =>
        refine iff_of_true (h.construct hfree hnew) ?_
        intro q f pwd heq
        cases heq
      | false =>
        refine iff_of_false ?_ fun hcompletes => hcompletes _ _ _ rfl hfree
        intro hsound
        obtain ⟨s, hs, -⟩ := hsound.live _ _ (insertWebrtcSession_self hnew)
        rw [Routing.construct, if_neg Bool.false_ne_true, insertWebrtcSession_sessions,
          hfree] at hs
        cases hs
  | datagram data address =>
    refine iff_of_true ?_ (fun p f pwd heq => by cases heq)
    rcases onRead_cases hstep with ⟨rfl, -⟩ | ⟨p, s, s', hd⟩
    · exact h
    · exact h.deliver hd
  | closeSession p =>
    refine iff_of_true ?_ (fun p f pwd heq => by cases heq)
    simp only [step] at hstep
    split at hstep
    · cases hstep
      exact h.closeSession
    · cases hstep
      exact h
  | destruct p =>
    refine iff_of_true ?_ (fun p f pwd heq => by cases heq)
    simp only [step] at hstep
    split at hstep
    · rename_i s hs
      cases hstep
      exact h.destruct hs
    · cases hstep
      exact h

/-! ## Runs -/

/-- The fragments of the sessions that are constructed. -/
def fragments (events : List Event) : List Bytes :=
  events.filterMap fun
    | .construct _ usernameFragment _ _ => some usernameFragment.text
    | _ => none

/-- The text of an address has a colon, a fragment has none. -/
def colon : UInt8 := 58

theorem colon_mem_toText (address : UdpTuple) : colon ∈ address.toText := by
  simp only [UdpTuple.toText, List.mem_append]
  exact .inl (.inr (by decide))

theorem colon_not_mem_text {len : Nat} (text : ByteCrypto.RandomString len) :
    colon ∉ text.text :=
  fun h => absurd (text.fromChars colon h) (by decide)

theorem onRead_map {data : Bytes} {address : UdpTuple}
    (h : r.onRead libs data address = .ok r') :
    r'.singleWebrtcMap = r.singleWebrtcMap ∨
      ∃ p, r'.singleWebrtcMap = (r.insertWebrtcSession address.toText p).singleWebrtcMap := by
  rcases onRead_cases h with ⟨rfl, -⟩ | ⟨p, s, s', hd⟩
  · exact .inl rfl
  · rcases hd.entry with ⟨hmap, -⟩ | ⟨-, -, hmap⟩
    · exact .inl hmap
    · exact .inr ⟨p, hmap⟩

theorem construct_map {p : SessionPtr} {usernameFragment : ByteCrypto.RandomString 16}
    {userPwd : ByteCrypto.RandomString 32} {dtlsMade : Bool} :
    (r.construct p usernameFragment userPwd dtlsMade).singleWebrtcMap =
      (r.insertWebrtcSession usernameFragment.text p).singleWebrtcMap := by
  simp only [Routing.construct]
  split <;> rfl

theorem closeSession_map {p : SessionPtr} {s : WebrtcSession} :
    (r.closeSession p s).singleWebrtcMap = r.singleWebrtcMap ∨
      (r.closeSession p s).singleWebrtcMap = (r.removeWebrtcSession p).singleWebrtcMap := by
  unfold Routing.closeSession
  split
  · exact .inl rfl
  · exact .inr rfl

/-- What a step does to the map. -/
theorem step_map {e : Event} (h : step libs e r = .ok r') :
    r'.singleWebrtcMap = r.singleWebrtcMap ∨
    (∃ p usernameFragment userPwd dtlsMade,
      e = .construct p usernameFragment userPwd dtlsMade ∧
      r'.singleWebrtcMap = (r.insertWebrtcSession usernameFragment.text p).singleWebrtcMap) ∨
    (∃ data address p, e = .datagram data address ∧
      r'.singleWebrtcMap = (r.insertWebrtcSession address.toText p).singleWebrtcMap) ∨
    ∃ p, (e = .closeSession p ∨ e = .destruct p) ∧
      r'.singleWebrtcMap = (r.removeWebrtcSession p).singleWebrtcMap := by
  cases e with
  | construct p usernameFragment userPwd dtlsMade =>
    simp only [step] at h
    split at h
    · cases h
      exact .inl rfl
    · cases h
      exact .inr (.inl ⟨p, usernameFragment, userPwd, dtlsMade, rfl, construct_map⟩)
  | datagram data address =>
    rcases onRead_map h with hmap | ⟨p, hmap⟩
    · exact .inl hmap
    · exact .inr (.inr (.inl ⟨data, address, p, rfl, hmap⟩))
  | closeSession p =>
    simp only [step] at h
    split at h
    · cases h
      rcases closeSession_map with hmap | hmap
      · exact .inl hmap
      · exact .inr (.inr (.inr ⟨p, .inl rfl, hmap⟩))
    · cases h
      exact .inl rfl
  | destruct p =>
    simp only [step] at h
    split at h
    · cases h
      rcases closeSession_map with hmap | hmap
      · exact .inl hmap
      · exact .inr (.inr (.inr ⟨p, .inr rfl, hmap⟩))
    · cases h
      exact .inl rfl

/-- A key that was not there before is an address or the fragment of a new session. -/
theorem step_new_key {e : Event} {key : Bytes} {q : SessionPtr} (h : step libs e r = .ok r')
    (hkey : r'.singleWebrtcMap key = some q) :
    r.singleWebrtcMap key = some q ∨ colon ∈ key ∨ key ∈ fragments [e] := by
  rcases step_map h with hmap | ⟨p, f, pwd, made, rfl, hmap⟩ | ⟨data, address, p, rfl, hmap⟩ |
    ⟨p, -, hmap⟩
  · exact .inl (hmap ▸ hkey)
  · rw [hmap] at hkey
    rcases insertWebrtcSession_cases hkey with hold | ⟨-, rfl, -⟩
    · exact .inl hold
    · exact .inr (.inr (by simp [fragments]))
  · rw [hmap] at hkey
    rcases insertWebrtcSession_cases hkey with hold | ⟨-, rfl, -⟩
    · exact .inl hold
    · exact .inr (.inl (colon_mem_toText address))
  · rw [hmap] at hkey
    exact .inl (removeWebrtcSession_eq_some.mp hkey).1

/-- An entry stays until its session is closed. -/
theorem step_keeps {e : Event} {key : Bytes} {p : SessionPtr} (h : step libs e r = .ok r')
    (hclose : e ≠ .closeSession p) (hdestruct : e ≠ .destruct p)
    (hkey : r.singleWebrtcMap key = some p) : r'.singleWebrtcMap key = some p := by
  rcases step_map h with hmap | ⟨q, f, pwd, made, -, hmap⟩ | ⟨data, address, q, -, hmap⟩ |
    ⟨q, he, hmap⟩
  · rw [hmap, hkey]
  · rw [hmap]
    exact insertWebrtcSession_of_some hkey
  · rw [hmap]
    exact insertWebrtcSession_of_some hkey
  · rw [hmap]
    refine removeWebrtcSession_eq_some.mpr ⟨hkey, ?_⟩
    rintro rfl
    rcases he with he | he
    · exact hclose he
    · exact hdestruct he

theorem run_keeps {events : List Event} {key : Bytes} {p : SessionPtr}
    (hclose : .closeSession p ∉ events) (hdestruct : .destruct p ∉ events)
    (hkey : r.singleWebrtcMap key = some p) (hrun : Run.run (step libs) events r = .ok r') :
    r'.singleWebrtcMap key = some p := by
  induction events generalizing r with
  | nil =>
    cases hrun
    exact hkey
  | cons e events ih =>
    obtain ⟨r₁, hfirst, hrest⟩ := Run.exists_of_run_cons hrun
    rw [List.mem_cons, not_or] at hclose hdestruct
    exact ih hclose.2 hdestruct.2
      (step_keeps hfirst (Ne.symm hclose.1) (Ne.symm hdestruct.1) hkey) hrest

theorem fragments_cons (e : Event) (events : List Event) :
    fragments (e :: events) = fragments [e] ++ fragments events := by
  rw [fragments, fragments, fragments, ← List.filterMap_append]
  rfl

/-- With distinct fragments no construction finds its own in the map. -/
theorem along_fresh {events : List Event} (hnodup : (fragments events).Nodup)
    (hkeys : ∀ key p, r.singleWebrtcMap key = some p → colon ∈ key ∨ key ∉ fragments events) :
    Run.Along (step libs) Fresh events r := by
  induction events generalizing r with
  | nil => trivial
  | cons e events ih =>
    rw [fragments_cons, List.nodup_append] at hnodup
    refine ⟨?_, ?_⟩
    · rintro p f pwd made rfl
      cases hsome : r.singleWebrtcMap f.text with
      | none => rfl
      | some q =>
        rcases hkeys _ q hsome with hcolon | hnot
        · exact absurd hcolon (colon_not_mem_text f)
        · exact absurd (by simp [fragments]) hnot
    · intro r₁ hfirst
      refine ih hnodup.2.1 ?_
      intro key q hkey
      rcases step_new_key hfirst hkey with hold | hcolon | hnew
      · refine (hkeys key q hold).imp_right fun hnot hmem => hnot ?_
        rw [fragments_cons]
        exact List.mem_append_right _ hmem
      · exact .inl hcolon
      · exact .inr fun hmem => hnodup.2.2 key hnew key hmem rfl

/-- The map is sound in every state of the run, and an address that it has leads to
the same session until that one is closed. -/
structure RoutesSoundly (libs : RtcLibs) (events : List Event) : Prop where
  sound : ∀ pre r, pre <+: events → Run.run (step libs) pre {} = .ok r → Sound r
  keeps : ∀ pre mid r r' (address : UdpTuple) p, pre ++ mid <+: events →
    Run.run (step libs) pre {} = .ok r → r.singleWebrtcMap address.toText = some p →
    .closeSession p ∉ mid → .destruct p ∉ mid →
    Run.run (step libs) mid r = .ok r' → r'.singleWebrtcMap address.toText = some p

theorem routes_soundly_iff (libs : RtcLibs) (events : List Event) (r : Routing)
    (hnodup : (fragments events).Nodup) (hrun : Run.run (step libs) events {} = .ok r) :
    RoutesSoundly libs events ↔ Run.Along (step libs) Completes events {} := by
  have hfresh : Run.Along (step libs) Fresh events {} := by
    refine along_fresh hnodup ?_
    intro key p h
    cases h
  have hsound := @Run.forall_prefix_iff_along_of Routing Fault Event (step libs) Fresh Completes
    (fun _ => True) Sound (fun _ _ _ _ _ _ => trivial)
    (fun e s s' _ hfresh hs => sound_step_iff hfresh hs) events {} r trivial sound_init hfresh hrun
  refine ⟨fun h => hsound.mp h.sound, fun h => ⟨hsound.mpr h, ?_⟩⟩
  intro pre mid r₁ r₂ address p _ _ hkey hclose hdestruct hmid
  exact run_keeps hclose hdestruct hkey hmid

/-- A fragment or a password of zeros. -/
def zeros (len : Nat) : ByteCrypto.RandomString len where
  text := List.replicate len 48
  length := List.length_replicate
  fromChars c hc := by
    rw [List.eq_of_mem_replicate hc]
    decide

/-- Libraries to run the sessions with. -/
def zeroLibs : RtcLibs where
  hmac := .zeros
  inetPton _ := [127, 0, 0, 1]

/-- A binding indication that names the session whose fragment is `zeros`.  It carries no
code, and nobody has to know the password for it. -/
def indication : Bytes :=
  [0, 0x11, 0, 20, 0x21, 0x12, 0xA4, 0x42] ++ List.replicate 12 0 ++
    [0, 6, 0, 16] ++ (zeros 16).text

/-- The address that the indication comes from. -/
def stranger : UdpTuple := ⟨ascii "10.0.0.9", 4000⟩

/-- A session is made, a peer comes to it, and it is closed and destructed. -/
theorem routes_soundly_closing :
    RoutesSoundly zeroLibs [.construct 0 (zeros 16) (zeros 32) true,
      .datagram indication stranger, .closeSession 0, .destruct 0] := by
  obtain ⟨r, hrun, -⟩ := Run.exists_of_map_toOption (x := Run.run (step zeroLibs)
    [.construct 0 (zeros 16) (zeros 32) true, .datagram indication stranger, .closeSession 0,
      .destruct 0] {}) (f := fun r => r.singleWebrtcMap stranger.toText) (b := none)
    (by decide +kernel)
  refine (routes_soundly_iff zeroLibs _ r (by decide) hrun).mpr ⟨?_, fun _ _ => ⟨?_, fun _ _ =>
    ⟨?_, fun _ _ => ⟨?_, fun _ _ => trivial⟩⟩⟩⟩
  all_goals
    intro p f pwd heq
    cases heq

/-- A construction fails behind `insert_webrtc_session`: the map leads to memory that has
been given back. -/
theorem not_routes_soundly_throwing :
    ¬RoutesSoundly zeroLibs [.construct 0 (zeros 16) (zeros 32) false] := by
  intro h
  have hsound := h.sound _ _ List.prefix_rfl rfl
  obtain ⟨s, hs, -⟩ := hsound.live (zeros 16).text 0 (by decide)
  cases hs

/-! ## The address of the peer -/

/-- Sessions send only to addresses that they have authenticated. -/
def Authentic (r : Routing) : Prop :=
  ∀ p s a, r.sessions p = some s → s.remoteAddress = some a → a ∈ s.authenticated

/-- A DTLS datagram for a session comes from an address that it has authenticated. -/
def Trusted (e : Event) (r : Routing) : Prop :=
  ∀ data address p s, e = .datagram data address → isDtls data = true →
    r.singleWebrtcMap address.toText = some p → r.sessions p = some s →
    address ∈ s.authenticated

/-- A session that is there after another one has been closed, or the closed one. -/
theorem session_of_closeSession {q p : SessionPtr} {s s' : WebrtcSession}
    (hq : r.sessions q = some s) (hclose : (r.closeSession q s).sessions p = some s') :
    r.sessions p = some s' ∨ ∃ s, r.sessions p = some s ∧ s' = { s with closeSession := true } := by
  unfold Routing.closeSession at hclose
  split at hclose
  · exact .inl hclose
  · by_cases hpq : p = q
    · subst hpq
      rw [show ((r.setSession p _).removeWebrtcSession p).sessions p =
        (r.setSession p _).sessions p from rfl, setSession_self, Option.some.injEq] at hclose
      exact .inr ⟨s, hq, hclose.symm⟩
    · exact .inl ((setSession_of_ne hpq).symm.trans hclose)

/-- Where a session that is there after a step comes from. -/
theorem step_session {e : Event} {p : SessionPtr} {s' : WebrtcSession}
    (h : step libs e r = .ok r') (hs' : r'.sessions p = some s') :
    r.sessions p = some s' ∨
    (s'.remoteAddress = none ∧ s'.authenticated = [] ∧ r.sessions p = none) ∨
    (∃ s, r.sessions p = some s ∧ s' = { s with closeSession := true }) ∨
    ∃ data address s, e = .datagram data address ∧ Delivers libs data address p s s' r r' := by
  cases e with
  | construct q usernameFragment userPwd dtlsMade =>
    simp only [step] at h
    split at h
    · cases h
      exact .inl hs'
    · rename_i hfree
      cases h
      simp only [Routing.construct] at hs'
      split at hs'
      · by_cases hpq : p = q
        · subst hpq
          rw [setSession_self, Option.some.injEq] at hs'
          subst hs'
          exact .inr (.inl ⟨rfl, rfl, hfree⟩)
        · rw [setSession_of_ne hpq, insertWebrtcSession_sessions] at hs'
          exact .inl hs'
      · rw [insertWebrtcSession_sessions] at hs'
        exact .inl hs'
  | datagram data address =>
    rcases onRead_cases h with ⟨rfl, -⟩ | ⟨q, s, t, hd⟩
    · exact .inl hs'
    · by_cases hpq : p = q
      · subst hpq
        rw [hd.after, Option.some.injEq] at hs'
        subst hs'
        exact .inr (.inr (.inr ⟨data, address, s, rfl, hd⟩))
      · exact .inl ((hd.others p hpq).symm.trans hs')
  | closeSession q =>
    simp only [step] at h
    split at h
    · rename_i s hq
      cases h
      exact (session_of_closeSession hq hs').imp_right fun hclose => .inr (.inl hclose)
    · cases h
      exact .inl hs'
  | destruct q =>
    simp only [step] at h
    split at h
    · rename_i s hq
      cases h
      by_cases hpq : p = q
      · subst hpq
        rw [setSession_self] at hs'
        cases hs'
      · rw [setSession_of_ne hpq] at hs'
        exact (session_of_closeSession hq hs').imp_right fun hclose => .inr (.inl hclose)
    · cases h
      exact .inl hs'

/-- A step keeps the sessions authentic exactly when it is not a DTLS datagram from an
address that has not been authenticated. -/
theorem authentic_step_iff {e : Event} (h : Authentic r) (hstep : step libs e r = .ok r') :
    Authentic r' ↔ Trusted e r := by
  constructor
  · rintro h' data address p s rfl hdtls hmap hs
    rcases onRead_cases hstep with ⟨-, hnone⟩ | ⟨q, t, t', hd⟩
    · rw [hmap] at hnone
      cases hnone
    · have hqp : q = p := by
        rcases hd.entry with ⟨-, hq⟩ | ⟨hnone, -, -⟩
        · rw [hmap, Option.some.injEq] at hq
          exact hq.symm
        · rw [hmap] at hnone
          cases hnone
      subst hqp
      rw [hd.before, Option.some.injEq] at hs
      subst hs
      rcases hd.handled with ⟨-, -, rfl⟩ | ⟨hnot, -⟩
      · have hmem := h' q _ address hd.after rfl
        exact hmem
      · exact absurd ⟨hmap, hdtls⟩ hnot
  · intro htrusted p s' a hs' ha
    rcases step_session hstep hs' with hs | ⟨hnone, -, -⟩ | ⟨s, hs, rfl⟩ |
      ⟨data, address, s, rfl, hd⟩
    · exact h p s' a hs ha
    · rw [hnone] at ha
      cases ha
    · exact h p s a hs ha
    · rcases hd.handled with ⟨hmap, hdtls, rfl⟩ | ⟨-, hadmits⟩
      · cases ha
        exact htrusted data _ p s rfl hdtls hmap hd.before
      · rcases hadmits.remoteAddress with hsame | ⟨hmoved, hmem⟩
        · exact hadmits.authenticated (h p s a hd.before (hsame ▸ ha))
        · rw [hmoved, Option.some.injEq] at ha
          exact ha ▸ hmem

/-- A session is moved by a datagram, to where that comes from. -/
theorem step_moves {e : Event} {p : SessionPtr} {s s' : WebrtcSession}
    (hstep : step libs e r = .ok r') (hs : r.sessions p = some s) (hs' : r'.sessions p = some s')
    (hmoved : s'.remoteAddress ≠ s.remoteAddress) :
    ∃ data address, e = .datagram data address ∧ s'.remoteAddress = some address := by
  rcases step_session hstep hs' with hsame | ⟨-, -, hnone⟩ | ⟨t, ht, rfl⟩ |
    ⟨data, address, t, rfl, hd⟩
  · rw [hs, Option.some.injEq] at hsame
    exact absurd (hsame ▸ rfl) hmoved
  · rw [hs] at hnone
    cases hnone
  · rw [hs, Option.some.injEq] at ht
    exact absurd (ht ▸ rfl) hmoved
  · refine ⟨data, address, rfl, ?_⟩
    have hst := hd.before
    rw [hs, Option.some.injEq] at hst
    subst hst
    rcases hd.handled with ⟨-, -, rfl⟩ | ⟨-, hadmits⟩
    · rfl
    · rcases hadmits.remoteAddress with hsame | ⟨hnew, -⟩
      · exact absurd hsame hmoved
      · exact hnew

/-- The session `s'` is `s`, later. -/
def Continues (s s' : WebrtcSession) : Prop :=
  s'.usernameFragment = s.usernameFragment ∧ s'.userPwd = s.userPwd

theorem authenticates_continues {data : Bytes} {s s' : WebrtcSession}
    (h : Authenticates libs data s) (hsame : Continues s s') : Authenticates libs data s' := by
  obtain ⟨pkt, hparse, hmethod, hclass, pkt', hauth⟩ := h
  refine ⟨pkt, hparse, hmethod, hclass, pkt', ?_⟩
  rw [hsame.1, hsame.2]
  exact hauth

theorem step_authenticated {e : Event} {p : SessionPtr} {s' : WebrtcSession} {a : UdpTuple}
    (hstep : step libs e r = .ok r') (hs' : r'.sessions p = some s')
    (ha : a ∈ s'.authenticated) :
    ∃ s, Continues s s' ∧
      (r.sessions p = some s ∧ a ∈ s.authenticated ∨
        ∃ data, e = .datagram data a ∧ Authenticates libs data s) := by
  rcases step_session hstep hs' with hs | ⟨-, hnil, -⟩ | ⟨s, hs, rfl⟩ |
    ⟨data, address, s, rfl, hd⟩
  · exact ⟨s', ⟨rfl, rfl⟩, .inl ⟨hs, ha⟩⟩
  · rw [hnil] at ha
    cases ha
  · exact ⟨s, ⟨rfl, rfl⟩, .inl ⟨hs, ha⟩⟩
  · rcases hd.handled with ⟨-, -, rfl⟩ | ⟨-, hadmits⟩
    · exact ⟨s, ⟨rfl, rfl⟩, .inl ⟨hd.before, ha⟩⟩
    · refine ⟨s, ⟨hadmits.usernameFragment, hadmits.userPwd⟩, ?_⟩
      rcases hadmits.passed a ha with hold | ⟨rfl, hpasses⟩
      · exact .inl ⟨hd.before, hold⟩
      · exact .inr ⟨data, rfl, hpasses⟩

/-- A run adds to the addresses of a session only those from which it gets a binding request
that passes `check_auth`. -/
theorem run_authenticated {events : List Event} {p : SessionPtr} {s' : WebrtcSession}
    {a : UdpTuple} (hrun : Run.run (step libs) events r = .ok r')
    (hs' : r'.sessions p = some s') (ha : a ∈ s'.authenticated) :
    ∃ s, Continues s s' ∧
      (r.sessions p = some s ∧ a ∈ s.authenticated ∨
        ∃ data, .datagram data a ∈ events ∧ Authenticates libs data s) := by
  induction events generalizing r with
  | nil =>
    cases hrun
    exact ⟨s', ⟨rfl, rfl⟩, .inl ⟨hs', ha⟩⟩
  | cons e events ih =>
    obtain ⟨r₁, hfirst, hrest⟩ := Run.exists_of_run_cons hrun
    obtain ⟨s, hsame, ⟨hs, hmem⟩ | ⟨data, hmem, hauth⟩⟩ := ih hrest
    · obtain ⟨t, htsame, ht⟩ := step_authenticated hfirst hs hmem
      refine ⟨t, ⟨hsame.1.trans htsame.1, hsame.2.trans htsame.2⟩, ht.imp_right ?_⟩
      rintro ⟨data, rfl, hauth⟩
      exact ⟨data, List.mem_cons_self, hauth⟩
    · exact ⟨s, hsame, .inr ⟨data, List.mem_cons_of_mem e hmem, hauth⟩⟩

/-- In every state of the run, where a session sends to is an address from which it has
got a binding request that passes its `check_auth`, and whoever moves a session has
authenticated. -/
structure MediaAuthenticated (libs : RtcLibs) (events : List Event) : Prop where
  authentic : ∀ pre r, pre <+: events → Run.run (step libs) pre {} = .ok r → Authentic r
  received : ∀ pre r p s a, pre <+: events → Run.run (step libs) pre {} = .ok r →
    r.sessions p = some s → s.remoteAddress = some a →
    ∃ data, .datagram data a ∈ pre ∧ Authenticates libs data s
  moves : ∀ pre e r r' p s s', pre ++ [e] <+: events → Run.run (step libs) pre {} = .ok r →
    step libs e r = .ok r' → r.sessions p = some s → r'.sessions p = some s' →
    s'.remoteAddress ≠ s.remoteAddress →
    ∃ data address, e = .datagram data address ∧ s'.remoteAddress = some address ∧
      address ∈ s'.authenticated

theorem media_address_iff (libs : RtcLibs) (events : List Event) (r : Routing)
    (hrun : Run.run (step libs) events {} = .ok r) :
    MediaAuthenticated libs events ↔ Run.Along (step libs) Trusted events {} := by
  have hinit : Authentic {} := by
    intro p s a hs
    cases hs
  have hiff := @Run.forall_prefix_iff_along Routing Fault Event (step libs) Trusted
    (fun _ => True) Authentic (fun _ _ _ _ _ => trivial)
    (fun e s s' _ hs => authentic_step_iff hs) events {} r trivial hinit hrun
  refine ⟨fun h => hiff.mp h.authentic, fun h => ⟨hiff.mpr h, ?_, ?_⟩⟩
  · intro pre r₁ p s a hpre hrun₁ hs ha
    have hmem := hiff.mpr h pre r₁ hpre hrun₁ p s a hs ha
    obtain ⟨t, hsame, ⟨ht, -⟩ | ⟨data, hdata, hauth⟩⟩ := run_authenticated hrun₁ hs hmem
    · cases ht
    · exact ⟨data, hdata, authenticates_continues hauth hsame⟩
  · intro pre e r₁ r₂ p s s' hpre hrun₁ hstep hs hs' hmoved
    obtain ⟨data, address, he, hnew⟩ := step_moves hstep hs hs' hmoved
    refine ⟨data, address, he, hnew, ?_⟩
    refine hiff.mpr h (pre ++ [e]) r₂ hpre ?_ p s' address hs' hnew
    rw [Run.run_append hrun₁, Run.run_cons hstep, Run.run_nil]

/-- A DTLS record of thirteen bytes. -/
def dtlsRecord : Bytes := 22 :: List.replicate 12 0

/-- A binding request that names the session, with the code of `zeroLibs`, up to its
fingerprint. -/
def signedRequest : Bytes :=
  [0, 1, 0, 64, 0x21, 0x12, 0xA4, 0x42] ++ List.replicate 12 0 ++
    [0, 6, 0, 20] ++ (zeros 16).text ++ ascii ":abc" ++ [0, 0x24, 0, 4, 0, 0, 0, 1] ++
    [0, 8, 0, 20] ++ List.replicate 20 0

/-- That request with its fingerprint. -/
def bindingRequest : Bytes :=
  signedRequest ++ StunPacket.attr STUN_FINGERPRINT
    (write4bytes (StunPacket.caculateFingerprint signedRequest))

instance (e : Event) (r : Routing) : Decidable (Trusted e r) :=
  match e with
  | .datagram data address => decidable_of_iff
      (isDtls data = true → ∀ p ∈ r.singleWebrtcMap address.toText, ∀ s ∈ r.sessions p,
        address ∈ s.authenticated)
      ⟨fun h _ _ p s he hdtls hp hs => by cases he; exact h hdtls p hp s hs,
        fun h hdtls p hp s hs => h data address p s rfl hdtls hp hs⟩
  | .construct _ _ _ _ => .isTrue fun _ _ _ _ he => by cases he
  | .closeSession _ => .isTrue fun _ _ _ _ he => by cases he
  | .destruct _ => .isTrue fun _ _ _ _ he => by cases he

/-- A peer that has authenticated with a binding request starts DTLS, and the session sends to
it. -/
theorem media_address_request :
    MediaAuthenticated zeroLibs [.construct 0 (zeros 16) (zeros 32) true,
        .datagram bindingRequest stranger, .datagram dtlsRecord stranger] ∧
      ∃ r s, Run.run (step zeroLibs) [.construct 0 (zeros 16) (zeros 32) true,
          .datagram bindingRequest stranger, .datagram dtlsRecord stranger] {} = .ok r ∧
        r.sessions 0 = some s ∧ s.remoteAddress = some stranger := by
  obtain ⟨r, hrun, hr⟩ := Run.exists_of_map_toOption (x := Run.run (step zeroLibs)
    [.construct 0 (zeros 16) (zeros 32) true, .datagram bindingRequest stranger,
      .datagram dtlsRecord stranger] {})
    (f := fun r => (r.sessions 0).map WebrtcSession.remoteAddress)
    (b := some (some stranger)) (by decide +kernel)
  obtain ⟨s, hs, haddress⟩ := Option.map_eq_some_iff.mp hr
  exact ⟨(media_address_iff zeroLibs _ r hrun).mpr (by decide +kernel), r, s, hrun, hs, haddress⟩

/-- An indication enters the address of a stranger, and a DTLS record from there moves the
session to it. -/
theorem not_media_authenticated_stranger :
    ¬MediaAuthenticated zeroLibs [.construct 0 (zeros 16) (zeros 32) true,
      .datagram indication stranger, .datagram dtlsRecord stranger] := by
  intro h
  obtain ⟨r, hrun, hr⟩ := Run.exists_of_map_toOption (x := Run.run (step zeroLibs)
    [.construct 0 (zeros 16) (zeros 32) true, .datagram indication stranger,
      .datagram dtlsRecord stranger] {})
    (f := fun r => (r.sessions 0).map fun s => (s.remoteAddress, s.authenticated))
    (b := some (some stranger, [])) (by decide +kernel)
  obtain ⟨s, hs, heq⟩ := Option.map_eq_some_iff.mp hr
  rw [Prod.mk.injEq] at heq
  have hauth := h.authentic _ r List.prefix_rfl hrun 0 s stranger hs heq.1
  rw [heq.2] at hauth
  cases hauth

end Routing

end MediaServer
