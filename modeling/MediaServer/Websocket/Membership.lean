import MediaServer.Webrtc.RoomInvariant
import MediaServer.Websocket.ProtooServer

/-!
# Users and connections

A user should be in its room as long as the connection is open over which it joined.  The
connection keeps one name of a room and one of a user, and writes them before the room
decides about the join request.  When it is closed, it takes that user out of the room of its
last join request, whoever the user belongs to.

`Follows` is what should hold, and `ClosesOwn` what the end of a connection needs for it: the
user that is taken out is the one that joined over the connection, and no other did.
`membership_follows_iff` says that `Follows` holds in every state of a run of join requests
and closes if and only if every connection that ends in it meets `ClosesOwn`.
-/

namespace MediaServer

namespace Server

open ProtooServer

/-- The user in the room. -/
def userAt (s : Server) (name uid : Bytes) : Option UserInfo :=
  (s.rooms.find? name).bind fun r => r.users.find? uid

/-- The connection is open. -/
def IsOpen (s : Server) (c : Connection) : Prop := s.connections.find? c ≠ none

/-- The users of the rooms are those whose join request was accepted over a connection that is
open. -/
structure Follows (s : Server) : Prop where
  opened : ∀ name uid user, s.userAt name uid = some user →
    IsOpen s user.feedback ∧ (user.feedback, name, uid) ∈ s.joined
  present : ∀ c name uid, (c, name, uid) ∈ s.joined → IsOpen s c →
    ∃ user, s.userAt name uid = some user ∧ user.feedback = c

/-- The user that a connection takes out when it is closed. -/
def Removes (p : ProtooServer) (name uid : Bytes) : Prop :=
  p.uid ≠ [] ∧ p.roomId ≠ [] ∧ p.evCb = some name ∧ p.uid = uid

/-- The connection takes out the users that joined over it, and no others. -/
def ClosesOwn (s : Server) (c : Connection) (p : ProtooServer) : Prop :=
  ∀ e ∈ s.rooms.entries, ∀ u ∈ e.2.users.entries, u.2.feedback = c ↔ Removes p e.1 u.1

/-- A connection that ends at the event meets `ClosesOwn`.  A request that throws ends it,
after it has left its names. -/
def EndsWell (e : Event) (s : Server) : Prop :=
  match e with
  | .accept => True
  | .close c => ∀ p ∈ s.connections.find? c, ClosesOwn s c p
  | .read c body => ∀ j ∈ body, ∀ p ∈ s.connections.find? c,
      (prepare j p).1 = none → ClosesOwn s c (prepare j p).2

instance decidableRemoves (p : ProtooServer) (name uid : Bytes) : Decidable (Removes p name uid) :=
  inferInstanceAs (Decidable (p.uid ≠ [] ∧ p.roomId ≠ [] ∧ p.evCb = some name ∧ p.uid = uid))

instance decidableClosesOwn (s : Server) (c : Connection) (p : ProtooServer) :
    Decidable (ClosesOwn s c p) :=
  inferInstanceAs (Decidable (∀ e ∈ s.rooms.entries, ∀ u ∈ e.2.users.entries,
    u.2.feedback = c ↔ Removes p e.1 u.1))

instance decidableEndsWell : (e : Event) → (s : Server) → Decidable (EndsWell e s)
  | .accept, _ => .isTrue trivial
  | .close c, s => inferInstanceAs (Decidable (∀ p ∈ s.connections.find? c, ClosesOwn s c p))
  | .read c body, s => inferInstanceAs (Decidable (∀ j ∈ body, ∀ p ∈ s.connections.find? c,
      (prepare j p).1 = none → ClosesOwn s c (prepare j p).2))

/-- The event is a join request, or a connection is accepted or closed. -/
def Event.JoinOrClose : Event → Prop
  | .accept => True
  | .close _ => True
  | .read _ body => ∃ j, body = some j ∧ j.find "request" = some (.bool true) ∧
      j.textAt "method" = some (ascii "join")

section Steps

variable {libs : RoomLibs} {s s' : Server} {c : Connection} {p : ProtooServer} {name uid : Bytes}

theorem closesOwn_iff :
    ClosesOwn s c p ↔ ∀ name uid user, s.userAt name uid = some user →
      (user.feedback = c ↔ Removes p name uid) := by
  constructor
  · intro h name uid user huser
    obtain ⟨r, hr, hfind⟩ := Option.bind_eq_some_iff.mp huser
    exact h (name, r) (OrderedMap.find?_eq_some.mp hr) (uid, user)
      (OrderedMap.find?_eq_some.mp hfind)
  · intro h e he u hu
    refine h e.1 u.1 u.2 (Option.bind_eq_some_iff.mpr ⟨e.2, ?_, ?_⟩)
    · exact OrderedMap.find?_eq_some.mpr he
    · exact OrderedMap.find?_eq_some.mpr hu

theorem users_getOrCreateRoomService (s : Server) (name uid : Bytes) :
    (s.getOrCreateRoomService name).users.find? uid = s.userAt name uid := by
  unfold getOrCreateRoomService userAt
  cases s.rooms.find? name with
  | none => rfl
  | some r => rfl

theorem userAt_setRoom (s : Server) (name : Bytes) (r : Room) (n u : Bytes) :
    (s.setRoom name r).userAt n u = if n = name then r.users.find? u else s.userAt n u := by
  simp only [userAt, setRoom, OrderedMap.find?_assign]
  split
  · rfl
  · rfl

/-! ## The end of a connection -/

theorem closeData_eq_none : p.closeData = none ↔ p.uid = [] ∨ p.roomId = [] := by
  unfold closeData
  split
  · rename_i hempty
    simp [hempty]
  · rename_i hnames
    simp [hnames]

theorem users_close {data : Json} {r : Room} (hdata : p.closeData = some data) (u : Bytes) :
    (Room.onNotification (ascii "close") data r).room.users.find? u =
      if u = p.uid then none else r.users.find? u := by
  unfold closeData at hdata
  split at hdata
  · cases hdata
  · cases hdata
    have huid : (Json.obj [(ascii "roomId", .str p.roomId), (ascii "uid", .str p.uid)]).textAt
        "uid" = some p.uid := rfl
    have hroomId : (Json.obj [(ascii "roomId", .str p.roomId), (ascii "uid", .str p.uid)]).textAt
        "roomId" = some p.roomId := rfl
    simp only [Room.onNotification, if_true, Room.checkClose, huid, hroomId, orElse, Run.ok_bind]
    cases hfind : r.users.find? p.uid with
    | none =>
      by_cases hu : u = p.uid
      · simp [hu, hfind]
      · simp [hu]
    | some user =>
      show (r.users.erase p.uid).find? u = if u = p.uid then none else r.users.find? u
      by_cases hu : u = p.uid
      · rw [hu, OrderedMap.find?_erase_self, if_pos rfl]
      · rw [OrderedMap.find?_erase_of_ne hu, if_neg hu]

/-- What is left when a connection is closed. -/
theorem onClose_cases (h : onClose c p s = .ok s') :
    s'.connections = s.connections.erase c ∧ s'.opened = s.opened ∧ s'.joined = s.joined ∧
      ∀ n u, (Removes p n u → s'.userAt n u = none) ∧
        (¬Removes p n u → s'.userAt n u = s.userAt n u) := by
  unfold onClose at h
  simp only at h
  split at h
  · rename_i hdata
    cases h
    refine ⟨rfl, rfl, rfl, fun n u => ⟨fun hremoves => ?_, fun _ => rfl⟩⟩
    rcases closeData_eq_none.mp hdata with hempty | hempty
    · exact absurd hempty hremoves.1
    · exact absurd hempty hremoves.2.1
  · cases h
  · rename_i data name hdata hname
    cases h
    refine ⟨rfl, rfl, rfl, fun n u => ?_⟩
    have hnames : ¬(p.uid = [] ∨ p.roomId = []) := by
      rw [← closeData_eq_none, hdata]
      simp
    rw [not_or] at hnames
    rw [userAt_setRoom, users_close hdata, users_getOrCreateRoomService]
    constructor
    · rintro ⟨-, -, hevCb, huid⟩
      rw [hname, Option.some.injEq] at hevCb
      rw [if_pos hevCb.symm, if_pos huid.symm]
    · intro hremoves
      split
      · rename_i hn
        split
        · rename_i hu
          exact absurd ⟨hnames.1, hnames.2, hn ▸ hname, hu.symm⟩ hremoves
        · rw [hn]
          rfl
      · rfl

/-- A connection ends well if and only if it takes out its own users. -/
theorem follows_close_iff (h : Follows s) (hconnections : s'.connections = s.connections.erase c)
    (hjoined : s'.joined = s.joined)
    (husers : ∀ n u, (Removes p n u → s'.userAt n u = none) ∧
      (¬Removes p n u → s'.userAt n u = s.userAt n u)) :
    Follows s' ↔ ClosesOwn s c p := by
  have hopen : ∀ c', IsOpen s' c' ↔ IsOpen s c' ∧ c' ≠ c := by
    intro c'
    unfold IsOpen
    rw [hconnections, OrderedMap.find?_erase]
    split
    · rename_i heq
      simp [heq]
    · rename_i hne
      simp [hne]
  rw [closesOwn_iff]
  constructor
  · intro h' n u user huser
    constructor
    · intro hfeedback
      by_contra hremoves
      have huser' := (husers n u).2 hremoves
      have hopened := (h'.opened n u user (huser'.trans huser)).1
      exact ((hopen _).mp hopened).2 hfeedback
    · intro hremoves
      by_contra hfeedback
      obtain ⟨hopened, hmem⟩ := h.opened n u user huser
      obtain ⟨user', huser', -⟩ := h'.present user.feedback n u (hjoined ▸ hmem)
        ((hopen _).mpr ⟨hopened, hfeedback⟩)
      rw [(husers n u).1 hremoves] at huser'
      cases huser'
  · intro hown
    refine ⟨fun n u user huser => ?_, fun c' n u hmem hopened => ?_⟩
    · by_cases hremoves : Removes p n u
      · rw [(husers n u).1 hremoves] at huser
        cases huser
      · rw [(husers n u).2 hremoves] at huser
        obtain ⟨hopened, hmem⟩ := h.opened n u user huser
        refine ⟨(hopen _).mpr ⟨hopened, fun hfeedback => ?_⟩, hjoined ▸ hmem⟩
        exact hremoves ((hown n u user huser).mp hfeedback)
    · obtain ⟨hopened, hne⟩ := (hopen c').mp hopened
      obtain ⟨user, huser, rfl⟩ := h.present c' n u (hjoined ▸ hmem) hopened
      refine ⟨user, ?_, rfl⟩
      rw [(husers n u).2 fun hremoves => hne ((hown n u user huser).mpr hremoves)]
      exact huser

/-! ## Join requests -/

/-- A join request has no other ending than an answer. -/
theorem handleJoin_exit (id : Bytes) (data : Json) (feedback : Connection) (r : Room) :
    (Room.handleJoin id data feedback r).exit = none := by
  unfold Room.handleJoin
  split
  · rename_i refusal hcheck
    cases refusal with
    | reject errCode err => rfl
    | silent => rfl
    | throws => exact absurd hcheck (Room.checkJoin_avoids (by simp))
  · rfl

theorem prepare_method {j : Json} {request : Request} {q : ProtooServer}
    (hmethod : j.textAt "method" = some (ascii "join"))
    (h : prepare j p = (some (request, name), q)) : request.method = ascii "join" := by
  unfold prepare at h
  split at h
  · cases h
  · rename_i request' hread
    have hsame : request'.method = ascii "join" := by
      unfold readRequest at hread
      simp only [Option.bind_eq_bind, Option.bind_eq_some_iff, Option.pure_def,
        Option.some.injEq] at hread
      obtain ⟨id, -, method, hmethod', data, -, rfl⟩ := hread
      rw [hmethod, Option.some.injEq] at hmethod'
      exact hmethod'.symm
    simp only [hsame, if_true] at h
    split at h
    · cases h
      exact hsame
    · cases h

/-- A connection that changes its names stays open. -/
theorem isOpen_setConnection {q : ProtooServer} (hopen : s.connections.find? c = some p)
    (c' : Connection) : IsOpen (s.setConnection c q) c' ↔ IsOpen s c' := by
  unfold IsOpen setConnection
  rw [OrderedMap.find?_assign]
  split
  · rename_i heq
    simp [heq, hopen]
  · exact Iff.rfl

theorem Follows.of_same (h : Follows s) (hopen : ∀ c, IsOpen s' c ↔ IsOpen s c)
    (hjoined : s'.joined = s.joined) (husers : ∀ n u, s'.userAt n u = s.userAt n u) :
    Follows s' := by
  refine ⟨fun n u user huser => ?_, fun c n u hmem hopened => ?_⟩
  · rw [husers] at huser
    rw [hopen, hjoined]
    exact h.opened n u user huser
  · rw [hjoined] at hmem
    rw [husers]
    exact h.present c n u hmem ((hopen c).mp hopened)

/-- A new user, over a connection that is open. -/
theorem Follows.join (h : Follows s) {user : UserInfo} (hopen : ∀ c, IsOpen s' c ↔ IsOpen s c)
    (hc : IsOpen s user.feedback) (hnew : s.userAt name uid = none)
    (hjoined : s'.joined = (user.feedback, name, uid) :: s.joined)
    (huser : s'.userAt name uid = some user)
    (husers : ∀ n u, ¬(n = name ∧ u = uid) → s'.userAt n u = s.userAt n u) : Follows s' := by
  refine ⟨fun n u user' huser' => ?_, fun c n u hmem hopened => ?_⟩
  · rw [hopen, hjoined]
    by_cases hsame : n = name ∧ u = uid
    · obtain ⟨rfl, rfl⟩ := hsame
      rw [huser, Option.some.injEq] at huser'
      subst huser'
      exact ⟨hc, List.mem_cons_self⟩
    · rw [husers n u hsame] at huser'
      obtain ⟨hopened, hmem⟩ := h.opened n u user' huser'
      exact ⟨hopened, List.mem_cons_of_mem _ hmem⟩
  · rw [hjoined, List.mem_cons] at hmem
    rcases hmem with heq | hmem
    · cases heq
      exact ⟨user, huser, rfl⟩
    · obtain ⟨user', huser', hfeedback⟩ := h.present c n u hmem ((hopen c).mp hopened)
      refine ⟨user', ?_, hfeedback⟩
      rw [husers n u ?_]
      · exact huser'
      · -- the join request would have been rejected
        rintro ⟨rfl, rfl⟩
        rw [hnew] at huser'
        cases huser'

/-- What a join request does that gets to the room. -/
theorem follows_join {j : Json} {request : Request} {q : ProtooServer} (h : Follows s)
    (hopen : s.connections.find? c = some p) (hprepare : prepare j p = (some (request, name), q))
    (hmethod : request.method = ascii "join") : Follows (onRequest libs c p j s).1 := by
  have hjoin : Room.onRequest libs request.id request.method request.data c
      (s.getOrCreateRoomService name) =
        Room.handleJoin request.id request.data c (s.getOrCreateRoomService name) := by
    rw [Room.onRequest, if_pos hmethod]
  have hopened : ∀ c', IsOpen (onRequest libs c p j s).1 c' ↔ IsOpen s c' := by
    intro c'
    simp only [onRequest, hprepare]
    exact isOpen_setConnection hopen c'
  have husers : ∀ n u, (onRequest libs c p j s).1.userAt n u = if n = name then
      (Room.handleJoin request.id request.data c
        (s.getOrCreateRoomService name)).room.users.find? u else s.userAt n u := by
    intro n u
    simp only [onRequest, hprepare, hjoin]
    exact userAt_setRoom (s.setConnection c q) name _ n u
  have hjoined : (onRequest libs c p j s).1.joined =
      acceptedJoin c request name (s.getOrCreateRoomService name) ++ s.joined := by
    simp only [onRequest, hprepare]
  rw [acceptedJoin, if_pos hmethod] at hjoined
  rcases hcheck : (s.getOrCreateRoomService name).checkJoin request.data with refusal | uid
  · rw [hcheck] at hjoined
    refine h.of_same hopened hjoined fun n u => ?_
    rw [husers, Room.handleJoin, hcheck, Room.refuse_room, users_getOrCreateRoomService]
    split
    · rename_i hn
      rw [hn]
    · rfl
  · rw [hcheck] at hjoined
    have hnew := (Room.checkJoin_ok hcheck).2.2
    rw [users_getOrCreateRoomService] at hnew
    have hfind : ∀ u, (Room.handleJoin request.id request.data c
        (s.getOrCreateRoomService name)).room.users.find? u = if u = uid then
          some { uid, roomId := (s.getOrCreateRoomService name).roomId, feedback := c }
        else s.userAt name u := by
      intro u
      rw [Room.handleJoin, hcheck, ← users_getOrCreateRoomService]
      simp only [Room.setUser]
      by_cases hu : u = uid
      · rw [hu, OrderedMap.find?_assign_self, if_pos rfl]
      · rw [OrderedMap.find?_assign_of_ne hu, if_neg hu]
    refine @Follows.join s _ name uid h
      { uid, roomId := (s.getOrCreateRoomService name).roomId, feedback := c } hopened ?_ hnew
      hjoined ?_ ?_
    · rw [IsOpen, hopen]
      simp
    · rw [husers, if_pos rfl, hfind, if_pos rfl]
    · intro n u hne
      rw [husers, hfind]
      split
      · rename_i hn
        rw [if_neg fun hu => hne ⟨hn, hu⟩, hn]
      · rfl

/-! ## Steps -/

/-- A join request over an open connection throws before it gets to the room, or the room
answers it. -/
theorem step_join_cases {j : Json} (hrequest : j.find "request" = some (.bool true))
    (hmethod : j.textAt "method" = some (ascii "join"))
    (hopen : s.connections.find? c = some p) :
    (∃ q, prepare j p = (none, q) ∧
      step libs (.read c (some j)) s = closeSession c (s.setConnection c q)) ∨
    ∃ request name q, prepare j p = (some (request, name), q) ∧
      request.method = ascii "join" ∧
      step libs (.read c (some j)) s = .ok (onRequest libs c p j s).1 := by
  simp only [step, hopen, onRead, hrequest]
  rcases hprepare : prepare j p with ⟨- | ⟨request, name⟩, q⟩
  · refine .inl ⟨q, rfl, ?_⟩
    simp only [onRequest, hprepare]
  · have hjoin := prepare_method hmethod hprepare
    refine .inr ⟨request, name, q, rfl, hjoin, ?_⟩
    have hexit : (onRequest libs c p j s).2 = none := by
      simp only [onRequest, hprepare, Room.onRequest, if_pos hjoin, handleJoin_exit]
    split
    · rename_i s₁ hread
      rw [hread]
    · rename_i s₁ hread
      rw [hread] at hexit
      cases hexit
    · rename_i s₁ f hread
      rw [hread] at hexit
      cases hexit

/-- The connection has a room if it has the name of a user. -/
def Placed (p : ProtooServer) : Prop := p.uid ≠ [] → p.evCb ≠ none

theorem Placed.prepare (h : Placed p) (j : Json) : Placed (prepare j p).2 := by
  have hrecord : ∀ data, Placed (p.recordJoin data).2 := by
    intro data
    unfold recordJoin
    split
    · exact h
    · split
      · exact h
      · intro _
        simp
  unfold ProtooServer.prepare
  split
  · exact h
  · rename_i request hread
    by_cases hjoin : request.method = ascii "join"
    · simp only [if_pos hjoin]
      split
      · exact hrecord request.data
      · exact hrecord request.data
    · simp only [if_neg hjoin]
      split
      · exact h
      · exact h

/-- Every connection was accepted before, and it has a room if it has the name of a user. -/
structure Recorded (s : Server) : Prop where
  connections : ∀ c p, s.connections.find? c = some p → c < s.opened ∧ Placed p
  joined : ∀ c name uid, (c, name, uid) ∈ s.joined → c < s.opened

theorem Recorded.setConnection (h : Recorded s) (hopen : s.connections.find? c = some p)
    (j : Json) : Recorded (s.setConnection c (prepare j p).2) := by
  refine ⟨fun c' p' hp' => ?_, h.joined⟩
  unfold Server.setConnection at hp'
  rw [OrderedMap.find?_assign] at hp'
  split at hp'
  · rename_i heq
    obtain ⟨hlt, hplaced⟩ := h.connections c p hopen
    exact ⟨heq ▸ hlt, Option.some.inj hp' ▸ hplaced.prepare j⟩
  · exact h.connections c' p' hp'

theorem Recorded.onRequest (h : Recorded s) (hopen : s.connections.find? c = some p) (j : Json) :
    Recorded (onRequest libs c p j s).1 := by
  have hset := h.setConnection hopen j
  unfold Server.onRequest
  split
  · rename_i q hprepare
    rw [hprepare] at hset
    exact hset
  · rename_i request name q hprepare
    rw [hprepare] at hset
    refine ⟨hset.connections, fun c' n u hmem => ?_⟩
    rcases List.mem_append.mp hmem with hnew | hold
    · unfold acceptedJoin at hnew
      split at hnew
      · split at hnew
        · cases List.mem_singleton.mp hnew
          exact (h.connections c p hopen).1
        · cases hnew
      · cases hnew
    · exact h.joined c' n u hold

theorem Recorded.closeSession (h : Recorded s) (hclose : closeSession c s = .ok s') :
    Recorded s' := by
  unfold Server.closeSession at hclose
  split at hclose
  · cases hclose
    exact h
  · obtain ⟨hconnections, hopened, hjoined, -⟩ := onClose_cases hclose
    refine ⟨fun c' p' hp' => ?_, fun c' n u hmem => ?_⟩
    · rw [hconnections, OrderedMap.find?_erase] at hp'
      split at hp'
      · cases hp'
      · rw [hopened]
        exact h.connections c' p' hp'
    · rw [hjoined] at hmem
      rw [hopened]
      exact h.joined c' n u hmem

theorem Recorded.step {e : Event} (hjoins : e.JoinOrClose) (h : Recorded s)
    (hstep : step libs e s = .ok s') : Recorded s' := by
  cases e with
  | accept =>
    cases hstep
    refine ⟨fun c p hp => ?_, fun c n u hmem => Nat.lt_succ_of_lt (h.joined c n u hmem)⟩
    rw [OrderedMap.find?_assign] at hp
    split at hp
    · rename_i heq
      refine ⟨heq ▸ Nat.lt_succ_self _, fun huid => ?_⟩
      exact absurd (congrArg ProtooServer.uid (Option.some.inj hp).symm) huid
    · obtain ⟨hlt, hplaced⟩ := h.connections c p hp
      exact ⟨Nat.lt_succ_of_lt hlt, hplaced⟩
  | close c => exact h.closeSession hstep
  | read c body =>
    obtain ⟨j, rfl, hrequest, hmethod⟩ := hjoins
    rcases hopen : s.connections.find? c with - | p
    · simp only [Server.step, hopen] at hstep
      cases hstep
      exact h
    · rcases @step_join_cases libs s c p j hrequest hmethod hopen with
        ⟨q, hprepare, hclose⟩ | ⟨request, name, q, hprepare, -, hanswer⟩
      · have hset := h.setConnection hopen j
        rw [hprepare] at hset
        exact hset.closeSession (hclose ▸ hstep)
      · rw [hanswer] at hstep
        cases hstep
        exact h.onRequest hopen j

theorem Recorded.closeSession_ok (h : Recorded s) (c : Connection) :
    ∃ s', Server.closeSession c s = .ok s' := by
  unfold Server.closeSession
  split
  · exact ⟨s, rfl⟩
  · rename_i p hp
    unfold onClose
    simp only
    split
    · exact ⟨_, rfl⟩
    · rename_i data hdata hevCb
      have huid : p.uid ≠ [] := by
        intro hempty
        rw [closeData_eq_none.mpr (.inl hempty)] at hdata
        cases hdata
      exact absurd hevCb ((h.connections c p hp).2 huid)
    · exact ⟨_, rfl⟩

theorem closeSession_iff (h : Follows s) (hclose : closeSession c s = .ok s') :
    Follows s' ↔ ∀ p ∈ s.connections.find? c, ClosesOwn s c p := by
  unfold closeSession at hclose
  split at hclose
  · rename_i hnone
    cases hclose
    simp [hnone, h]
  · rename_i p hp
    obtain ⟨hconnections, -, hjoined, husers⟩ := onClose_cases hclose
    rw [follows_close_iff h hconnections hjoined husers, hp]
    simp

theorem step_follows_iff {e : Event} (hjoins : e.JoinOrClose) (hrecorded : Recorded s)
    (h : Follows s) (hstep : step libs e s = .ok s') : Follows s' ↔ EndsWell e s := by
  cases e with
  | accept =>
    cases hstep
    refine iff_of_true ⟨fun n u user huser => ?_, fun c n u hmem hopened => ?_⟩ trivial
    · obtain ⟨hopened, hmem⟩ := h.opened n u user huser
      refine ⟨?_, hmem⟩
      unfold IsOpen at hopened ⊢
      rw [OrderedMap.find?_assign]
      split
      · simp
      · exact hopened
    · have hlt := hrecorded.joined c n u hmem
      unfold IsOpen at hopened
      rw [OrderedMap.find?_assign_of_ne (Nat.ne_of_lt hlt)] at hopened
      exact h.present c n u hmem hopened
  | close c => exact closeSession_iff h hstep
  | read c body =>
    obtain ⟨j, rfl, hrequest, hmethod⟩ := hjoins
    rcases hopen : s.connections.find? c with - | p
    · simp only [step, hopen] at hstep
      cases hstep
      simp [EndsWell, hopen, h]
    · simp only [EndsWell, hopen, Option.mem_some_iff, forall_eq']
      rcases @step_join_cases libs s c p j hrequest hmethod hopen with
        ⟨q, hprepare, hclose⟩ | ⟨request, name, q, hprepare, hjoin, hanswer⟩
      · -- the request throws and the connection is closed
        have hfollows : Follows (s.setConnection c q) :=
          h.of_same (isOpen_setConnection hopen) rfl fun _ _ => rfl
        have hq : (s.setConnection c q).connections.find? c = some q :=
          OrderedMap.find?_assign_self
        rw [closeSession_iff hfollows (hclose ▸ hstep), hq, hprepare]
        simp only [Option.mem_some_iff, forall_eq', true_imp_iff]
        exact Iff.rfl
      · rw [hanswer] at hstep
        cases hstep
        simp [follows_join h hopen hprepare hjoin, hprepare]

/-- No step fails. -/
theorem Recorded.step_ok {e : Event} (hjoins : e.JoinOrClose) (h : Recorded s) :
    ∃ s', Server.step libs e s = .ok s' := by
  cases e with
  | accept => exact ⟨_, rfl⟩
  | close c => exact h.closeSession_ok c
  | read c body =>
    obtain ⟨j, rfl, hrequest, hmethod⟩ := hjoins
    rcases hopen : s.connections.find? c with - | p
    · exact ⟨s, by simp only [Server.step, hopen]⟩
    · rcases @step_join_cases libs s c p j hrequest hmethod hopen with
        ⟨q, hprepare, hclose⟩ | ⟨request, name, q, -, -, hanswer⟩
      · have hset := h.setConnection hopen j
        rw [hprepare] at hset
        rw [hclose]
        exact hset.closeSession_ok c
      · exact ⟨_, hanswer⟩

end Steps

/-- **Room membership follows connections** in every state of a run of join requests and
closes, if and only if every connection that ends in it takes out its own users and no others. -/
theorem membership_follows_iff (libs : RoomLibs) (events : List Event)
    (hjoins : ∀ e ∈ events, e.JoinOrClose) :
    (∀ pre s', pre <+: events → Run.run (step libs) pre {} = .ok s' → Follows s') ↔
      Run.Along (step libs) EndsWell events {} := by
  have hamb : Run.Along (step libs) (fun e _ => e.JoinOrClose) events {} :=
    Run.along_of_forall_mem hjoins _
  have hinit : Recorded {} := by
    refine ⟨fun c p hp => ?_, fun c n u hmem => ?_⟩
    · cases hp
    · cases hmem
  have hinv : ∀ e s s', Recorded s → e.JoinOrClose → step libs e s = .ok s' → Recorded s' :=
    fun e s s' hrecorded hjoins hstep => hrecorded.step hjoins hstep
  obtain ⟨s, hrun⟩ := Run.exists_run_ok hinv (fun e s hrecorded hjoins =>
    hrecorded.step_ok hjoins) hinit hamb
  refine Run.forall_prefix_iff_along_of hinv ?_ hinit ?_ hamb hrun
  · intro e s s' hrecorded hjoins h hstep
    exact step_follows_iff hjoins hrecorded h hstep
  · refine ⟨fun n u user huser => ?_, fun c n u hmem => ?_⟩
    · cases huser
    · cases hmem

/-- A message that asks to join. -/
def joinMessage (uid : String) : Json := Room.object [
  ("data", Room.joinData uid),
  ("id", .num 1), ("method", Room.textJson "join"), ("request", .bool true)]

/-- Two connections with a join request each, and the end of one of them. -/
def joinEvents (first second : String) (last : Connection) : List Event :=
  [.accept, .accept, .read 0 (some (joinMessage first)), .read 1 (some (joinMessage second)),
    .close last]

theorem joinEvents_joinOrClose (first second : String) (last : Connection) :
    ∀ e ∈ joinEvents first second last, e.JoinOrClose := by
  have hread : ∀ c uid, (Event.read c (some (joinMessage uid))).JoinOrClose := by
    intro c uid
    refine ⟨joinMessage uid, rfl, ?_, ?_⟩
    · simp only [joinMessage, Room.object, Json.find, List.map_cons, List.lookup_cons]
      rfl
    · simp only [joinMessage, Room.object, Json.textAt, Json.find, List.map_cons, List.lookup_cons]
      rfl
  intro e he
  simp only [joinEvents, List.mem_cons, List.not_mem_nil, or_false] at he
  rcases he with rfl | rfl | rfl | rfl | rfl
  · trivial
  · trivial
  · exact hread 0 first
  · exact hread 1 second
  · trivial

/-- Two users join, each over its own connection, and one of them leaves. -/
theorem membership_follows_leaving :
    ∃ s, Run.run (step Room.sampleLibs) (joinEvents "a" "b" 0) {} = .ok s ∧
      (s.userAt (ascii "room") (ascii "a")).isSome = false ∧
      (s.userAt (ascii "room") (ascii "b")).isSome = true ∧ Follows s := by
  obtain ⟨s, hrun, hs⟩ := Run.exists_of_map_toOption
    (x := Run.run (step Room.sampleLibs) (joinEvents "a" "b" 0) {})
    (f := fun s => ((s.userAt (ascii "room") (ascii "a")).isSome,
      (s.userAt (ascii "room") (ascii "b")).isSome)) (b := (false, true)) (by decide +kernel)
  rw [Prod.mk.injEq] at hs
  have hfollows := (membership_follows_iff Room.sampleLibs _
    (joinEvents_joinOrClose "a" "b" 0)).mpr (by decide +kernel)
  exact ⟨s, hrun, hs.1, hs.2, hfollows _ s List.prefix_rfl hrun⟩

/-- The second connection asks for the name of the first user and is rejected.  When it is
closed, the first user is gone. -/
theorem not_membership_follows_rejected :
    ¬∀ (events : List Event) (s : Server), (∀ e ∈ events, e.JoinOrClose) →
      Run.run (step Room.sampleLibs) events {} = .ok s → Follows s := by
  intro h
  obtain ⟨s, hrun, hs⟩ := Run.exists_of_map_toOption (x := Run.run (step Room.sampleLibs)
      (joinEvents "a" "a" 1) {})
    (f := fun s => (decide ((0, ascii "room", ascii "a") ∈ s.joined),
      (s.connections.find? 0).isSome, (s.userAt (ascii "room") (ascii "a")).isSome))
    (b := (true, true, false)) (by decide +kernel)
  simp only [Prod.mk.injEq, decide_eq_true_eq, Option.isSome_eq_false_iff,
    Option.isNone_iff_eq_none] at hs
  obtain ⟨hmem, hopen, hgone⟩ := hs
  have hfollows := h _ s (joinEvents_joinOrClose "a" "a" 1) hrun
  have hopened : IsOpen s 0 := Option.isSome_iff_ne_none.mp hopen
  obtain ⟨user, huser, -⟩ := hfollows.present 0 _ _ hmem hopened
  rw [hgone] at huser
  cases huser

end Server

end MediaServer
