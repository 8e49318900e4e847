import MediaServer.Lib.Loop
import MediaServer.Rtmp.Reading

/-!
# The receive loop makes progress

`receive_chunk_stream` goes round while there are bytes.  A pass that completes a
chunk may take none of them: a chunk without payload, or one of chunk size 0, whose
basic header has been read before.  It then leaves `fmt_ready_` false, so `pending`
counts this flag as one more byte.

The loop is written here over any handling of the messages.  Those of the session
are one case of it, and `turn_of_receivePass` says that the passes are then those
of `receivePass`.
-/

namespace MediaServer

namespace Session

/-- What is done with a ready message: the code, and the session afterwards. -/
def Handler : Type := Message → Session → RtmpRet × Session

/-- The handling leaves what is to be parsed as it is. -/
def Handler.KeepsInput (handle : Handler) : Prop :=
  ∀ m s, (handle m s).2.base.recvBuffer = s.base.recvBuffer ∧
    (handle m s).2.base.fmtReady = s.base.fmtReady

/-- A pass of the loop. -/
def turn (handle : Handler) (s : Session) : Option RtmpRet × Session :=
  match s.base.readChunkStream with
  | (.ok, base) =>
    let s := { s with base := base }
    if !base.currentStream.isReady then
      (if base.recvBuffer.dataLen > 0 then none else some .needReadMore, s)
    else
      let (ret, s) := handle base.currentStream.message s
      if ret = .error then (some .error, s)
      else
        let s := s.resetStream
        (if s.base.recvBuffer.dataLen > 0 then none else some ret, s)
  | (ret, base) => (some ret, { s with base := base })

/-- `receive_chunk_stream`, stopped after `n` passes. -/
def receiveChunkStream (handle : Nat → Handler) : Nat → Session → Option (RtmpRet × Session) :=
  Loop.run fun i => turn (handle i)

/-- The handlers of the session, with `after` behind the payload in memory.  One that
does not return stands for an error. -/
def ownHandler (after : Bytes) : Handler := fun m s =>
  match s.handleMessage after m with
  | .ok (ret, _, s') => (ret, s')
  | .error _ => (.error, s)

theorem keepsInput_ownHandler (after : Bytes) : (ownHandler after).KeepsInput := by
  intro m s
  unfold ownHandler
  rcases h : s.handleMessage after m with fault | ⟨ret, action, s'⟩
  · exact ⟨rfl, rfl⟩
  · exact handleMessage_recvBuffer h

/-- A pass that returns is one over the handlers of the session. -/
theorem turn_of_receivePass {after : Bytes} {s s' : Session} {m : Option Message}
    {ret : Option RtmpRet} {action : Action}
    (h : s.receivePass after = .ok (m, ret, action, s')) :
    turn (ownHandler after) s = (ret, s') := by
  unfold receivePass at h
  unfold turn
  rcases hr : s.base.readChunkStream with ⟨r, base⟩
  rw [hr] at h
  cases r with
  | ok =>
    by_cases hmsg : base.currentStream.isReady = true
    · simp only [hmsg, Bool.not_true, Bool.false_eq_true, if_false] at h ⊢
      obtain ⟨⟨ret₁, action₁, s₁⟩, hhandle, h⟩ := Run.exists_of_bind_ok h
      simp only [ownHandler, hhandle]
      split_ifs at h ⊢
      · cases h
        rfl
      · cases h
        rfl
      · cases h
        rfl
    · simp only [hmsg, Bool.not_false, if_true] at h ⊢
      cases h
      rfl
  | needReadMore =>
    cases h
    rfl
  | error =>
    cases h
    rfl

/-- A pass that goes on leaves less to parse. -/
theorem pending_turn {handle : Handler} (hkeeps : handle.KeepsInput) {s s' : Session}
    (h : turn handle s = (none, s')) : s'.base.pending < s.base.pending := by
  unfold turn at h
  rcases hr : s.base.readChunkStream with ⟨r, base⟩
  rw [hr] at h
  cases r with
  | ok =>
    obtain ⟨hready, hless⟩ := SessionBase.readChunkStream_ok hr
    have hpending : ∀ {t : Session}, t.base.recvBuffer = base.recvBuffer →
        t.base.fmtReady = base.fmtReady → t.base.pending < s.base.pending := by
      intro t hbuffer hfmt
      rw [SessionBase.pending, hbuffer, hfmt, hready]
      exact hless
    by_cases hmsg : base.currentStream.isReady = true
    · simp only [hmsg, Bool.not_true, Bool.false_eq_true, if_false] at h
      obtain ⟨hbuffer, hfmt⟩ := hkeeps base.currentStream.message { s with base := base }
      split_ifs at h
      · cases h
      · cases h
        exact hpending hbuffer hfmt
      · cases h
    · simp only [hmsg, Bool.not_false, if_true] at h
      obtain ⟨-, rfl⟩ := Prod.mk.inj h
      exact hpending rfl rfl
  | needReadMore => cases h
  | error => cases h

/-- **The receive loop ends.**  Whatever the state of the session and its chunk
streams, and whatever the handlers do that leave the input alone, the loop takes at
most two passes more than there are bytes.  The handlers of the session leave it
alone. -/
theorem receiveChunkStream_ends :
    (∀ after, (ownHandler after).KeepsInput) ∧
    ∀ (handle : Nat → Handler) (s : Session), (∀ i, (handle i).KeepsInput) →
      ∃ r, receiveChunkStream handle (s.base.recvBuffer.length + 2) s = some r := by
  refine ⟨keepsInput_ownHandler, fun handle s hkeeps => ?_⟩
  refine @Loop.exists_run _ _ _ (fun s : Session => s.base.pending)
    (fun i s₁ s₂ h => pending_turn (hkeeps i) h) _ _ ?_
  show s.base.recvBuffer.length + (if s.base.fmtReady then 1 else 0) < s.base.recvBuffer.length + 2
  split <;> omega

/-- A new session with two bytes to parse. -/
theorem receiveChunkStream_ends_two :
    ∃ r, receiveChunkStream (fun _ => ownHandler [])
      4 { base := { recvBuffer := [0xc3, 0xc4] } } = some r :=
  receiveChunkStream_ends.2 (fun _ => ownHandler []) { base := { recvBuffer := [0xc3, 0xc4] } }
    fun _ => keepsInput_ownHandler []

end Session

end MediaServer
