import Glopfile.EventMachine

/-!
# The native websocket connection

A connection has a thread of its own. Callers of `send` put a message and a reply sender into the
thread's queue and await the reply; `join` awaits the end of the thread. A call that finds the
thread gone takes its handle and asks it for its result, and `send` takes the error out of it. An
event is what an await of the thread or of a call returns, or a call that is made or dropped.

A call of `send` is named by a number. Errors of other crates are represented by their text.
-/

namespace Glopfile.Client.NativeWebSocket

open EventMachine (Trace)

inductive SocketError
  | http (status : ℕ) (retryAfter : Option ℕ)
  | io (source : String)
  | alreadyClosed
  | other (source : String)
  deriving DecidableEq, Repr

inductive WebSocketError
  | clientHttpErrorResponse (message : String) (status : ℕ) (retryAfter : Option ℕ)
  | closed (status : ℕ) (reason : String)
  | io (source : String)
  | invalidMessage (source : String)
  | webSocketClient (source : SocketError)
  deriving DecidableEq, Repr

def WebSocketError.from : SocketError → WebSocketError
  | .http status retryAfter =>
    .clientHttpErrorResponse "failed to connect to websocket" status retryAfter
  | .io source => .io source
  | source => .webSocketClient source

/-- What `connection.next()` returns. A binary message is decoded, and `breaks` says what the
handler makes of it. -/
inductive Incoming
  | text
  | binary (decoded : Except String Unit) (breaks : Bool)
  | ping
  | pong
  | frame
  | close (frame : Option (ℕ × String))
  | failed (error : SocketError)
  | ended

/-- The thread awaits the connection, the next event of its loop, or the end of a write: of the
message of a call, or of a pong. -/
inductive Thread
  | connecting
  | selecting
  | writing (call : Option ℕ)
  | exited (result : Except WebSocketError Unit)

def Thread.hasExited : Thread → Bool
  | .exited _ => true
  | _ => false

inductive Stage
  | connecting
  | opened
  | dropped
  deriving DecidableEq, Repr

/-- `handle` says that the thread's handle has not been taken, `connected` that the thread has
sent on `connect_tx`. `sends` and `joins` are the calls that wait. -/
structure Connection where
  thread : Thread
  handle : Bool
  connected : Bool
  queue : List ℕ
  replied : List ℕ
  stage : Stage
  sends : List ℕ
  joins : ℕ
  fresh : ℕ

inductive Event
  | connected (result : Except SocketError Unit)
  | takeOutgoing
  | outgoingEnded
  | written (result : Except SocketError Unit)
  | incoming (message : Incoming)
  | connectResume
  | connectDrop
  | send
  | sendResume (call : ℕ)
  | sendDrop (call : ℕ)
  | join
  | joinResume
  | joinDrop
  | release

inductive Call
  | connect
  | send
  | join
  deriving DecidableEq, Repr

/-- A call returns, or it panics at the `Ok` that it meets where an error is expected. -/
inductive Output
  | returned (call : Call) (result : Except WebSocketError Unit)
  | panicked (call : Call)

namespace Connection

def new : Connection where
  thread := .connecting
  handle := true
  connected := false
  queue := []
  replied := []
  stage := .connecting
  sends := []
  joins := 0
  fresh := 0

/-- The thread ends, and drops the messages of its queue with their reply senders. -/
def exit (s : Connection) (result : Except WebSocketError Unit) : Connection :=
  { s with thread := .exited result, queue := [] }

def handleIncoming (s : Connection) : Incoming → Connection
  | .text | .pong | .frame => s
  | .binary (.error source) _ => s.exit (.error (.invalidMessage source))
  | .binary (.ok ()) breaks => if breaks then s.exit (.ok ()) else s
  | .ping => { s with thread := .writing none }
  | .close none => s.exit (.ok ())
  | .close (some (status, reason)) => s.exit (.error (.closed status reason))
  | .failed error => s.exit (.error (.from error))
  | .ended => s.exit (.ok ())

/-- `join_sync`, which blocks until the thread has ended. -/
def joinSync (s : Connection) : Option (Except WebSocketError Unit × Connection) :=
  match s.handle, s.thread with
  | true, .exited result => some (result, { s with handle := false })
  | true, _ => none
  | false, _ => some (.error (.from .alreadyClosed), s)

/-- `self.join_sync().unwrap_err()`. -/
def fail (s : Connection) (call : Call) : Option (Connection × List Output) :=
  s.joinSync.map fun joined =>
    match joined.1 with
    | .ok () => (joined.2, [.panicked call])
    | .error error => (joined.2, [.returned call (.error error)])

def replyHeld (s : Connection) (call : ℕ) : Bool :=
  match s.thread with
  | .writing (some writing) => writing = call || s.queue.contains call
  | _ => s.queue.contains call

def step (s : Connection) : Event → Option (Connection × List Output)
  | .connected result =>
    match s.thread, result with
    | .connecting, .ok () => some ({ s with thread := .selecting, connected := true }, [])
    | .connecting, .error error => some (s.exit (.error (.from error)), [])
    | _, _ => none
  | .takeOutgoing =>
    match s.thread, s.queue with
    | .selecting, call :: rest => some ({ s with thread := .writing (some call), queue := rest }, [])
    | _, _ => none
  | .outgoingEnded =>
    match s.thread, s.queue, s.stage with
    | .selecting, [], .dropped => some (s.exit (.ok ()), [])
    | _, _, _ => none
  | .written result =>
    match s.thread, result with
    | .writing (some call), .ok () =>
      some ({ s with thread := .selecting, replied := call :: s.replied }, [])
    | .writing none, .ok () => some ({ s with thread := .selecting }, [])
    | .writing _, .error error => some (s.exit (.error (.from error)), [])
    | _, _ => none
  | .incoming message =>
    match s.thread with
    | .selecting => some (s.handleIncoming message, [])
    | _ => none
  | .connectResume =>
    match s.stage with
    | .connecting =>
      if s.connected then some ({ s with stage := .opened }, [.returned .connect (.ok ())])
      else if s.thread.hasExited then { s with stage := .dropped }.fail .connect
      else none
    | _ => none
  | .connectDrop => if s.stage = .connecting then some ({ s with stage := .dropped }, []) else none
  | .send =>
    if s.stage = .opened then
      if s.thread.hasExited then s.fail .send
      else some ({ s with
        queue := s.queue ++ [s.fresh], sends := s.sends ++ [s.fresh], fresh := s.fresh + 1 }, [])
    else none
  | .sendResume call =>
    if call ∈ s.sends then
      let s := { s with sends := s.sends.erase call }
      if call ∈ s.replied then some (s, [.returned .send (.ok ())])
      else if s.replyHeld call then none
      else s.fail .send
    else none
  | .sendDrop call =>
    if call ∈ s.sends then some ({ s with sends := s.sends.erase call }, []) else none
  | .join => if s.stage = .opened then some ({ s with joins := s.joins + 1 }, []) else none
  | .joinResume =>
    if 0 < s.joins ∧ s.thread.hasExited then
      let s := { s with joins := s.joins - 1 }
      s.joinSync.map fun joined => (joined.2, [.returned .join joined.1])
    else none
  | .joinDrop => if 0 < s.joins then some ({ s with joins := s.joins - 1 }, []) else none
  -- The calls borrow the connection.
  | .release =>
    if s.stage = .opened ∧ s.sends = [] ∧ s.joins = 0 then some ({ s with stage := .dropped }, [])
    else none

end Connection

def nativeWebSocket : EventMachine Connection Event Output where
  init := .new
  step := Connection.step

namespace Connection

def noticesEnd (s : Connection) : Event → Bool
  | .send => s.stage = .opened && s.thread.hasExited
  | .sendResume call => s.sends.contains call && !s.replied.contains call && !s.replyHeld call
  | _ => false

/-- The first call to ask a thread for its result does so in `join`, or the thread has ended with
an error. -/
def EndsInError (s : Connection) (e : Event) : Prop :=
  s.noticesEnd e = true → ¬(s.handle = true ∧ s.thread = .exited (.ok ()))

def Silent (os : List Output) : Prop := ∀ call, .panicked call ∉ os

def Connects (s : Connection) : Prop :=
  s.connected = false → s.thread = .connecting ∨ ∃ error, s.thread = .exited (.error error)

variable {s s' : Connection} {e : Event} {os : List Output} {call : Call}
  {result : Except WebSocketError Unit} {tr : Trace Event Output}

theorem silent_nil : Silent [] := nofun

theorem silent_returned : Silent [.returned call result] := by
  intro other hmem
  cases List.mem_singleton.mp hmem

theorem not_silent_panicked : ¬Silent [.panicked call] := fun h => h call List.mem_cons_self

theorem fail_cases (h : s.fail call = some (s', os)) :
    ((∃ result, s.handle = true ∧ s.thread = .exited result ∧ s' = { s with handle := false }) ∨
      (s.handle = false ∧ s' = s)) ∧
    (Silent os ↔ ¬(s.handle = true ∧ s.thread = .exited (.ok ()))) := by
  obtain ⟨⟨result, t⟩, hjoin, houtput⟩ := Option.map_eq_some_iff.mp h
  unfold joinSync at hjoin
  split at hjoin
  · next exited hhandle hthread =>
    obtain ⟨rfl, rfl⟩ := Prod.mk.inj (Option.some.inj hjoin)
    cases exited with
    | ok value =>
      obtain ⟨rfl, rfl⟩ := Prod.mk.inj houtput
      refine ⟨.inl ⟨.ok value, hhandle, hthread, rfl⟩, fun hsilent => ?_, fun hne => ?_⟩
      · exact absurd hsilent not_silent_panicked
      · exact absurd ⟨hhandle, hthread⟩ hne
    | error error =>
      obtain ⟨rfl, rfl⟩ := Prod.mk.inj houtput
      refine ⟨.inl ⟨.error error, hhandle, hthread, rfl⟩, fun _ hok => ?_, fun _ =>
        silent_returned⟩
      rw [hthread] at hok
      cases hok.2
  · cases hjoin
  · next hhandle =>
    obtain ⟨rfl, rfl⟩ := Prod.mk.inj (Option.some.inj hjoin)
    obtain ⟨rfl, rfl⟩ := Prod.mk.inj houtput
    refine ⟨.inr ⟨hhandle, rfl⟩, fun _ hok => ?_, fun _ => silent_returned⟩
    rw [hhandle] at hok
    cases hok.1

theorem joinSync_frame {joined : Except WebSocketError Unit × Connection}
    (h : s.joinSync = some joined) :
    joined.2 = { s with handle := false } ∨ joined.2 = s := by
  unfold joinSync at h
  split at h
  · obtain rfl := Option.some.inj h
    exact .inl rfl
  · cases h
  · obtain rfl := Option.some.inj h
    exact .inr rfl

namespace Connects

theorem of_connected (h : s'.connected = true) : s'.Connects := by
  intro hne
  rw [h] at hne
  cases hne

theorem exit_error {error : WebSocketError} : (s.exit (.error error)).Connects :=
  fun _ => .inr ⟨error, rfl⟩

theorem connected {thread : Thread} (h : s.Connects) (hthread : s.thread = thread)
    (hconnecting : thread ≠ .connecting) (hrunning : thread.hasExited = false) :
    s.connected = true := by
  by_contra hne
  rcases h (by simpa using hne) with hfirst | ⟨error, hexited⟩
  · exact hconnecting (hthread.symm.trans hfirst)
  · rw [hthread.symm.trans hexited] at hrunning
    cases hrunning

theorem fail (h : s.Connects) (hstep : s.fail call = some (s', os)) : s'.Connects := by
  obtain ⟨⟨_, _, _, rfl⟩ | ⟨_, rfl⟩, -⟩ := fail_cases hstep
  · exact h
  · exact h

end Connects

theorem handleIncoming_connected (message : Incoming) :
    (s.handleIncoming message).connected = s.connected := by
  cases message with
  | binary result breaks =>
    cases result with
    | error source => rfl
    | ok value => cases breaks <;> rfl
  | close frame => cases frame <;> rfl
  | _ => rfl

theorem step_connects (h : s.Connects) (hstep : s.step e = some (s', os)) : s'.Connects := by
  cases e with
  | connected result =>
    simp only [step] at hstep
    split at hstep
    · cases hstep
      exact .of_connected rfl
    · cases hstep
      exact .exit_error
    · cases hstep
  | takeOutgoing =>
    simp only [step] at hstep
    split at hstep
    · next hthread _ =>
      cases hstep
      exact .of_connected (h.connected hthread nofun rfl)
    · cases hstep
  | outgoingEnded =>
    simp only [step] at hstep
    split at hstep
    · next hthread _ _ =>
      cases hstep
      exact .of_connected (h.connected hthread nofun rfl)
    · cases hstep
  | written result =>
    simp only [step] at hstep
    split at hstep
    · next hthread =>
      cases hstep
      exact .of_connected (h.connected hthread nofun rfl)
    · next hthread =>
      cases hstep
      exact .of_connected (h.connected hthread nofun rfl)
    · cases hstep
      exact .exit_error
    · cases hstep
  | incoming message =>
    simp only [step] at hstep
    split at hstep
    · next hthread =>
      cases hstep
      refine .of_connected ?_
      rw [handleIncoming_connected]
      exact h.connected hthread nofun rfl
    · cases hstep
  | connectResume =>
    simp only [step] at hstep
    split at hstep
    · split_ifs at hstep
      · cases hstep
        exact h
      · exact Connects.fail (s := { s with stage := .dropped }) h hstep
    · cases hstep
  | send =>
    simp only [step] at hstep
    split_ifs at hstep
    · exact h.fail hstep
    · cases hstep
      exact h
  | sendResume call =>
    simp only [step] at hstep
    split_ifs at hstep
    · cases hstep
      exact h
    · exact Connects.fail (s := { s with sends := s.sends.erase call }) h hstep
  | joinResume =>
    simp only [step] at hstep
    split_ifs at hstep
    obtain ⟨joined, hjoin, hnext⟩ := Option.map_eq_some_iff.mp hstep
    obtain ⟨rfl, rfl⟩ := Prod.mk.inj hnext
    rcases joinSync_frame hjoin with hsame | hsame
    · rw [hsame]
      exact h
    · rw [hsame]
      exact h
  | connectDrop | sendDrop call | join | joinDrop | release =>
    simp only [step] at hstep
    split_ifs at hstep
    cases hstep
    exact h

theorem silent_of_quiet (he : s.noticesEnd e = false) (hos : Silent os) :
    Silent os ↔ s.EndsInError e :=
  ⟨fun _ hnotices => by simp [he] at hnotices, fun _ => hos⟩

theorem step_silent (h : s.Connects) (hstep : s.step e = some (s', os)) :
    Silent os ↔ s.EndsInError e := by
  cases e with
  | connectResume =>
    refine silent_of_quiet rfl ?_
    simp only [step] at hstep
    split at hstep
    · split_ifs at hstep with hconnected hexited
      · cases hstep
        exact silent_returned
      · refine (fail_cases hstep).2.mpr fun hok => ?_
        -- A thread that is gone before it has connected has met an error.
        rcases h (by simpa using hconnected) with hthread | ⟨error, hthread⟩
        · rw [hthread] at hexited
          cases hexited
        · cases hthread.symm.trans hok.2
    · cases hstep
  | send =>
    simp only [step] at hstep
    split_ifs at hstep with hopened hexited
    · rw [(fail_cases hstep).2]
      exact ⟨fun hne _ => hne, fun hends => hends (by simp [noticesEnd, hopened, hexited])⟩
    · cases hstep
      exact silent_of_quiet (by simp [noticesEnd, hexited]) silent_nil
  | sendResume call =>
    simp only [step] at hstep
    split_ifs at hstep with hwaits hreplied hheld
    · cases hstep
      exact silent_of_quiet (by simp [noticesEnd, hreplied]) silent_returned
    · rw [(fail_cases hstep).2]
      have hnotices : s.noticesEnd (.sendResume call) = true := by
        have hlost : s.replyHeld call = false := Bool.eq_false_iff.mpr hheld
        simp [noticesEnd, hwaits, hreplied, hlost]
      exact ⟨fun hne _ => hne, fun hends => hends hnotices⟩
  | joinResume =>
    refine silent_of_quiet rfl ?_
    simp only [step] at hstep
    split_ifs at hstep
    obtain ⟨joined, -, hnext⟩ := Option.map_eq_some_iff.mp hstep
    obtain ⟨-, rfl⟩ := Prod.mk.inj hnext
    exact silent_returned
  | connected result | takeOutgoing | outgoingEnded | written result | incoming message =>
    refine silent_of_quiet rfl ?_
    simp only [step] at hstep
    split at hstep
    all_goals
      cases hstep
      try exact silent_nil
  | connectDrop | sendDrop call | join | joinDrop | release =>
    refine silent_of_quiet rfl ?_
    simp only [step] at hstep
    split_ifs at hstep
    cases hstep
    exact silent_nil

end Connection

/-- Every call returns, an `Ok` or an error, exactly if none of `send` is the first to ask a thread
for its result that has ended with `Ok`. -/
theorem calls_return {s : Connection} {tr : Trace Event Output} (h : nativeWebSocket.Run tr s) :
    (∀ x ∈ tr, Connection.Silent x.2) ↔
      nativeWebSocket.Path Connection.EndsInError nativeWebSocket.init tr s := by
  have hconnects : ∀ tr s, nativeWebSocket.Run tr s → s.Connects := by
    intro tr s hrun
    exact hrun.invariant (fun _ => .inl rfl) fun _ _ _ _ hs _ hstep =>
      Connection.step_connects hs hstep
  refine h.guarded_iff_history (P := fun tr _ => ∀ x ∈ tr, Connection.Silent x.2) nofun ?_
  intro tr s e s' os hrun hstep
  rw [List.forall_mem_append, List.forall_mem_singleton,
    Connection.step_silent (hconnects tr s hrun) hstep]

def closedByServer : List NativeWebSocket.Event :=
  [.connected (.ok ()), .connectResume, .join, .incoming (.close none),
    .joinResume, .send]

theorem calls_return_joined : ∃ tr s,
    nativeWebSocket.exec .new closedByServer = some (tr, s) ∧ s.handle = false ∧
    ∀ x ∈ tr, Connection.Silent x.2 := by
  obtain ⟨tr, s, hexec, hpath, hhandle⟩ : ∃ tr s,
      nativeWebSocket.exec .new closedByServer = some (tr, s) ∧
      nativeWebSocket.Path Connection.EndsInError .new tr s ∧ s.handle = false := by
    refine ⟨_, _, rfl, ?_, rfl⟩
    exact .cons nofun rfl (.cons nofun rfl (.cons nofun rfl (.cons nofun rfl (.cons nofun rfl
      (.cons (fun _ h => nomatch h.1) rfl .refl)))))
  exact ⟨tr, s, hexec, hhandle, (calls_return (EventMachine.exec_run _ hexec)).mpr hpath⟩

/-- The server closes the websocket without a frame, and the next `send` finds the thread gone. -/
theorem send_panics : ∃ s,
    nativeWebSocket.exec
        .new [.connected (.ok ()), .connectResume, .incoming (.close none), .send] =
      some ([(.connected (.ok ()), []), (.connectResume, [.returned .connect (.ok ())]),
        (.incoming (.close none), []), (.send, [.panicked .send])], s) := ⟨_, rfl⟩

end Glopfile.Client.NativeWebSocket
