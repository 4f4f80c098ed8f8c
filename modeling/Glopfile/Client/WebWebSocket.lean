import Glopfile.EventMachine
import Mathlib.Data.List.TakeWhile

/-!
# The websocket connection in the browser

The browser calls what is set as a handler of the `WebSocket`. `connect` sets two handlers, awaits
the promise that they settle, sets the three of the connection, and drops the first two. A dropped
callback sets its slot to null, whichever handler is there by then.

An event is one that the browser fires, or a call that is made, polled on or dropped. The browser
fires `open` once and `message` while the socket is open. When the socket closes, it fires `error`
if the socket has failed, and then `close`.
-/

namespace Glopfile.Client.WebWebSocket

open EventMachine (Trace)

inductive WebSocketError
  | closed (status : ℕ) (reason : String)
  | invalidMessage (source : String)
  | webSocketClient (source : String)
  deriving DecidableEq, Repr

/-- `WebSocketKnownCloseStatus::ConnectionClosed`. -/
def connectionClosed : ℕ := 1006

/-- A `WebSocketCloseStatus` from a `u16`, as the number it stands for. -/
def closeStatus (code : ℕ) : ℕ := if code = 0 then 1005 else code

def closedImmediately : WebSocketError := .closed connectionClosed "closed immediately"

def closedByApplication : WebSocketError := .closed connectionClosed "closed by application"

inductive ReadyState
  | connecting
  | opened
  | closing
  | closed
  deriving DecidableEq, Repr

inductive Slot
  | onopen
  | onerror
  | onmessage
  | onclose
  deriving DecidableEq, Repr

inductive Handler
  | resolve
  | reject
  | message
  | close
  | error
  deriving DecidableEq, Repr

/-- `closeFired` says that the browser has fired `close`. -/
structure WebSocket where
  readyState : ReadyState
  closeFired : Bool
  handlers : Slot → Option Handler

def WebSocket.set (websocket : WebSocket) (slot : Slot) (handler : Option Handler) :
    WebSocket :=
  { websocket with handlers := Function.update websocket.handlers slot handler }

abbrev Callbacks := List Slot

namespace Callbacks

def addEvent (callbacks : Callbacks) (websocket : WebSocket) (slot : Slot)
    (handler : Handler) : Callbacks × WebSocket :=
  (callbacks ++ [slot], websocket.set slot (some handler))

def cleanup (callbacks : Callbacks) (websocket : WebSocket) : WebSocket :=
  callbacks.foldl (fun websocket slot => websocket.set slot none) websocket

end Callbacks

inductive Promise
  | pending
  | resolved
  | rejected (source : String)
  deriving DecidableEq, Repr

/-- `ended` is a `connect` that failed, or a connection that is dropped. -/
inductive Stage
  | opening (initCallbacks : Callbacks) (promise : Promise)
  | connected (callbacks : Callbacks)
  | ended
  deriving DecidableEq, Repr

/-- `closed` also says that the joiner is aborted. -/
structure Connection where
  websocket : WebSocket
  error : Option WebSocketError
  closed : Bool
  stage : Stage

/-- The data of a message event; `breaks` says what the handler makes of a message. -/
inductive Data (M : Type*)
  | text
  | binary (decoded : Except String M) (breaks : Bool)

/-- `thrown` is what `WebSocket.send` throws. -/
inductive Event (M : Type*)
  | opened
  | error (source : String)
  | message (data : Data M)
  | closed (code : ℕ) (reason : String)
  | connectResume
  | connectDrop
  | send (message : M) (thrown : Option String)
  | join
  | release

inductive Call
  | connect
  | send
  | join
  deriving DecidableEq, Repr

inductive Output (M : Type*)
  | handled (message : M)
  | sent (message : M)
  | returned (call : Call) (result : Except WebSocketError Unit)
  | panicked

variable {M : Type*}

namespace Connection

/-- `connect` as far as its await, of a socket that may be open already. -/
def connect (readyState : ReadyState) : Connection :=
  let websocket : WebSocket := ⟨readyState, false, fun _ => none⟩
  if readyState = .connecting then
    let (initCallbacks, websocket) := Callbacks.addEvent [] websocket .onopen .resolve
    let (initCallbacks, websocket) := initCallbacks.addEvent websocket .onerror .reject
    ⟨websocket, none, false, .opening initCallbacks .pending⟩
  else ⟨websocket, none, false, .opening [] .resolved⟩

def setClosed (s : Connection) : Connection := { s with closed := true }

def caught (s : Connection) (error : WebSocketError) : Connection :=
  { s with error := some error }.setClosed

def close (s : Connection) : Connection :=
  if s.closed then s
  else { s with websocket := { s.websocket with readyState := .closing } }.setClosed

def tryJoin (s : Connection) : Connection × Option WebSocketError :=
  match s.error with
  | some error => ({ s with error := none }, some error)
  | none => (s, if s.closed then some closedByApplication else none)

def settle (s : Connection) (promise : Promise) : Connection :=
  match s.stage with
  | .opening initCallbacks .pending => { s with stage := .opening initCallbacks promise }
  | _ => s

def onopen (s : Connection) : Connection :=
  match s.websocket.handlers .onopen with
  | some .resolve => s.settle .resolved
  | _ => s

def onerror (s : Connection) (source : String) : Connection :=
  match s.websocket.handlers .onerror with
  | some .reject => s.settle (.rejected source)
  | some .error => s.caught (.webSocketClient source)
  | _ => s

def onmessage (s : Connection) (data : Data M) : Connection × List (Output M) :=
  match s.websocket.handlers .onmessage, data with
  | some .message, .text => (s, [.panicked])
  | some .message, .binary (.error source) _ => (s.caught (.invalidMessage source), [])
  | some .message, .binary (.ok message) breaks =>
    (if breaks then s.close else s, [.handled message])
  | _, _ => (s, [])

def onclose (s : Connection) (code : ℕ) (reason : String) : Connection :=
  match s.websocket.handlers .onclose with
  | some .close => s.caught (.closed (closeStatus code) reason)
  | _ => s

def fire (s : Connection) (readyState : ReadyState) : Connection :=
  { s with websocket := { s.websocket with readyState := readyState } }

def fireClose (s : Connection) : Connection :=
  { s with websocket := { s.websocket with readyState := .closed, closeFired := true } }

/-- The handlers that `connect` sets after its await, and its drop of those it awaited with. -/
def setHandlers (initCallbacks : Callbacks) (websocket : WebSocket) : Callbacks × WebSocket :=
  let websocket := websocket.set .onopen none
  let (callbacks, websocket) := Callbacks.addEvent [] websocket .onmessage .message
  let (callbacks, websocket) := callbacks.addEvent websocket .onclose .close
  let (callbacks, websocket) := callbacks.addEvent websocket .onerror .error
  (callbacks, initCallbacks.cleanup websocket)

def establish (s : Connection) (initCallbacks : Callbacks) : Connection × List (Output M) :=
  let (callbacks, websocket) := setHandlers initCallbacks s.websocket
  if websocket.readyState = .opened then
    ({ s with websocket := websocket, stage := .connected callbacks },
      [.returned .connect (.ok ())])
  else
    let (s, error) := s.tryJoin
    ({ s with websocket := callbacks.cleanup websocket, stage := .ended },
      [.returned .connect (.error (error.getD closedImmediately))])

def send (s : Connection) (message : M) (thrown : Option String) : Connection × List (Output M) :=
  match s.tryJoin with
  | (s, some error) => (s, [.returned .send (.error error)])
  | (s, none) =>
    match thrown with
    | some source => (s, [.returned .send (.error (.webSocketClient source))])
    | none => (s, [.sent message, .returned .send (.ok ())])

/-- One poll. `self.try_join().unwrap()` panics if it finds nothing. -/
def join (s : Connection) : Connection × List (Output M) :=
  if s.closed then
    match s.tryJoin with
    | (s, some error) => (s, [.returned .join (.error error)])
    | (s, none) => (s, [.panicked])
  else (s, [])

def step (s : Connection) (e : Event M) : Option (Connection × List (Output M)) :=
  match e, s.stage with
  | .opened, _ =>
    if s.websocket.readyState = .connecting then some ((s.fire .opened).onopen, []) else none
  | .error source, _ =>
    if s.websocket.readyState ≠ .closed then some ((s.fire .closed).onerror source, []) else none
  | .message data, _ =>
    if s.websocket.readyState = .opened then some (s.onmessage data) else none
  | .closed code reason, _ =>
    if s.websocket.closeFired then none else some (s.fireClose.onclose code reason, [])
  | .connectResume, .opening initCallbacks .resolved => some (s.establish initCallbacks)
  | .connectResume, .opening initCallbacks (.rejected source) =>
    some ({ s with websocket := initCallbacks.cleanup s.websocket, stage := .ended },
      [.returned .connect (.error (.webSocketClient source))])
  | .connectDrop, .opening initCallbacks _ =>
    some ({ s with websocket := initCallbacks.cleanup s.websocket, stage := .ended }, [])
  | .send message thrown, .connected _ => some (s.send message thrown)
  | .join, .connected _ => some s.join
  | .release, .connected callbacks =>
    some ({ s with websocket := callbacks.cleanup s.websocket, stage := .ended }, [])
  | _, _ => none

end Connection

def webWebSocket (M : Type*) : EventMachine Connection (Event M) (Output M) where
  init := .connect .connecting
  step := Connection.step

abbrev WebSocketTrace (M : Type*) := Trace (Event M) (Output M)

namespace Event

def slot : Event M → Option Slot
  | .opened => some .onopen
  | .error _ => some .onerror
  | .message _ => some .onmessage
  | .closed _ _ => some .onclose
  | _ => none

def isResume : Event M → Bool
  | .connectResume => true
  | _ => false

def reports : Event M → Option WebSocketError
  | .message (.binary (.error source) _) => some (.invalidMessage source)
  | .closed code reason => some (.closed (closeStatus code) reason)
  | .send _ (some source) => some (.webSocketClient source)
  | _ => none

def ends : Event M → Bool
  | .message (.binary (.error _) _) | .message (.binary (.ok _) true) | .closed _ _ => true
  | _ => false

end Event

/-- The error that a call returns, unless it is for want of one. -/
def Output.given : Output M → Option WebSocketError
  | .returned .send (.error error) | .returned .join (.error error) =>
    if error = closedByApplication then none else some error
  | _ => none

def since (tr : WebSocketTrace M) : WebSocketTrace M := tr.dropWhile fun x => !x.1.isResume

def reported (tr : WebSocketTrace M) : List WebSocketError :=
  (since tr).filterMap fun x => x.1.reports

def Ended (tr : WebSocketTrace M) : Prop := ∃ x ∈ since tr, x.1.ends = true

def given (tr : WebSocketTrace M) : List WebSocketError :=
  tr.flatMap fun x => x.2.filterMap Output.given

def Connected (tr : WebSocketTrace M) : Prop :=
  (∃ x ∈ tr, .returned .connect (.ok ()) ∈ x.2) ∧ ∀ x ∈ tr, x.1 ≠ .release

variable {s s' : Connection} {e : Event M} {os : List (Output M)} {tr pre : WebSocketTrace M}
  {callbacks : Callbacks} {websocket : WebSocket} {x : Event M × List (Output M)}

section TraceLemmas

theorem since_of_resumed (h : ∃ x ∈ tr, x.1.isResume = true) :
    since (tr ++ [x]) = since tr ++ [x] := by
  obtain ⟨y, hy, hresume⟩ := h
  refine List.dropWhile_append.trans (if_neg ?_)
  rw [Bool.not_eq_true, List.isEmpty_eq_false_iff, ne_eq, List.dropWhile_eq_nil_iff]
  intro hall
  have hno := hall y hy
  rw [hresume] at hno
  cases hno

theorem since_of_not_resumed (h : ∀ x ∈ tr, x.1.isResume = false) : since tr = [] := by
  refine List.dropWhile_eq_nil_iff.mpr fun x hx => ?_
  rw [h x hx]
  rfl

theorem since_resume (h : ∀ x ∈ tr, x.1.isResume = false) :
    since (tr ++ [(.connectResume, os)]) = [(.connectResume, os)] := by
  refine (List.dropWhile_append_of_pos fun x hx => ?_).trans rfl
  rw [h x hx]
  rfl

@[simp] theorem given_snoc : given (tr ++ [(e, os)]) = given tr ++ os.filterMap Output.given := by
  simp [given]

theorem reported_mono : (reported tr).Sublist (reported (tr ++ [x])) := by
  by_cases h : ∃ x ∈ tr, x.1.isResume = true
  · rw [reported, reported, since_of_resumed h, List.filterMap_append]
    exact List.sublist_append_left _ _
  · have hnone : since tr = [] := since_of_not_resumed fun x hx => by
      rw [Bool.eq_false_iff]
      exact fun hresume => h ⟨x, hx, hresume⟩
    rw [reported, hnone]
    exact List.nil_sublist _

end TraceLemmas

theorem cleanup_handlers (slot : Slot) : (callbacks.cleanup websocket).handlers slot =
    if slot ∈ callbacks then none else websocket.handlers slot := by
  unfold Callbacks.cleanup
  induction callbacks generalizing websocket with
  | nil => rfl
  | cons first callbacks ih =>
    rw [List.foldl_cons, ih]
    by_cases hslot : slot = first
    · simp [hslot, WebSocket.set]
    · simp [hslot, WebSocket.set]

def initHandlers : Slot → Option Handler
  | .onopen => some .resolve
  | .onerror => some .reject
  | _ => none

/-- The handlers of a connection: the one for `error` is gone with the callbacks of `connect`. -/
def connectionHandlers : Slot → Option Handler
  | .onmessage => some .message
  | .onclose => some .close
  | _ => none

structure Opens (tr : WebSocketTrace M) (s : Connection) (initCallbacks : Callbacks) : Prop where
  initCallbacks : initCallbacks = [.onopen, .onerror]
  handlers : s.websocket.handlers = initHandlers
  error : s.error = none
  closed : s.closed = false
  resumed : ∀ x ∈ tr, x.1.isResume = false
  given : given tr = []
  connecting : ∀ x ∈ tr, .returned .connect (.ok ()) ∉ x.2 ∧ x.1 ≠ .release

structure Connects (tr : WebSocketTrace M) (s : Connection) (callbacks : Callbacks) : Prop where
  callbacks : callbacks = [.onmessage, .onclose, .onerror]
  handlers : s.websocket.handlers = connectionHandlers
  closed : s.closed = true ↔ Ended tr
  error : s.error.isSome = true → s.closed = true
  given : (given tr ++ s.error.toList).Sublist (reported tr)
  resumed : ∃ x ∈ tr, x.1.isResume = true
  connected : Connected tr

structure Gone (tr : WebSocketTrace M) (s : Connection) : Prop where
  handlers : s.websocket.handlers = fun _ => none
  given : (given tr).Sublist (reported tr)
  connected : ¬Connected tr

def Holds (tr : WebSocketTrace M) (s : Connection) : Prop :=
  match s.stage with
  | .opening initCallbacks _ => Opens tr s initCallbacks
  | .connected callbacks => Connects tr s callbacks
  | .ended => Gone tr s

structure Reports (pre : WebSocketTrace M) (e : Event M) (os : List (Output M)) : Prop where
  send : ∀ message thrown, e = .send message thrown →
    (Ended pre → ∃ error, os = [.returned .send (.error error)]) ∧
      (¬Ended pre → thrown = none → os = [.sent message, .returned .send (.ok ())])
  join : e = .join → (Ended pre → ∃ error, os = [.returned .join (.error error)]) ∧
    (¬Ended pre → os = [])
  message : ∀ message breaks, e = .message (.binary (.ok message) breaks) →
    (.handled message ∈ os ↔ Connected pre)
  panicked : .panicked ∈ os → e = .message .text

theorem connect_holds : Holds ([] : WebSocketTrace M) (.connect .connecting) where
  initCallbacks := rfl
  handlers := by
    funext slot
    cases slot <;> rfl
  error := rfl
  closed := rfl
  resumed := nofun
  given := rfl
  connecting := nofun

theorem connected_snoc (hos : .returned .connect (.ok ()) ∉ os) (he : e ≠ .release) :
    Connected (tr ++ [(e, os)]) ↔ Connected tr := by
  simp only [Connected, List.mem_append, List.mem_singleton, or_and_right, exists_or,
    exists_eq_left, hos, or_false, or_imp, forall_and, forall_eq, ne_eq, he, not_false_eq_true,
    and_true]

theorem Opens.silent (h : Opens tr s callbacks) (hhandlers : s'.websocket.handlers = initHandlers)
    (hsame : s'.error = s.error ∧ s'.closed = s.closed) (he : e.isResume = false)
    (hrelease : e ≠ .release) : Opens (tr ++ [(e, [])]) s' callbacks where
  initCallbacks := h.initCallbacks
  handlers := hhandlers
  error := hsame.1.trans h.error
  closed := hsame.2.trans h.closed
  resumed := by
    intro x hx
    rcases List.mem_append.mp hx with hx | hx
    · exact h.resumed x hx
    · rw [List.mem_singleton.mp hx]
      exact he
  given := by
    rw [given_snoc, h.given]
    rfl
  connecting := by
    intro x hx
    rcases List.mem_append.mp hx with hx | hx
    · exact h.connecting x hx
    · rw [List.mem_singleton.mp hx]
      exact ⟨List.not_mem_nil, hrelease⟩

theorem Opens.gone (h : Opens tr s callbacks)
    (hhandlers : s'.websocket.handlers = fun _ => none)
    (hos : .returned .connect (.ok ()) ∉ os) (hgiven : os.filterMap Output.given = []) :
    Gone (tr ++ [(e, os)]) s' where
  handlers := hhandlers
  given := by
    rw [given_snoc, h.given, hgiven]
    exact List.nil_sublist _
  connected := by
    rintro ⟨⟨x, hx, hreturned⟩, -⟩
    rcases List.mem_append.mp hx with hx | hx
    · exact (h.connecting x hx).1 hreturned
    · rw [List.mem_singleton.mp hx] at hreturned
      exact hos hreturned

theorem reports_other (hsend : ∀ message thrown, e ≠ .send message thrown) (hjoin : e ≠ .join)
    (hmessage : ∀ data, e ≠ .message data) (hos : .panicked ∉ os) : Reports pre e os where
  send message thrown he := absurd he (hsend message thrown)
  join he := absurd he hjoin
  message _ _ he := absurd he (hmessage _)
  panicked hmem := absurd hmem hos

structure Unheard (s s' : Connection) (os : List (Output M)) : Prop where
  handlers : s'.websocket.handlers = s.websocket.handlers
  closed : s'.closed = s.closed
  error : s'.error = s.error
  stage : s'.stage = s.stage
  silent : os = []

theorem step_unheard {slot : Slot} (hslot : e.slot = some slot)
    (hnone : s.websocket.handlers slot = none) (hstep : s.step e = some (s', os)) :
    Unheard s s' os := by
  cases e with
  | opened =>
    obtain rfl := Option.some.inj hslot
    have hopen : (s.fire .opened).onopen = s.fire .opened := by
      simp [Connection.onopen, Connection.fire, hnone]
    simp only [Connection.step, hopen, Option.ite_none_right_eq_some, Option.some.injEq,
      Prod.mk.injEq] at hstep
    obtain ⟨-, rfl, rfl⟩ := hstep
    exact ⟨rfl, rfl, rfl, rfl, rfl⟩
  | error source =>
    obtain rfl := Option.some.inj hslot
    have herror : (s.fire .closed).onerror source = s.fire .closed := by
      simp [Connection.onerror, Connection.fire, hnone]
    simp only [Connection.step, herror, Option.ite_none_right_eq_some, Option.some.injEq,
      Prod.mk.injEq] at hstep
    obtain ⟨-, rfl, rfl⟩ := hstep
    exact ⟨rfl, rfl, rfl, rfl, rfl⟩
  | message data =>
    obtain rfl := Option.some.inj hslot
    have hmessage : s.onmessage data = (s, []) := by simp [Connection.onmessage, hnone]
    simp only [Connection.step, hmessage, Option.ite_none_right_eq_some, Option.some.injEq,
      Prod.mk.injEq] at hstep
    obtain ⟨-, rfl, rfl⟩ := hstep
    exact ⟨rfl, rfl, rfl, rfl, rfl⟩
  | closed code reason =>
    obtain rfl := Option.some.inj hslot
    have hclose : s.fireClose.onclose code reason = s.fireClose := by
      simp [Connection.onclose, Connection.fireClose, hnone]
    simp only [Connection.step, hclose, Option.ite_none_left_eq_some, Option.some.injEq,
      Prod.mk.injEq] at hstep
    obtain ⟨-, rfl, rfl⟩ := hstep
    exact ⟨rfl, rfl, rfl, rfl, rfl⟩
  | connectResume => cases hslot
  | connectDrop => cases hslot
  | send message thrown => cases hslot
  | join => cases hslot
  | release => cases hslot

theorem reports_unheard {slot : Slot} (hslot : e.slot = some slot) (hnot : ¬Connected pre) :
    Reports pre e [] where
  send := by
    rintro message thrown rfl
    cases hslot
  join := by
    rintro rfl
    cases hslot
  message _ _ _ := iff_of_false List.not_mem_nil hnot
  panicked hmem := absurd hmem List.not_mem_nil

theorem settle_eq {promise : Promise} : ∃ stage, s.settle promise = { s with stage := stage } ∧
    ∀ initCallbacks promise', s.stage = .opening initCallbacks promise' →
      ∃ promise'', stage = .opening initCallbacks promise'' := by
  unfold Connection.settle
  split
  · next initCallbacks hstage =>
    refine ⟨_, rfl, fun initCallbacks' promise' hopening => ?_⟩
    rw [hstage] at hopening
    obtain ⟨rfl, -⟩ := Stage.opening.inj hopening
    exact ⟨promise, rfl⟩
  · exact ⟨s.stage, rfl, fun _ promise' hopening => ⟨promise', hopening⟩⟩

/-- The drop of the two callbacks takes the third handler of the connection along. -/
theorem setHandlers_handlers :
    (Connection.setHandlers [.onopen, .onerror] websocket).2.handlers = connectionHandlers := by
  funext slot
  unfold Connection.setHandlers
  rw [cleanup_handlers]
  cases slot <;> simp [Callbacks.addEvent, WebSocket.set, Function.update, connectionHandlers]

theorem Opens.establish_eq (h : Opens tr s callbacks) : s.establish (M := M) callbacks =
    let (callbacks, websocket) := Connection.setHandlers callbacks s.websocket
    if websocket.readyState = .opened then
      ({ s with websocket := websocket, stage := .connected callbacks },
        [.returned .connect (.ok ())])
    else
      ({ s with websocket := callbacks.cleanup websocket, stage := .ended },
        [.returned .connect (.error closedImmediately)]) := by
  unfold Connection.establish Connection.tryJoin
  simp only [h.error, h.closed]
  rfl

theorem Opens.connects (h : Opens tr s callbacks)
    (hhandlers : websocket.handlers = connectionHandlers) :
    Connects (tr ++ [(.connectResume, [.returned .connect (.ok ())])])
      { s with websocket := websocket, stage := .connected [.onmessage, .onclose, .onerror] }
      [.onmessage, .onclose, .onerror] where
  callbacks := rfl
  handlers := hhandlers
  closed := by
    simp [h.closed, Ended, since_resume h.resumed, Event.ends]
  error hsome := by
    rw [h.error] at hsome
    cases hsome
  given := by
    rw [given_snoc, h.given, h.error]
    exact List.nil_sublist _
  resumed := ⟨_, List.mem_append_right _ List.mem_cons_self, rfl⟩
  connected := by
    refine ⟨⟨_, List.mem_append_right _ List.mem_cons_self, List.mem_cons_self⟩, ?_⟩
    intro x hx
    rcases List.mem_append.mp hx with hx | hx
    · exact (h.connecting x hx).2
    · rw [List.mem_singleton.mp hx]
      exact nofun

theorem Opens.establish (h : Opens tr s callbacks)
    (hestablish : s.establish callbacks = (s', os)) :
    Holds (tr ++ [(.connectResume, os)]) s' ∧ Reports tr .connectResume os := by
  have hhandlers := @setHandlers_handlers s.websocket
  rw [h.establish_eq, h.initCallbacks] at hestablish
  dsimp only at hestablish
  split_ifs at hestablish
  · obtain ⟨rfl, rfl⟩ := Prod.mk.inj hestablish
    exact ⟨h.connects hhandlers, reports_other nofun nofun nofun (by simp)⟩
  · obtain ⟨rfl, rfl⟩ := Prod.mk.inj hestablish
    refine ⟨h.gone ?_ (by simp) rfl, reports_other nofun nofun nofun (by simp)⟩
    funext slot
    rw [cleanup_handlers, hhandlers]
    cases slot <;> rfl

theorem Opens.step {promise : Promise} (h : Opens tr s callbacks)
    (hstage : s.stage = .opening callbacks promise) (hstep : s.step e = some (s', os)) :
    Holds (tr ++ [(e, os)]) s' ∧ Reports tr e os := by
  have hnot : ¬Connected tr := by
    rintro ⟨⟨x, hx, hreturned⟩, -⟩
    exact (h.connecting x hx).1 hreturned
  have hcleanup : (callbacks.cleanup s.websocket).handlers = fun _ => none := by
    funext slot
    rw [cleanup_handlers, h.initCallbacks, h.handlers]
    cases slot <;> rfl
  have hquiet : ∀ {s' : Connection} {promise' : Promise}, s'.stage = .opening callbacks promise' →
      s'.websocket.handlers = s.websocket.handlers → s'.error = s.error → s'.closed = s.closed →
      e.isResume = false → e ≠ .release → Holds (tr ++ [(e, [])]) s' := by
    intro s' promise' hopening hhandlers herror hclosed he hrelease
    rw [Holds, hopening]
    exact h.silent (hhandlers.trans h.handlers) ⟨herror, hclosed⟩ he hrelease
  have hunheard : ∀ {slot : Slot}, e.slot = some slot → s.websocket.handlers slot = none →
      e ≠ .release → Holds (tr ++ [(e, os)]) s' ∧ Reports tr e os := by
    intro slot hslot hnone hrelease
    obtain ⟨hhandlers, hclosed, herror, hsame, rfl⟩ := step_unheard hslot hnone hstep
    refine ⟨hquiet (hsame.trans hstage) hhandlers herror hclosed ?_ hrelease,
      reports_unheard hslot hnot⟩
    cases e <;> first | rfl | cases hslot
  cases e with
  | opened =>
    simp only [Connection.step, Option.ite_none_right_eq_some, Option.some.injEq,
      Prod.mk.injEq] at hstep
    obtain ⟨-, rfl, rfl⟩ := hstep
    have hopen : (s.fire .opened).onopen = (s.fire .opened).settle .resolved := by
      simp [Connection.onopen, Connection.fire, h.handlers, initHandlers]
    obtain ⟨stage, hsettle, hopening⟩ := @settle_eq (s.fire .opened) .resolved
    obtain ⟨promise', hstage'⟩ := hopening callbacks promise hstage
    rw [hopen, hsettle]
    exact ⟨hquiet hstage' rfl rfl rfl rfl nofun, reports_other nofun nofun nofun List.not_mem_nil⟩
  | error source =>
    simp only [Connection.step, Option.ite_none_right_eq_some, Option.some.injEq,
      Prod.mk.injEq] at hstep
    obtain ⟨-, rfl, rfl⟩ := hstep
    have herror : (s.fire .closed).onerror source = (s.fire .closed).settle (.rejected source) := by
      simp [Connection.onerror, Connection.fire, h.handlers, initHandlers]
    obtain ⟨stage, hsettle, hopening⟩ := @settle_eq (s.fire .closed) (.rejected source)
    obtain ⟨promise', hstage'⟩ := hopening callbacks promise hstage
    rw [herror, hsettle]
    exact ⟨hquiet hstage' rfl rfl rfl rfl nofun, reports_other nofun nofun nofun List.not_mem_nil⟩
  | message data => exact hunheard rfl (by rw [h.handlers]; rfl) nofun
  | closed code reason => exact hunheard rfl (by rw [h.handlers]; rfl) nofun
  | connectResume =>
    cases promise with
    | pending => simp [Connection.step, hstage] at hstep
    | resolved =>
      simp only [Connection.step, hstage, Option.some.injEq] at hstep
      exact h.establish hstep
    | rejected source =>
      simp only [Connection.step, hstage, Option.some.injEq, Prod.mk.injEq] at hstep
      obtain ⟨rfl, rfl⟩ := hstep
      exact ⟨h.gone hcleanup (by simp) rfl, reports_other nofun nofun nofun (by simp)⟩
  | connectDrop =>
    simp only [Connection.step, hstage, Option.some.injEq, Prod.mk.injEq] at hstep
    obtain ⟨rfl, rfl⟩ := hstep
    exact ⟨h.gone hcleanup List.not_mem_nil rfl,
      reports_other nofun nofun nofun List.not_mem_nil⟩
  | send message thrown => simp [Connection.step, hstage] at hstep
  | join => simp [Connection.step, hstage] at hstep
  | release => simp [Connection.step, hstage] at hstep

theorem Connects.next (h : Connects tr s callbacks)
    (hhandlers : s'.websocket.handlers = s.websocket.handlers)
    (hclosed : s'.closed = (s.closed || e.ends))
    (herror : s'.error.isSome = true → s'.closed = true)
    (hgiven : (os.filterMap Output.given ++ s'.error.toList).Sublist
      (s.error.toList ++ e.reports.toList))
    (hos : .returned .connect (.ok ()) ∉ os) (hrelease : e ≠ .release) :
    Connects (tr ++ [(e, os)]) s' callbacks where
  callbacks := h.callbacks
  handlers := hhandlers.trans h.handlers
  closed := by
    rw [hclosed, Bool.or_eq_true, h.closed, Ended, Ended, since_of_resumed h.resumed]
    simp [or_and_right, exists_or]
  error := herror
  given := by
    have hreported : reported (tr ++ [(e, os)]) = reported tr ++ e.reports.toList := by
      rw [reported, reported, since_of_resumed h.resumed, List.filterMap_append]
      cases hreports : e.reports <;> simp [hreports]
    rw [given_snoc, List.append_assoc, hreported]
    refine (List.Sublist.append (List.Sublist.refl _) hgiven).trans ?_
    rw [← List.append_assoc]
    exact h.given.append (List.Sublist.refl _)
  resumed := by
    obtain ⟨x, hx, hresume⟩ := h.resumed
    exact ⟨x, List.mem_append_left _ hx, hresume⟩
  connected := (connected_snoc hos hrelease).mpr h.connected

theorem tryJoin_eq : s.tryJoin = ({ s with error := none },
    s.error.or (if s.closed then some closedByApplication else none)) := by
  obtain ⟨websocket, error, closed, stage⟩ := s
  cases error <;> rfl

theorem Connects.tryJoin (h : Connects tr s callbacks) :
    (Ended tr ∧ ∃ error, s.tryJoin = ({ s with error := none }, some error) ∧
      (s.error = some error ∨ error = closedByApplication)) ∨
    (¬Ended tr ∧ s.error = none ∧ s.tryJoin = ({ s with error := none }, none)) := by
  rw [← h.closed, tryJoin_eq]
  cases herror : s.error with
  | some error => exact .inl ⟨h.error (by rw [herror]; rfl), error, rfl, .inl rfl⟩
  | none =>
    cases hclosed : s.closed with
    | true => exact .inl ⟨rfl, closedByApplication, rfl, .inr rfl⟩
    | false => exact .inr ⟨Bool.false_ne_true, rfl, rfl⟩

theorem Connects.returned {error : WebSocketError} {call : Call} (h : Connects tr s callbacks)
    (herror : s.error = some error ∨ error = closedByApplication)
    (hcall : call ≠ .connect) (hends : e.ends = false) (hrelease : e ≠ .release) :
    Connects (tr ++ [(e, [.returned call (.error error)])]) { s with error := none } callbacks := by
  refine h.next rfl ?_ nofun ?_ (by simp) hrelease
  · rw [hends, Bool.or_false]
  · have hfilter : [Output.returned (M := M) call (.error error)].filterMap Output.given =
        if error = closedByApplication then [] else [error] := by
      cases call with
      | connect => exact absurd rfl hcall
      | send => simp [Output.given, List.filterMap_cons]; split_ifs <;> rfl
      | join => simp [Output.given, List.filterMap_cons]; split_ifs <;> rfl
    rw [hfilter]
    rcases herror with herror | rfl
    · rw [herror]
      split_ifs
      · exact List.nil_sublist _
      · exact List.sublist_append_left _ _
    · exact List.nil_sublist _

theorem Connects.holds (h : Connects tr s callbacks) (hstage : s.stage = .connected callbacks) :
    Holds tr s := by
  rw [Holds, hstage]
  exact h

theorem Connects.same (h : Connects tr s callbacks)
    (hhandlers : s'.websocket.handlers = s.websocket.handlers)
    (hsame : s'.closed = s.closed ∧ s'.error = s.error) (hends : e.ends = false)
    (hgiven : os.filterMap Output.given = []) (hos : .returned .connect (.ok ()) ∉ os)
    (hrelease : e ≠ .release) : Connects (tr ++ [(e, os)]) s' callbacks := by
  refine h.next hhandlers ?_ ?_ ?_ hos hrelease
  · rw [hsame.1, hends, Bool.or_false]
  · rw [hsame.1, hsame.2]
    exact h.error
  · rw [hgiven, hsame.2]
    exact List.sublist_append_left _ _

theorem Connects.caught {error : WebSocketError} (h : Connects tr s callbacks)
    (hhandlers : s'.websocket.handlers = s.websocket.handlers) (hclosed : s'.closed = true)
    (herror : s'.error = some error) (hends : e.ends = true) (hreports : e.reports = some error)
    (hrelease : e ≠ .release) : Connects (tr ++ [(e, [])]) s' callbacks := by
  refine h.next hhandlers ?_ (fun _ => hclosed) ?_ List.not_mem_nil hrelease
  · rw [hclosed, hends, Bool.or_true]
  · rw [herror, hreports]
    exact List.sublist_append_right _ _

theorem Connects.message {data : Data M} (h : Connects tr s callbacks)
    (hstage : s.stage = .connected callbacks) (hmessage : s.onmessage data = (s', os)) :
    Holds (tr ++ [(.message data, os)]) s' ∧ Reports tr (.message data) os := by
  have hhandler : s.websocket.handlers .onmessage = some .message := by rw [h.handlers]; rfl
  cases data with
  | text =>
    simp only [Connection.onmessage, hhandler] at hmessage
    obtain ⟨rfl, rfl⟩ := Prod.mk.inj hmessage
    refine ⟨Connects.holds (h.same rfl ⟨rfl, rfl⟩ rfl rfl (by simp) nofun) hstage, nofun, nofun,
      nofun, ?_⟩
    exact fun _ => rfl
  | binary decoded breaks =>
    cases decoded with
    | error source =>
      simp only [Connection.onmessage, hhandler] at hmessage
      obtain ⟨rfl, rfl⟩ := Prod.mk.inj hmessage
      exact ⟨Connects.holds (h.caught rfl rfl rfl rfl rfl nofun) hstage, nofun, nofun, nofun, nofun⟩
    | ok message =>
      simp only [Connection.onmessage, hhandler] at hmessage
      obtain ⟨rfl, rfl⟩ := Prod.mk.inj hmessage
      constructor
      · cases breaks with
        | false => exact Connects.holds (h.same rfl ⟨rfl, rfl⟩ rfl rfl (by simp) nofun) hstage
        | true =>
          rw [if_pos rfl]
          unfold Connection.close
          split_ifs with hclosed
          · exact Connects.holds (h.next rfl (by simp [hclosed]) h.error
              (List.sublist_append_left _ _) (by simp) nofun) hstage
          · exact Connects.holds (h.next rfl (Bool.or_true _).symm (fun _ => rfl)
              (List.sublist_append_left _ _) (by simp) nofun) hstage
      · refine ⟨nofun, nofun, ?_, by simp⟩
        rintro message' breaks' hsame
        obtain ⟨rfl, rfl⟩ : message = message' ∧ breaks = breaks' := by simpa using hsame
        exact iff_of_true List.mem_cons_self h.connected

theorem Connects.send {message : M} {thrown : Option String} (h : Connects tr s callbacks)
    (hstage : s.stage = .connected callbacks) (hsend : s.send message thrown = (s', os)) :
    Holds (tr ++ [(.send message thrown, os)]) s' ∧ Reports tr (.send message thrown) os := by
  unfold Connection.send at hsend
  rcases h.tryJoin with ⟨hended, error, htry, herror⟩ | ⟨hended, herror, htry⟩
  · rw [htry] at hsend
    obtain ⟨rfl, rfl⟩ := Prod.mk.inj hsend
    refine ⟨Connects.holds (h.returned herror nofun rfl nofun) hstage, ?_, nofun, nofun, by simp⟩
    exact fun _ _ _ => ⟨fun _ => ⟨error, rfl⟩, fun hnot => absurd hended hnot⟩
  · rw [htry] at hsend
    cases thrown with
    | some source =>
      obtain ⟨rfl, rfl⟩ := Prod.mk.inj hsend
      refine ⟨Connects.holds (h.next rfl (Bool.or_false _).symm nofun ?_ (by simp) nofun) hstage,
        ?_, nofun, nofun, by simp⟩
      · rw [herror]
        exact List.Sublist.refl _
      · rintro message' thrown' hsame
        obtain ⟨-, rfl⟩ : message = message' ∧ some source = thrown' := by simpa using hsame
        exact ⟨fun hyes => absurd hyes hended, nofun⟩
    | none =>
      obtain ⟨rfl, rfl⟩ := Prod.mk.inj hsend
      refine ⟨Connects.holds (h.same rfl ⟨rfl, herror.symm⟩ rfl rfl (by simp) nofun) hstage,
        ?_, nofun, nofun, by simp⟩
      rintro message' thrown' hsame
      obtain ⟨rfl, rfl⟩ : message = message' ∧ none = thrown' := by simpa using hsame
      exact ⟨fun hyes => absurd hyes hended, fun _ _ => rfl⟩

theorem Connects.join (h : Connects tr s callbacks) (hstage : s.stage = .connected callbacks)
    (hjoin : s.join = (s', os)) : Holds (tr ++ [(.join, os)]) s' ∧ Reports tr .join os := by
  unfold Connection.join at hjoin
  rcases h.tryJoin with ⟨hended, error, htry, herror⟩ | ⟨hended, herror, htry⟩
  · rw [if_pos (h.closed.mpr hended), htry] at hjoin
    obtain ⟨rfl, rfl⟩ := Prod.mk.inj hjoin
    refine ⟨Connects.holds (h.returned herror nofun rfl nofun) hstage, nofun, ?_, nofun, by simp⟩
    exact fun _ => ⟨fun _ => ⟨error, rfl⟩, fun hnot => absurd hended hnot⟩
  · rw [if_neg fun hclosed => hended (h.closed.mp hclosed)] at hjoin
    obtain ⟨rfl, rfl⟩ := Prod.mk.inj hjoin
    refine ⟨Connects.holds (h.same rfl ⟨rfl, rfl⟩ rfl rfl List.not_mem_nil nofun) hstage,
      nofun, ?_, nofun, nofun⟩
    exact fun _ => ⟨fun hyes => absurd hyes hended, fun _ => rfl⟩

theorem Connects.step (h : Connects tr s callbacks) (hstage : s.stage = .connected callbacks)
    (hstep : s.step e = some (s', os)) : Holds (tr ++ [(e, os)]) s' ∧ Reports tr e os := by
  cases e with
  | opened =>
    obtain ⟨hhandlers, hclosed, herror, hsame, rfl⟩ :=
      step_unheard rfl (by rw [h.handlers]; rfl) hstep
    exact ⟨Connects.holds (h.same hhandlers ⟨hclosed, herror⟩ rfl rfl List.not_mem_nil nofun)
      (hsame.trans hstage), reports_other nofun nofun nofun List.not_mem_nil⟩
  | error source =>
    obtain ⟨hhandlers, hclosed, herror, hsame, rfl⟩ :=
      step_unheard rfl (by rw [h.handlers]; rfl) hstep
    exact ⟨Connects.holds (h.same hhandlers ⟨hclosed, herror⟩ rfl rfl List.not_mem_nil nofun)
      (hsame.trans hstage), reports_other nofun nofun nofun List.not_mem_nil⟩
  | message data =>
    simp only [Connection.step, Option.ite_none_right_eq_some, Option.some.injEq] at hstep
    exact h.message hstage hstep.2
  | closed code reason =>
    simp only [Connection.step, Option.ite_none_left_eq_some, Option.some.injEq,
      Prod.mk.injEq] at hstep
    obtain ⟨-, rfl, rfl⟩ := hstep
    have hclose : s.fireClose.onclose code reason =
        s.fireClose.caught (.closed (closeStatus code) reason) := by
      simp [Connection.onclose, Connection.fireClose, h.handlers, connectionHandlers]
    rw [hclose]
    exact ⟨Connects.holds (h.caught rfl rfl rfl rfl rfl nofun) hstage,
      reports_other nofun nofun nofun List.not_mem_nil⟩
  | connectResume => simp [Connection.step, hstage] at hstep
  | connectDrop => simp [Connection.step, hstage] at hstep
  | send message thrown =>
    simp only [Connection.step, hstage, Option.some.injEq] at hstep
    exact h.send hstage hstep
  | join =>
    simp only [Connection.step, hstage, Option.some.injEq] at hstep
    exact h.join hstage hstep
  | release =>
    simp only [Connection.step, hstage, Option.some.injEq, Prod.mk.injEq] at hstep
    obtain ⟨rfl, rfl⟩ := hstep
    refine ⟨⟨?_, ?_, ?_⟩, reports_other nofun nofun nofun List.not_mem_nil⟩
    · funext slot
      rw [cleanup_handlers, h.callbacks, h.handlers]
      cases slot <;> rfl
    · rw [given_snoc, List.filterMap_nil, List.append_nil]
      exact ((List.sublist_append_left _ _).trans h.given).trans reported_mono
    · rintro ⟨-, hnone⟩
      exact hnone _ (List.mem_append_right _ List.mem_cons_self) rfl

theorem Gone.step (h : Gone tr s) (hstage : s.stage = .ended)
    (hstep : s.step e = some (s', os)) : Holds (tr ++ [(e, os)]) s' ∧ Reports tr e os := by
  cases hslot : e.slot with
  | some slot =>
    obtain ⟨hhandlers, -, -, hsame, rfl⟩ := step_unheard hslot (by rw [h.handlers]) hstep
    refine ⟨?_, reports_unheard hslot h.connected⟩
    have hrelease : e ≠ .release := by
      rintro rfl
      cases hslot
    rw [Holds, hsame, hstage]
    refine ⟨hhandlers.trans h.handlers, ?_, fun hconnected => h.connected ?_⟩
    · rw [given_snoc, List.filterMap_nil, List.append_nil]
      exact h.given.trans reported_mono
    · exact (connected_snoc List.not_mem_nil hrelease).mp hconnected
  | none => cases e <;> simp [Connection.step, hstage, Event.slot] at hstep hslot

theorem step_holds (h : Holds tr s) (hstep : s.step e = some (s', os)) :
    Holds (tr ++ [(e, os)]) s' ∧ Reports tr e os := by
  unfold Holds at h
  split at h
  · next hstage => exact h.step hstage hstep
  · next hstage => exact h.step hstage hstep
  · next hstage => exact h.step hstage hstep

theorem run_holds (hrun : (webWebSocket M).Run tr s) : Holds tr s ∧ tr.Each Reports := by
  refine hrun.history (P := fun tr s => Holds tr s ∧ tr.Each Reports)
    ⟨connect_holds, EventMachine.Trace.each_nil⟩ ?_
  rintro tr s e s' os - ⟨hholds, heach⟩ - hstep
  obtain ⟨hnext, hreports⟩ := step_holds hholds hstep
  exact ⟨hnext, EventMachine.Trace.each_snoc.mpr ⟨heach, hreports⟩⟩

/-- The errors of a connection are those of messages that do not decode and of `close` events,
never of an `error` event, whose handler goes with the callbacks of `connect`. None is returned
twice, and nothing is sent once the connection has ended. -/
theorem errors_are_returned_once (hrun : (webWebSocket M).Run tr s) :
    (given tr).Sublist (reported tr) ∧ tr.Each Reports := by
  obtain ⟨hholds, heach⟩ := run_holds hrun
  refine ⟨?_, heach⟩
  unfold Holds at hholds
  split at hholds
  · rw [hholds.given]
    exact List.nil_sublist _
  · exact (List.sublist_append_left _ _).trans hholds.given
  · exact hholds.given

theorem errors_are_returned_once_failed :
    ∃ (tr : WebSocketTrace ℕ) (s : Connection), (webWebSocket ℕ).Run tr s ∧
      given tr = [.invalidMessage "unexpected end group tag", .closed 1006 ""] ∧
      (given tr).Sublist (reported tr) := by
  have hexec : (webWebSocket ℕ).exec (.connect .connecting)
      [.opened, .connectResume, .send 1 none,
        .message (.binary (.error "unexpected end group tag") false), .join, .send 2 none,
        .message (.binary (.ok 3) false), .error "unreachable", .join, .closed 1006 "", .join,
        .join] = some (_, _) := rfl
  have hrun : (webWebSocket ℕ).Run _ _ := EventMachine.exec_run _ hexec
  exact ⟨_, _, hrun, rfl, (errors_are_returned_once hrun).1⟩

end Glopfile.Client.WebWebSocket
