import Glopfile.EventMachine
import Mathlib.Data.List.DropRight

/-!
# The reconnecting websocket

`WebSocketClient::new` spawns a task that `retry` runs attempt after attempt. Every attempt takes
the sender of a oneshot channel from the closure and leaves a new one there; callers of `connect`
clone the receiver in `connection`, which an attempt replaces once its websocket has closed. A
channel is named by its place in the list of the channels made so far.
-/

namespace Glopfile.Client

open EventMachine (Trace)

inductive OneShot (W : Type*)
  | pending
  | sent (websocket : W)
  | canceled

/-- `idle` before an attempt; an attempt holds its sender until it has sent, and the receiver of
the next one. -/
inductive WebSocketTask (W : Type*)
  | idle
  | connecting (connectionTx newConnectionRx : ℕ)
  | connected (websocket : W) (newConnectionRx : ℕ)
  | ended

structure WebSocketClient (W : Type*) where
  channels : List (OneShot W)
  connection : ℕ
  connectionTx : ℕ
  task : WebSocketTask W

/-- `retried` says what `retry` makes of the error of an attempt. -/
inductive WebSocketEvent (W : Type*)
  | attempt
  | connectFailed (retried : Bool)
  | connected (websocket : W)
  | closed (retried : Bool)
  | aborted

variable {W : Type*}

namespace WebSocketClient

def new : WebSocketClient W := ⟨[.pending], 0, 0, .idle⟩

def cancel (s : WebSocketClient W) (connectionTx : ℕ) : WebSocketClient W :=
  { s with channels := s.channels.set connectionTx .canceled }

def finish (s : WebSocketClient W) : WebSocketClient W :=
  { s.cancel s.connectionTx with task := .ended }

def failed (s : WebSocketClient W) (retried : Bool) : WebSocketClient W :=
  if retried then { s with task := .idle } else s.finish

def step (s : WebSocketClient W) :
    WebSocketEvent W → Option (WebSocketClient W × List Empty)
  | .attempt =>
    match s.task with
    | .idle =>
      some ({ s with
        channels := s.channels ++ [.pending]
        connectionTx := s.channels.length
        task := .connecting s.connectionTx s.channels.length }, [])
    | _ => none
  | .connectFailed retried =>
    match s.task with
    | .connecting connectionTx _ => some ((s.cancel connectionTx).failed retried, [])
    | _ => none
  | .connected websocket =>
    match s.task with
    | .connecting connectionTx newConnectionRx =>
      some ({ s with
        channels := s.channels.set connectionTx (.sent websocket)
        task := .connected websocket newConnectionRx }, [])
    | _ => none
  | .closed retried =>
    match s.task with
    | .connected _ newConnectionRx =>
      some ({ s with connection := newConnectionRx }.failed retried, [])
    | _ => none
  | .aborted =>
    match s.task with
    | .connecting connectionTx _ => some ((s.cancel connectionTx).finish, [])
    | .idle | .connected _ _ => some (s.finish, [])
    | .ended => none

/-- `connect`, up to its await; `resolved` is what the await returns. -/
def connect (s : WebSocketClient W) : ℕ := s.connection

def resolved (s : WebSocketClient W) (connection : ℕ) : Option (Except String W) :=
  match s.channels[connection]? with
  | some (.sent websocket) => some (.ok websocket)
  | some .canceled => some (.error "websocket thread died")
  | some .pending | none => none

end WebSocketClient

def webSocketClient : EventMachine (WebSocketClient W) (WebSocketEvent W) Empty where
  init := .new
  step := WebSocketClient.step

/-- What an attempt came to: `none` when it failed to connect. -/
def WebSocketEvent.outcome : WebSocketEvent W → Option (Option W)
  | .connectFailed _ => some none
  | .connected websocket => some (some websocket)
  | _ => none

def WebSocketEvent.isClosed : WebSocketEvent W → Bool
  | .closed _ => true
  | _ => false

abbrev WebSocketTrace (W : Type*) := Trace (WebSocketEvent W) Empty

def firstOutcome (tr : WebSocketTrace W) : Option (Option W) := tr.findSome? fun x => x.1.outcome

def sinceClosed (tr : WebSocketTrace W) : WebSocketTrace W := tr.rtakeWhile fun x => !x.1.isClosed

/-- The connection of the current attempt, or of the next one to succeed. -/
def WebSocketClient.nextConnection (s : WebSocketClient W) (tr : WebSocketTrace W) : Option W :=
  match s.task with
  | .connected websocket _ => some websocket
  | _ => tr.findSome? fun x => x.1.outcome.join

namespace WebSocketClient

def Owned (s : WebSocketClient W) : Prop :=
  match s.task with
  | .idle => s.channels[s.connectionTx]? = some .pending
  | .connecting connectionTx newConnectionRx =>
    newConnectionRx = s.connectionTx ∧ s.channels[s.connectionTx]? = some .pending ∧
      s.channels[connectionTx]? = some .pending ∧ connectionTx ≠ s.connectionTx
  | .connected _ newConnectionRx =>
    newConnectionRx = s.connectionTx ∧ s.channels[s.connectionTx]? = some .pending
  | .ended => True

/-- A receiver waits for the attempt that holds its sender, or for the next one; it is resolved
by that attempt's outcome. -/
def Waits (s : WebSocketClient W) (connection : ℕ) : Option (Option W) → Prop
  | none => s.task = .idle ∧ s.connectionTx = connection ∨
      ∃ newConnectionRx, s.task = .connecting connection newConnectionRx
  | some none => s.channels[connection]? = some .canceled
  | some (some websocket) => s.channels[connection]? = some (.sent websocket)

inductive Change (s : WebSocketClient W) : WebSocketEvent W → WebSocketClient W → Prop
  | attempt : s.task = .idle →
      Change s .attempt { s with
        channels := s.channels ++ [.pending]
        connectionTx := s.channels.length
        task := .connecting s.connectionTx s.channels.length }
  | connectFailed {connectionTx newConnectionRx : ℕ} {retried : Bool} :
      s.task = .connecting connectionTx newConnectionRx →
      Change s (.connectFailed retried) ((s.cancel connectionTx).failed retried)
  | connected {connectionTx newConnectionRx : ℕ} {websocket : W} :
      s.task = .connecting connectionTx newConnectionRx →
      Change s (.connected websocket) { s with
        channels := s.channels.set connectionTx (.sent websocket)
        task := .connected websocket newConnectionRx }
  | closed {websocket : W} {newConnectionRx : ℕ} {retried : Bool} :
      s.task = .connected websocket newConnectionRx →
      Change s (.closed retried) ({ s with connection := newConnectionRx }.failed retried)
  | aborted {s' : WebSocketClient W} : s'.task = .ended → s'.connect = s.connect →
      Change s .aborted s'

section Step
variable {s s' : WebSocketClient W} {e : WebSocketEvent W} {os : List Empty} {connection : ℕ}
  {outcome : Option (Option W)} {retried : Bool}

theorem step_change (h : s.step e = some (s', os)) : s.Change e s' := by
  cases e with
  | attempt =>
    simp only [step] at h
    split at h
    · next htask =>
      obtain ⟨rfl, rfl⟩ := Prod.mk.inj (Option.some.inj h)
      exact .attempt htask
    · cases h
  | connectFailed retried =>
    simp only [step] at h
    split at h
    · next htask =>
      obtain ⟨rfl, rfl⟩ := Prod.mk.inj (Option.some.inj h)
      exact .connectFailed htask
    · cases h
  | connected websocket =>
    simp only [step] at h
    split at h
    · next htask =>
      obtain ⟨rfl, rfl⟩ := Prod.mk.inj (Option.some.inj h)
      exact .connected htask
    · cases h
  | closed retried =>
    simp only [step] at h
    split at h
    · next htask =>
      obtain ⟨rfl, rfl⟩ := Prod.mk.inj (Option.some.inj h)
      exact .closed htask
    · cases h
  | aborted =>
    simp only [step] at h
    split at h
    · obtain ⟨rfl, rfl⟩ := Prod.mk.inj (Option.some.inj h)
      exact .aborted rfl rfl
    · obtain ⟨rfl, rfl⟩ := Prod.mk.inj (Option.some.inj h)
      exact .aborted rfl rfl
    · obtain ⟨rfl, rfl⟩ := Prod.mk.inj (Option.some.inj h)
      exact .aborted rfl rfl
    · cases h

theorem ended_stuck (h : s.task = .ended) (e : WebSocketEvent W) : s.step e = none := by
  cases e with
  | _ => simp [step, h]

theorem step_not_ended (hstep : s.step e = some (s', os)) : s.task ≠ .ended := by
  intro hended
  rw [ended_stuck hended] at hstep
  cases hstep

theorem failed_ended (h : (s.failed retried).task ≠ .ended) :
    s.failed retried = { s with task := .idle } := by
  cases retried with
  | true => rfl
  | false => exact absurd rfl h

theorem failed_connect (s : WebSocketClient W) (retried : Bool) :
    (s.failed retried).connect = s.connect := by
  cases retried with
  | true => rfl
  | false => rfl

theorem owned_ended (h : s.task = .ended) : s.Owned := by simp only [Owned, h]

theorem failed_owned (h : s.channels[s.connectionTx]? = some .pending) : (s.failed retried).Owned := by
  cases retried with
  | true => exact h
  | false => exact owned_ended rfl

theorem Change.owned (hs : s.Owned) (h : s.Change e s') : s'.Owned := by
  cases h with
  | attempt htask =>
    have hpending : s.channels[s.connectionTx]? = some .pending := by
      simpa only [Owned, htask] using hs
    have hlt : s.connectionTx < s.channels.length := (List.getElem?_eq_some_iff.mp hpending).1
    refine ⟨rfl, List.getElem?_concat_length, ?_, hlt.ne⟩
    rw [List.getElem?_append_left hlt, hpending]
  | connectFailed htask =>
    simp only [Owned, htask] at hs
    obtain ⟨-, hpending, -, hne⟩ := hs
    exact failed_owned ((List.getElem?_set_ne hne).trans hpending)
  | connected htask =>
    simp only [Owned, htask] at hs
    obtain ⟨hrx, hpending, -, hne⟩ := hs
    exact ⟨hrx, (List.getElem?_set_ne hne).trans hpending⟩
  | closed htask =>
    simp only [Owned, htask] at hs
    exact failed_owned hs.2
  | aborted hended _ => exact owned_ended hended

theorem set_resolved {channels : List (OneShot W)} {tx : ℕ} {value result : OneShot W}
    (hpending : channels[tx]? = some .pending) (hresult : result ≠ .pending)
    (h : channels[connection]? = some result) :
    (channels.set tx value)[connection]? = some result := by
  have hne : tx ≠ connection := by
    rintro rfl
    rw [hpending] at h
    exact hresult (Option.some.inj h).symm
  rw [List.getElem?_set_ne hne, h]

theorem Change.resolved {result : OneShot W} (h : s.Change e s') (hs : s.Owned)
    (hended : s'.task ≠ .ended) (hresult : result ≠ .pending)
    (hsome : s.channels[connection]? = some result) : s'.channels[connection]? = some result := by
  cases h with
  | attempt htask =>
    have hlt : connection < s.channels.length := (List.getElem?_eq_some_iff.mp hsome).1
    exact (List.getElem?_append_left hlt).trans hsome
  | connectFailed htask =>
    simp only [Owned, htask] at hs
    rw [failed_ended hended]
    exact set_resolved hs.2.2.1 hresult hsome
  | connected htask =>
    simp only [Owned, htask] at hs
    exact set_resolved hs.2.2.1 hresult hsome
  | closed htask =>
    rw [failed_ended hended]
    exact hsome
  | aborted hends _ => exact absurd hends hended

theorem Change.waits (h : s.Change e s') (hs : s.Owned) (hended : s'.task ≠ .ended)
    (hwaits : s.Waits connection outcome) : s'.Waits connection (outcome.or e.outcome) := by
  cases outcome with
  | some outcome =>
    cases outcome with
    | none => exact h.resolved hs hended nofun hwaits
    | some websocket => exact h.resolved hs hended nofun hwaits
  | none =>
    rw [Option.none_or]
    cases h with
    | attempt htask =>
      rcases hwaits with ⟨-, rfl⟩ | ⟨_, hconnecting⟩
      · exact .inr ⟨_, rfl⟩
      · simp [htask] at hconnecting
    | connectFailed htask =>
      obtain ⟨_, hconnecting⟩ := hwaits.resolve_left (by simp [htask])
      obtain ⟨rfl, rfl⟩ := WebSocketTask.connecting.inj (htask.symm.trans hconnecting)
      simp only [Owned, htask] at hs
      rw [failed_ended hended]
      exact List.getElem?_set_self (List.getElem?_eq_some_iff.mp hs.2.2.1).1
    | connected htask =>
      obtain ⟨_, hconnecting⟩ := hwaits.resolve_left (by simp [htask])
      obtain ⟨rfl, rfl⟩ := WebSocketTask.connecting.inj (htask.symm.trans hconnecting)
      simp only [Owned, htask] at hs
      exact List.getElem?_set_self (List.getElem?_eq_some_iff.mp hs.2.2.1).1
    | closed htask => simp [Waits, htask] at hwaits
    | aborted hends _ => exact absurd hends hended

theorem Change.closes {websocket : W} {newConnectionRx : ℕ} (h : s.Change e s')
    (hended : s'.task ≠ .ended) (htask : s.task = .connected websocket newConnectionRx) :
    e.isClosed = true := by
  cases h with
  | attempt hother => simp [htask] at hother
  | connectFailed hother => simp [htask] at hother
  | connected hother => simp [htask] at hother
  | closed _ => rfl
  | aborted hends _ => exact absurd hends hended

theorem Change.reconnects (h : s.Change e s') (hs : s.Owned) (hended : s'.task ≠ .ended)
    (hclosed : e.isClosed = true) : s'.Waits s'.connect none := by
  cases h with
  | closed htask =>
    simp only [Owned, htask] at hs
    rw [failed_ended hended]
    exact .inl ⟨rfl, hs.1.symm⟩
  | attempt _ | connectFailed _ | connected _ | aborted _ _ => cases hclosed

theorem Change.connect_eq (h : s.Change e s') (hclosed : e.isClosed = false) :
    s'.connect = s.connect := by
  cases h with
  | attempt _ | connected _ => rfl
  | connectFailed _ => exact failed_connect _ _
  | closed _ => cases hclosed
  | aborted _ hsame => exact hsame

theorem Change.connects {websocket : W} (h : s.Change e s')
    (houtcome : e.outcome = some (some websocket)) :
    ∃ newConnectionRx, s'.task = .connected websocket newConnectionRx := by
  cases h with
  | connected _ =>
    obtain rfl := Option.some.inj (Option.some.inj houtcome)
    exact ⟨_, rfl⟩
  | attempt _ | connectFailed _ | closed _ | aborted _ _ => cases houtcome

end Step

section Run
variable {s t : WebSocketClient W} {tr pre suf : WebSocketTrace W}

structure Serves (tr : WebSocketTrace W) (s : WebSocketClient W) : Prop where
  owned : s.Owned
  waits : s.task ≠ .ended → s.Waits s.connect (firstOutcome (sinceClosed tr))
  connected : ∀ websocket, s.task ≠ .ended →
    firstOutcome (sinceClosed tr) = some (some websocket) →
    ∃ newConnectionRx, s.task = .connected websocket newConnectionRx

theorem firstOutcome_snoc (tr : WebSocketTrace W) (e : WebSocketEvent W) (os : List Empty) :
    firstOutcome (tr ++ [(e, os)]) = (firstOutcome tr).or e.outcome := by
  unfold firstOutcome
  rw [List.findSome?_append, List.findSome?_singleton]

theorem firstOutcome_sinceClosed (tr : WebSocketTrace W) (e : WebSocketEvent W) (os : List Empty) :
    firstOutcome (sinceClosed (tr ++ [(e, os)])) =
      if e.isClosed then none else (firstOutcome (sinceClosed tr)).or e.outcome := by
  unfold sinceClosed
  rw [List.rtakeWhile_concat]
  cases e.isClosed with
  | true => rfl
  | false => exact firstOutcome_snoc _ _ _

theorem serves (h : webSocketClient.Run tr s) : s.Serves tr := by
  refine h.history (P := fun tr s => s.Serves tr) ⟨rfl, fun _ => .inl ⟨rfl, rfl⟩, nofun⟩ ?_
  intro tr s e s' os _ hs _ hstep
  have hended := step_not_ended hstep
  have hchange := step_change hstep
  have howned := hchange.owned hs.owned
  have hfirst := firstOutcome_sinceClosed tr e os
  cases hclosed : e.isClosed with
  | true =>
    rw [hclosed, if_pos rfl] at hfirst
    refine ⟨howned, fun hended' => ?_, fun websocket _ hsome => ?_⟩
    · rw [hfirst]
      exact hchange.reconnects hs.owned hended' hclosed
    · rw [hfirst] at hsome
      cases hsome
  | false =>
    rw [hclosed, if_neg Bool.false_ne_true] at hfirst
    refine ⟨howned, fun hended' => ?_, fun websocket hended' hsome => ?_⟩
    · rw [hfirst, hchange.connect_eq hclosed]
      exact hchange.waits hs.owned hended' (hs.waits hended)
    · rw [hfirst] at hsome
      cases hbefore : firstOutcome (sinceClosed tr) with
      | none =>
        rw [hbefore, Option.none_or] at hsome
        exact hchange.connects hsome
      | some outcome =>
        rw [hbefore, Option.some_or] at hsome
        obtain ⟨_, htask⟩ := hs.connected websocket hended (hbefore.trans hsome)
        have hcloses := hchange.closes hended' htask
        rw [hclosed] at hcloses
        cases hcloses

theorem waits_later (hpre : webSocketClient.Run pre t)
    (hsuf : webSocketClient.Path (fun _ _ => True) t suf s) (hs : s.task ≠ .ended) :
    s.Owned ∧ s.Waits t.connect (firstOutcome (sinceClosed pre ++ suf)) := by
  have hpath : s.Owned ∧
      (s.task ≠ .ended → s.Waits t.connect (firstOutcome (sinceClosed pre ++ suf))) := by
    refine hsuf.history (P := fun tr s => s.Owned ∧
      (s.task ≠ .ended → s.Waits t.connect (firstOutcome (sinceClosed pre ++ tr)))) ?_ ?_
    · rw [List.append_nil]
      exact ⟨(serves hpre).owned, (serves hpre).waits⟩
    · rintro tr s e s' os - ⟨howned, hwaits⟩ - hstep
      have hchange := step_change hstep
      refine ⟨hchange.owned howned, fun hended => ?_⟩
      rw [← List.append_assoc, firstOutcome_snoc]
      exact hchange.waits howned hended (hwaits (step_not_ended hstep))
  exact ⟨hpath.1, hpath.2 hs⟩

theorem resolved_of_waits {connection : ℕ} {outcome : Option (Option W)} (hs : s.Owned)
    (h : s.Waits connection outcome) :
    s.resolved connection = outcome.map fun
      | some websocket => .ok websocket
      | none => .error "websocket thread died" := by
  unfold resolved
  cases outcome with
  | some outcome =>
    cases outcome with
    | some websocket =>
      have hsent : s.channels[connection]? = some (.sent websocket) := h
      rw [hsent]
      rfl
    | none =>
      have hcanceled : s.channels[connection]? = some .canceled := h
      rw [hcanceled]
      rfl
  | none =>
    have hpending : s.channels[connection]? = some .pending := by
      rcases h with ⟨htask, rfl⟩ | ⟨_, htask⟩
      · simpa only [Owned, htask] using hs
      · simp only [Owned, htask] at hs
        exact hs.2.2.1
    rw [hpending]
    rfl

theorem findSome_join {α β : Type*} {f : α → Option (Option β)} {l : List α} {outcome : Option β}
    (h : l.findSome? f = outcome.map some) : l.findSome? (fun x => (f x).join) = outcome := by
  induction l with
  | nil =>
    cases outcome with
    | none => rfl
    | some b => cases h
  | cons x l ih =>
    rw [List.findSome?_cons] at h ⊢
    cases hx : f x with
    | none =>
      rw [hx] at h
      exact ih h
    | some b =>
      rw [hx] at h
      cases outcome with
      | none => cases h
      | some b' =>
        obtain rfl := Option.some.inj h
        rfl

theorem nextConnection_eq (outcome : Option W) (hpre : webSocketClient.Run pre t)
    (ht : t.task ≠ .ended) (h : firstOutcome (sinceClosed pre ++ suf) = outcome.map some) :
    t.nextConnection suf = outcome := by
  have hserves := serves hpre
  have hwaits := hserves.waits ht
  unfold firstOutcome at h
  rw [List.findSome?_append] at h
  unfold nextConnection
  cases hbefore : firstOutcome (sinceClosed pre) with
  | some first =>
    have hfirst : some first = outcome.map some := by
      rw [← h]
      unfold firstOutcome at hbefore
      rw [hbefore, Option.some_or]
    cases outcome with
    | none => cases hfirst
    | some websocket =>
      obtain ⟨_, htask⟩ := hserves.connected websocket ht (hbefore.trans hfirst)
      simp only [htask]
  | none =>
    unfold firstOutcome at hbefore
    rw [hbefore, Option.none_or] at h
    rw [show firstOutcome (sinceClosed pre) = none from hbefore] at hwaits
    rcases hwaits with ⟨htask, -⟩ | ⟨_, htask⟩
    · simp only [htask]
      exact findSome_join h
    · simp only [htask]
      exact findSome_join h

/-- A call of `connect` gets the connection of the current attempt or of the next one to succeed,
and waits for it, exactly if the first attempt since a websocket last closed does not fail to
connect. -/
theorem connect_resolves (hpre : webSocketClient.Run pre t)
    (hsuf : webSocketClient.Path (fun _ _ => True) t suf s) (hs : s.task ≠ .ended) :
    s.resolved t.connect = (t.nextConnection suf).map .ok ↔
      firstOutcome (sinceClosed pre ++ suf) ≠ some none := by
  have ht : t.task ≠ .ended := by
    intro hended
    obtain rfl := hsuf.eq_nil_of_stuck (ended_stuck hended)
    have hsame : s = t :=
      hsuf.deterministic (.refl : webSocketClient.Path (fun _ _ => True) t [] t)
    exact hs (hsame ▸ hended)
  obtain ⟨howned, hwaits⟩ := waits_later hpre hsuf hs
  rw [resolved_of_waits howned hwaits]
  cases hfirst : firstOutcome (sinceClosed pre ++ suf) with
  | none => simp [nextConnection_eq none hpre ht hfirst]
  | some outcome =>
    cases outcome with
    | some websocket => simp [nextConnection_eq (some websocket) hpre ht hfirst]
    | none =>
      refine ⟨fun h => ?_, fun h => absurd rfl h⟩
      cases hnext : t.nextConnection suf with
      | none => simp [hnext] at h
      | some websocket => simp [hnext] at h

theorem connect_resolves_next : ∃ (pre suf : WebSocketTrace ℕ) (t s : WebSocketClient ℕ),
    webSocketClient.exec .new [.attempt, .connected 1, .closed true] = some (pre, t) ∧
    webSocketClient.exec t [.attempt, .connected 2] = some (suf, s) ∧
    s.resolved t.connect = some (.ok 2) := by
  have hpre : webSocketClient.exec .new
      [WebSocketEvent.attempt, .connected 1, .closed true] = some (_, _) := rfl
  have hsuf : webSocketClient.exec ⟨[.sent 1, .pending], 1, 1, .idle⟩
      [WebSocketEvent.attempt, .connected 2] = some (_, _) := rfl
  refine ⟨_, _, _, _, hpre, hsuf, ?_⟩
  exact (connect_resolves (EventMachine.exec_run _ hpre) (EventMachine.exec_path _ hsuf) nofun).mpr
    nofun

/-- The first attempt fails, the second one connects, and a call gets the error all the while. -/
theorem failed_attempt_loses_the_sender : ∃ (pre suf : WebSocketTrace ℕ) (t s : WebSocketClient ℕ),
    webSocketClient.exec .new [.attempt, .connectFailed true] = some (pre, t) ∧
    webSocketClient.exec t [.attempt, .connected 1] = some (suf, s) ∧
    s.task = .connected 1 2 ∧ t.nextConnection suf = some 1 ∧
    t.resolved t.connect = some (.error "websocket thread died") ∧
    s.resolved s.connect = some (.error "websocket thread died") :=
  ⟨_, _, _, _, rfl, rfl, rfl, rfl, rfl, rfl⟩

end Run

end WebSocketClient

end Glopfile.Client
