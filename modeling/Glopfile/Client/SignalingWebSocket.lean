import Glopfile.EventMachine

/-!
# The signaling websocket

`SignalingWebSocket::send` encrypts a message, puts it at the end of `pending` and flushes. The
flush takes the websocket, or connects one, and sends the first pending message on it. An event
is what an await returns; a step runs the code up to the next await. A call may be dropped at any
await, and another call may follow one that returned an error.

Outputs record the messages put into `pending`, what the websocket said of each message sent on
it, and what the calls returned.
-/

namespace Glopfile.Client

structure SignalingWebSocket (C W M : Type*) where
  client : Option C
  websocket : Option W
  pending : List M

inductive SendCall (W M : Type*)
  | idle
  | encrypting (timed : Bool)
  | connecting (message : M) (timed : Bool)
  | sending (websocket : W) (message : M) (timed : Bool)

inductive SendError
  | timeout
  | connect
  deriving DecidableEq, Repr

/-- `remaining` says whether a timeout still has time left when the await returns. -/
inductive SignalingEvent (C W M : Type*)
  | setWebsocketClient (client : C)
  | send (timed : Bool)
  | encrypted (message : M) (remaining : Bool)
  | connected (result : Except SendError W)
  | sent (ok remaining : Bool)
  | dropped

inductive SignalingOutput (M : Type*)
  | enqueued (message : M)
  | sent (message : M) (ok : Bool)
  | returned (result : Except SendError Unit)

structure Signaling (C W M : Type*) where
  signaling : SignalingWebSocket C W M
  call : SendCall W M

variable {C W M : Type*}

namespace SignalingWebSocket

def new : SignalingWebSocket C W M := ⟨none, none, []⟩

/-- The loop of `flush`, up to its next await. -/
def flush (s : SignalingWebSocket C W M) (timed remaining : Bool) :
    Signaling C W M × List (SignalingOutput M) :=
  match s.client, s.pending, s.websocket with
  | none, _, _ | some _, [], _ => (⟨s, .idle⟩, [.returned (.ok ())])
  | some _, message :: _, some websocket =>
    (⟨{ s with websocket := none }, .sending websocket message timed⟩, [])
  | some _, message :: _, none =>
    if timed = true ∧ remaining = false then (⟨s, .idle⟩, [.returned (.error .timeout)])
    else (⟨s, .connecting message timed⟩, [])

end SignalingWebSocket

namespace Signaling

def step (s : Signaling C W M) :
    SignalingEvent C W M → Option (Signaling C W M × List (SignalingOutput M))
  | .setWebsocketClient client =>
    match s.call with
    | .idle => some ({ s with signaling.client := some client }, [])
    | _ => none
  | .send timed =>
    match s.call with
    | .idle => some ({ s with call := .encrypting timed }, [])
    | _ => none
  | .encrypted message remaining =>
    match s.call with
    | .encrypting timed =>
      let signaling := { s.signaling with pending := s.signaling.pending ++ [message] }
      let (s, outputs) := signaling.flush timed remaining
      some (s, .enqueued message :: outputs)
    | _ => none
  | .connected result =>
    match s.call, result with
    | .connecting message timed, .ok websocket =>
      some ({ s with call := .sending websocket message timed }, [])
    | .connecting _ _, .error error =>
      some ({ s with call := .idle }, [.returned (.error error)])
    | _, _ => none
  | .sent ok remaining =>
    match s.call with
    | .sending websocket message timed =>
      -- `pop_front` comes after both branches.
      let signaling := { s.signaling with
        websocket := if ok then some websocket else none
        pending := s.signaling.pending.tail }
      let (s, outputs) := signaling.flush timed remaining
      some (s, .sent message ok :: outputs)
    | _ => none
  | .dropped =>
    match s.call with
    | .idle => none
    | _ => some ({ s with call := .idle }, [])

end Signaling

def signalingWebSocket : EventMachine (Signaling C W M) (SignalingEvent C W M) (SignalingOutput M) where
  init := ⟨.new, .idle⟩
  step := Signaling.step

open EventMachine (Trace)

abbrev SignalingTrace (C W M : Type*) := Trace (SignalingEvent C W M) (SignalingOutput M)

def enqueuedBy (os : List (SignalingOutput M)) : List M :=
  os.filterMap fun | .enqueued message => some message | _ => none

def triedBy (os : List (SignalingOutput M)) : List M :=
  os.filterMap fun | .sent message _ => some message | _ => none

def acceptedBy (os : List (SignalingOutput M)) : List M :=
  os.filterMap fun | .sent message true => some message | _ => none

def enqueued (tr : SignalingTrace C W M) : List M := tr.flatMap fun x => enqueuedBy x.2

def tried (tr : SignalingTrace C W M) : List M := tr.flatMap fun x => triedBy x.2

def accepted (tr : SignalingTrace C W M) : List M := tr.flatMap fun x => acceptedBy x.2

def SignalingEvent.sendFailed : SignalingEvent C W M → Bool
  | .sent ok _ => !ok
  | _ => false

def Signaling.Fronted (s : Signaling C W M) : Prop :=
  match s.call with
  | .connecting message _ | .sending _ message _ => s.signaling.pending.head? = some message
  | .idle | .encrypting _ => True

structure Signaling.Moves (s s' : Signaling C W M) (e : SignalingEvent C W M)
    (os : List (SignalingOutput M)) : Prop where
  fronted : s'.Fronted
  pending : triedBy os ++ s'.signaling.pending = s.signaling.pending ++ enqueuedBy os
  accepted : e.sendFailed = false → acceptedBy os = triedBy os
  failed : e.sendFailed = true → acceptedBy os = [] ∧ (triedBy os).length = 1

section Step
variable {s s' : Signaling C W M} {e : SignalingEvent C W M} {os : List (SignalingOutput M)}

theorem SignalingWebSocket.flush_frame (signaling : SignalingWebSocket C W M)
    (timed remaining : Bool) : ∃ s os, signaling.flush timed remaining = (s, os) ∧
      s.Fronted ∧ s.signaling.pending = signaling.pending ∧
      enqueuedBy os = [] ∧ triedBy os = [] ∧ acceptedBy os = [] := by
  unfold flush
  cases hclient : signaling.client with
  | none => exact ⟨_, _, rfl, trivial, rfl, rfl, rfl, rfl⟩
  | some client =>
    cases hpending : signaling.pending with
    | nil => exact ⟨_, _, rfl, trivial, hpending, rfl, rfl, rfl⟩
    | cons message pending =>
      have hfront : signaling.pending.head? = some message := by rw [hpending, List.head?_cons]
      cases hwebsocket : signaling.websocket with
      | some websocket => exact ⟨_, _, rfl, rfl, rfl, rfl, rfl, rfl⟩
      | none =>
        simp only
        split_ifs
        · exact ⟨_, _, rfl, trivial, hpending, rfl, rfl, rfl⟩
        · exact ⟨_, _, rfl, hfront, hpending, rfl, rfl, rfl⟩

theorem Signaling.moves_of_same (hfronted : s'.Fronted)
    (hpending : s'.signaling.pending = s.signaling.pending) (hfailed : e.sendFailed = false)
    (henqueued : enqueuedBy os = []) (htried : triedBy os = []) (haccepted : acceptedBy os = []) :
    s.Moves s' e os where
  fronted := hfronted
  pending := by rw [henqueued, htried, hpending, List.nil_append, List.append_nil]
  accepted _ := haccepted.trans htried.symm
  failed h := by rw [hfailed] at h; cases h

theorem Signaling.step_moves (hs : s.Fronted) (h : s.step e = some (s', os)) :
    s.Moves s' e os := by
  cases e with
  | setWebsocketClient client =>
    simp only [step] at h
    split at h
    · next hcall =>
      obtain ⟨rfl, rfl⟩ := Prod.mk.inj (Option.some.inj h)
      exact moves_of_same (by simp [Fronted, hcall]) rfl rfl rfl rfl rfl
    · cases h
  | send timed =>
    simp only [step] at h
    split at h
    · obtain ⟨rfl, rfl⟩ := Prod.mk.inj (Option.some.inj h)
      exact moves_of_same trivial rfl rfl rfl rfl rfl
    · cases h
  | encrypted message remaining =>
    simp only [step] at h
    split at h
    · next timed _ =>
      obtain ⟨t, outputs, hflush, hfronted, hpending, henqueued, htried, haccepted⟩ :=
        SignalingWebSocket.flush_frame
          { s.signaling with pending := s.signaling.pending ++ [message] } timed remaining
      rw [hflush] at h
      obtain ⟨rfl, rfl⟩ := Prod.mk.inj (Option.some.inj h)
      refine ⟨hfronted, ?_, fun _ => ?_, nofun⟩
      · have henqueue : enqueuedBy (.enqueued message :: outputs) = [message] :=
          congrArg (message :: ·) henqueued
        have htry : triedBy (.enqueued message :: outputs) = [] := htried
        rw [henqueue, htry, hpending, List.nil_append]
      · exact haccepted.trans htried.symm
    · cases h
  | connected result =>
    simp only [step] at h
    split at h
    · next message timed websocket hcall =>
      obtain ⟨rfl, rfl⟩ := Prod.mk.inj (Option.some.inj h)
      have hfront : s.signaling.pending.head? = some message := by simpa [Fronted, hcall] using hs
      exact moves_of_same hfront rfl rfl rfl rfl rfl
    · obtain ⟨rfl, rfl⟩ := Prod.mk.inj (Option.some.inj h)
      exact moves_of_same trivial rfl rfl rfl rfl rfl
    · cases h
  | sent ok remaining =>
    simp only [step] at h
    split at h
    · next websocket message timed hcall =>
      have hfront : s.signaling.pending.head? = some message := by simpa [Fronted, hcall] using hs
      obtain ⟨pending, hcons⟩ := List.head?_eq_some_iff.mp hfront
      obtain ⟨t, outputs, hflush, hfronted, hpending, henqueued, htried, haccepted⟩ :=
        SignalingWebSocket.flush_frame
          { s.signaling with
            websocket := if ok then some websocket else none
            pending := s.signaling.pending.tail } timed remaining
      rw [hflush] at h
      obtain ⟨rfl, rfl⟩ := Prod.mk.inj (Option.some.inj h)
      have htry : triedBy (.sent message ok :: outputs) = [message] :=
        congrArg (message :: ·) htried
      have henqueue : enqueuedBy (.sent message ok :: outputs) = [] := henqueued
      refine ⟨hfronted, ?_, fun hok => ?_, fun hfailed => ?_⟩
      · rw [htry, henqueue, hpending, hcons, List.append_nil]
        rfl
      · obtain rfl : ok = true := by simpa [SignalingEvent.sendFailed] using hok
        rw [htry]
        exact congrArg (message :: ·) haccepted
      · obtain rfl : ok = false := by simpa [SignalingEvent.sendFailed] using hfailed
        exact ⟨haccepted, by rw [htry]; rfl⟩
    · cases h
  | dropped =>
    simp only [step] at h
    split at h
    · cases h
    · obtain ⟨rfl, rfl⟩ := Prod.mk.inj (Option.some.inj h)
      exact moves_of_same trivial rfl rfl rfl rfl rfl

end Step

section Run
variable {s : Signaling C W M} {tr : SignalingTrace C W M}

structure Signaling.Outbox (tr : SignalingTrace C W M) (s : Signaling C W M) : Prop where
  fronted : s.Fronted
  pending : tried tr ++ s.signaling.pending = enqueued tr
  accepted : (∀ x ∈ tr, x.1.sendFailed = false) → accepted tr = tried tr
  failed : (Client.accepted tr).length + tr.countP (·.1.sendFailed) = (tried tr).length

theorem Signaling.Outbox.snoc {s' : Signaling C W M} {e : SignalingEvent C W M}
    {os : List (SignalingOutput M)} (hs : s.Outbox tr) (h : s.Moves s' e os) :
    s'.Outbox (tr ++ [(e, os)]) := by
  have htried : tried (tr ++ [(e, os)]) = tried tr ++ triedBy os := by simp [tried]
  have haccepted : Client.accepted (tr ++ [(e, os)]) = Client.accepted tr ++ acceptedBy os := by
    simp [Client.accepted]
  constructor
  · exact h.fronted
  · calc tried (tr ++ [(e, os)]) ++ s'.signaling.pending
        = tried tr ++ (triedBy os ++ s'.signaling.pending) := by rw [htried, List.append_assoc]
      _ = tried tr ++ s.signaling.pending ++ enqueuedBy os := by rw [h.pending, List.append_assoc]
      _ = enqueued (tr ++ [(e, os)]) := by rw [hs.pending]; simp [enqueued]
  · intro hnone
    rw [htried, haccepted, hs.accepted fun x hx => hnone x (List.mem_append_left _ hx),
      h.accepted (hnone (e, os) (List.mem_append_right _ List.mem_cons_self))]
  · rw [htried, haccepted, List.length_append, List.length_append, List.countP_append,
      List.countP_singleton, ← hs.failed]
    cases hfailed : e.sendFailed with
    | false => rw [h.accepted hfailed]; simp only [Bool.false_eq_true, if_false]; omega
    | true =>
      obtain ⟨hnone, hone⟩ := h.failed hfailed
      rw [hnone, hone, List.length_nil, if_pos rfl]
      omega

theorem signaling_outbox (h : signalingWebSocket.Run tr s) : s.Outbox tr := by
  refine h.history ⟨trivial, rfl, fun _ => rfl, rfl⟩ ?_
  intro tr s e s' os _ hs _ hstep
  exact hs.snoc (Signaling.step_moves hs.fronted hstep)

/-- What a websocket accepted and what is pending are the messages put into `pending`, in order,
in the runs without a failed send and in no other. -/
theorem accepted_then_pending (h : signalingWebSocket.Run tr s) :
    accepted tr ++ s.signaling.pending = enqueued tr ↔ ∀ x ∈ tr, x.1.sendFailed = false := by
  have hs := signaling_outbox h
  rw [← hs.pending, List.append_left_inj]
  constructor
  · intro hsame
    have hlength := hs.failed
    rw [hsame, Nat.add_eq_left, List.countP_eq_zero] at hlength
    exact fun x hx => Bool.eq_false_iff.mpr (hlength x hx)
  · exact hs.accepted

def offerAccepted : List (SignalingEvent Unit ℕ String) :=
  [.setWebsocketClient (), .send false, .encrypted "offer" true, .connected (.ok 1),
    .sent true true, .send true, .encrypted "answer" true, .dropped, .send true,
    .encrypted "candidate" false]

theorem accepted_then_pending_timeout :
    ∃ (tr : SignalingTrace Unit ℕ String) (s : Signaling Unit ℕ String),
      signalingWebSocket.exec ⟨.new, .idle⟩ offerAccepted = some (tr, s) ∧
      accepted tr ++ s.signaling.pending = ["offer", "answer", "candidate"] := by
  have hexec : signalingWebSocket.exec ⟨.new, .idle⟩ offerAccepted =
      some ((_, _) : SignalingTrace Unit ℕ String × Signaling Unit ℕ String) := rfl
  refine ⟨_, _, hexec, (accepted_then_pending (EventMachine.exec_run _ hexec)).mpr ?_⟩
  simp only [List.forall_mem_cons]
  exact ⟨rfl, rfl, rfl, rfl, rfl, rfl, rfl, rfl, rfl, rfl, by simp⟩

/-- The websocket fails to send the offer, and the next message is sent on another one. -/
theorem failed_send_loses_a_message :
    ∃ (tr : SignalingTrace Unit ℕ String) (s : Signaling Unit ℕ String),
      signalingWebSocket.exec ⟨.new, .idle⟩
        [.setWebsocketClient (), .send false, .encrypted "offer" true, .connected (.ok 1),
          .sent false true, .send false, .encrypted "candidate" true, .connected (.ok 2),
          .sent true true] = some (tr, s) ∧
      enqueued tr = ["offer", "candidate"] ∧ accepted tr = ["candidate"] ∧
      s.signaling.pending = [] :=
  ⟨_, _, rfl, rfl, rfl, rfl⟩

end Run

end Glopfile.Client
