import Glopfile.Client.SignalingWebSocket
import Glopfile.PeerToPeer.Inactivity

/-!
# The flush of a transfer

While a transfer sends a message of its signaling, `SignalingWebSocket::send` encrypts it and
flushes, with the timer of the transfer. `SignaledClient` runs the two together: what the send
returns is what the transfer awaits, and the send asks the timer of the client how much remains.
So of all its errors only `Timeout::remaining` is an `Error::Timeout`, and `KeepsTime` holds of
what the transfer is told.
-/

namespace Glopfile.PeerToPeer

open EventMachine (Trace)
open Glopfile.Client (Signaling SignalingEvent SignalingOutput SendError)

variable {E O C W M : Type*}

/-- How `client.connect()` fails in the flush: its thread died, or the time was over. -/
inductive ConnectError
  | died
  | timedOut
  deriving DecidableEq, Repr

def ConnectError.error : ConnectError → Api.Error
  | .died => .webSocketClient "websocket thread died"
  | .timedOut => .rtcDataChannel "Timed out"

inductive FlushEvent (W M : Type*)
  | encrypted (message : M)
  | connected (result : Except ConnectError W)
  | sent (ok : Bool)

structure SignaledClient (E C W M : Type*) where
  client : Client E
  signaling : Signaling C W M

inductive SignaledEvent (E O C W M : Type*)
  | client (input : Input E O)
  | setWebsocketClient (client : C)
  | flush (event : FlushEvent W M)

namespace FlushEvent

def signaling (remaining : Bool) : FlushEvent W M → SignalingEvent C W M
  | .encrypted message => .encrypted message remaining
  | .connected result => .connected (result.mapError fun _ => .connect)
  | .sent ok => .sent ok remaining

/-- The error that `?` passes on. -/
def error (event : FlushEvent W M) : SendError → Api.Error
  | .timeout => .timeout
  | .connect =>
    match event with
    | .connected (.error error) => error.error
    | _ => ConnectError.died.error

end FlushEvent

def Call.isSending : Call E → Bool
  | .sending _ => true
  | _ => false

def Input.isSent : Input E O → Bool
  | .sent _ => true
  | _ => false

namespace SignaledClient
variable (decrypt : E → Except Api.Error RtcSignalingMessage)

def new : SignaledClient E C W M := ⟨.new, ⟨.new, .idle⟩⟩

/-- Whether `Timeout::remaining` is `Ok`; without a timer it is not asked. -/
def remaining (s : SignaledClient E C W M) : Bool :=
  s.client.inactivityTimeout.all fun t => s.client.now < t.deadline

def follow (s : SignaledClient E C W M) (client : Client E) : Option (Signaling C W M) :=
  match s.client.call.isSending, client.call.isSending with
  | false, true =>
    (s.signaling.step (.send client.inactivityTimeout.isSome)).map Prod.fst
  | true, false => (s.signaling.step .dropped).map Prod.fst
  | _, _ => some s.signaling

def returned (os : List (SignalingOutput M)) : Option (Except SendError Unit) :=
  os.findSome? fun
    | .returned result => some result
    | _ => none

def clientStep (s : SignaledClient E C W M) (input : Input E O) :
    Option (SignaledClient E C W M × List (Input E O × List (Output E O))) :=
  match s.client.step decrypt input with
  | none => none
  | some (client, os) => (s.follow client).map fun signaling => (⟨client, signaling⟩, [(input, os)])

def flushStep (s : SignaledClient E C W M) (event : FlushEvent W M) :
    Option (SignaledClient E C W M × List (Input E O × List (Output E O))) :=
  match s.signaling.step (event.signaling s.remaining) with
  | none => none
  | some (signaling, outputs) =>
    match returned outputs with
    | none => some ({ s with signaling := signaling }, [])
    | some result =>
      let input := .sent (result.mapError event.error)
      (s.client.step decrypt input).map fun r => (⟨r.1, signaling⟩, [(input, r.2)])

/-- An output is what the client was given, with what it did. -/
def step (s : SignaledClient E C W M) : SignaledEvent E O C W M →
    Option (SignaledClient E C W M × List (Input E O × List (Output E O)))
  | .client input => if input.isSent then none else s.clientStep decrypt input
  | .setWebsocketClient client =>
    match s.client.call with
    | .idle =>
      (s.signaling.step (.setWebsocketClient client)).map fun r => ({ s with signaling := r.1 }, [])
    | _ => none
  | .flush event => s.flushStep decrypt event

end SignaledClient

def signaledClient (decrypt : E → Except Api.Error RtcSignalingMessage) :
    EventMachine (SignaledClient E C W M) (SignaledEvent E O C W M)
      (Input E O × List (Output E O)) where
  init := .new
  step := SignaledClient.step decrypt

/-- Nothing but the flush and the wait on the channel returns `Error::Timeout`. -/
def Punctual (s : SignaledClient E C W M) : SignaledEvent E O C W M → Prop
  | .client input => KeepsTime s.client input
  | _ => True

section Step
variable {decrypt : E → Except Api.Error RtcSignalingMessage} {s s' : SignaledClient E C W M}
  {e : SignaledEvent E O C W M} {os : List (Input E O × List (Output E O))}

theorem remaining_eq_false (h : s.remaining = false) :
    ∃ t, s.client.inactivityTimeout = some t ∧ t.deadline ≤ s.client.now := by
  unfold SignaledClient.remaining at h
  cases htimer : s.client.inactivityTimeout with
  | none => simp [htimer] at h
  | some t => exact ⟨t, rfl, by simpa [htimer] using h⟩

theorem flush_timeout {signaling : Glopfile.Client.SignalingWebSocket C W M}
    {timed remaining : Bool}
    (h : .returned (.error .timeout) ∈ (signaling.flush timed remaining).2) :
    remaining = false := by
  unfold Glopfile.Client.SignalingWebSocket.flush at h
  split at h
  · simp at h
  · simp at h
  · simp at h
  · split_ifs at h with hover
    · exact hover.2
    · simp at h

theorem signaling_timeout {signaling signaling' : Signaling C W M} {event : FlushEvent W M}
    {outputs : List (SignalingOutput M)} {remaining : Bool}
    (h : signaling.step (event.signaling remaining) = some (signaling', outputs))
    (hmem : .returned (.error .timeout) ∈ outputs) : remaining = false := by
  cases event with
  | encrypted message =>
    simp only [FlushEvent.signaling, Signaling.step] at h
    split at h
    · obtain ⟨-, rfl⟩ := Prod.mk.inj (Option.some.inj h)
      exact flush_timeout ((List.mem_cons.mp hmem).resolve_left (by simp))
    · cases h
  | sent ok =>
    simp only [FlushEvent.signaling, Signaling.step] at h
    split at h
    · obtain ⟨-, rfl⟩ := Prod.mk.inj (Option.some.inj h)
      exact flush_timeout ((List.mem_cons.mp hmem).resolve_left (by simp))
    · cases h
  | connected result =>
    cases hcall : signaling.call with
    | connecting message timed =>
      rcases result with error | websocket <;>
        simp only [FlushEvent.signaling, Except.mapError, Signaling.step, hcall] at h <;>
        obtain ⟨-, rfl⟩ := Prod.mk.inj (Option.some.inj h) <;> simp at hmem
    | idle | encrypting timed | sending websocket message timed =>
      simp [FlushEvent.signaling, Signaling.step, hcall] at h

theorem returned_mem {outputs : List (SignalingOutput M)} {result : Except SendError Unit}
    (h : SignaledClient.returned outputs = some result) : .returned result ∈ outputs := by
  obtain ⟨output, hmem, hresult⟩ := List.exists_of_findSome?_eq_some h
  cases output with
  | returned result' => rwa [Option.some.inj hresult] at hmem
  | _ => cases hresult

theorem mapError_timeout {event : FlushEvent W M} {result : Except SendError Unit}
    (h : result.mapError event.error = .error .timeout) : result = .error .timeout := by
  rcases result with (_ | _) | _
  · rfl
  · have herror := Except.error.inj h
    simp only [FlushEvent.error] at herror
    split at herror
    · next error => cases error <;> cases herror
    · cases herror
  · cases h

theorem clientStep_path {input : Input E O} (hguard : KeepsTime s.client input)
    (h : s.clientStep decrypt input = some (s', os)) :
    (client decrypt).Path KeepsTime s.client os s'.client := by
  unfold SignaledClient.clientStep at h
  split at h
  · cases h
  · next client os' hclient =>
    obtain ⟨signaling, -, heq⟩ := Option.map_eq_some_iff.mp h
    obtain ⟨rfl, rfl⟩ := Prod.mk.inj heq
    exact .single hguard hclient

theorem flushStep_path {event : FlushEvent W M} (h : s.flushStep decrypt event = some (s', os)) :
    (client decrypt).Path KeepsTime s.client os s'.client := by
  unfold SignaledClient.flushStep at h
  split at h
  · cases h
  · next signaling outputs hsignaling =>
    split at h
    · obtain ⟨rfl, rfl⟩ := Prod.mk.inj (Option.some.inj h)
      exact .refl
    · next result hreturned =>
      obtain ⟨r, hclient, heq⟩ := Option.map_eq_some_iff.mp h
      obtain ⟨rfl, rfl⟩ := Prod.mk.inj heq
      refine .single (fun htimeout => ?_) hclient
      rw [mapError_timeout htimeout] at hreturned
      exact remaining_eq_false (signaling_timeout hsignaling (returned_mem hreturned))

theorem signaled_step (hguard : Punctual s e) (h : s.step decrypt e = some (s', os)) :
    (client decrypt).Path KeepsTime s.client os s'.client := by
  cases e with
  | client input =>
    simp only [SignaledClient.step] at h
    split_ifs at h
    exact clientStep_path hguard h
  | setWebsocketClient websocketClient =>
    simp only [SignaledClient.step] at h
    split at h
    · obtain ⟨r, -, heq⟩ := Option.map_eq_some_iff.mp h
      obtain ⟨rfl, rfl⟩ := Prod.mk.inj heq
      exact .refl
    · cases h
  | flush event => exact flushStep_path h

end Step

section Run
variable {decrypt : E → Except Api.Error RtcSignalingMessage} {s : SignaledClient E C W M}
  {tr : Trace (SignaledEvent E O C W M) (Input E O × List (Output E O))}

theorem signaled_keepsTime (hpath : (signaledClient decrypt).Path Punctual .new tr s) :
    (client decrypt).Path KeepsTime .new tr.outputs s.client :=
  hpath.simulate SignaledClient.client Prod.snd fun _ _ _ _ hguard hstep =>
    signaled_step hguard hstep

/-- With its websocket, a transfer ends over a timeout only if its timeout is over, whatever the
flushes of its messages met. -/
theorem signaled_runsOut (hdecrypt : ∀ message, decrypt message ≠ .error .timeout)
    (hpath : (signaledClient decrypt).Path Punctual .new tr s) :
    Trace.Each (fun before input os => .returned (.error .timeout) ∈ os →
      ∃ w, watch (before ++ [(input, os)]) = some w ∧ w.timeout ≤ w.silence) tr.outputs :=
  path_runsOut hdecrypt (signaled_keepsTime hpath)

end Run

end Glopfile.PeerToPeer
