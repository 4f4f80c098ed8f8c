import Glopfile.PeerToPeer.Events

/-!
# What a peer to peer client does with descriptions

`Turn` lists what a step may do as far as offers and answers are concerned; whatever else a step
does is one case of it.
-/

namespace Glopfile.PeerToPeer

open EventMachine (Trace)

variable {E O : Type*}

/-- Outputs without a message or a description of the signaling. -/
def Output.Quiet : Output E O → Prop
  | .incoming _ | .newConnection _ | .offerCreated _ | .setRemoteDescription _ _
  | .remoteDescriptionSet _ _ | .createAnswer _ | .answerCreated _ | .send _ => False
  | _ => True

/-- Calls that are not in the middle of a description. -/
def Call.Plain : Call E → Prop
  | .creatingOffer | .decrypting _ | .settingRemoteDescription _ _ | .creatingAnswer => False
  | _ => True

namespace Client

inductive Turn (decrypt : E → Except Api.Error RtcSignalingMessage) (c c' : Client E) :
    Input E O → List (Output E O) → Prop
  | aside {input : Input E O} {os : List (Output E O)} (hconnection : c'.connection = c.connection)
      (hcall : c'.call = c.call ∨ c'.call.Plain) (hos : ∀ o ∈ os, o.Quiet) :
      Turn decrypt c c' input os
  | offers (hconnection : c'.connection = c.connection) (hbefore : c.call = .idle)
      (hcall : c'.call = .creatingOffer) : Turn decrypt c c' .createOffer []
  | offered (hconnection : c'.connection = ⟨c.connection.id, some .offer⟩)
      (hcall : c'.call = .idle) (hbefore : c.call = .creatingOffer) :
      Turn decrypt c c' (.offerCreated (.ok ())) [.offerCreated c.connection.id]
  | incoming {message : E} {rx : List (Event E)}
      (hrx : c.rx = .incomingSignalingMessage message :: rx)
      (hconnection : c'.connection = c.connection) (hcall : c'.call = .decrypting message) :
      Turn decrypt c c' .next [.incoming message]
  | sends {message : RtcSignaling} {rx : List (Event E)}
      (hrx : c.rx = .connection c.connection.id (.outgoingSignalingMessage message) :: rx)
      (hrest : c'.rx = rx) (hconnection : c'.connection = c.connection) (hcall : c'.call.Plain) :
      Turn decrypt c c' .next
        [.taken c.connection.id (.outgoingSignalingMessage message), .send message]
  | sets {message : E} {description : SessionDescription} {created : Except Api.Error Unit}
      {answers : Bool} (hbefore : c.call = .decrypting message)
      (hmessage : decrypt message = .ok ⟨some (.sessionDescription description)⟩)
      (hfits : c.connection.localDescriptionType = none ∧ description.type = .offer ∧
          answers = true ∨
        c.connection.localDescriptionType = some .offer ∧ description.type = .answer ∧
          answers = false)
      (hconnection : c'.connection = c.connection)
      (hcall : c'.call = .settingRemoteDescription description answers) :
      Turn decrypt c c' (.decrypted created)
        [.setRemoteDescription c.connection.id description]
  | resets {message : E} {description : SessionDescription} {created : Except Api.Error Unit}
      (hbefore : c.call = .decrypting message)
      (hmessage : decrypt message = .ok ⟨some (.sessionDescription description)⟩)
      (hlocal : c.connection.localDescriptionType = some .answer)
      (htype : description.type = .offer)
      (hconnection : c'.connection = ⟨c.connection.id + 1, none⟩)
      (hcall : c'.call = .settingRemoteDescription description true) :
      Turn decrypt c c' (.decrypted created)
        [.newConnection (c.connection.id + 1),
          .setRemoteDescription (c.connection.id + 1) description]
  | asks {description : SessionDescription}
      (hbefore : c.call = .settingRemoteDescription description true)
      (hconnection : c'.connection = c.connection) (hcall : c'.call = .creatingAnswer) :
      Turn decrypt c c' (.remoteDescriptionSet (.ok ()))
        [.remoteDescriptionSet c.connection.id description, .createAnswer c.connection.id]
  | accepts {description : SessionDescription} {os : List (Output E O)}
      (hbefore : c.call = .settingRemoteDescription description false)
      (hconnection : c'.connection = c.connection) (hcall : c'.call.Plain)
      (hos : ∀ o ∈ os, o.Quiet) :
      Turn decrypt c c' (.remoteDescriptionSet (.ok ()))
        (.remoteDescriptionSet c.connection.id description :: os)
  | completes {os : List (Output E O)} (hbefore : c.call = .creatingAnswer)
      (hconnection : c'.connection = ⟨c.connection.id, some .answer⟩) (hcall : c'.call.Plain)
      (hos : ∀ o ∈ os, o.Quiet) :
      Turn decrypt c c' (.answerCreated (.ok ())) (.answerCreated c.connection.id :: os)

variable {c c' : Client E} {os : List (Output E O)} {input : Input E O}
  {decrypt : E → Except Api.Error RtcSignalingMessage}

structure Rests (c : Client E) (r : Client E × List (Output E O)) : Prop where
  connection : r.1.connection = c.connection
  call : r.1.call.Plain
  quiet : ∀ o ∈ r.2, o.Quiet

variable {r : Client E × List (Output E O)}

theorem rests_resolve (result : Except Api.Error O) : c.Rests (c.resolve result) :=
  ⟨rfl, trivial, by simp [resolve, Output.Quiet]⟩

theorem rests_panic : c.Rests (c.panic : Client E × List (Output E O)) :=
  ⟨rfl, trivial, by simp [panic, Output.Quiet]⟩

theorem rests_loop : c.Rests (c.loop : Client E × List (Output E O)) := by
  unfold loop
  split
  · exact ⟨rfl, trivial, by simp⟩
  · split
    · exact ⟨rfl, trivial, by simp⟩
    · exact rests_resolve _

theorem rests_loopIfOk (result : Except Api.Error Unit) :
    c.Rests (c.loopIfOk result : Client E × List (Output E O)) := by
  cases result with
  | ok => exact rests_loop
  | error error => exact rests_resolve _

theorem rests_handlerReturned (result : Except Api.Error (Option O)) :
    c.Rests (c.handlerReturned result) := by
  rcases result with error | (_ | output)
  · exact rests_resolve _
  · exact rests_loop
  · exact rests_resolve _

theorem rests_handleDataChannelMessage (data : List UInt8) :
    c.Rests (c.handleDataChannelMessage data : Client E × List (Output E O)) := by
  unfold handleDataChannelMessage
  split
  · exact ⟨rfl, trivial, by simp [Output.Quiet]⟩
  · split
    · exact rests_panic
    · exact ⟨rfl, trivial, by simp [Output.Quiet]⟩

theorem rests_transfer (timeout : Option ℕ) :
    c.Rests (c.transfer timeout : Client E × List (Output E O)) := by
  have rests {t : Option Timeout} {r : Client E × List (Output E O)}
      (h : Rests { c with inactivityTimeout := t } r) : c.Rests r :=
    ⟨h.connection, h.call, h.quiet⟩
  unfold transfer
  split
  · exact rests rests_loop
  · split
    · exact rests rests_panic
    · exact rests rests_loop

theorem Rests.turn (h : c.Rests r) : Turn decrypt c r.1 input r.2 :=
  .aside h.connection (.inr h.call) h.quiet

theorem Rests.cons {o : Output E O} (h : c.Rests r) (ho : o.Quiet) : c.Rests (r.1, o :: r.2) where
  connection := h.connection
  call := h.call
  quiet := by simpa [ho] using h.quiet

theorem Heeds.turn {event : PeerConnectionEvent} {rx : List (Event E)}
    (h : Heeds { c with rx := rx } event r)
    (hrx : c.rx = .connection c.connection.id event :: rx) :
    Turn decrypt c r.1 .next (.taken c.connection.id event :: r.2) := by
  have rests (h : Rests { c with rx := rx } r) :
      Turn decrypt c r.1 .next (.taken c.connection.id event :: r.2) :=
    have hcons := h.cons (o := .taken c.connection.id event) trivial
    .aside hcons.connection (.inr hcons.call) hcons.quiet
  cases h with
  | sends => exact .sends hrx rfl rfl trivial
  | ignored => exact rests rests_loop
  | described => exact rests rests_panic
  | opened => exact rests ⟨rfl, trivial, by simp [Output.Quiet]⟩
  | failed => exact rests (rests_resolve _)
  | handed => exact rests (rests_handleDataChannelMessage _)

theorem Polls.turn (h : Polls c r) : Turn decrypt c r.1 .next r.2 := by
  cases h with
  | incoming hrx => exact .incoming hrx rfl rfl
  | @dropping id event rx _ _ _ hloop =>
    subst hloop
    have hrests := (rests_loop (O := O) (c := { c with rx := rx })).cons
      (o := .dropping id event) trivial
    exact .aside hrests.connection (.inr hrests.call) hrests.quiet
  | taken hrx hheeds => exact hheeds.turn hrx
  | overdue => exact (rests_resolve _).turn

theorem Receives.turn {message : E} {created : Except Api.Error Unit}
    {decrypted : Except Api.Error RtcSignalingMessage} (h : Receives c created decrypted r)
    (hbefore : c.call = .decrypting message) (hdecrypted : decrypt message = decrypted) :
    Turn decrypt c r.1 (.decrypted created) r.2 := by
  cases h with
  | undecrypted | uncreated => exact (rests_resolve _).turn
  | ignored => exact rests_loop.turn
  | sets hfits => exact .sets hbefore hdecrypted hfits rfl rfl
  | resets _ hlocal htype => exact .resets hbefore hdecrypted hlocal htype rfl rfl
  | overflows | described => exact rests_panic.turn
  | adds => exact .aside rfl (.inr trivial) (by simp [Output.Quiet])

theorem turn_remoteDescriptionSet {description : SessionDescription} {answers : Bool}
    {result : Except Api.Error Unit}
    (hbefore : c.call = .settingRemoteDescription description answers)
    (h : c.remoteDescriptionSet description answers result = some (c', os)) :
    Turn decrypt c c' (.remoteDescriptionSet result) os := by
  cases result with
  | error error =>
    obtain ⟨rfl, rfl⟩ := Prod.mk.inj (Option.some.inj h)
    exact (rests_resolve _).turn
  | ok =>
    simp only [remoteDescriptionSet] at h
    split_ifs at h with hknown hanswers
    · obtain ⟨rfl, rfl⟩ := Prod.mk.inj (Option.some.inj h)
      subst hanswers
      exact .asks hbefore rfl rfl
    · obtain ⟨rfl, rfl⟩ := Prod.mk.inj (Option.some.inj h)
      rw [Bool.not_eq_true] at hanswers
      subst hanswers
      have hrests := rests_loop (O := O) (c := c)
      exact .accepts hbefore hrests.connection hrests.call hrests.quiet

theorem turn_answerCreated {result : Except Api.Error Unit}
    (hbefore : c.call = .creatingAnswer) :
    Turn (O := O) decrypt c (c.answerCreated (O := O) result).1 (.answerCreated result)
      (c.answerCreated result).2 := by
  cases result with
  | error error => exact (rests_resolve _).turn
  | ok =>
    have hrests := rests_loop (O := O)
      (c := { c with connection.localDescriptionType := some .answer })
    exact .completes hbefore hrests.connection hrests.call hrests.quiet

theorem turn_resume {call : Call E} (h : Resumes decrypt c call input r) (hcall : c.call = call) :
    Turn decrypt c r.1 input r.2 := by
  cases h with
  | offerFailed => exact .aside rfl (.inr trivial) (by simp)
  | offerCreated => exact .offered rfl rfl hcall
  | next h => exact (takeNext_polls h).turn
  | decrypted h => exact h.turn hcall rfl
  | remoteDescriptionSet h => exact turn_remoteDescriptionSet hcall h
  | answerCreated => exact turn_answerCreated hcall
  | remoteCandidateAdded | sent => exact (rests_loopIfOk _).turn
  | handled => exact (rests_handlerReturned _).turn
  | createOffer => exact .offers rfl hcall rfl
  | transfer => exact (rests_transfer _).turn

theorem step_turn (h : c.step decrypt input = some (c', os)) : Turn decrypt c c' input os := by
  cases step_change h with
  | refused => exact .aside rfl (.inl rfl) (by simp [Output.Quiet])
  | elapsed | handed | unheard | reported => exact .aside rfl (.inl rfl) (by simp)
  | abandoned | dropped => exact .aside rfl (.inr trivial) (by simp)
  | resumed _ hcall hresume => exact turn_resume hresume hcall

end Client

end Glopfile.PeerToPeer
