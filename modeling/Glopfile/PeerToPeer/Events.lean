import Glopfile.PeerToPeer.Client
import Mathlib.Data.List.Basic

/-!
# What a peer to peer client does with the events of its connections

Every event is taken off the channel once, in the order in which it came. Those of the current
connection are acted on, those of a replaced connection are dropped.
-/

namespace Glopfile.PeerToPeer

open EventMachine (Trace)

variable {E O : Type*}

def Output.event : Output E O → Option (Event E)
  | .incoming message => some (.incomingSignalingMessage message)
  | .taken id event | .dropping id event => some (.connection id event)
  | _ => none

def Input.event : Input E O → Option (Event E)
  | .handle message => some (.incomingSignalingMessage message)
  | .report id event => some (.connection id event)
  | _ => none

def Event.ofConnection (id : PeerConnectionId) : Event E → Option PeerConnectionEvent
  | .connection id' event => if id' = id then some event else none
  | .incomingSignalingMessage _ => none

def Output.takenFrom (id : PeerConnectionId) : Output E O → Option PeerConnectionEvent
  | .taken id' event => if id' = id then some event else none
  | _ => none

def Output.droppedFrom (id : PeerConnectionId) : Output E O → Option PeerConnectionEvent
  | .dropping id' event => if id' = id then some event else none
  | _ => none

def Output.takenId : Output E O → Option PeerConnectionId
  | .taken id _ => some id
  | _ => none

def Call.Handling : Call E → Prop
  | .openingDataChannel | .handlingMessage _ => True
  | _ => False

namespace Client
variable {c c' : Client E} {os : List (Output E O)}

/-- What comes of an incoming message by the type of the local description, once it is decrypted. -/
inductive Receives (c : Client E) (created : Except Api.Error Unit) :
    Except Api.Error RtcSignalingMessage → Client E × List (Output E O) → Prop
  | undecrypted {error : Api.Error} : Receives c created (.error error) (c.resolve (.error error))
  | ignored {message : RtcSignalingMessage} : Receives c created (.ok message) c.loop
  | sets {description : SessionDescription} {answers : Bool}
      (hfits : c.connection.localDescriptionType = none ∧ description.type = .offer ∧
          answers = true ∨
        c.connection.localDescriptionType = some .offer ∧ description.type = .answer ∧
          answers = false) :
      Receives c created (.ok ⟨some (.sessionDescription description)⟩)
        (c.setRemoteDescription description answers)
  | resets {description : SessionDescription} (hcreated : created = .ok ())
      (hlocal : c.connection.localDescriptionType = some .answer)
      (htype : description.type = .offer) :
      Receives c created (.ok ⟨some (.sessionDescription description)⟩)
        ({ c with
            connection := ⟨c.connection.id + 1, none⟩
            call := .settingRemoteDescription description true },
          [.newConnection (c.connection.id + 1),
            .setRemoteDescription (c.connection.id + 1) description])
  | uncreated {message : RtcSignalingMessage} {error : Api.Error}
      (hcreated : created = .error error) :
      Receives c created (.ok message) (c.resolve (.error error))
  | overflows {message : RtcSignalingMessage} (hid : 2 ^ 32 ≤ c.connection.id + 1) :
      Receives c created (.ok message) c.panic
  | described {message : RtcSignalingMessage}
      (hlocal : c.connection.localDescriptionType = some .pranswer ∨
        c.connection.localDescriptionType = some .rollback) :
      Receives c created (.ok message) c.panic
  | adds {iceCandidate : IceCandidate} :
      Receives c created (.ok ⟨some (.iceCandidate iceCandidate)⟩)
        ({ c with call := .addingRemoteCandidate iceCandidate },
          [.addRemoteCandidate c.connection.id iceCandidate])

theorem resetConnection_receives {description : SessionDescription}
    {created : Except Api.Error Unit}
    (hlocal : c.connection.localDescriptionType = some .answer)
    (htype : description.type = .offer) :
    Receives (O := O) c created (.ok ⟨some (.sessionDescription description)⟩)
      (c.resetConnection description created) := by
  unfold resetConnection
  split_ifs with hid
  · cases created with
    | error error => exact .uncreated rfl
    | ok => exact .resets rfl hlocal htype
  · exact .overflows (Nat.le_of_not_lt hid)

theorem handleSessionDescription_receives (description : SessionDescription)
    (created : Except Api.Error Unit) :
    Receives (O := O) c created (.ok ⟨some (.sessionDescription description)⟩)
      (c.handleSessionDescription description created) := by
  unfold handleSessionDescription
  split
  case h_1 hlocal htype => exact .sets (.inl ⟨hlocal, htype, rfl⟩)
  case h_2 hlocal htype => exact resetConnection_receives hlocal htype
  case h_3 hlocal htype => exact .sets (.inr ⟨hlocal, htype, rfl⟩)
  case h_13 hlocal => exact .described (.inl hlocal)
  case h_14 hlocal => exact .described (.inr hlocal)
  all_goals exact .ignored

theorem handleIncomingSignalingMessage_receives (created : Except Api.Error Unit)
    (decrypted : Except Api.Error RtcSignalingMessage) :
    Receives (O := O) c created decrypted
      (c.handleIncomingSignalingMessage created decrypted) := by
  rcases decrypted with error | ⟨_ | iceCandidate | description⟩
  · exact .undecrypted
  · exact .ignored
  · simp only [handleIncomingSignalingMessage]
    split_ifs
    · exact .ignored
    · exact .adds
  · exact handleSessionDescription_receives description created

inductive Heeds (c : Client E) : PeerConnectionEvent → Client E × List (Output E O) → Prop
  | sends {message : RtcSignaling} :
      Heeds c (.outgoingSignalingMessage message)
        ({ c with call := .sending message }, [.send message])
  | ignored {iceCandidate : IceCandidate} :
      Heeds c (.outgoingSignalingMessage (.iceCandidate iceCandidate)) c.loop
  | described {description : SessionDescription}
      (htype : description.type = .pranswer ∨ description.type = .rollback) :
      Heeds c (.outgoingSignalingMessage (.sessionDescription description)) c.panic
  | opened : Heeds c .dataChannelOpened
      ({ c with call := .openingDataChannel }, [.dataChannelOpened])
  | failed {error : String} :
      Heeds c (.dataChannelError error) (c.resolve (.error (.rtcDataChannel error)))
  | handed {data : List UInt8} : Heeds c (.dataChannelMessage data) (c.handleDataChannelMessage data)

theorem handleConnectionEvent_heeds (event : PeerConnectionEvent) :
    Heeds (O := O) c event (c.handleConnectionEvent event) := by
  rcases event with (candidate | description) | _ | error | data
  · simp only [handleConnectionEvent, handleOutgoingSignalingMessage]
    split_ifs
    · exact .ignored
    · exact .sends
  · simp only [handleConnectionEvent, handleOutgoingSignalingMessage]
    split
    · exact .sends
    · exact .sends
    · next htype => exact .described (.inl htype)
    · next htype => exact .described (.inr htype)
  · exact .opened
  · exact .failed
  · exact .handed

/-- What comes of the wait on the channel. -/
inductive Polls (c : Client E) : Client E × List (Output E O) → Prop
  | incoming {message : E} {rx : List (Event E)}
      (hrx : c.rx = .incomingSignalingMessage message :: rx) :
      Polls c ({ c with rx := rx, call := .decrypting message }, [.incoming message])
  | dropping {id : PeerConnectionId} {event : PeerConnectionEvent} {rx : List (Event E)}
      {r : Client E × List (Output E O)} (hrx : c.rx = .connection id event :: rx)
      (hid : id ≠ c.connection.id) (h : r = { c with rx := rx }.loop) :
      Polls c (r.1, .dropping id event :: r.2)
  | taken {event : PeerConnectionEvent} {rx : List (Event E)}
      {r : Client E × List (Output E O)} (hrx : c.rx = .connection c.connection.id event :: rx)
      (h : Heeds { c with rx := rx } event r) : Polls c (r.1, .taken c.connection.id event :: r.2)
  | overdue {t : Timeout} (htimer : c.inactivityTimeout = some t) (hdeadline : t.deadline ≤ c.now) :
      Polls c (c.resolve (.error .timeout))

theorem takeNext_polls {r : Client E × List (Output E O)} (h : c.takeNext = some r) :
    Polls c r := by
  unfold takeNext at h
  split at h
  · next event rx hrx =>
    obtain rfl := Option.some.inj h
    cases event with
    | incomingSignalingMessage message => exact .incoming hrx
    | connection id event =>
      simp only [handleEvent]
      split_ifs with hid
      · exact .dropping hrx hid rfl
      · rw [not_not] at hid
        subst hid
        exact .taken hrx (handleConnectionEvent_heeds event)
  · cases h
  · next htimer =>
    split_ifs at h with hdeadline
    exact Option.some.inj h ▸ .overdue htimer hdeadline

/-- The code that goes on with what an await returned, or with a new call. -/
inductive Resumes (decrypt : E → Except Api.Error RtcSignalingMessage) (c : Client E) :
    Call E → Input E O → Client E × List (Output E O) → Prop
  | offerFailed {error : Api.Error} : Resumes decrypt c .creatingOffer (.offerCreated (.error error))
      ({ c with call := .idle }, [])
  | offerCreated : Resumes decrypt c .creatingOffer (.offerCreated (.ok ()))
      ({ c with call := .idle, connection.localDescriptionType := some .offer },
        [.offerCreated c.connection.id])
  | next {r : Client E × List (Output E O)} (h : c.takeNext = some r) :
      Resumes decrypt c .next .next r
  | decrypted {message : E} {created : Except Api.Error Unit} {r : Client E × List (Output E O)}
      (h : Receives c created (decrypt message) r) :
      Resumes decrypt c (.decrypting message) (.decrypted created) r
  | remoteDescriptionSet {description : SessionDescription} {answers : Bool}
      {result : Except Api.Error Unit} {r : Client E × List (Output E O)}
      (h : c.remoteDescriptionSet description answers result = some r) :
      Resumes decrypt c (.settingRemoteDescription description answers)
        (.remoteDescriptionSet result) r
  | answerCreated {result : Except Api.Error Unit} :
      Resumes decrypt c .creatingAnswer (.answerCreated result) (c.answerCreated result)
  | remoteCandidateAdded {candidate : IceCandidate} {result : Except Api.Error Unit} :
      Resumes decrypt c (.addingRemoteCandidate candidate) (.remoteCandidateAdded result)
        (c.loopIfOk result)
  | sent {message : RtcSignaling} {result : Except Api.Error Unit} :
      Resumes decrypt c (.sending message) (.sent result) (c.loopIfOk result)
  | handled {call : Call E} {result : Except Api.Error (Option O)} (hcall : call.Handling) :
      Resumes decrypt c call (.handled result) (c.handlerReturned result)
  | createOffer : Resumes decrypt c .idle .createOffer ({ c with call := .creatingOffer }, [])
  | transfer {timeout : Option ℕ} :
      Resumes decrypt c .idle (.transfer timeout) (c.transfer timeout)

theorem resume_resumes {decrypt : E → Except Api.Error RtcSignalingMessage} {input : Input E O}
    {call : Call E} {r : Client E × List (Output E O)}
    (h : c.resume decrypt call input = some r) : Resumes decrypt c call input r := by
  unfold resume at h
  split at h
  · exact Option.some.inj h ▸ .offerFailed
  · exact Option.some.inj h ▸ .offerCreated
  · exact .next h
  · exact Option.some.inj h ▸ .decrypted (handleIncomingSignalingMessage_receives _ _)
  · exact .remoteDescriptionSet h
  · exact Option.some.inj h ▸ .answerCreated
  · exact Option.some.inj h ▸ .remoteCandidateAdded
  · exact Option.some.inj h ▸ .sent
  · exact Option.some.inj h ▸ .handled trivial
  · exact Option.some.inj h ▸ .handled trivial
  · exact Option.some.inj h ▸ .createOffer
  · exact Option.some.inj h ▸ .transfer
  · cases h

/-- What a client does with an input: what comes from elsewhere it takes at any time, and what
it calls or awaits itself while it is not dropped. -/
inductive Change (decrypt : E → Except Api.Error RtcSignalingMessage) (c : Client E) :
    Input E O → Client E → List (Output E O) → Prop
  | elapsed {duration : ℕ} :
      Change decrypt c (.elapse duration) { c with now := c.now + duration } []
  | refused {message : E} (hdropped : c.dropped = true) :
      Change decrypt c (.handle message) c [.handlerError]
  | handed {message : E} (hopen : c.dropped = false) :
      Change decrypt c (.handle message)
        { c with rx := c.rx ++ [.incomingSignalingMessage message] } []
  | unheard {id : PeerConnectionId} {event : PeerConnectionEvent} (hdropped : c.dropped = true) :
      Change decrypt c (.report id event) c []
  | reported {id : PeerConnectionId} {event : PeerConnectionEvent} (hopen : c.dropped = false) :
      Change decrypt c (.report id event) { c with rx := c.rx ++ [.connection id event] } []
  | abandoned : Change decrypt c .abandoned { c with call := .idle, inactivityTimeout := none } []
  | dropped : Change decrypt c .dropped { c with call := .idle, rx := [], dropped := true } []
  | resumed {call : Call E} {input : Input E O} {r : Client E × List (Output E O)}
      (hopen : c.dropped = false) (hcall : c.call = call)
      (hresume : Resumes decrypt c call input r) : Change decrypt c input r.1 r.2

theorem step_change {decrypt : E → Except Api.Error RtcSignalingMessage} {input : Input E O}
    (h : c.step decrypt input = some (c', os)) : Change decrypt c input c' os := by
  have resumes (hinput : (if c.dropped = true then none else c.resume decrypt c.call input) =
      some (c', os)) : Change decrypt c input c' os := by
    split_ifs at hinput with hdropped
    exact .resumed (r := (c', os)) (by simpa using hdropped) rfl (resume_resumes hinput)
  cases input with
  | elapse duration =>
    cases h
    exact .elapsed
  | handle message =>
    simp only [step] at h
    split_ifs at h with hdropped
    · cases h
      exact .refused hdropped
    · cases h
      exact .handed (by simpa using hdropped)
  | report id event =>
    simp only [step] at h
    split_ifs at h with hid hdropped
    · cases h
      exact .unheard hdropped
    · cases h
      exact .reported (by simpa using hdropped)
  | abandoned =>
    simp only [step] at h
    split at h
    · cases h
    · cases h
    · cases h
      exact .abandoned
  | dropped =>
    cases h
    exact .dropped
  | createOffer | offerCreated | transfer | next | decrypted | remoteDescriptionSet
  | answerCreated | remoteCandidateAdded | sent | handled => exact resumes h

structure Takes (c c' : Client E) (input : Input E O) (os : List (Output E O)) : Prop where
  rx : os.filterMap Output.event ++ c'.rx = c.rx ++ input.event.toList
  taken : ∀ id event, .taken id event ∈ os → id = c.connection.id
  dropping : ∀ id event, .dropping id event ∈ os → id ≠ c.connection.id
  id : c.connection.id ≤ c'.connection.id
  dropped : c'.dropped = c.dropped

structure Acts (c : Client E) (r : Client E × List (Output E O)) : Prop where
  rx : r.1.rx = c.rx
  events : ∀ o ∈ r.2, o.event = none
  id : c.connection.id ≤ r.1.connection.id
  dropped : r.1.dropped = c.dropped

variable {r : Client E × List (Output E O)}

theorem acts_resolve (result : Except Api.Error O) : c.Acts (c.resolve result) :=
  ⟨rfl, by simp [resolve, Output.event], Nat.le_refl _, rfl⟩

theorem acts_panic : c.Acts (c.panic : Client E × List (Output E O)) :=
  ⟨rfl, by simp [panic, Output.event], Nat.le_refl _, rfl⟩

theorem acts_call (call : Call E) {os : List (Output E O)} (h : ∀ o ∈ os, o.event = none) :
    c.Acts ({ c with call := call }, os) := ⟨rfl, h, Nat.le_refl _, rfl⟩

theorem acts_loop : c.Acts (c.loop : Client E × List (Output E O)) := by
  unfold Client.loop
  split
  · exact acts_call .next (by simp)
  · split
    · exact acts_call .next (by simp)
    · exact acts_resolve _

theorem acts_loopIfOk (result : Except Api.Error Unit) :
    c.Acts (c.loopIfOk result : Client E × List (Output E O)) := by
  cases result with
  | ok => exact acts_loop
  | error error => exact acts_resolve _

theorem acts_handleDataChannelMessage (data : List UInt8) :
    c.Acts (c.handleDataChannelMessage data : Client E × List (Output E O)) := by
  unfold handleDataChannelMessage
  split
  · exact acts_call _ (by simp [Output.event])
  · split
    · exact acts_panic
    · exact ⟨rfl, by simp [Output.event], Nat.le_refl _, rfl⟩

theorem acts_transfer (timeout : Option ℕ) :
    c.Acts (c.transfer timeout : Client E × List (Output E O)) := by
  have acts {t : Option Timeout} {r : Client E × List (Output E O)}
      (h : Acts { c with inactivityTimeout := t } r) : c.Acts r :=
    ⟨h.rx, h.events, h.id, h.dropped⟩
  unfold transfer
  split
  · exact acts acts_loop
  · split
    · exact acts acts_panic
    · exact acts acts_loop

theorem Heeds.acts {event : PeerConnectionEvent} (h : Heeds c event r) : c.Acts r := by
  cases h with
  | sends | opened => exact acts_call _ (by simp [Output.event])
  | ignored => exact acts_loop
  | described => exact acts_panic
  | failed => exact acts_resolve _
  | handed => exact acts_handleDataChannelMessage _

theorem Receives.acts {created : Except Api.Error Unit}
    {decrypted : Except Api.Error RtcSignalingMessage} (h : Receives c created decrypted r) :
    c.Acts r := by
  cases h with
  | undecrypted | uncreated => exact acts_resolve _
  | ignored => exact acts_loop
  | sets => exact acts_call _ (by simp [Output.event])
  | resets => exact ⟨rfl, by simp [Output.event], Nat.le_succ _, rfl⟩
  | overflows | described => exact acts_panic
  | adds => exact acts_call _ (by simp [Output.event])

theorem acts_remoteDescriptionSet {description : SessionDescription} {answers : Bool}
    {result : Except Api.Error Unit}
    (h : c.remoteDescriptionSet description answers result = some r) : c.Acts r := by
  cases result with
  | error error =>
    obtain rfl := Option.some.inj h
    exact acts_resolve _
  | ok =>
    simp only [remoteDescriptionSet] at h
    split_ifs at h with hknown hanswers
    · obtain rfl := Option.some.inj h
      exact acts_call _ (by simp [Output.event])
    · obtain rfl := Option.some.inj h
      have hacts : c.Acts (c.loop : Client E × List (Output E O)) := acts_loop
      exact { hacts with events := by simpa [Output.event] using hacts.events }

theorem acts_answerCreated (result : Except Api.Error Unit) :
    c.Acts (c.answerCreated result : Client E × List (Output E O)) := by
  cases result with
  | error error => exact acts_resolve _
  | ok =>
    have hacts : Acts _ (Client.loop (O := O)
      { c with connection.localDescriptionType := some .answer }) := acts_loop
    exact ⟨hacts.rx, by simpa [answerCreated, Output.event] using hacts.events, hacts.id,
      hacts.dropped⟩

theorem acts_handlerReturned (result : Except Api.Error (Option O)) :
    c.Acts (c.handlerReturned result) := by
  rcases result with error | (_ | output)
  · exact acts_resolve _
  · exact acts_loop
  · exact acts_resolve _

theorem Acts.not_event (h : c.Acts r) {o : Output E O} (hevent : o.event ≠ none) : o ∉ r.2 :=
  fun hmem => hevent (h.events o hmem)

theorem Acts.filterMap_event (h : c.Acts r) : r.2.filterMap Output.event = [] := by
  rw [List.filterMap_eq_nil_iff]
  exact h.events

theorem Acts.takes {input : Input E O} (h : c.Acts r) (hinput : input.event = none) :
    c.Takes r.1 input r.2 where
  rx := by rw [h.filterMap_event, h.rx, hinput, List.nil_append]; simp
  taken id event hmem := absurd hmem (h.not_event (by simp [Output.event]))
  dropping id event hmem := absurd hmem (h.not_event (by simp [Output.event]))
  id := h.id
  dropped := h.dropped

theorem Acts.takes_event {rx : List (Event E)} {event : Event E} {o : Output E O}
    (h : Acts { c with rx := rx } r) (hrx : c.rx = event :: rx) (ho : o.event = some event)
    (htaken : ∀ id event, o = .taken id event → id = c.connection.id)
    (hdropping : ∀ id event, o = .dropping id event → id ≠ c.connection.id) :
    c.Takes r.1 (.next : Input E O) (o :: r.2) where
  rx := by
    rw [List.filterMap_cons_some ho, h.filterMap_event, h.rx, hrx]
    simp [Input.event]
  taken id event hmem := by
    rcases List.mem_cons.mp hmem with heq | hmem
    · exact htaken id event heq.symm
    · exact absurd hmem (h.not_event (by simp [Output.event]))
  dropping id event hmem := by
    rcases List.mem_cons.mp hmem with heq | hmem
    · exact hdropping id event heq.symm
    · exact absurd hmem (h.not_event (by simp [Output.event]))
  id := h.id
  dropped := h.dropped

theorem Polls.takes (h : Polls c r) : c.Takes r.1 (.next : Input E O) r.2 := by
  cases h with
  | @incoming message rx hrx =>
    have hacts : Acts (O := O) { c with rx := rx }
        ({ c with rx := rx, call := .decrypting message }, []) := acts_call _ (by simp)
    exact hacts.takes_event hrx rfl (by simp) (by simp)
  | dropping hrx hid hloop =>
    subst hloop
    refine acts_loop.takes_event hrx rfl (by simp) ?_
    rintro id event heq
    obtain ⟨rfl, rfl⟩ := Output.dropping.inj heq
    exact hid
  | taken hrx hheeds =>
    refine hheeds.acts.takes_event hrx rfl ?_ (by simp)
    rintro id event heq
    exact (Output.taken.inj heq).1.symm
  | overdue => exact (acts_resolve _).takes rfl

theorem takes_resume {decrypt : E → Except Api.Error RtcSignalingMessage} {input : Input E O}
    {call : Call E} (h : Resumes decrypt c call input r) : c.Takes r.1 input r.2 := by
  cases h with
  | offerFailed => exact (acts_call _ (by simp)).takes rfl
  | offerCreated => exact Acts.takes ⟨rfl, by simp [Output.event], Nat.le_refl _, rfl⟩ rfl
  | next h => exact (takeNext_polls h).takes
  | decrypted h => exact h.acts.takes rfl
  | remoteDescriptionSet h => exact (acts_remoteDescriptionSet h).takes rfl
  | answerCreated => exact (acts_answerCreated _).takes rfl
  | remoteCandidateAdded | sent => exact (acts_loopIfOk _).takes rfl
  | handled => exact (acts_handlerReturned _).takes rfl
  | createOffer => exact (acts_call _ (by simp)).takes rfl
  | transfer => exact (acts_transfer _).takes rfl

theorem step_takes {decrypt : E → Except Api.Error RtcSignalingMessage} {input : Input E O}
    (h : c.step decrypt input = some (c', os)) (hopen : c'.dropped = false) :
    c.Takes c' input os := by
  have silent {c₁ : Client E} {input : Input E O} (hrx : c₁.rx = c.rx ++ input.event.toList)
      (hid : c₁.connection = c.connection) (hd : c₁.dropped = c.dropped) : c.Takes c₁ input [] :=
    ⟨by simpa using hrx, by simp, by simp, by rw [hid], hd⟩
  cases step_change h with
  | elapsed | abandoned => exact silent (by simp [Input.event]) rfl rfl
  | handed | reported => exact silent rfl rfl rfl
  | refused hdropped | unheard hdropped =>
    rw [hdropped] at hopen
    cases hopen
  | dropped => cases hopen
  | resumed _ _ hresume => exact takes_resume hresume

theorem step_rx {decrypt : E → Except Api.Error RtcSignalingMessage} {input : Input E O}
    (h : c.step decrypt input = some (c', os)) :
    (os.filterMap Output.event ++ c'.rx).Sublist (c.rx ++ input.event.toList) := by
  cases hopen : c'.dropped with
  | false => rw [(step_takes h hopen).rx]
  | true =>
    cases step_change h with
    | elapsed | refused | unheard | abandoned => exact List.sublist_append_left _ _
    | handed hopen' | reported hopen' =>
      rw [hopen'] at hopen
      cases hopen
    | dropped => exact List.nil_sublist _
    | resumed hopen' _ hresume =>
      rw [(takes_resume hresume).dropped, hopen'] at hopen
      cases hopen

end Client

def reported (id : PeerConnectionId) (tr : Trace (Input E O) (Output E O)) :
    List PeerConnectionEvent :=
  (tr.events.filterMap Input.event).filterMap (Event.ofConnection id)

def actedOn (id : PeerConnectionId) (os : List (Output E O)) : List PeerConnectionEvent :=
  os.filterMap (Output.takenFrom id)

def discarded (id : PeerConnectionId) (os : List (Output E O)) : List PeerConnectionEvent :=
  os.filterMap (Output.droppedFrom id)

def waiting (id : PeerConnectionId) (c : Client E) : List PeerConnectionEvent :=
  c.rx.filterMap (Event.ofConnection id)

def actedIds (os : List (Output E O)) : List PeerConnectionId := os.filterMap Output.takenId

section Lists
variable (id : PeerConnectionId) (os os' : List (Output E O))

theorem actedOn_append : actedOn id (os ++ os') = actedOn id os ++ actedOn id os' :=
  List.filterMap_append

theorem discarded_append : discarded id (os ++ os') = discarded id os ++ discarded id os' :=
  List.filterMap_append

theorem actedIds_append : actedIds (os ++ os') = actedIds os ++ actedIds os' :=
  List.filterMap_append

end Lists

section Step
variable {c c' : Client E} {input : Input E O} {os : List (Output E O)} {id : PeerConnectionId}

theorem Output.taken_or_dropped {o : Output E O} {current : PeerConnectionId}
    (htaken : ∀ id event, o = .taken id event → id = current)
    (hdropping : ∀ id event, o = .dropping id event → id ≠ current) :
    o.event.bind (Event.ofConnection id) =
        (if id = current then o.takenFrom id else o.droppedFrom id) ∧
      (if id = current then o.droppedFrom id else o.takenFrom id) = none := by
  cases o with
  | taken id' event =>
    obtain rfl := htaken id' event rfl
    by_cases hid : id = id'
    · simp [Output.event, Event.ofConnection, Output.takenFrom, Output.droppedFrom, hid]
    · have hne : id' ≠ id := fun h => hid h.symm
      simp [Output.event, Event.ofConnection, Output.takenFrom, Output.droppedFrom, hid, hne]
  | dropping id' event =>
    have hid' := hdropping id' event rfl
    by_cases hid : id = current
    · have hne : id' ≠ id := fun h => hid' (h.trans hid)
      simp [Output.event, Event.ofConnection, Output.takenFrom, Output.droppedFrom, hid, hid']
    · simp [Output.event, Event.ofConnection, Output.takenFrom, Output.droppedFrom, hid]
  | _ => simp [Output.event, Event.ofConnection, Output.takenFrom, Output.droppedFrom]

/-- Of the current connection a step drops nothing, of any other one it acts on nothing. -/
theorem Client.Takes.ofConnection (h : c.Takes c' input os) (id : PeerConnectionId) :
    (if id = c.connection.id then actedOn id os else discarded id os) ++ waiting id c' =
        waiting id c ++ (input.event.bind (Event.ofConnection id)).toList ∧
      (if id = c.connection.id then discarded id os else actedOn id os) = [] := by
  have hos (o : Output E O) (ho : o ∈ os) :
      o.event.bind (Event.ofConnection id) =
          (if id = c.connection.id then o.takenFrom id else o.droppedFrom id) ∧
        (if id = c.connection.id then o.droppedFrom id else o.takenFrom id) = none :=
    Output.taken_or_dropped (fun id event heq => h.taken id event (heq ▸ ho))
      (fun id event heq => h.dropping id event (heq ▸ ho))
  have hsplit : (os.filterMap Output.event).filterMap (Event.ofConnection id) =
      if id = c.connection.id then actedOn id os else discarded id os := by
    rw [List.filterMap_filterMap]
    split_ifs with hid
    · exact List.filterMap_congr fun o ho => (hos o ho).1.trans (if_pos hid)
    · exact List.filterMap_congr fun o ho => (hos o ho).1.trans (if_neg hid)
  have hrx := congrArg (List.filterMap (Event.ofConnection id)) h.rx
  rw [List.filterMap_append, List.filterMap_append, hsplit] at hrx
  refine ⟨hrx.trans ?_, ?_⟩
  · cases input.event with
    | none => simp [waiting]
    | some event => cases hevent : event.ofConnection id <;> simp [waiting, hevent]
  · split_ifs with hid
    · exact List.filterMap_eq_nil_iff.mpr fun o ho => (if_pos hid).symm.trans (hos o ho).2
    · exact List.filterMap_eq_nil_iff.mpr fun o ho => (if_neg hid).symm.trans (hos o ho).2

theorem Client.Takes.actedIds_eq (h : c.Takes c' input os) :
    ∀ id ∈ actedIds os, id = c.connection.id := by
  intro id hid
  obtain ⟨o, ho, heq⟩ := List.mem_filterMap.mp hid
  cases o with
  | taken id' event =>
    obtain rfl := Option.some.inj heq
    exact h.taken id' event ho
  | _ => cases heq

end Step

section Run
variable {decrypt : E → Except Api.Error RtcSignalingMessage} {c : Client E}
  {tr : Trace (Input E O) (Output E O)}

structure EventsKept (tr : Trace (Input E O) (Output E O)) (c : Client E) : Prop where
  kept : ∀ id, reported id tr = actedOn id tr.outputs ++ discarded id tr.outputs ++ waiting id c
  current : discarded c.connection.id tr.outputs = []
  later : ∀ id, c.connection.id < id → reported id tr = []
  sorted : (actedIds tr.outputs).Pairwise (· ≤ ·)
  actedIds_le : ∀ id ∈ actedIds tr.outputs, id ≤ c.connection.id

theorem Client.report_id {c c' : Client E} {input : Input E O} {os : List (Output E O)}
    {id : PeerConnectionId} {event : PeerConnectionEvent}
    (h : c.step decrypt input = some (c', os))
    (hevent : input.event.bind (Event.ofConnection id) = some event) : id ≤ c.connection.id := by
  cases input with
  | report id' event' =>
    simp only [Input.event, Option.bind_some, Event.ofConnection] at hevent
    split_ifs at hevent with hid
    subst hid
    simp only [step] at h
    split_ifs at h with hlt <;> exact Nat.le_of_not_lt hlt
  | _ => cases hevent

theorem reported_snoc {input : Input E O} {os : List (Output E O)} (id : PeerConnectionId) :
    reported id (tr ++ [(input, os)]) =
      reported id tr ++ (input.event.bind (Event.ofConnection id)).toList := by
  have hsnoc : reported id (tr ++ [(input, os)]) =
      reported id tr ++ (input.event.toList).filterMap (Event.ofConnection id) := by
    simp only [reported, EventMachine.Trace.events_append, EventMachine.Trace.events_single,
      List.filterMap_append]
    cases hevent : input.event <;> simp [hevent]
  rw [hsnoc]
  cases input.event with
  | none => rfl
  | some event => cases hid : event.ofConnection id <;> simp [hid]

theorem EventsKept.step {c c' : Client E} {input : Input E O} {os : List (Output E O)}
    (h : EventsKept tr c) (hstep : c.step decrypt input = some (c', os))
    (hopen : c'.dropped = false) : EventsKept (tr ++ [(input, os)]) c' := by
  have htakes := Client.step_takes hstep hopen
  have hpast (id : PeerConnectionId) (hid : c.connection.id < id) :
      discarded id tr.outputs = [] ∧ actedOn id tr.outputs = [] ∧ waiting id c = [] := by
    have hkept := (h.kept id).symm.trans (h.later id hid)
    simp only [List.append_eq_nil_iff] at hkept
    exact ⟨hkept.1.2, hkept.1.1, hkept.2⟩
  have hcurrent (id : PeerConnectionId) (hid : c.connection.id ≤ id) :
      discarded id tr.outputs = [] := by
    rcases Nat.eq_or_lt_of_le hid with rfl | hlt
    · exact h.current
    · exact (hpast id hlt).1
  have hkept (id : PeerConnectionId) : reported id (tr ++ [(input, os)]) =
      actedOn id (tr.outputs ++ os) ++ discarded id (tr.outputs ++ os) ++ waiting id c' := by
    obtain ⟨hevents, hnone⟩ := htakes.ofConnection id
    rw [reported_snoc, h.kept id, List.append_assoc, ← hevents, actedOn_append,
      discarded_append]
    split_ifs at hnone ⊢ with hid
    · rw [hnone, hcurrent id (Nat.le_of_eq hid.symm)]
      simp
    · rw [hnone]
      simp
  have hlater (id : PeerConnectionId) (hid : c.connection.id < id) :
      reported id (tr ++ [(input, os)]) = [] := by
    rw [reported_snoc, h.later id hid]
    cases hevent : input.event.bind (Event.ofConnection id) with
    | none => rfl
    | some event => exact absurd (Client.report_id hstep hevent) (Nat.not_le_of_lt hid)
  refine ⟨by simpa using hkept, ?_, fun id hid => hlater id (Nat.lt_of_le_of_lt htakes.id hid),
    ?_, ?_⟩
  · rcases Nat.eq_or_lt_of_le htakes.id with heq | hlt
    · obtain ⟨-, hnone⟩ := htakes.ofConnection c.connection.id
      rw [if_pos rfl] at hnone
      simp only [EventMachine.Trace.outputs_append, EventMachine.Trace.outputs_single]
      rw [← heq, discarded_append, hnone, h.current, List.append_nil]
    · have hnil := (hkept c'.connection.id).symm.trans (hlater _ hlt)
      simp only [List.append_eq_nil_iff] at hnil
      simpa using hnil.1.2
  · simp only [EventMachine.Trace.outputs_append, EventMachine.Trace.outputs_single,
      actedIds_append, List.pairwise_append]
    refine ⟨h.sorted, ?_, fun id hid id' hid' => ?_⟩
    · exact List.pairwise_of_forall_mem_list fun id hid id' hid' => by
        rw [htakes.actedIds_eq id hid, htakes.actedIds_eq id' hid']
    · rw [htakes.actedIds_eq id' hid']
      exact h.actedIds_le id hid
  · intro id hid
    simp only [EventMachine.Trace.outputs_append, EventMachine.Trace.outputs_single,
      actedIds_append, List.mem_append] at hid
    rcases hid with hid | hid
    · exact Nat.le_trans (h.actedIds_le id hid) htakes.id
    · exact (htakes.actedIds_eq id hid) ▸ htakes.id

theorem run_eventsKept (hrun : (client decrypt).Run tr c) :
    c.dropped = false → EventsKept tr c := by
  refine hrun.history (P := fun tr c => c.dropped = false → EventsKept tr c) ?_ ?_
  · intro _
    exact ⟨by simp [reported, actedOn, discarded, waiting, client, Client.new], rfl, by
      simp [reported], .nil, by simp [actedIds]⟩
  · intro tr c input c' os _ ih _ hstep hopen
    exact (ih ((Client.step_takes hstep hopen).dropped.symm.trans hopen)).step hstep hopen

/-- A reset never mixes two connections: the client acts on the events of every connection in
order and without a gap, drops the rest of a replaced one, loses nothing of the current one,
and never goes back to an earlier connection. -/
theorem connections_do_not_mix (hrun : (client decrypt).Run tr c) (hopen : c.dropped = false) :
    (∀ id, actedOn id tr.outputs <+: reported id tr) ∧
      reported c.connection.id tr =
        actedOn c.connection.id tr.outputs ++ waiting c.connection.id c ∧
      (actedIds tr.outputs).Pairwise (· ≤ ·) ∧
      ∀ id ∈ actedIds tr.outputs, id ≤ c.connection.id := by
  have h := run_eventsKept hrun hopen
  refine ⟨fun id => ?_, ?_, h.sorted, h.actedIds_le⟩
  · rw [h.kept id, List.append_assoc]
    exact List.prefix_append _ _
  · rw [h.kept, h.current, List.append_nil]

end Run

def secondOffer : List (Input RtcSignaling Unit) :=
  [.transfer none, .handle (.sessionDescription ⟨"first", 1⟩), .next, .decrypted (.ok ()),
    .remoteDescriptionSet (.ok ()), .answerCreated (.ok ()),
    .handle (.sessionDescription ⟨"second", 1⟩), .report 0 .dataChannelOpened, .next,
    .decrypted (.ok ()), .remoteDescriptionSet (.ok ()), .answerCreated (.ok ()),
    .report 1 .dataChannelOpened, .next, .next, .handled (.ok none)]

theorem connections_do_not_mix_reset : ∃ tr c,
    (client (O := Unit) plain).exec .new secondOffer = some (tr, c) ∧
      reported 0 tr = [.dataChannelOpened] ∧ actedOn 0 tr.outputs = [] ∧
      actedOn 1 tr.outputs <+: reported 1 tr ∧ actedIds tr.outputs = [1] := by
  have hexec : (client (O := Unit) plain).exec .new secondOffer = some (_, _) := rfl
  exact ⟨_, _, hexec, rfl, rfl,
    (connections_do_not_mix (EventMachine.exec_run _ hexec) rfl).1 1, rfl⟩

end Glopfile.PeerToPeer
