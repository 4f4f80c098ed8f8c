import Glopfile.PeerToPeer.Signals

/-!
# Offers and answers

A client that only answers sends an answer for an offer it received, in the order of the offers,
and none twice, whatever its peer sends. A client that has made an offer before it transfers
takes answers and nothing else.

`Rtc` is what is relied on of the RTC library: a description of its own follows a
`create_answer`, for the remote description that the connection has then. `offerOf` is the offer
that an answer was made for.
-/

namespace Glopfile.PeerToPeer

open EventMachine (Trace)

variable {E O : Type*}

def RtcSignaling.description : RtcSignaling → Option SessionDescription
  | .sessionDescription description => some description
  | .iceCandidate _ => none

def PeerConnectionEvent.description : PeerConnectionEvent → Option SessionDescription
  | .outgoingSignalingMessage message => message.description
  | _ => none

def heard (decrypt : E → Except Api.Error RtcSignalingMessage) (message : E) :
    Option RtcSignaling :=
  match decrypt message with
  | .ok decrypted => decrypted.inner
  | .error _ => none

def Output.applied : Output E O → Option SessionDescription
  | .setRemoteDescription _ description => some description
  | _ => none

def Output.received (decrypt : E → Except Api.Error RtcSignalingMessage) :
    Output E O → Option SessionDescription
  | .incoming message => (heard decrypt message).bind RtcSignaling.description
  | _ => none

def Output.sent : Output E O → Option RtcSignaling
  | .send message => some message
  | _ => none

def applied (os : List (Output E O)) : List SessionDescription := os.filterMap Output.applied

def received (decrypt : E → Except Api.Error RtcSignalingMessage) (os : List (Output E O)) :
    List SessionDescription := os.filterMap (Output.received decrypt)

def sent (os : List (Output E O)) : List RtcSignaling := os.filterMap Output.sent

def described (os : List (Output E O)) : List SessionDescription :=
  (sent os).filterMap RtcSignaling.description

section Lists
variable {decrypt : E → Except Api.Error RtcSignalingMessage} {os os' : List (Output E O)}

@[simp] theorem applied_append : applied (os ++ os') = applied os ++ applied os' :=
  List.filterMap_append

@[simp] theorem received_append :
    received decrypt (os ++ os') = received decrypt os ++ received decrypt os' :=
  List.filterMap_append

@[simp] theorem sent_append : sent (os ++ os') = sent os ++ sent os' := List.filterMap_append

@[simp] theorem described_append : described (os ++ os') = described os ++ described os' := by
  rw [described, sent_append, List.filterMap_append, described, described]

theorem filterMap_quiet {β : Type*} {f : Output E O → Option β} (h : ∀ o ∈ os, o.Quiet)
    (hf : ∀ o : Output E O, o.Quiet → f o = none) : os.filterMap f = [] :=
  List.filterMap_eq_nil_iff.mpr fun o ho => hf o (h o ho)

theorem applied_quiet (h : ∀ o ∈ os, o.Quiet) : applied os = [] :=
  filterMap_quiet h fun o ho => by cases o <;> first | rfl | exact ho.elim

theorem received_quiet (h : ∀ o ∈ os, o.Quiet) : received decrypt os = [] :=
  filterMap_quiet h fun o ho => by cases o <;> first | rfl | exact ho.elim

theorem sent_quiet (h : ∀ o ∈ os, o.Quiet) : sent os = [] :=
  filterMap_quiet h fun o ho => by cases o <;> first | rfl | exact ho.elim

theorem described_quiet (h : ∀ o ∈ os, o.Quiet) : described os = [] := by
  rw [described, sent_quiet h, List.filterMap_nil]

end Lists

section Received
variable {decrypt : E → Except Api.Error RtcSignalingMessage} {c c' : Client E}
  {tr : Trace (Input E O) (Output E O)} {input : Input E O} {os : List (Output E O)}
  {guard : Client E → Input E O → Prop}

/-- The description that the call under way has taken off the channel and not yet set. -/
def Call.unset (decrypt : E → Except Api.Error RtcSignalingMessage) :
    Call E → List SessionDescription
  | .decrypting message => ((heard decrypt message).bind RtcSignaling.description).toList
  | _ => []

theorem Call.Plain.unset {call : Call E} (h : call.Plain) : call.unset decrypt = [] := by
  cases call <;> first | rfl | exact h.elim

theorem turn_applied (h : c.Turn decrypt c' input os)
    (hbefore : (applied tr.outputs ++ c.call.unset decrypt).Sublist
      (received decrypt tr.outputs)) :
    (applied (tr.outputs ++ os) ++ c'.call.unset decrypt).Sublist
      (received decrypt (tr.outputs ++ os)) := by
  have hdrop : (applied tr.outputs).Sublist (received decrypt tr.outputs) :=
    (List.sublist_append_left _ _).trans hbefore
  have unchanged {os : List (Output E O)} (happlied : applied os = [])
      (hreceived : received decrypt os = []) (hcall : c'.call.unset decrypt = []) :
      (applied (tr.outputs ++ os) ++ c'.call.unset decrypt).Sublist
        (received decrypt (tr.outputs ++ os)) := by
    rwa [applied_append, received_append, happlied, hreceived, hcall, List.append_nil,
      List.append_nil, List.append_nil]
  have sets {message : E} {description : SessionDescription} {os : List (Output E O)}
      (hcall : c.call = .decrypting message)
      (hmessage : decrypt message = .ok ⟨some (.sessionDescription description)⟩)
      (hcall' : c'.call.unset decrypt = []) (happlied : applied os = [description])
      (hreceived : received decrypt os = []) :
      (applied (tr.outputs ++ os) ++ c'.call.unset decrypt).Sublist
        (received decrypt (tr.outputs ++ os)) := by
    have hunset : c.call.unset decrypt = [description] := by
      simp [hcall, Call.unset, heard, hmessage, RtcSignaling.description]
    rwa [applied_append, received_append, happlied, hreceived, hcall', ← hunset, List.append_nil,
      List.append_nil]
  cases h with
  | aside _ hcall hos =>
    rcases hcall with hcall | hcall
    · rwa [applied_append, received_append, applied_quiet hos, received_quiet hos, hcall,
        List.append_nil, List.append_nil]
    · exact unchanged (applied_quiet hos) (received_quiet hos) hcall.unset
  | offers _ _ hcall => exact unchanged rfl rfl (by rw [hcall]; rfl)
  | offered _ hcall _ => exact unchanged rfl rfl (by rw [hcall]; rfl)
  | @incoming message _ _ _ hcall =>
    have hreceived : received decrypt [(.incoming message : Output E O)] =
        c'.call.unset decrypt := by
      rw [hcall]
      cases hheard : (heard decrypt message).bind RtcSignaling.description <;>
        simp [received, Output.received, Call.unset, hheard]
    have happlied : applied [(.incoming message : Output E O)] = [] := rfl
    rw [applied_append, received_append, hreceived, happlied, List.append_nil]
    exact hdrop.append (List.Sublist.refl _)
  | sends _ _ _ hcall => exact unchanged rfl rfl hcall.unset
  | sets hcall hmessage _ _ hcall' => exact sets hcall hmessage (by rw [hcall']; rfl) rfl rfl
  | resets hcall hmessage _ _ _ hcall' => exact sets hcall hmessage (by rw [hcall']; rfl) rfl rfl
  | asks _ _ hcall => exact unchanged rfl rfl (by rw [hcall]; rfl)
  | accepts _ _ hcall hos =>
    exact unchanged (by simpa [applied, Output.applied] using applied_quiet hos)
      (by simpa [received, Output.received] using received_quiet hos) hcall.unset
  | completes _ _ hcall hos =>
    exact unchanged (by simpa [applied, Output.applied] using applied_quiet hos)
      (by simpa [received, Output.received] using received_quiet hos) hcall.unset

/-- The remote descriptions a client sets are ones it decrypted, in order, each set once. -/
theorem path_applied (hpath : (client decrypt).Path guard .new tr c) :
    (applied tr.outputs).Sublist (received decrypt tr.outputs) := by
  have h := hpath.history
    (P := fun tr c => (applied tr.outputs ++ c.call.unset decrypt).Sublist
      (received decrypt tr.outputs)) (by simp [applied, Client.new, Call.unset]) ?_
  · exact (List.sublist_append_left _ _).trans h
  · intro tr c input c' os _ ih _ hstep
    simpa using turn_applied (Client.step_turn hstep) ih

end Received

section Heard
variable {decrypt : E → Except Api.Error RtcSignalingMessage} {c c' : Client E}
  {tr : Trace (Input E O) (Output E O)} {input : Input E O} {os : List (Output E O)}
  {guard : Client E → Input E O → Prop}

def Event.message : Event E → Option E
  | .incomingSignalingMessage message => some message
  | .connection _ _ => none

def handed (inputs : List (Input E O)) : List E :=
  inputs.filterMap fun input => input.event.bind Event.message

@[simp] theorem handed_append (inputs inputs' : List (Input E O)) :
    handed (inputs ++ inputs') = handed inputs ++ handed inputs' := List.filterMap_append

def incoming (os : List (Output E O)) : List E :=
  os.filterMap fun o => o.event.bind Event.message

@[simp] theorem incoming_append (os os' : List (Output E O)) :
    incoming (os ++ os') = incoming os ++ incoming os' := List.filterMap_append

theorem received_eq (os : List (Output E O)) :
    received decrypt os = (incoming os).filterMap fun message =>
      (heard decrypt message).bind RtcSignaling.description := by
  rw [incoming, List.filterMap_filterMap]
  refine List.filterMap_congr fun o _ => ?_
  cases o <;> rfl

theorem step_incoming (h : c.step decrypt input = some (c', os)) :
    (incoming os ++ c'.rx.filterMap Event.message).Sublist
      (c.rx.filterMap Event.message ++ handed [input]) := by
  have hrx := (Client.step_rx h).filterMap Event.message
  rw [List.filterMap_append, List.filterMap_append, List.filterMap_filterMap] at hrx
  have hinput : input.event.toList.filterMap Event.message = handed [input] := by
    cases hevent : input.event with
    | none => simp [handed, hevent]
    | some event => cases hmessage : event.message <;> simp [handed, hevent, hmessage]
  rwa [hinput] at hrx

/-- What a client decrypts was handed to it, in order, each message once. -/
theorem path_received (hpath : (client decrypt).Path guard .new tr c) :
    (received decrypt tr.outputs).Sublist
      ((handed tr.events).filterMap fun message =>
        (heard decrypt message).bind RtcSignaling.description) := by
  have h := hpath.history
    (P := fun tr c => (incoming tr.outputs ++ c.rx.filterMap Event.message).Sublist
      (handed tr.events)) (by simp [incoming, Client.new]) ?_
  · rw [received_eq]
    exact ((List.sublist_append_left _ _).trans h).filterMap _
  · intro tr c input c' os _ ih _ hstep
    have hstep := step_incoming hstep
    simp only [EventMachine.Trace.outputs_append, EventMachine.Trace.outputs_single,
      EventMachine.Trace.events_append, EventMachine.Trace.events_single, incoming_append,
      handed_append, List.append_assoc]
    exact ((List.Sublist.refl _).append hstep).trans (by
      rw [← List.append_assoc]
      exact ih.append (List.Sublist.refl _))

end Heard

/-! ### A client that answers -/

/-- What the RTC library knows of the connections: their remote descriptions, and the offers
that it has been asked to answer and has not described an answer for. -/
structure Rtc where
  remote : PeerConnectionId → Option SessionDescription
  owed : List (PeerConnectionId × SessionDescription)

namespace Rtc

def new : Rtc := ⟨fun _ => none, []⟩

def output (rtc : Rtc) : Output E O → Rtc
  | .remoteDescriptionSet id description =>
    { rtc with remote := Function.update rtc.remote id (some description) }
  | .createAnswer id =>
    { rtc with owed := rtc.owed ++ ((rtc.remote id).map fun offer => (id, offer)).toList }
  | _ => rtc

def input (rtc : Rtc) : Input E O → Rtc
  | .report id (.outgoingSignalingMessage (.sessionDescription _)) =>
    { rtc with owed := rtc.owed.eraseP fun owed => owed.1 = id }
  | _ => rtc

def update (_ : Client E) (rtc : Rtc) (input : Input E O) (os : List (Output E O)) : Rtc :=
  os.foldl output (rtc.input input)

def owedTo (rtc : Rtc) (id : PeerConnectionId) : List SessionDescription :=
  rtc.owed.filterMap fun owed => if owed.1 = id then some owed.2 else none

end Rtc

/-- The library describes the answers it was asked for, those of a connection in order; the
client makes no offer. -/
def Answering (offerOf : SessionDescription → SessionDescription) (p : Client E × Rtc) :
    Input E O → Prop
  | .createOffer => False
  | .report id (.outgoingSignalingMessage (.sessionDescription answer)) =>
    (p.2.owedTo id).head? = some (offerOf answer)
  | _ => True

instance (offerOf : SessionDescription → SessionDescription) (p : Client E × Rtc)
    (input : Input E O) : Decidable (Answering offerOf p input) := by
  unfold Answering
  split <;> infer_instance

def clientWithRtc (decrypt : E → Except Api.Error RtcSignalingMessage) :
    EventMachine (Client E × Rtc) (Input E O) (Output E O) :=
  (client decrypt).withGhost .new Rtc.update

def Client.describing (c : Client E) (id : PeerConnectionId) : List SessionDescription :=
  (waiting id c).filterMap PeerConnectionEvent.description

def Input.describing (input : Input E O) (id : PeerConnectionId) : List SessionDescription :=
  ((input.event.bind (Event.ofConnection id)).bind PeerConnectionEvent.description).toList

def Call.offer : Call E → List SessionDescription
  | .settingRemoteDescription description true => [description]
  | _ => []

theorem Call.Plain.offer {call : Call E} (h : call.Plain) : call.offer = [] := by
  cases call <;> first | rfl | exact h.elim

section Answers
variable {decrypt : E → Except Api.Error RtcSignalingMessage}
  {offerOf : SessionDescription → SessionDescription} {c c' : Client E} {rtc rtc' : Rtc}
  {tr : Trace (Input E O) (Output E O)} {input : Input E O} {os : List (Output E O)}

def due (offerOf : SessionDescription → SessionDescription) (c : Client E) (rtc : Rtc)
    (id : PeerConnectionId) : List SessionDescription :=
  (c.describing id).map offerOf ++ rtc.owedTo id

/-- The answers sent, those of the current connection in the channel, those it owes and the offer
it is setting follow one another as the offers do. -/
structure AnswersInOrder (offerOf : SessionDescription → SessionDescription)
    (os : List (Output E O)) (c : Client E) (rtc : Rtc) : Prop where
  order : ((described os).map offerOf ++
    (due offerOf c rtc c.connection.id ++ c.call.offer)).Sublist (applied os)
  offers : ∀ description ∈ applied os, description.type = .offer
  local_ne : c.connection.localDescriptionType ≠ some .offer
  call_ne : c.call ≠ .creatingOffer
  sets : ∀ description answers, c.call = .settingRemoteDescription description answers →
    answers = true
  later : ∀ id, c.connection.id < id → due offerOf c rtc id = []

theorem Rtc.foldl_quiet (rtc : Rtc) (h : ∀ o ∈ os, o.Quiet) : os.foldl Rtc.output rtc = rtc := by
  induction os generalizing rtc with
  | nil => rfl
  | cons o os ih =>
    have ho : rtc.output o = rtc := by
      have hquiet := h o List.mem_cons_self
      cases o <;> first | rfl | exact hquiet.elim
    rw [List.foldl_cons, ho]
    exact ih rtc fun o ho => h o (List.mem_cons_of_mem _ ho)

theorem step_describing (h : c.step decrypt input = some (c', os)) (id : PeerConnectionId) :
    (c'.describing id).Sublist (c.describing id ++ input.describing id) := by
  have hrx := (List.sublist_append_right _ _).trans (Client.step_rx h)
  have hevents := (hrx.filterMap (Event.ofConnection id)).filterMap PeerConnectionEvent.description
  have hinput : (input.event.toList.filterMap (Event.ofConnection id)).filterMap
      PeerConnectionEvent.description = input.describing id := by
    cases hevent : input.event with
    | none => simp [Input.describing, hevent]
    | some event =>
      cases hid : event.ofConnection id with
      | none => simp [Input.describing, hevent, hid]
      | some event' =>
        cases hdescription : event'.description <;>
          simp [Input.describing, hevent, hid, hdescription]
  rwa [List.filterMap_append, List.filterMap_append, hinput] at hevents

theorem owedTo_eraseP (owed : List (PeerConnectionId × SessionDescription))
    (id id' : PeerConnectionId) :
    (owed.eraseP fun owed => owed.1 = id').filterMap
        (fun owed => if owed.1 = id then some owed.2 else none) =
      if id' = id then (owed.filterMap fun owed => if owed.1 = id then some owed.2 else none).tail
      else owed.filterMap fun owed => if owed.1 = id then some owed.2 else none := by
  induction owed with
  | nil => simp
  | cons first owed ih =>
    by_cases hfirst : first.1 = id'
    · by_cases hid : id' = id
      · simp [hfirst, hid]
      · simp [hfirst, hid]
    · by_cases hid : id' = id
      · subst hid
        rw [if_pos rfl] at ih
        simp [hfirst, ih]
      · rw [if_neg hid] at ih
        simp only [List.eraseP_cons, hfirst, decide_false, cond_false, List.filterMap_cons, ih,
          if_neg hid]

theorem input_owedTo (hguard : Answering offerOf (c, rtc) input) (id : PeerConnectionId) :
    (input.describing id).map offerOf ++ (rtc.input input).owedTo id = rtc.owedTo id := by
  cases input with
  | report id' event =>
    cases event with
    | outgoingSignalingMessage message =>
      cases message with
      | sessionDescription answer =>
        have howed : (rtc.owedTo id').head? = some (offerOf answer) := hguard
        have herase := owedTo_eraseP rtc.owed id id'
        by_cases hid : id' = id
        · subst hid
          rw [if_pos rfl] at herase
          have htail : (rtc.input (.report id' (.outgoingSignalingMessage
            (.sessionDescription answer)) : Input E O)).owedTo id' = (rtc.owedTo id').tail := herase
          rw [htail, List.eq_cons_of_mem_head? howed]
          simp [Input.describing, Input.event, Event.ofConnection,
            PeerConnectionEvent.description, RtcSignaling.description]
        · rw [if_neg hid] at herase
          have hsame : (rtc.input (.report id' (.outgoingSignalingMessage
            (.sessionDescription answer)) : Input E O)).owedTo id = rtc.owedTo id := herase
          rw [hsame]
          simp [Input.describing, Input.event, Event.ofConnection, hid]
      | iceCandidate candidate =>
        by_cases hid : id' = id <;>
          simp [Input.describing, Input.event, Event.ofConnection, hid, Rtc.input,
            PeerConnectionEvent.description, RtcSignaling.description]
    | _ =>
      by_cases hid : id' = id <;>
        simp [Input.describing, Input.event, Event.ofConnection, hid, Rtc.input,
          PeerConnectionEvent.description]
  | handle message => simp [Input.describing, Input.event, Event.ofConnection, Rtc.input]
  | _ => simp [Input.describing, Input.event, Rtc.input]

theorem step_due (hguard : Answering offerOf (c, rtc) input)
    (h : c.step decrypt input = some (c', os)) (id : PeerConnectionId) :
    (due offerOf c' (rtc.input input) id).Sublist (due offerOf c rtc id) := by
  have hmap := (step_describing h id).map offerOf
  rw [List.map_append] at hmap
  rw [due, due, ← input_owedTo hguard id, ← List.append_assoc]
  exact hmap.append (List.Sublist.refl _)

variable {before : List (Output E O)}

theorem AnswersInOrder.silent (h : AnswersInOrder offerOf before c rtc)
    (hguard : Answering offerOf (c, rtc) input) (hstep : c.step decrypt input = some (c', os))
    (hrtc : Rtc.update c rtc input os = rtc.input input)
    (happlied : applied os = []) (hdescribed : described os = [])
    (hid : c'.connection.id = c.connection.id)
    (hlocal : c'.connection.localDescriptionType ≠ some .offer)
    (hcall : c'.call = c.call ∨ c'.call.Plain ∨ (∃ message, c'.call = .decrypting message))
    (hcreating : c'.call ≠ .creatingOffer) :
    AnswersInOrder offerOf (before ++ os) c' (Rtc.update c rtc input os) := by
  have hoffer : c'.call.offer.Sublist c.call.offer := by
    rcases hcall with hcall | hcall | ⟨message, hcall⟩
    · rw [hcall]
    · rw [hcall.offer]
      exact List.nil_sublist _
    · rw [hcall]
      exact List.nil_sublist _
  refine ⟨?_, ?_, hlocal, hcreating, ?_, ?_⟩
  · rw [hrtc, described_append, applied_append, happlied, hdescribed, List.append_nil,
      List.append_nil, hid]
    exact ((List.Sublist.refl _).append ((step_due hguard hstep _).append hoffer)).trans h.order
  · rw [applied_append, happlied, List.append_nil]
    exact h.offers
  · intro description answers hsets
    rcases hcall with hcall | hcall | ⟨message, hcall⟩
    · exact h.sets description answers (hcall ▸ hsets)
    · rw [hsets] at hcall
      exact hcall.elim
    · rw [hsets] at hcall
      cases hcall
  · intro id hlt
    have hdue := step_due hguard hstep id
    rw [hrtc]
    rwa [h.later id (hid ▸ hlt), List.sublist_nil] at hdue

theorem AnswersInOrder.set {description : SessionDescription}
    (h : AnswersInOrder offerOf before c rtc)
    (hguard : Answering offerOf (c, rtc) input) (hstep : c.step decrypt input = some (c', os))
    (hrtc : Rtc.update c rtc input os = rtc.input input)
    (happlied : applied os = [description]) (hdescribed : described os = [])
    (htype : description.type = .offer) (hid : c.connection.id ≤ c'.connection.id)
    (hlocal : c'.connection.localDescriptionType ≠ some .offer)
    (hcall : c'.call = .settingRemoteDescription description true) :
    AnswersInOrder offerOf (before ++ os) c' (Rtc.update c rtc input os) := by
  have hdue (id : PeerConnectionId) (hlt : c.connection.id < id) :
      due offerOf c' (rtc.input input) id = [] := by
    have hdue := step_due hguard hstep id
    rwa [h.later id hlt, List.sublist_nil] at hdue
  have hsent : ((described before).map offerOf ++
      due offerOf c' (rtc.input input) c'.connection.id).Sublist (applied before) := by
    rcases Nat.eq_or_lt_of_le hid with heq | hlt
    · rw [← heq]
      refine List.Sublist.trans ?_ h.order
      exact (List.Sublist.refl _).append
        ((step_due hguard hstep _).trans (List.sublist_append_left _ _))
    · rw [hdue _ hlt, List.append_nil]
      exact (List.sublist_append_left _ _).trans h.order
  refine ⟨?_, ?_, hlocal, by simp [hcall], ?_, ?_⟩
  · rw [hrtc, described_append, applied_append, happlied, hdescribed, List.append_nil,
      ← List.append_assoc, hcall]
    exact hsent.append (List.Sublist.refl [description])
  · intro description' hmem
    rw [applied_append, happlied, List.mem_append, List.mem_singleton] at hmem
    rcases hmem with hmem | rfl
    · exact h.offers description' hmem
    · exact htype
  · intro description' answers hsets
    rw [hcall] at hsets
    exact (Call.settingRemoteDescription.inj hsets).2.symm
  · intro id hlt
    rw [hrtc]
    exact hdue id (Nat.lt_of_le_of_lt hid hlt)

theorem AnswersInOrder.send {message : RtcSignaling} {rx : List (Event E)}
    (h : AnswersInOrder offerOf before c rtc)
    (hrx : c.rx = .connection c.connection.id (.outgoingSignalingMessage message) :: rx)
    (hrest : c'.rx = rx) (hconnection : c'.connection = c.connection) (hcall : c'.call.Plain) :
    AnswersInOrder offerOf
      (before ++ [.taken c.connection.id (.outgoingSignalingMessage message), .send message])
      c' (Rtc.update c rtc (.next : Input E O)
        [.taken c.connection.id (.outgoingSignalingMessage message), .send message]) := by
  have hrtc : Rtc.update c rtc (.next : Input E O)
      [.taken c.connection.id (.outgoingSignalingMessage message), .send message] = rtc := rfl
  have hdescribing (id : PeerConnectionId) : c.describing id =
      (if c.connection.id = id then message.description.toList else []) ++ c'.describing id := by
    unfold Client.describing waiting
    rw [hrx, hrest]
    by_cases hid : c.connection.id = id
    · cases hdescription : message.description <;>
        simp [Event.ofConnection, hid, PeerConnectionEvent.description, hdescription]
    · simp [Event.ofConnection, hid]
  have hdescribed : described [(.taken c.connection.id (.outgoingSignalingMessage message) :
      Output E O), .send message] = message.description.toList := by
    have hsent : described [(.taken c.connection.id (.outgoingSignalingMessage message) :
        Output E O), .send message] = [message].filterMap RtcSignaling.description := rfl
    cases hdescription : message.description <;> simp [hsent, hdescription]
  refine ⟨?_, ?_, by rw [hconnection]; exact h.local_ne, ?_, ?_, ?_⟩
  · have horder := h.order
    rw [due, hdescribing, if_pos rfl, List.map_append] at horder
    rw [hrtc, described_append, hdescribed, applied_append, hcall.offer, hconnection]
    refine List.Sublist.trans ?_ (horder.trans (List.sublist_append_left _ _))
    simp only [due, List.map_append, List.append_assoc, List.append_nil]
    exact (List.Sublist.refl _).append ((List.Sublist.refl _).append
      ((List.Sublist.refl _).append (List.sublist_append_left _ _)))
  · have happlied : applied [(.taken c.connection.id (.outgoingSignalingMessage message) :
        Output E O), .send message] = [] := rfl
    rw [applied_append, happlied, List.append_nil]
    exact h.offers
  · intro hcreating
    rw [hcreating] at hcall
    exact hcall.elim
  · intro description answers hsets
    rw [hsets] at hcall
    exact hcall.elim
  · intro id hlt
    have hdue := h.later id (hconnection ▸ hlt)
    rw [hrtc]
    rw [due, hdescribing, List.map_append, List.append_eq_nil_iff, List.append_eq_nil_iff] at hdue
    rw [due, hdue.1.2, hdue.2, List.nil_append]

theorem AnswersInOrder.ask {description : SessionDescription}
    (h : AnswersInOrder offerOf before c rtc)
    (hstep : c.step decrypt (.remoteDescriptionSet (.ok ()) : Input E O) = some (c',
      [.remoteDescriptionSet c.connection.id description, .createAnswer c.connection.id]))
    (hbefore : c.call = .settingRemoteDescription description true)
    (hconnection : c'.connection = c.connection) (hcall : c'.call = .creatingAnswer) :
    AnswersInOrder offerOf
      (before ++ [.remoteDescriptionSet c.connection.id description, .createAnswer c.connection.id])
      c' (Rtc.update c rtc (.remoteDescriptionSet (.ok ()) : Input E O)
        [.remoteDescriptionSet c.connection.id description, .createAnswer c.connection.id]) := by
  have howed (id : PeerConnectionId) : (Rtc.update c rtc (.remoteDescriptionSet (.ok ()) :
      Input E O) [.remoteDescriptionSet c.connection.id description,
        .createAnswer c.connection.id]).owedTo id =
      rtc.owedTo id ++ if c.connection.id = id then [description] else [] := by
    by_cases hid : c.connection.id = id
    · simp [Rtc.update, Rtc.output, Rtc.owedTo, Rtc.input, hid]
    · simp [Rtc.update, Rtc.output, Rtc.owedTo, Rtc.input, hid]
  have hguard : Answering offerOf (c, rtc) (.remoteDescriptionSet (.ok ()) : Input E O) := trivial
  have hdue (id : PeerConnectionId) := step_due hguard hstep id
  refine ⟨?_, ?_, by rw [hconnection]; exact h.local_ne, by simp [hcall], by simp [hcall], ?_⟩
  · have horder := h.order
    rw [hbefore] at horder
    have happlied : applied [(.remoteDescriptionSet c.connection.id description : Output E O),
        .createAnswer c.connection.id] = [] := rfl
    have hdescribed : described [(.remoteDescriptionSet c.connection.id description : Output E O),
        .createAnswer c.connection.id] = [] := rfl
    rw [due, howed, hconnection, if_pos rfl, described_append, applied_append, hcall, happlied,
      hdescribed, List.append_nil, List.append_nil]
    have hgrown := (hdue c.connection.id).append (List.Sublist.refl [description])
    refine List.Sublist.trans ((List.Sublist.refl _).append ?_) horder
    have hinput : rtc.input (.remoteDescriptionSet (.ok ()) : Input E O) = rtc := rfl
    rw [due, hinput, List.append_assoc] at hgrown
    simpa only [Call.offer, List.append_nil] using hgrown
  · have happlied : applied [(.remoteDescriptionSet c.connection.id description : Output E O),
        .createAnswer c.connection.id] = [] := rfl
    rw [applied_append, happlied, List.append_nil]
    exact h.offers
  · intro id hlt
    have hnil := hdue id
    rw [h.later id (hconnection ▸ hlt), List.sublist_nil] at hnil
    have hne : c.connection.id ≠ id := Nat.ne_of_lt (hconnection ▸ hlt)
    rw [due, howed, if_neg hne, List.append_nil]
    exact hnil

theorem AnswersInOrder.step (h : AnswersInOrder offerOf before c rtc)
    (hguard : Answering offerOf (c, rtc) input) (hstep : c.step decrypt input = some (c', os)) :
    AnswersInOrder offerOf (before ++ os) c' (Rtc.update c rtc input os) := by
  cases Client.step_turn hstep with
  | aside hconnection hcall hos =>
    refine h.silent hguard hstep (Rtc.foldl_quiet _ hos) (applied_quiet hos)
      (described_quiet hos) (by rw [hconnection]) (by rw [hconnection]; exact h.local_ne)
      (hcall.imp_right .inl) ?_
    rcases hcall with hcall | hcall
    · rw [hcall]
      exact h.call_ne
    · intro hcreating
      rw [hcreating] at hcall
      exact hcall.elim
  | offers _ _ _ => exact hguard.elim
  | offered _ _ hbefore => exact absurd hbefore h.call_ne
  | incoming _ hconnection hcall =>
    exact h.silent hguard hstep rfl rfl rfl (by rw [hconnection])
      (by rw [hconnection]; exact h.local_ne) (.inr (.inr ⟨_, hcall⟩)) (by rw [hcall]; simp)
  | @sends message _ hrx hrest hconnection hcall =>
    exact h.send hrx hrest hconnection hcall
  | sets hbefore hmessage hfits hconnection hcall =>
    obtain ⟨hlocal, htype, rfl⟩ | ⟨hlocal, -⟩ := hfits
    · exact h.set hguard hstep rfl rfl rfl htype (by rw [hconnection])
        (by rw [hconnection]; exact h.local_ne) hcall
    · exact absurd hlocal h.local_ne
  | resets hbefore hmessage hlocal htype hconnection hcall =>
    exact h.set hguard hstep rfl rfl rfl htype (by rw [hconnection]; exact Nat.le_succ _)
      (by rw [hconnection]; simp) hcall
  | asks hbefore hconnection hcall => exact h.ask hstep hbefore hconnection hcall
  | accepts hbefore _ _ _ => exact absurd (h.sets _ _ hbefore) (by simp)
  | @completes os hbefore hconnection hcall hos =>
    have happlied : applied os = [] := applied_quiet hos
    have hdescribed : described os = [] := described_quiet hos
    have hrtc : os.foldl Rtc.output rtc = rtc := Rtc.foldl_quiet rtc hos
    refine h.silent hguard hstep hrtc happlied hdescribed (by rw [hconnection])
      (by rw [hconnection]; simp) (.inr (.inl hcall)) ?_
    · intro hcreating
      rw [hcreating] at hcall
      exact hcall.elim

theorem path_answersInOrder {p : Client E × Rtc}
    (hpath : (clientWithRtc decrypt).Path (Answering offerOf) (.new, .new) tr p) :
    AnswersInOrder offerOf tr.outputs p.1 p.2 := by
  refine hpath.history (P := fun tr p => AnswersInOrder offerOf tr.outputs p.1 p.2) ?_ ?_
  · exact ⟨by simp [described, sent, applied, due, Client.describing, waiting, Client.new,
      Rtc.owedTo, Rtc.new, Call.offer], by simp [applied], by simp [Client.new],
      by simp [Client.new], by simp [Client.new], fun id _ => by
        simp [due, Client.describing, waiting, Client.new, Rtc.owedTo, Rtc.new]⟩
  · rintro tr ⟨c, rtc⟩ input ⟨c', rtc'⟩ os _ ih hguard hboth
    obtain ⟨hstep, rfl⟩ := EventMachine.withGhost_step.mp hboth
    have hnext := ih.step hguard hstep
    simpa using hnext

/-- A client that makes no offer answers offers of its peer only, in the order in which they came
and none of them twice, however often it resets its connection. -/
theorem answers_follow_offers {p : Client E × Rtc}
    (hpath : (clientWithRtc decrypt).Path (Answering offerOf) (.new, .new) tr p) :
    ((described tr.outputs).map offerOf).Sublist (applied tr.outputs) ∧
      (applied tr.outputs).Sublist (received decrypt tr.outputs) ∧
      ∀ offer ∈ applied tr.outputs, offer.type = .offer := by
  have h := path_answersInOrder hpath
  exact ⟨(List.sublist_append_left _ _).trans h.order, path_applied hpath.forget, h.offers⟩

end Answers

def firstReplaced : List (Input RtcSignaling Unit) :=
  [.transfer none, .handle (.sessionDescription ⟨"first", 1⟩), .next, .decrypted (.ok ()),
    .remoteDescriptionSet (.ok ()), .answerCreated (.ok ()),
    .handle (.sessionDescription ⟨"second", 1⟩),
    .report 0 (.outgoingSignalingMessage (.sessionDescription ⟨"first", 0⟩)), .next,
    .decrypted (.ok ()), .remoteDescriptionSet (.ok ()), .answerCreated (.ok ()),
    .report 1 (.outgoingSignalingMessage (.sessionDescription ⟨"second", 0⟩)), .next, .next,
    .sent (.ok ())]

theorem answers_follow_offers_reset : ∃ tr p,
    ((clientWithRtc (O := Unit) plain).restrict (Answering fun d => ⟨d.sdp, 1⟩)).exec
        (.new, .new) firstReplaced = some (tr, p) ∧
      described tr.outputs = [⟨"second", 0⟩] ∧
      ((described tr.outputs).map fun d => ⟨d.sdp, 1⟩).Sublist (applied tr.outputs) := by
  have hexec : ((clientWithRtc (O := Unit) plain).restrict
      (Answering fun d => ⟨d.sdp, 1⟩)).exec (.new, .new) firstReplaced = some (_, _) := rfl
  exact ⟨_, _, hexec, rfl,
    (answers_follow_offers
      (EventMachine.Path.guarded_of_restrict (EventMachine.exec_path _ hexec))).1⟩

/-! ### A client that offers -/

/-- A transfer comes after an offer was created, as in `connect_p2p`. -/
def OffersFirst (c : Client E) : Input E O → Prop
  | .transfer _ => c.connection.localDescriptionType = some .offer
  | _ => True

instance (c : Client E) (input : Input E O) : Decidable (OffersFirst c input) := by
  unfold OffersFirst
  split <;> infer_instance

section Offers
variable {decrypt : E → Except Api.Error RtcSignalingMessage} {c c' : Client E}
  {tr : Trace (Input E O) (Output E O)} {input : Input E O} {before os : List (Output E O)}

def Call.Early : Call E → Prop
  | .idle | .creatingOffer => True
  | _ => False

structure Offering (c : Client E) (os : List (Output E O)) : Prop where
  id : c.connection.id = 0
  offered : c.connection.localDescriptionType = some .offer ∨
    c.connection.localDescriptionType = none ∧ c.call.Early
  call : ∀ description answers, c.call = .settingRemoteDescription description answers →
    answers = false
  creating : c.call ≠ .creatingAnswer
  answers : ∀ answer ∈ applied os, answer.type = .answer
  resets : ∀ id, .newConnection id ∉ os
  asks : ∀ id, .createAnswer id ∉ os

theorem resume_early {call : Call E} {r : Client E × List (Output E O)}
    (h : Client.Resumes decrypt c call input r) (hearly : call.Early)
    (htransfer : ∀ timeout, input ≠ .transfer timeout) : r.1.call.Early := by
  cases h with
  | offerFailed | offerCreated | createOffer => trivial
  | transfer => exact absurd rfl (htransfer _)
  | handled hcall => cases call <;> first | exact hcall.elim | exact hearly.elim
  | _ => exact hearly.elim

theorem step_early (h : c.step decrypt input = some (c', os)) (hearly : c.call.Early)
    (htransfer : ∀ timeout, input ≠ .transfer timeout) : c'.call.Early := by
  cases Client.step_change h with
  | elapsed | refused | handed | unheard | reported => exact hearly
  | abandoned | dropped => trivial
  | resumed _ hcall hresume => exact resume_early hresume (hcall ▸ hearly) htransfer

theorem not_early_of_local (h : Offering c os)
    (hlocal : c.call.Early → False) : c.connection.localDescriptionType = some .offer := by
  rcases h.offered with hoffer | ⟨-, hearly⟩
  · exact hoffer
  · exact (hlocal hearly).elim

namespace Offering

theorem offered_step (h : Offering c before) (hguard : OffersFirst c input)
    (hstep : c.step decrypt input = some (c', os)) :
    c.connection.localDescriptionType = some .offer ∨
      c.connection.localDescriptionType = none ∧ c'.call.Early := by
  refine h.offered.imp_right fun ⟨hlocal, hcall⟩ => ⟨hlocal, ?_⟩
  refine step_early hstep hcall fun timeout hinput => ?_
  subst hinput
  have hoffer : c.connection.localDescriptionType = some .offer := hguard
  rw [hlocal] at hoffer
  cases hoffer

theorem stays (h : Offering c before) (hconnection : c'.connection = c.connection)
    (hoffered : c.connection.localDescriptionType = some .offer ∨
      c.connection.localDescriptionType = none ∧ c'.call.Early)
    (hcall : c'.call = c.call ∨ c'.call.Plain ∨ (∃ message, c'.call = .decrypting message) ∨
      c'.call = .creatingOffer)
    (happlied : applied os = []) (hresets : ∀ id, .newConnection id ∉ os)
    (hasks : ∀ id, .createAnswer id ∉ os) : Offering c' (before ++ os) := by
  refine ⟨by rw [hconnection]; exact h.id, by rw [hconnection]; exact hoffered, ?_, ?_, ?_, ?_, ?_⟩
  · intro description answers hsets
    rcases hcall with hcall | hcall | ⟨message, hcall⟩ | hcall
    · exact h.call description answers (hcall ▸ hsets)
    · rw [hsets] at hcall
      exact hcall.elim
    · rw [hsets] at hcall
      cases hcall
    · rw [hsets] at hcall
      cases hcall
  · intro hcreating
    rcases hcall with hcall | hcall | ⟨message, hcall⟩ | hcall
    · exact h.creating (hcall ▸ hcreating)
    · rw [hcreating] at hcall
      exact hcall.elim
    · rw [hcreating] at hcall
      cases hcall
    · rw [hcreating] at hcall
      cases hcall
  · rw [applied_append, happlied, List.append_nil]
    exact h.answers
  · simpa [List.mem_append] using fun id => ⟨h.resets id, hresets id⟩
  · simpa [List.mem_append] using fun id => ⟨h.asks id, hasks id⟩

theorem sets {description : SessionDescription} (h : Offering c before)
    (hlocal : c.connection.localDescriptionType = some .offer) (htype : description.type = .answer)
    (hconnection : c'.connection = c.connection)
    (hcall : c'.call = .settingRemoteDescription description false) :
    Offering c' (before ++ [.setRemoteDescription c.connection.id description]) := by
  have happlied : applied [(.setRemoteDescription c.connection.id description : Output E O)] =
      [description] := rfl
  refine ⟨by rw [hconnection]; exact h.id, .inl (by rw [hconnection]; exact hlocal), ?_,
    by simp [hcall], ?_, ?_, ?_⟩
  · intro description answers hsets
    rw [hcall] at hsets
    exact (Call.settingRemoteDescription.inj hsets).2.symm
  · intro answer hmem
    rw [applied_append, happlied, List.mem_append, List.mem_singleton] at hmem
    rcases hmem with hmem | rfl
    · exact h.answers answer hmem
    · exact htype
  · simpa [List.mem_append] using h.resets
  · simpa [List.mem_append] using h.asks

theorem step (h : Offering c before) (hguard : OffersFirst c input)
    (hstep : c.step decrypt input = some (c', os)) : Offering c' (before ++ os) := by
  have hoffered := h.offered_step hguard hstep
  cases Client.step_turn hstep with
  | aside hconnection hcall hos =>
    exact h.stays hconnection hoffered (hcall.imp_right .inl) (applied_quiet hos)
      (fun id hmem => hos _ hmem) (fun id hmem => hos _ hmem)
  | offers hconnection _ hcall =>
    exact h.stays hconnection hoffered (.inr (.inr (.inr hcall))) rfl (by simp) (by simp)
  | offered hconnection hcall _ =>
    refine ⟨by rw [hconnection]; exact h.id, .inl (by rw [hconnection]), by simp [hcall],
      by simp [hcall], ?_, ?_, ?_⟩
    · rw [applied_append]
      simpa [applied, Output.applied] using h.answers
    · simpa [List.mem_append] using h.resets
    · simpa [List.mem_append] using h.asks
  | incoming _ hconnection hcall =>
    exact h.stays hconnection hoffered (.inr (.inr (.inl ⟨_, hcall⟩))) rfl (by simp) (by simp)
  | sends _ _ hconnection hcall =>
    exact h.stays hconnection hoffered (.inr (.inl hcall)) rfl (by simp) (by simp)
  | sets hbefore _ hfits hconnection hcall =>
    have hlocal := not_early_of_local h fun hcall => by rw [hbefore] at hcall; exact hcall
    obtain ⟨hnone, -⟩ | ⟨-, htype, rfl⟩ := hfits
    · rw [hlocal] at hnone
      cases hnone
    · exact h.sets hlocal htype hconnection hcall
  | resets hbefore _ hlocal _ _ _ =>
    have hoffer := not_early_of_local h fun hcall => by rw [hbefore] at hcall; exact hcall
    rw [hlocal] at hoffer
    cases hoffer
  | asks hbefore _ _ => exact absurd (h.call _ _ hbefore) (by simp)
  | @accepts description os hbefore hconnection hcall hos =>
    have happlied : applied os = [] := applied_quiet hos
    refine h.stays hconnection hoffered (.inr (.inl hcall)) happlied (fun id hmem => ?_)
      fun id hmem => ?_
    · rcases List.mem_cons.mp hmem with heq | hmem
      · cases heq
      · exact hos _ hmem
    · rcases List.mem_cons.mp hmem with heq | hmem
      · cases heq
      · exact hos _ hmem
  | completes hbefore _ _ _ => exact absurd hbefore h.creating

end Offering

theorem path_offering (hpath : (client decrypt).Path OffersFirst .new tr c) :
    Offering c tr.outputs := by
  refine hpath.history (P := fun tr c => Offering c tr.outputs) ?_ ?_
  · exact ⟨rfl, .inr ⟨rfl, trivial⟩, by simp [Client.new], by simp [Client.new],
      by simp [applied], by simp, by simp⟩
  · intro tr c input c' os _ ih hguard hstep
    simpa using ih.step hguard hstep

/-- Whatever its peer sends, a client that has made an offer stays on its first connection, sets
answers only, each of them received from its peer, and is never made to answer. -/
theorem offering_client_takes_answers (hpath : (client decrypt).Path OffersFirst .new tr c) :
    c.connection.id = 0 ∧ (applied tr.outputs).Sublist (received decrypt tr.outputs) ∧
      (∀ answer ∈ applied tr.outputs, answer.type = .answer) ∧
      ∀ id, .newConnection id ∉ tr.outputs ∧ .createAnswer id ∉ tr.outputs := by
  have h := path_offering hpath
  exact ⟨h.id, path_applied hpath, h.answers, fun id => ⟨h.resets id, h.asks id⟩⟩

end Offers

def offersCross : List (Input RtcSignaling Unit) :=
  [.createOffer, .offerCreated (.ok ()), .transfer none,
    .handle (.sessionDescription ⟨"crossing", 1⟩), .handle (.sessionDescription ⟨"answer", 0⟩),
    .next, .decrypted (.ok ()), .next, .decrypted (.ok ()),
    .remoteDescriptionSet (.ok ())]

theorem offering_client_takes_answers_crossing : ∃ tr c,
    ((client (O := Unit) plain).restrict OffersFirst).exec .new offersCross = some (tr, c) ∧
      applied tr.outputs = [⟨"answer", 0⟩] ∧ c.connection.id = 0 := by
  have hexec : ((client (O := Unit) plain).restrict OffersFirst).exec .new offersCross =
      some (_, _) := rfl
  exact ⟨_, _, hexec, rfl, (offering_client_takes_answers
    (EventMachine.Path.guarded_of_restrict (EventMachine.exec_path _ hexec))).1⟩

end Glopfile.PeerToPeer
