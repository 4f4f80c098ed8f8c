import Glopfile.PeerToPeer.Answers

/-!
# What makes a peer to peer client panic

The client panics over descriptions that the RTC library is not asked for, when it runs out of
ids for its connections, and over a timeout that ends after the last instant of its clock. A peer
that does not bring `2 ^ 32` messages brings it about only with the last one: by a message of the
data channel, once the caller has set such a timeout.
-/

namespace Glopfile.PeerToPeer

open EventMachine (Trace)

variable {E O : Type*} {decrypt : E → Except Api.Error RtcSignalingMessage} {c c' : Client E}
  {tr : Trace (Input E O) (Output E O)} {input : Input E O} {os : List (Output E O)}

/-- The types of description that the library makes for `create_offer` and `create_answer`. -/
def SessionDescription.Made (description : SessionDescription) : Prop :=
  description.type = .offer ∨ description.type = .answer

def Event.Made : Event E → Prop
  | .connection _ (.outgoingSignalingMessage (.sessionDescription description)) => description.Made
  | _ => True

def LibraryMakes (_ : Client E) (input : Input E O) : Prop :=
  ∀ event, input.event = some event → event.Made

instance (description : SessionDescription) : Decidable description.Made :=
  inferInstanceAs (Decidable (_ ∨ _))

instance : (event : Event E) → Decidable event.Made
  | .connection _ (.outgoingSignalingMessage (.sessionDescription description)) =>
    inferInstanceAs (Decidable description.Made)
  | .connection _ (.outgoingSignalingMessage (.iceCandidate _)) => isTrue trivial
  | .connection _ .dataChannelOpened => isTrue trivial
  | .connection _ (.dataChannelError _) => isTrue trivial
  | .connection _ (.dataChannelMessage _) => isTrue trivial
  | .incomingSignalingMessage _ => isTrue trivial

instance (c : Client E) (input : Input E O) : Decidable (LibraryMakes c input) :=
  inferInstanceAs (Decidable (∀ event ∈ input.event, event.Made))

def Client.startedTimeout (c : Client E) : Input E O → Option ℕ
  | .transfer inactivityTimeout => inactivityTimeout
  | .next =>
    match c.rx with
    | .connection id (.dataChannelMessage _) :: _ =>
      if id = c.connection.id then c.inactivityTimeout.map Timeout.timeout else none
    | _ => none
  | _ => none

def FitsClock (c : Client E) (input : Input E O) : Prop :=
  ∀ timeout, c.startedTimeout input = some timeout → c.now + timeout < instantLimit

instance (c : Client E) (input : Input E O) : Decidable (FitsClock c input) :=
  inferInstanceAs (Decidable (∀ timeout ∈ c.startedTimeout input, c.now + timeout < instantLimit))

namespace Client

def Calm (r : Client E × List (Output E O)) : Prop := .panicked ∉ r.2

theorem calm_resolve (result : Except Api.Error O) : Calm (c.resolve result) := by
  simp [Calm, resolve]

theorem calm_loop : Calm (c.loop : Client E × List (Output E O)) := by
  unfold loop
  split
  · simp [Calm]
  · split
    · simp [Calm]
    · exact calm_resolve _

theorem calm_loopIfOk (result : Except Api.Error Unit) :
    Calm (c.loopIfOk result : Client E × List (Output E O)) := by
  cases result with
  | ok => exact calm_loop
  | error error => exact calm_resolve _

theorem calm_handlerReturned (result : Except Api.Error (Option O)) :
    Calm (c.handlerReturned result) := by
  rcases result with error | (_ | output)
  · exact calm_resolve _
  · exact calm_loop
  · exact calm_resolve _

theorem Calm.cons {r : Client E × List (Output E O)} {o : Output E O} (h : Calm r)
    (ho : o ≠ .panicked) : .panicked ∉ o :: r.2 := by
  rintro (_ | ⟨_, hmem⟩)
  · exact ho rfl
  · exact h hmem

inductive Panics (c : Client E) (input : Input E O) : Prop
  | describes {id : PeerConnectionId} {description : SessionDescription} {rx : List (Event E)}
      (hrx : c.rx = .connection id
        (.outgoingSignalingMessage (.sessionDescription description)) :: rx)
      (htype : ¬description.Made) : Panics c input
  | described (hlocal : c.connection.localDescriptionType = some .pranswer ∨
      c.connection.localDescriptionType = some .rollback) : Panics c input
  | overflows (hid : 2 ^ 32 ≤ c.connection.id + 1) : Panics c input
  | overruns (hclock : ¬FitsClock c input) : Panics c input

theorem not_fitsClock : ¬FitsClock c input ↔
    ∃ timeout, c.startedTimeout input = some timeout ∧ ¬c.now + timeout < instantLimit := by
  simp [FitsClock]

theorem startedTimeout_next {timeout : ℕ} :
    c.startedTimeout (.next : Input E O) = some timeout ↔
      ∃ data rx t, c.rx = .connection c.connection.id (.dataChannelMessage data) :: rx ∧
        c.inactivityTimeout = some t ∧ t.timeout = timeout := by
  simp only [startedTimeout]
  split
  · next id data rx hrx =>
    simp only [hrx, Option.ite_none_right_eq_some, Option.map_eq_some_iff, List.cons.injEq,
      Event.connection.injEq, PeerConnectionEvent.dataChannelMessage.injEq]
    constructor
    · rintro ⟨hid, t, htimer, htimeout⟩
      exact ⟨data, rx, t, ⟨⟨hid, rfl⟩, rfl⟩, htimer, htimeout⟩
    · rintro ⟨_, _, t, ⟨⟨hid, -⟩, -⟩, htimer, htimeout⟩
      exact ⟨hid, t, htimer, htimeout⟩
  · next hother =>
    refine ⟨nofun, ?_⟩
    rintro ⟨data, rx, t, hrx, -⟩
    exact (hother _ data rx hrx).elim

theorem handleDataChannelMessage_panics {data : List UInt8} :
    .panicked ∈ (c.handleDataChannelMessage (O := O) data).2 ↔
      ∃ t, c.inactivityTimeout = some t ∧ ¬c.now + t.timeout < instantLimit := by
  unfold handleDataChannelMessage
  split
  · next hnone => simp [hnone]
  · next t htimer =>
    split
    · next hreset => simpa [panic, htimer] using Timeout.reset_eq_none.mp hreset
    · next t' hreset => simp [htimer, (Timeout.reset_eq_some.mp hreset).1]

theorem transfer_panics {timeout : Option ℕ} :
    .panicked ∈ (c.transfer (O := O) timeout).2 ↔
      ¬FitsClock c (.transfer timeout : Input E O) := by
  rw [not_fitsClock]
  cases timeout with
  | none => exact iff_of_false calm_loop (by simp [startedTimeout])
  | some timeout =>
    simp only [transfer, startedTimeout, Option.some.injEq, exists_eq_left']
    split
    · next hnew => exact iff_of_true (by simp [panic]) (Timeout.new_eq_none.mp hnew)
    · next t hnew =>
      exact iff_of_false calm_loop (not_not_intro (Timeout.new_eq_some.mp hnew).1)

theorem Heeds.panics {event : PeerConnectionEvent} {rx : List (Event E)}
    {r : Client E × List (Output E O)} (h : Heeds { c with rx := rx } event r)
    (hrx : c.rx = .connection c.connection.id event :: rx) (hmem : .panicked ∈ r.2) :
    Panics c (.next : Input E O) := by
  cases h with
  | sends | opened => simp at hmem
  | ignored => exact absurd hmem calm_loop
  | described htype =>
    rcases htype with htype | htype
    · exact .describes hrx (by simp [SessionDescription.Made, htype])
    · exact .describes hrx (by simp [SessionDescription.Made, htype])
  | failed => exact absurd hmem (calm_resolve _)
  | @handed data =>
    obtain ⟨t, htimer, hlimit⟩ := handleDataChannelMessage_panics.mp hmem
    exact .overruns (not_fitsClock.mpr
      ⟨_, startedTimeout_next.mpr ⟨data, rx, t, hrx, htimer, rfl⟩, hlimit⟩)

theorem Polls.panics {r : Client E × List (Output E O)} (h : Polls c r) (hmem : .panicked ∈ r.2) :
    Panics c (.next : Input E O) := by
  cases h with
  | incoming => simp at hmem
  | dropping _ _ hloop =>
    subst hloop
    exact absurd hmem (calm_loop.cons (by simp))
  | taken hrx hheeds =>
    rcases List.mem_cons.mp hmem with heq | hmem
    · cases heq
    · exact hheeds.panics hrx hmem
  | overdue => exact absurd hmem (calm_resolve _)

theorem Receives.panics {created : Except Api.Error Unit}
    {decrypted : Except Api.Error RtcSignalingMessage} {r : Client E × List (Output E O)}
    (h : Receives c created decrypted r) (hmem : .panicked ∈ r.2) : Panics c input := by
  cases h with
  | undecrypted | uncreated => exact absurd hmem (calm_resolve _)
  | ignored => exact absurd hmem calm_loop
  | sets => simp [setRemoteDescription] at hmem
  | resets | adds => simp at hmem
  | overflows hid => exact .overflows hid
  | described hlocal => exact .described hlocal

theorem remoteDescriptionSet_calm {description : SessionDescription} {answers : Bool}
    {result : Except Api.Error Unit} {r : Client E × List (Output E O)}
    (h : c.remoteDescriptionSet description answers result = some r) : Calm r := by
  cases result with
  | error error => exact Option.some.inj h ▸ calm_resolve _
  | ok =>
    simp only [remoteDescriptionSet] at h
    split_ifs at h
    · exact Option.some.inj h ▸ by simp [Calm]
    · exact Option.some.inj h ▸ calm_loop.cons (by simp)

theorem answerCreated_calm (result : Except Api.Error Unit) :
    Calm (c.answerCreated result : Client E × List (Output E O)) := by
  cases result with
  | error error => exact calm_resolve _
  | ok => exact calm_loop.cons (by simp)

theorem resume_panics {call : Call E} {r : Client E × List (Output E O)}
    (h : Resumes decrypt c call input r) (hmem : .panicked ∈ r.2) : Panics c input := by
  cases h with
  | offerFailed | offerCreated | createOffer => simp at hmem
  | next h => exact (takeNext_polls h).panics hmem
  | decrypted h => exact h.panics hmem
  | remoteDescriptionSet h => exact absurd hmem (remoteDescriptionSet_calm h)
  | answerCreated => exact absurd hmem (answerCreated_calm _)
  | remoteCandidateAdded | sent => exact absurd hmem (calm_loopIfOk _)
  | handled => exact absurd hmem (calm_handlerReturned _)
  | transfer => exact .overruns (transfer_panics.mp hmem)

theorem step_panics (h : c.step decrypt input = some (c', os)) (hmem : .panicked ∈ os) :
    Panics c input := by
  cases step_change h with
  | resumed _ _ hresume => exact resume_panics hresume hmem
  | _ => simp at hmem

theorem takeNext_overruns {r : Client E × List (Output E O)} (h : c.takeNext = some r)
    (hclock : ¬FitsClock c (.next : Input E O)) : .panicked ∈ r.2 := by
  obtain ⟨timeout, hstarted, hlimit⟩ := not_fitsClock.mp hclock
  obtain ⟨data, rx, t, hrx, htimer, rfl⟩ := startedTimeout_next.mp hstarted
  have hpanics : .panicked ∈ ({ c with rx := rx }.handleDataChannelMessage (O := O) data).2 :=
    handleDataChannelMessage_panics.mpr ⟨t, htimer, hlimit⟩
  simp only [takeNext, hrx, handleEvent, handleConnectionEvent, ne_eq, not_true_eq_false,
    if_false] at h
  obtain rfl := Option.some.inj h
  exact List.mem_cons_of_mem _ hpanics

theorem step_overruns (h : c.step decrypt input = some (c', os)) (hclock : ¬FitsClock c input) :
    .panicked ∈ os := by
  obtain ⟨timeout, hstarted, hlimit⟩ := not_fitsClock.mp hclock
  cases step_change h with
  | resumed _ _ hresume =>
    cases hresume with
    | next hnext => exact takeNext_overruns hnext hclock
    | transfer => exact transfer_panics.mpr hclock
    | _ => cases hstarted
  | _ => cases hstarted

end Client

structure Sane (os : List (Output E O)) (c : Client E) : Prop where
  local_ne : c.connection.localDescriptionType ≠ some .pranswer ∧
    c.connection.localDescriptionType ≠ some .rollback
  rx : ∀ event ∈ c.rx, event.Made
  id_le : c.connection.id ≤ (applied os).length

theorem Sane.step {before : List (Output E O)} (h : Sane before c) (hguard : LibraryMakes c input)
    (hstep : c.step decrypt input = some (c', os)) : Sane (before ++ os) c' := by
  have hrx : ∀ event ∈ c'.rx, event.Made := by
    intro event hmem
    have hold := (Client.step_rx hstep).subset (List.mem_append_right _ hmem)
    rcases List.mem_append.mp hold with hold | hnew
    · exact h.rx event hold
    · exact hguard event (Option.mem_toList.mp hnew)
  have same (hconnection : c'.connection = c.connection) : Sane (before ++ os) c' := by
    refine ⟨by rw [hconnection]; exact h.local_ne, hrx, ?_⟩
    rw [hconnection, applied_append, List.length_append]
    exact Nat.le_add_right_of_le h.id_le
  cases Client.step_turn hstep with
  | aside hconnection => exact same hconnection
  | offers hconnection => exact same hconnection
  | incoming _ hconnection => exact same hconnection
  | sends _ _ hconnection => exact same hconnection
  | sets _ _ _ hconnection => exact same hconnection
  | asks _ hconnection => exact same hconnection
  | accepts _ hconnection => exact same hconnection
  | offered hconnection =>
    refine ⟨by simp [hconnection], hrx, ?_⟩
    rw [hconnection, applied_append, List.length_append]
    exact Nat.le_add_right_of_le h.id_le
  | completes _ hconnection =>
    refine ⟨by simp [hconnection], hrx, ?_⟩
    rw [hconnection, applied_append, List.length_append]
    exact Nat.le_add_right_of_le h.id_le
  | @resets message description created _ _ _ _ hconnection =>
    refine ⟨by simp [hconnection], hrx, ?_⟩
    have happlied : applied [(.newConnection (c.connection.id + 1) : Output E O),
        .setRemoteDescription (c.connection.id + 1) description] = [description] := rfl
    rw [hconnection, applied_append, happlied, List.length_append]
    exact Nat.succ_le_succ h.id_le

theorem path_sane (hpath : (client decrypt).Path LibraryMakes .new tr c) : Sane tr.outputs c := by
  refine hpath.history (P := fun tr c => Sane tr.outputs c) ?_ ?_
  · exact ⟨by simp [Client.new], by simp [Client.new], Nat.zero_le _⟩
  · intro tr c input c' os _ ih hguard hstep
    simpa using ih.step hguard hstep

/-- Before so many messages were handed to it, a client panics over its clock only. -/
theorem step_panics_iff (hpath : (client decrypt).Path LibraryMakes .new tr c)
    (hhanded : (handed tr.events).length + 1 < 2 ^ 32)
    (hstep : c.step decrypt input = some (c', os)) :
    .panicked ∉ os ↔ FitsClock c input := by
  constructor
  · intro hcalm
    by_contra hclock
    exact hcalm (Client.step_overruns hstep hclock)
  · intro hfits hmem
    have hsane := path_sane hpath
    cases Client.step_panics hstep hmem with
    | describes hrx htype =>
      have hmade : Event.Made _ := hsane.rx _ (by rw [hrx]; exact List.mem_cons_self)
      exact htype hmade
    | described hlocal => exact hlocal.elim hsane.local_ne.1 hsane.local_ne.2
    | overflows hid =>
      have hreceived := Nat.le_trans hsane.id_le (path_applied hpath).length_le
      have hdescribed := Nat.le_trans hreceived (path_received hpath).length_le
      have hle : c.connection.id ≤ (handed tr.events).length :=
        Nat.le_trans hdescribed (List.length_filterMap_le _ _)
      exact Nat.not_le_of_lt hhanded (Nat.le_trans hid (Nat.succ_le_succ hle))
    | overruns hclock => exact hclock hfits

def offersAndCandidate : List (Input RtcSignaling Unit) :=
  [.transfer (some 10), .handle (.sessionDescription ⟨"first", 1⟩), .next, .decrypted (.ok ()),
    .remoteDescriptionSet (.ok ()), .answerCreated (.ok ()),
    .handle (.iceCandidate ⟨"candidate", "0"⟩), .next, .decrypted (.ok ()),
    .remoteCandidateAdded (.ok ()), .handle (.sessionDescription ⟨"second", 1⟩), .next,
    .decrypted (.ok ())]

end Glopfile.PeerToPeer
