import Glopfile.PeerToPeer.Events

/-!
# The inactivity timeout

A transfer with a timeout ends once the data channel has been silent for that long. The timer is
looked at between two events of the channel and while the client waits for the next one; what the
client does with an event is not under it. `Watch` measures the silence from outside, on the
trace of a client.
-/

namespace Glopfile.PeerToPeer

open EventMachine (Trace)

variable {E O : Type*}

/-- What an observer knows of the transfer that was started last: its timeout, how long ago it was
started or took a message of the data channel, and how many events it took from then on after the
timeout was over. -/
structure Watch where
  timeout : ℕ
  silence : ℕ
  late : ℕ
  deriving DecidableEq, Repr

namespace Watch

def start (timeout : ℕ) : Watch := ⟨timeout, 0, 0⟩

def Over (w : Watch) : Prop := w.timeout ≤ w.silence

instance (w : Watch) : Decidable w.Over := inferInstanceAs (Decidable (_ ≤ _))

def take (w : Watch) : Watch := if w.Over then { w with late := w.late + 1 } else w

def output (w : Watch) : Output E O → Watch
  | .incoming _ | .taken _ _ | .dropping _ _ => w.take
  | .dataChannelMessage _ => start w.timeout
  | _ => w

def next (w : Option Watch) : Input E O × List (Output E O) → Option Watch
  | (.transfer timeout, os) => timeout.map fun timeout => os.foldl output (start timeout)
  | (.elapse duration, _) => w.map fun w => { w with silence := w.silence + duration }
  | (_, os) => w.map fun w => os.foldl output w

end Watch

def watch (tr : Trace (Input E O) (Output E O)) : Option Watch := tr.foldl Watch.next none

/-- `Error::Timeout` is for the wait on the channel and for `Timeout::remaining`. Of what a
transfer awaits, the flush of the websocket asks the latter (`signaled_keepsTime`). -/
def KeepsTime (c : Client E) : Input E O → Prop
  | .decrypted result | .remoteDescriptionSet result | .answerCreated result
  | .remoteCandidateAdded result => result ≠ .error .timeout
  | .sent result =>
    result = .error .timeout → ∃ t, c.inactivityTimeout = some t ∧ t.deadline ≤ c.now
  | .handled result => result ≠ .error .timeout
  | _ => True

instance (result : Except Api.Error O) : Decidable (result = .error .timeout) :=
  match result with
  | .ok _ => isFalse nofun
  | .error error => decidable_of_iff (error = .timeout) (by simp)

instance (c : Client E) : (input : Input E O) → Decidable (KeepsTime c input)
  | .decrypted _ | .remoteDescriptionSet _ | .answerCreated _ | .remoteCandidateAdded _ =>
    inferInstanceAs (Decidable (_ ≠ _))
  | .sent _ =>
    have : Decidable (∃ t, c.inactivityTimeout = some t ∧ t.deadline ≤ c.now) :=
      inferInstanceAs (Decidable (∃ t ∈ c.inactivityTimeout, t.deadline ≤ c.now))
    inferInstanceAs (Decidable (_ → _))
  | .handled _ => inferInstanceAs (Decidable (_ ≠ _))
  | .elapse _ | .handle _ | .report _ _ | .createOffer | .offerCreated _ | .transfer _ | .next
  | .abandoned | .dropped => isTrue trivial

def Call.InTransfer : Call E → Prop
  | .idle | .creatingOffer | .panicked => False
  | _ => True

namespace Client
variable {c c' : Client E} {os : List (Output E O)} {r : Client E × List (Output E O)}

structure Paces (c : Client E) (r : Client E × List (Output E O)) : Prop where
  now : r.1.now = c.now
  timer : r.1.inactivityTimeout = c.inactivityTimeout ∨
    r.1.inactivityTimeout = none ∧ r.1.call = .idle
  next : r.1.call = .next → ∀ t, r.1.inactivityTimeout = some t → c.now < t.deadline
  timeout : .returned (.error .timeout) ∈ r.2 →
    ∃ t, c.inactivityTimeout = some t ∧ t.deadline ≤ c.now
  quiet : ∀ w, r.2.foldl Watch.output w = w

theorem paces_resolve {result : Except Api.Error O}
    (h : result = .error .timeout → ∃ t, c.inactivityTimeout = some t ∧ t.deadline ≤ c.now) :
    c.Paces (c.resolve result) where
  now := rfl
  timer := .inr ⟨rfl, rfl⟩
  next := by simp [resolve]
  timeout := by
    intro hmem
    obtain rfl : .error .timeout = result := by simpa [resolve] using hmem
    exact h rfl
  quiet _ := rfl

theorem paces_await {call : Call E} (hcall : call ≠ .next)
    (htimeout : .returned (.error .timeout) ∉ os) (hquiet : ∀ w, os.foldl Watch.output w = w) :
    c.Paces ({ c with call := call }, os) where
  now := rfl
  timer := .inl rfl
  next h := absurd h hcall
  timeout hmem := absurd hmem htimeout
  quiet := hquiet

theorem paces_loop : c.Paces (c.loop : Client E × List (Output E O)) := by
  unfold loop
  split
  · next hnone =>
    exact ⟨rfl, .inl rfl, by simp [hnone], by simp, fun _ => rfl⟩
  · next t hsome =>
    unfold Timeout.remaining
    split_ifs with hdeadline
    · refine ⟨rfl, .inl rfl, fun _ t' ht' => ?_, by simp, fun _ => rfl⟩
      obtain rfl : t = t' := Option.some.inj (hsome.symm.trans ht')
      exact hdeadline
    · exact paces_resolve fun _ => ⟨t, hsome, Nat.le_of_not_lt hdeadline⟩

theorem Paces.cons {o : Output E O} (h : c.Paces r) (ho : ∀ w, Watch.output w o = w)
    (hne : o ≠ .returned (.error .timeout)) : c.Paces (r.1, o :: r.2) where
  now := h.now
  timer := h.timer
  next := h.next
  timeout hmem := h.timeout ((List.mem_cons.mp hmem).resolve_left hne.symm)
  quiet w := by rw [List.foldl_cons, ho, h.quiet]

theorem paces_loopIfOk {result : Except Api.Error Unit}
    (h : result = .error .timeout → ∃ t, c.inactivityTimeout = some t ∧ t.deadline ≤ c.now) :
    c.Paces (c.loopIfOk result : Client E × List (Output E O)) := by
  cases result with
  | ok => exact paces_loop
  | error error => exact paces_resolve fun heq => h (by rw [Except.error.inj heq])

theorem paces_handlerReturned {result : Except Api.Error (Option O)}
    (h : result ≠ .error .timeout) : c.Paces (c.handlerReturned result) := by
  rcases result with error | (_ | output)
  · exact paces_resolve fun heq => absurd (congrArg Except.error (Except.error.inj heq)) h
  · exact paces_loop
  · exact paces_resolve nofun

theorem paces_panic : c.Paces (c.panic : Client E × List (Output E O)) :=
  paces_await (by simp) (by simp) fun _ => rfl

theorem Receives.paces {created : Except Api.Error Unit}
    {decrypted : Except Api.Error RtcSignalingMessage} (h : Receives c created decrypted r)
    (hcreated : created ≠ .error .timeout) (hdecrypted : decrypted ≠ .error .timeout) :
    c.Paces r := by
  cases h with
  | undecrypted =>
    exact paces_resolve fun heq => absurd (congrArg Except.error (Except.error.inj heq)) hdecrypted
  | ignored => exact paces_loop
  | sets => exact paces_await (by simp) (by simp) fun _ => rfl
  | resets => exact ⟨rfl, .inl rfl, by simp, by simp, fun _ => rfl⟩
  | uncreated herror =>
    exact paces_resolve fun heq =>
      absurd (herror.trans (congrArg Except.error (Except.error.inj heq))) hcreated
  | overflows | described => exact paces_panic
  | adds => exact paces_await (by simp) (by simp) fun _ => rfl

end Client

structure Watched (w : Option Watch) (c : Client E) : Prop where
  late_le : ∀ v, w = some v → v.late ≤ 1
  timer : ∀ t, c.inactivityTimeout = some t → ∃ v, w = some v ∧ t.timeout = v.timeout ∧
    t.deadline + v.silence = c.now + v.timeout ∧ (v.late ≠ 0 → t.deadline ≤ c.now)
  untimed : c.call.InTransfer → c.inactivityTimeout = none → w = none

structure Timed (w : Option Watch) (c : Client E) : Prop extends Watched w c where
  fresh : c.call = .next → ∀ v, w = some v → v.late = 0

section Step
variable {decrypt : E → Except Api.Error RtcSignalingMessage} {c c' : Client E}
  {os : List (Output E O)} {r : Client E × List (Output E O)} {w : Option Watch}
  {input : Input E O}

theorem Watched.take (h : Watched w c) (hfresh : ∀ v, w = some v → v.late = 0) :
    Watched (w.map Watch.take) c := by
  cases w with
  | none => exact h
  | some v =>
    have hlate : v.late = 0 := hfresh v rfl
    constructor
    · intro v' hv'
      obtain rfl : v.take = v' := Option.some.inj hv'
      unfold Watch.take
      split_ifs
      · simp [hlate]
      · simp [hlate]
    · intro t ht
      obtain ⟨v', hv', htimeout, hdeadline, -⟩ := h.timer t ht
      obtain rfl : v = v' := Option.some.inj hv'
      refine ⟨_, rfl, ?_⟩
      unfold Watch.take
      split_ifs with hover
      · refine ⟨htimeout, hdeadline, fun _ => ?_⟩
        have hle : v.timeout ≤ v.silence := hover
        omega
      · exact ⟨htimeout, hdeadline, fun hne => absurd hlate hne⟩
    · intro hcall hnone
      cases h.untimed hcall hnone

theorem Watched.paces (h : Watched w c) (huntimed : c.inactivityTimeout = none → w = none)
    (hp : c.Paces r) : Timed w r.1 where
  late_le := h.late_le
  timer t ht := by
    rcases hp.timer with hsame | ⟨hnone, -⟩
    · rw [hp.now]
      exact h.timer t (hsame ▸ ht)
    · rw [hnone] at ht
      cases ht
  untimed htransfer hnone := by
    rcases hp.timer with hsame | ⟨-, hidle⟩
    · exact huntimed (hsame ▸ hnone)
    · rw [hidle] at htransfer
      exact htransfer.elim
  fresh hnext v hv := by
    rcases hp.timer with hsame | ⟨-, hidle⟩
    · cases htimer : c.inactivityTimeout with
      | none =>
        rw [huntimed htimer] at hv
        cases hv
      | some t =>
        obtain ⟨v', hv', -, -, hlate⟩ := h.timer t htimer
        obtain rfl : v = v' := Option.some.inj (hv.symm.trans hv')
        have hremains : c.now < t.deadline := hp.next hnext t (hsame ▸ htimer)
        by_contra hne
        exact Nat.not_lt.mpr (hlate hne) hremains
    · rw [hidle] at hnext
      cases hnext

theorem Watched.runsOut (h : Watched w c) (hp : c.Paces r)
    (hmem : .returned (.error .timeout) ∈ r.2) : ∃ v, w = some v ∧ v.Over := by
  obtain ⟨t, ht, hdeadline⟩ := hp.timeout hmem
  obtain ⟨v, hv, -, heq, -⟩ := h.timer t ht
  exact ⟨v, hv, show v.timeout ≤ v.silence by omega⟩

structure Observed (w : Option Watch) (c : Client E) (os : List (Output E O)) : Prop where
  timed : Timed w c
  runsOut : .returned (.error .timeout) ∈ os → ∃ v, w = some v ∧ v.Over

theorem map_quiet (h : ∀ w, os.foldl Watch.output w = w) :
    w.map (fun w => os.foldl Watch.output w) = w := by
  simp [h]

theorem Watched.observed (h : Watched w c) (huntimed : c.inactivityTimeout = none → w = none)
    (hp : c.Paces r) : Observed (w.map fun w => r.2.foldl Watch.output w) r.1 r.2 := by
  rw [map_quiet hp.quiet]
  exact ⟨h.paces huntimed hp, h.runsOut hp⟩

theorem Timed.observed_quiet (h : Timed w c) (hquiet : ∀ w, os.foldl Watch.output w = w)
    (hmem : .returned (.error .timeout) ∉ os) :
    Observed (w.map fun w => os.foldl Watch.output w) c os := by
  rw [map_quiet hquiet]
  exact ⟨h, fun h => absurd h hmem⟩

theorem Watched.observed_take {o : Output E O} (h : Watched w c)
    (hfresh : ∀ v, w = some v → v.late = 0)
    (hcall : c.call.InTransfer) (ho : ∀ w, Watch.output w o = w.take)
    (hne : o ≠ .returned (.error .timeout)) (hp : c.Paces r) :
    Observed (w.map fun w => (o :: r.2).foldl Watch.output w) r.1 (o :: r.2) := by
  have hmap : w.map (fun w => (o :: r.2).foldl Watch.output w) = w.map Watch.take := by
    simp [ho, hp.quiet]
  rw [hmap]
  have htake := h.take hfresh
  exact ⟨htake.paces (htake.untimed hcall) hp, fun hmem =>
    htake.runsOut hp ((List.mem_cons.mp hmem).resolve_left hne.symm)⟩

theorem Watched.leaves (h : Watched w c) (hnow : c'.now = c.now)
    (htimer : c'.inactivityTimeout = c.inactivityTimeout ∨ c'.inactivityTimeout = none)
    (hcall : ¬c'.call.InTransfer) : Timed w c' where
  late_le := h.late_le
  timer t ht := by
    rcases htimer with hsame | hnone
    · rw [hnow]
      exact h.timer t (hsame ▸ ht)
    · rw [hnone] at ht
      cases ht
  untimed htransfer := absurd htransfer hcall
  fresh hnext := by
    rw [hnext] at hcall
    exact absurd trivial hcall

theorem Timed.congr (h : Timed w c) (hnow : c'.now = c.now)
    (htimer : c'.inactivityTimeout = c.inactivityTimeout) (hcall : c'.call = c.call) :
    Timed w c' where
  late_le := h.late_le
  timer := by rw [htimer, hnow]; exact h.timer
  untimed := by rw [hcall, htimer]; exact h.untimed
  fresh := by rw [hcall]; exact h.fresh

theorem Timed.elapse (h : Timed w c) (duration : ℕ) :
    Timed (w.map fun w => { w with silence := w.silence + duration })
      { c with now := c.now + duration } := by
  cases w with
  | none =>
    refine ⟨⟨nofun, fun t ht => ?_, fun _ _ => rfl⟩, fun _ => nofun⟩
    obtain ⟨v, hv, -⟩ := h.timer t ht
    cases hv
  | some v =>
    constructor
    · constructor
      · intro v' hv'
        obtain rfl := Option.some.inj hv'
        exact h.late_le v rfl
      · intro t ht
        obtain ⟨v', hv', htimeout, hdeadline, hlate⟩ := h.timer t ht
        obtain rfl : v = v' := Option.some.inj hv'
        refine ⟨_, rfl, htimeout, by simp only; omega, fun hne => ?_⟩
        exact Nat.le_add_right_of_le (hlate hne)
      · intro hcall hnone
        cases h.untimed hcall hnone
    · intro hnext v' hv'
      obtain rfl := Option.some.inj hv'
      exact h.fresh hnext v rfl

theorem Watched.restart (h : Watched w c) (hfresh : ∀ v, w = some v → v.late = 0)
    (hcall : c.call.InTransfer) (id : PeerConnectionId) (data : List UInt8) :
    Observed (w.map fun w => (Output.taken id (.dataChannelMessage data) ::
        (c.handleDataChannelMessage (O := O) data).2).foldl Watch.output w)
      (c.handleDataChannelMessage (O := O) data).1
      (.taken id (.dataChannelMessage data) :: (c.handleDataChannelMessage (O := O) data).2) := by
  unfold Client.handleDataChannelMessage
  split
  · next hnone =>
    obtain rfl := h.untimed hcall hnone
    exact ⟨⟨⟨nofun, by simp [hnone], fun _ _ => rfl⟩, nofun⟩, by simp⟩
  · next t htimer =>
    split
    · exact h.observed_take hfresh hcall (fun _ => rfl) (by simp) Client.paces_panic
    · next t' hreset =>
      obtain ⟨-, rfl⟩ := Timeout.reset_eq_some.mp hreset
      obtain ⟨v, rfl, htimeout, -⟩ := h.timer t htimer
      have htake : v.take.timeout = v.timeout := by
        unfold Watch.take
        split_ifs <;> rfl
      refine ⟨⟨⟨fun v' hv' => ?_, fun t' ht' => ?_, fun _ => nofun⟩, nofun⟩, by simp⟩
      · obtain rfl := Option.some.inj hv'
        exact Nat.zero_le _
      · obtain rfl := Option.some.inj ht'
        refine ⟨_, rfl, htimeout.trans htake.symm, ?_, fun hne => absurd rfl hne⟩
        show c.now + t.timeout + 0 = c.now + v.take.timeout
        rw [htake, htimeout]
        rfl

theorem heeds_observed {event : PeerConnectionEvent} (h : Timed w c) (id : PeerConnectionId)
    (hfresh : ∀ v, w = some v → v.late = 0) (hcall : c.call.InTransfer)
    (hheeds : c.Heeds event r) :
    Observed (w.map fun w => (.taken id event :: r.2).foldl Watch.output w) r.1
      (.taken id event :: r.2) := by
  have takes (hp : c.Paces r) : Observed
      (w.map fun w => (.taken id event :: r.2).foldl Watch.output w) r.1
      (.taken id event :: r.2) :=
    h.observed_take hfresh hcall (fun _ => rfl) (by simp) hp
  cases hheeds with
  | sends | opened => exact takes (Client.paces_await (by simp) (by simp) fun _ => rfl)
  | ignored => exact takes Client.paces_loop
  | described => exact takes Client.paces_panic
  | failed => exact takes (Client.paces_resolve (by simp))
  | @handed data => exact h.restart hfresh hcall id data

theorem polls_observed (h : Timed w c) (hcall : c.call = .next) (hpolls : c.Polls r) :
    Observed (w.map fun w => r.2.foldl Watch.output w) r.1 r.2 := by
  have hfresh := h.fresh hcall
  have htransfer : c.call.InTransfer := by rw [hcall]; trivial
  have hrest (rx : List (Event E)) : Timed w { c with rx := rx } := h.congr rfl rfl rfl
  cases hpolls with
  | @incoming _ rx =>
    have hnone : (.returned (.error .timeout) : Output E O) ∉ [] := by simp
    exact (hrest rx).observed_take hfresh htransfer (fun _ => rfl) (by simp)
      (Client.paces_await (by simp) hnone fun _ => rfl)
  | @dropping _ _ rx _ _ _ hloop =>
    subst hloop
    exact (hrest rx).observed_take hfresh htransfer (fun _ => rfl) (by simp) Client.paces_loop
  | @taken _ rx _ _ hheeds => exact heeds_observed (hrest rx) _ hfresh htransfer hheeds
  | overdue htimer hdeadline =>
    exact h.observed (h.untimed htransfer) (Client.paces_resolve fun _ => ⟨_, htimer, hdeadline⟩)

theorem Watched.of_idle (hcall : c.call = .idle) (hlate : ∀ v, w = some v → v.late = 0)
    (htimer : ∀ t, c.inactivityTimeout = some t → ∃ v, w = some v ∧ t.timeout = v.timeout ∧
      t.deadline + v.silence = c.now + v.timeout) : Watched w c where
  late_le v hv := by simp [hlate v hv]
  timer t ht := by
    obtain ⟨v, hv, htimeout, hdeadline⟩ := htimer t ht
    exact ⟨v, hv, htimeout, hdeadline, fun hne => absurd (hlate v hv) hne⟩
  untimed htransfer := by
    rw [hcall] at htransfer
    exact htransfer.elim

theorem start_observed {timeout : Option ℕ} (hcall : c.call = .idle)
    (hstart : c.transfer timeout = (c', os)) :
    Observed (timeout.map fun timeout => os.foldl Watch.output (.start timeout)) c' os := by
  cases timeout with
  | none =>
    have hwatched : Watched none { c with inactivityTimeout := none } :=
      .of_idle hcall nofun nofun
    have hpaces : Client.Paces { c with inactivityTimeout := none } (c', os) :=
      hstart ▸ Client.paces_loop
    exact hwatched.observed (fun _ => rfl) hpaces
  | some timeout =>
    have hlate (v : Watch) (hv : some (Watch.start timeout) = some v) : v.late = 0 := by
      obtain rfl := Option.some.inj hv
      rfl
    simp only [Client.transfer] at hstart
    split at hstart
    · have hwatched : Watched (some (Watch.start timeout)) { c with inactivityTimeout := none } :=
        .of_idle hcall hlate nofun
      have hquiet (v : Watch) : [(.panicked : Output E O)].foldl Watch.output v = v := rfl
      obtain ⟨rfl, rfl⟩ := Prod.mk.inj hstart
      have htimed : Timed (some (Watch.start timeout)) (Client.panic (O := O)
        { c with inactivityTimeout := none }).1 := hwatched.leaves rfl (.inl rfl) id
      exact htimed.observed_quiet hquiet (by simp)
    · next t hnew =>
      obtain ⟨-, rfl⟩ := Timeout.new_eq_some.mp hnew
      have hwatched : Watched (some (Watch.start timeout))
          { c with inactivityTimeout := some ⟨c.now + timeout, timeout⟩ } := by
        refine .of_idle hcall hlate fun t ht => ?_
        obtain rfl := Option.some.inj ht
        exact ⟨_, rfl, rfl, rfl⟩
      have hpaces : Client.Paces
          { c with inactivityTimeout := some ⟨c.now + timeout, timeout⟩ } (c', os) :=
        hstart ▸ Client.paces_loop
      exact hwatched.observed nofun hpaces

theorem paces_remoteDescriptionSet {description : SessionDescription} {answers : Bool}
    {result : Except Api.Error Unit} {r : Client E × List (Output E O)}
    (h : c.remoteDescriptionSet description answers result = some r)
    (hresult : result ≠ .error .timeout) : c.Paces r := by
  cases result with
  | error error =>
    obtain rfl := Option.some.inj h
    exact Client.paces_resolve fun heq =>
      absurd (congrArg Except.error (Except.error.inj heq)) hresult
  | ok =>
    simp only [Client.remoteDescriptionSet] at h
    split_ifs at h
    · obtain rfl := Option.some.inj h
      exact Client.paces_await (by simp) (by simp) fun _ => rfl
    · obtain rfl := Option.some.inj h
      exact Client.paces_loop.cons (fun _ => rfl) (by simp)

theorem paces_answerCreated {result : Except Api.Error Unit} (hresult : result ≠ .error .timeout) :
    c.Paces (c.answerCreated result : Client E × List (Output E O)) := by
  cases result with
  | error error =>
    exact Client.paces_resolve fun heq =>
      absurd (congrArg Except.error (Except.error.inj heq)) hresult
  | ok =>
    have hp := (Client.paces_loop (O := O)
      (c := { c with connection.localDescriptionType := some .answer })).cons
      (o := .answerCreated c.connection.id) (fun _ => rfl) (by simp)
    exact ⟨hp.now, hp.timer, hp.next, hp.timeout, hp.quiet⟩

theorem Call.Handling.inTransfer {call : Call E} (h : call.Handling) : call.InTransfer := by
  cases call <;> trivial

theorem resume_observed {call : Call E} {r : Client E × List (Output E O)} (h : Timed w c)
    (hdecrypt : ∀ message, decrypt message ≠ .error .timeout) (hcall : c.call = call)
    (hkeeps : KeepsTime c input) (hresume : Client.Resumes decrypt c call input r) :
    Observed (Watch.next w (input, r.2)) r.1 r.2 := by
  have rests {r : Client E × List (Output E O)} (hin : call.InTransfer) (hp : c.Paces r) :
      Observed (w.map fun w => r.2.foldl Watch.output w) r.1 r.2 :=
    h.observed (h.untimed (hcall ▸ hin)) hp
  cases hresume with
  | offerFailed | offerCreated | createOffer =>
    exact Timed.observed_quiet (h.leaves rfl (.inl rfl) id) (fun _ => rfl) (by simp)
  | next hnext => exact polls_observed h hcall (Client.takeNext_polls hnext)
  | @decrypted message _ _ h => exact rests trivial (h.paces hkeeps (hdecrypt message))
  | remoteDescriptionSet hset => exact rests trivial (paces_remoteDescriptionSet hset hkeeps)
  | answerCreated => exact rests trivial (paces_answerCreated hkeeps)
  | remoteCandidateAdded =>
    exact rests trivial (Client.paces_loopIfOk fun heq => absurd heq hkeeps)
  | sent => exact rests trivial (Client.paces_loopIfOk hkeeps)
  | handled hhandling =>
    exact rests hhandling.inTransfer (Client.paces_handlerReturned hkeeps)
  | transfer => exact start_observed hcall rfl

theorem step_observed (h : Timed w c) (hdecrypt : ∀ message, decrypt message ≠ .error .timeout)
    (hkeeps : KeepsTime c input) (hstep : c.step decrypt input = some (c', os)) :
    Observed (Watch.next w (input, os)) c' os := by
  cases Client.step_change hstep with
  | elapsed => exact ⟨h.elapse _, by simp⟩
  | refused | unheard => exact h.observed_quiet (fun _ => rfl) (by simp)
  | handed | reported =>
    exact Timed.observed_quiet (h.congr rfl rfl rfl) (fun _ => rfl) (by simp)
  | abandoned => exact Timed.observed_quiet (h.leaves rfl (.inr rfl) id) (fun _ => rfl) (by simp)
  | dropped => exact Timed.observed_quiet (h.leaves rfl (.inl rfl) id) (fun _ => rfl) (by simp)
  | resumed _ hcall hresume => exact resume_observed h hdecrypt hcall hkeeps hresume

end Step

section Run
variable {decrypt : E → Except Api.Error RtcSignalingMessage} {c : Client E}
  {tr : Trace (Input E O) (Output E O)}

theorem watch_snoc {input : Input E O} {os : List (Output E O)} :
    watch (tr ++ [(input, os)]) = Watch.next (watch tr) (input, os) := by
  simp [watch, List.foldl_append]

theorem path_timed (hdecrypt : ∀ message, decrypt message ≠ .error .timeout)
    (hpath : (client decrypt).Path KeepsTime .new tr c) : Timed (watch tr) c := by
  refine hpath.history (P := fun tr c => Timed (watch tr) c) ?_ ?_
  · exact ⟨⟨nofun, nofun, fun _ _ => rfl⟩, nofun⟩
  · intro tr c input c' os _ ih hguard hstep
    rw [watch_snoc]
    exact (step_observed ih hdecrypt hguard hstep).timed

theorem path_runsOut (hdecrypt : ∀ message, decrypt message ≠ .error .timeout)
    (hpath : (client decrypt).Path KeepsTime .new tr c) :
    tr.Each fun before input os => .returned (.error .timeout) ∈ os →
      ∃ w, watch (before ++ [(input, os)]) = some w ∧ w.timeout ≤ w.silence := by
  refine hpath.history (P := fun tr _ => tr.Each fun before input os =>
    .returned (.error .timeout) ∈ os →
      ∃ w, watch (before ++ [(input, os)]) = some w ∧ w.timeout ≤ w.silence)
    EventMachine.Trace.each_nil ?_
  intro tr c input c' os hpath ih hguard hstep
  refine EventMachine.Trace.each_snoc.mpr ⟨ih, fun hmem => ?_⟩
  rw [watch_snoc]
  exact (step_observed (path_timed hdecrypt hpath) hdecrypt hguard hstep).runsOut hmem

theorem Timed.ends {w : Watch} (htimed : Timed (some w) c) (hcall : c.call = .next)
    (hrx : c.rx = []) (hdropped : c.dropped = false) (hover : w.timeout ≤ w.silence) :
    ∃ c', c'.call = .idle ∧ (client (O := O) decrypt).step c .next =
      some (c', [.returned (.error .timeout)]) := by
  cases htimer : c.inactivityTimeout with
  | none => cases htimed.untimed (by rw [hcall]; trivial) htimer
  | some t =>
    obtain ⟨v, hv, -, hdeadline, -⟩ := htimed.timer t htimer
    obtain rfl : w = v := Option.some.inj hv
    have hle : t.deadline ≤ c.now := by omega
    refine ⟨(c.resolve (O := O) (.error .timeout)).1, rfl, ?_⟩
    have hnext : c.takeNext = some ((c.resolve (O := O) (.error .timeout)).1,
        [(.returned (.error .timeout) : Output E O)]) := by
      simp only [Client.takeNext, hrx, htimer, if_pos hle]
      rfl
    simpa [client, Client.step, hdropped, hcall, Client.resume] using hnext

/-- A transfer ends over a timeout only if its timeout is over: so much time has gone by since it
was started, or since it took a message of the data channel. From then on it takes at most one
event of another kind, and if it waits for an event with none there it ends. -/
theorem timeouts_follow_silence (hdecrypt : ∀ message, decrypt message ≠ .error .timeout)
    (hpath : (client decrypt).Path KeepsTime .new tr c) :
    tr.Each (fun before input os => .returned (.error .timeout) ∈ os →
        ∃ w, watch (before ++ [(input, os)]) = some w ∧ w.timeout ≤ w.silence) ∧
      ∀ w, watch tr = some w → w.late ≤ 1 ∧
        (c.call = .next → c.rx = [] → c.dropped = false → w.timeout ≤ w.silence →
          ∃ c', c'.call = .idle ∧
            (client (O := O) decrypt).step c .next =
              some (c', [.returned (.error .timeout)])) := by
  refine ⟨path_runsOut hdecrypt hpath, fun w hw => ?_⟩
  have htimed : Timed (some w) c := hw ▸ path_timed hdecrypt hpath
  exact ⟨htimed.late_le w rfl, htimed.ends⟩

def silence : List (Input RtcSignaling Unit) :=
  [.transfer (some 10), .elapse 9, .report 0 (.dataChannelMessage [1]), .next,
    .handled (.ok none), .elapse 10, .handle (.iceCandidate ⟨"candidate", "0"⟩), .next,
    .decrypted (.ok ()), .remoteCandidateAdded (.ok ())]

theorem timeouts_follow_silence_late : ∃ tr c,
    ((client (O := Unit) plain).restrict KeepsTime).exec .new silence = some (tr, c) ∧
      watch tr = some ⟨10, 10, 1⟩ ∧ c.call = .idle ∧
      tr.Each fun before input os => .returned (.error .timeout) ∈ os →
        ∃ w, watch (before ++ [(input, os)]) = some w ∧ w.timeout ≤ w.silence := by
  have hexec : ((client (O := Unit) plain).restrict KeepsTime).exec .new silence =
      some (_, _) := rfl
  exact ⟨_, _, hexec, rfl, rfl, (timeouts_follow_silence (by simp [plain])
    (EventMachine.Path.guarded_of_restrict (EventMachine.exec_path _ hexec))).1⟩

end Run

end Glopfile.PeerToPeer
