import Glopfile.Client.UploaderClient

/-!
# The timeout of an upload request

Each attempt of the relay task puts the abort handle of its timeout into one cell, and an
`UploadDataAck` on the client's websocket takes the handle out and aborts the timeout. An ack
names no attempt. The relay emits it on a turn of the session; from then on it is on its way to
the client, for as long as it takes, behind the acks emitted before it on the same websocket. The
client may have opened several websockets one after the other, and acks that are still on their
way when one is closed are lost.
-/

namespace Glopfile.UploaderClient

open EventMachine (Trace)
open Glopfile.Api (Duration)
open Glopfile.Relay (Effect Output Position System SystemEvent Token WebsocketTask)

/-- The attempt during which the relay emitted an ack, and whether it had accepted a `StartUpload`
of that attempt by then. -/
structure Emission where
  attempt : ℕ
  accepted : Bool
  deriving DecidableEq, Repr

/-- The message has its `offset` alone; nothing of the client reads `emission`. -/
structure UploadDataAck where
  offset : Position
  emission : Emission
  deriving DecidableEq, Repr

/-- `handle` is the cell of `RelayRequestTimeoutHandle`, `aborted` the ack that has aborted the
timeout of the current attempt. `websockets` has the acks on their way on each websocket of the
client. `tokens` are the upload requests of the current attempt that have reached the relay, and
`accepted` says whether it accepted one of them. -/
structure TimedUpload where
  uploading : Uploading
  attempt : ℕ
  handle : Option ℕ
  aborted : Option UploadDataAck
  websockets : Token → Option (List UploadDataAck)
  tokens : List Token
  accepted : Bool

inductive TimedEvent
  | uploading (e : UploadingEvent)
  | connectWebsocket
  | ack (websocket : Token)
  | closed (websocket : Token)

inductive TimedOutput
  | relay (output : Output)
  | progress (current total : ℕ)

def RelayTask.isAttempting : RelayTask → Bool
  | .attempting _ _ => true
  | _ => false

def RelayTask.uploadToken : RelayTask → Option Token
  | .attempting _ (some (.content token)) => some token
  | _ => none

def accepts (reply : Relay.Waiter) : Effect → Bool
  | .reply waiter (.upload (.ok ())) => waiter = reply
  | _ => false

def startAccepted (tokens : List Token) : Output → Bool
  | .handled (.startUpload token _ reply) effects =>
    tokens.contains token && effects.any (accepts reply)
  | _ => false

def turnEffects : Output → List Effect
  | .handled _ effects => effects
  | _ => []

def emit (relay : System) (emission : Emission)
    (websockets : Token → Option (List UploadDataAck)) :
    Effect → Token → Option (List UploadDataAck)
  | .websocket commands (.progress offset) =>
    if (relay.websockets commands).any WebsocketTask.alive then
      Function.update websockets commands
        ((websockets commands).map fun acks => acks ++ [⟨offset, emission⟩])
    else websockets
  | _ => websockets

namespace TimedUpload

def hear (t : TimedUpload) (os : List Output) : TimedUpload :=
  let accepted := t.accepted || os.any (startAccepted t.tokens)
  { t with
    accepted
    websockets := (os.flatMap turnEffects).foldl
      (emit t.uploading.relay ⟨t.attempt, accepted⟩) t.websockets }

/-- `RelayRequestTimeoutHandle::cancel`. -/
def cancel (t : TimedUpload) (ack : UploadDataAck) : TimedUpload :=
  match t.handle with
  | some attempt =>
    { t with
      handle := none
      -- The timeout of an attempt that is over is gone.
      aborted :=
        if attempt = t.attempt ∧ t.uploading.relayTask.isAttempting = true then some ack
        else t.aborted }
  | none => t

def follow (t : TimedUpload) (uploading : Uploading) (os : List Output) :
    UploadingEvent → TimedUpload
  | .attempt _ =>
    { t with
      uploading
      attempt := t.attempt + 1
      handle := some (t.attempt + 1)
      aborted := none
      tokens := []
      accepted := false }
  | .arrive => { t with uploading, tokens := t.tokens ++ uploading.relayTask.uploadToken.toList }
  | .relay _ => { t.hear os with uploading }
  | _ => { t with uploading }

def step (t : TimedUpload) : TimedEvent → Option (TimedUpload × List TimedOutput)
  | .uploading .timeout =>
    -- An aborted timeout stays pending.
    match t.aborted with
    | some _ => none
    | none => (t.uploading.step .timeout).map fun (u, os) =>
      (t.follow u os .timeout, os.map .relay)
  | .uploading e => (t.uploading.step e).map fun (u, os) => (t.follow u os e, os.map .relay)
  | .connectWebsocket => (t.uploading.step (.relay (.websocket .upload))).map fun (u, os) =>
    ({ t with
      uploading := u
      websockets := Function.update t.websockets t.uploading.relay.fresh (some []) },
      os.map .relay)
  | .ack websocket =>
    match t.websockets websocket, t.uploading.result with
    | some (ack :: acks), none =>
      some ({ t with websockets := Function.update t.websockets websocket (some acks) }.cancel ack,
        [.progress ack.offset t.uploading.encryptedBytes.length])
    | _, _ => none
  | .closed websocket =>
    match t.websockets websocket with
    | some _ => some ({ t with websockets := Function.update t.websockets websocket none }, [])
    | none => none

end TimedUpload

def timedUpload (metadata : String) (encryptedBytes : List UInt8) (schedule : List Duration) :
    EventMachine TimedUpload TimedEvent TimedOutput where
  init := ⟨(uploadProvisionedFileAsync metadata encryptedBytes schedule).init, 0, none, none,
    fun _ => none, [], false⟩
  step := TimedUpload.step

/-- No ack is on its way when an attempt starts, and from then on the relay emits none to the
client until it accepts a `StartUpload` of the attempt. -/
def AcksInTime (t : TimedUpload) : TimedEvent → Prop
  | .uploading (.attempt _) => ∀ websocket acks, t.websockets websocket = some acks → acks = []
  | .uploading (.relay e) => t.uploading.relayTask.isAttempting = true →
    ∀ r os, t.uploading.relay.step e = some (r, os) →
      (t.hear os).accepted = true ∨ (t.hear os).websockets = t.websockets
  | _ => True

variable {metadata : String} {encryptedBytes : List UInt8} {schedule : List Duration}
  {t t' : TimedUpload} {e : TimedEvent} {os : List TimedOutput}

def TimedUpload.Timely (t : TimedUpload) (ack : UploadDataAck) : Prop :=
  ack.emission = ⟨t.attempt, true⟩ ∧ t.accepted = true

structure TimedUpload.Justified (t : TimedUpload) : Prop where
  underway : t.uploading.relayTask.isAttempting = true →
    ∀ websocket acks, t.websockets websocket = some acks → ∀ ack ∈ acks, t.Timely ack
  aborted : ∀ ack, t.aborted = some ack → t.Timely ack

theorem emit_mem {relay : System} {emission : Emission} (effects : List Effect)
    {websockets : Token → Option (List UploadDataAck)} {websocket : Token}
    {acks : List UploadDataAck} {ack : UploadDataAck}
    (h : effects.foldl (emit relay emission) websockets websocket = some acks) (hack : ack ∈ acks) :
    (∃ before, websockets websocket = some before ∧ ack ∈ before) ∨ ack.emission = emission := by
  induction effects generalizing websockets with
  | nil => exact .inl ⟨acks, h, hack⟩
  | cons effect effects ih =>
    rcases ih h with ⟨before, hbefore, hmem⟩ | hemission
    · unfold emit at hbefore
      split at hbefore
      · next commands offset =>
        split_ifs at hbefore
        · by_cases hsame : websocket = commands
          · subst hsame
            rw [Function.update_self, Option.map_eq_some_iff] at hbefore
            obtain ⟨first, hfirst, rfl⟩ := hbefore
            rcases List.mem_append.mp hmem with hmem | hmem
            · exact .inl ⟨first, hfirst, hmem⟩
            · obtain rfl := List.mem_singleton.mp hmem
              exact .inr rfl
          · rw [Function.update_of_ne hsame] at hbefore
            exact .inl ⟨before, hbefore, hmem⟩
        · exact .inl ⟨before, hbefore, hmem⟩
      · exact .inl ⟨before, hbefore, hmem⟩
    · exact .inr hemission

theorem emit_grows {relay : System} {emission : Emission} (effects : List Effect)
    (websockets : Token → Option (List UploadDataAck)) (websocket : Token) :
    effects.foldl (emit relay emission) websockets websocket = websockets websocket ∨
      ∃ ack acks, effects.foldl (emit relay emission) websockets websocket = some (ack :: acks) := by
  induction effects generalizing websockets with
  | nil => exact .inl rfl
  | cons effect effects ih =>
    have hone : emit relay emission websockets effect websocket = websockets websocket ∨
        ∃ ack acks, emit relay emission websockets effect websocket = some (ack :: acks) := by
      unfold emit
      split
      · next commands offset =>
        split_ifs
        · by_cases hsame : websocket = commands
          · subst hsame
            rw [Function.update_self]
            cases hacks : websockets websocket with
            | none => exact .inl rfl
            | some acks => cases acks with | nil | cons ack acks => exact .inr ⟨_, _, rfl⟩
          · rw [Function.update_of_ne hsame]
            exact .inl rfl
        · exact .inl rfl
      · exact .inl rfl
    rcases ih (emit relay emission websockets effect) with hlater | hlater
    · rw [List.foldl_cons, hlater]
      exact hone
    · exact .inr hlater

theorem attempting_of_step {u u' : Uploading} {e : UploadingEvent} {os : List Output}
    (hstep : u.step e = some (u', os)) (h : u'.relayTask.isAttempting = true) :
    (∃ schedule, e = .attempt schedule) ∨ u.relayTask.isAttempting = true := by
  cases e with
  | attempt schedule => exact .inl ⟨schedule, rfl⟩
  | relay e =>
    obtain ⟨⟨r, os'⟩, _, hnext⟩ := Option.map_eq_some_iff.mp hstep
    obtain ⟨rfl, rfl⟩ := Prod.mk.inj hnext
    right
    cases htask : u.relayTask with
    | attempting upload underway => rfl
    | _ => simp [htask, RelayTask.hear, RelayTask.isAttempting] at h
  | p2pReturned result =>
    simp only [Uploading.step] at hstep
    split at hstep
    · obtain ⟨rfl, rfl⟩ := Prod.mk.inj (Option.some.inj hstep)
      exact .inr h
    · cases hstep
  | _ =>
    right
    simp only [Uploading.step] at hstep
    split at hstep
    · next htask => rw [htask]; rfl
    · cases hstep

namespace TimedUpload

theorem Timely.hear {ack : UploadDataAck} (h : t.Timely ack) (os : List Output) :
    (t.hear os).Timely ack := ⟨h.1, by simp only [TimedUpload.hear, h.2, Bool.true_or]⟩

theorem Justified.hear (ht : t.Justified) (os : List Output)
    (hguard : t.uploading.relayTask.isAttempting = true →
      (t.hear os).accepted = true ∨ (t.hear os).websockets = t.websockets) :
    (t.hear os).Justified := by
  constructor
  · intro hattempting websocket acks hacks ack hack
    rcases hguard hattempting with haccepted | hsame
    · rcases emit_mem _ hacks hack with ⟨before, hbefore, hmem⟩ | hemission
      · exact (ht.underway hattempting websocket before hbefore ack hmem).hear os
      · refine ⟨?_, haccepted⟩
        have hboth : ack.emission = ⟨t.attempt, (t.hear os).accepted⟩ := hemission
        rw [hboth, haccepted]
        rfl
    · rw [hsame] at hacks
      exact (ht.underway hattempting websocket acks hacks ack hack).hear os
  · intro ack haborted
    exact (ht.aborted ack haborted).hear os

theorem Justified.setUploading {u : Uploading} (ht : t.Justified)
    (h : u.relayTask.isAttempting = true → t.uploading.relayTask.isAttempting = true) :
    { t with uploading := u }.Justified :=
  ⟨fun hattempting => ht.underway (h hattempting), ht.aborted⟩

theorem Justified.follow {u : Uploading} {e : UploadingEvent} {os : List Output}
    (ht : t.Justified) (hguard : AcksInTime t (.uploading e))
    (hstep : t.uploading.step e = some (u, os)) : (t.follow u os e).Justified := by
  have hattempting := attempting_of_step hstep
  cases e with
  | attempt schedule =>
    refine ⟨fun _ websocket acks hacks ack hack => ?_, nofun⟩
    rw [hguard websocket acks hacks] at hack
    cases hack
  | relay e =>
    obtain ⟨⟨r, os'⟩, hrelay, hnext⟩ := Option.map_eq_some_iff.mp hstep
    obtain ⟨rfl, rfl⟩ := Prod.mk.inj hnext
    refine (ht.hear os' fun h => hguard h r os' hrelay).setUploading fun h => ?_
    exact (hattempting h).resolve_left nofun
  | arrive =>
    have hsame := ht.setUploading fun h => (hattempting h).resolve_left nofun
    exact ⟨hsame.underway, hsame.aborted⟩
  | _ => exact ht.setUploading fun h => (hattempting h).resolve_left nofun

@[simp] theorem cancel_uploading (ack : UploadDataAck) :
    (t.cancel ack).uploading = t.uploading := by
  unfold TimedUpload.cancel
  cases t.handle with | none | some attempt => rfl

@[simp] theorem cancel_accepted (ack : UploadDataAck) : (t.cancel ack).accepted = t.accepted := by
  unfold TimedUpload.cancel
  cases t.handle with | none | some attempt => rfl

theorem Justified.cancel {ack : UploadDataAck} (ht : t.Justified)
    (hack : t.uploading.relayTask.isAttempting = true → t.Timely ack) :
    (t.cancel ack).Justified := by
  unfold TimedUpload.cancel
  cases t.handle with
  | none => exact ht
  | some attempt =>
    refine ⟨ht.underway, fun other hother => ?_⟩
    simp only at hother
    split_ifs at hother with hrunning
    · obtain rfl := Option.some.inj hother
      exact hack hrunning.2
    · exact ht.aborted other hother

theorem Justified.setWebsocket {websocket : Token} {acks : Option (List UploadDataAck)}
    (ht : t.Justified)
    (h : ∀ new, acks = some new → ∀ ack ∈ new,
      ∃ before, t.websockets websocket = some before ∧ ack ∈ before) :
    { t with websockets := Function.update t.websockets websocket acks }.Justified := by
  refine ⟨fun hattempting other acks' hacks ack hack => ?_, ht.aborted⟩
  change Function.update t.websockets websocket acks other = some acks' at hacks
  by_cases hsame : other = websocket
  · subst hsame
    have hnew : acks = some acks' := by rwa [Function.update_self] at hacks
    obtain ⟨before, hbefore, hmem⟩ := h acks' hnew ack hack
    exact ht.underway hattempting other before hbefore ack hmem
  · rw [Function.update_of_ne hsame] at hacks
    exact ht.underway hattempting other acks' hacks ack hack

theorem step_uploading {e : UploadingEvent} (hstep : t.step (.uploading e) = some (t', os)) :
    ∃ u os', t.uploading.step e = some (u, os') ∧ t' = t.follow u os' e := by
  have hnext : ∀ {e : UploadingEvent},
      ((t.uploading.step e).map fun (u, os) => (t.follow u os e, os.map TimedOutput.relay)) =
        some (t', os) → ∃ u os', t.uploading.step e = some (u, os') ∧ t' = t.follow u os' e := by
    intro e h
    obtain ⟨⟨u, os'⟩, hu, hpair⟩ := Option.map_eq_some_iff.mp h
    exact ⟨u, os', hu, (Prod.mk.inj hpair).1.symm⟩
  cases e with
  | timeout =>
    simp only [step] at hstep
    split at hstep
    · cases hstep
    · exact hnext hstep
  | _ => exact hnext hstep

theorem step_justified (ht : t.Justified) (hguard : AcksInTime t e)
    (hstep : t.step e = some (t', os)) : t'.Justified := by
  cases e with
  | uploading e =>
    obtain ⟨u, os', hu, rfl⟩ := step_uploading hstep
    exact ht.follow hguard hu
  | connectWebsocket =>
    simp only [step, Option.map_eq_some_iff] at hstep
    obtain ⟨⟨u, os'⟩, hu, hnext⟩ := hstep
    obtain ⟨rfl, rfl⟩ := Prod.mk.inj hnext
    refine (ht.setUploading fun h => (attempting_of_step hu h).resolve_left nofun).setWebsocket ?_
    rintro new ⟨⟩ ack ⟨⟩
  | ack websocket =>
    simp only [step] at hstep
    split at hstep
    · next ack acks hacks _ =>
      obtain ⟨rfl, rfl⟩ := Prod.mk.inj (Option.some.inj hstep)
      refine (ht.setWebsocket ?_).cancel fun hattempting => ?_
      · rintro new ⟨⟩ other hother
        exact ⟨_, hacks, List.mem_cons_of_mem ack hother⟩
      · exact ht.underway hattempting websocket _ hacks ack List.mem_cons_self
    · cases hstep
  | closed websocket =>
    simp only [step] at hstep
    split at hstep
    · obtain ⟨rfl, rfl⟩ := Prod.mk.inj (Option.some.inj hstep)
      exact ht.setWebsocket nofun
    · cases hstep

def Armed (t : TimedUpload) : Prop :=
  t.uploading.relayTask.isAttempting = true → t.accepted = false → t.handle = some t.attempt

theorem Armed.follow {u : Uploading} {e : UploadingEvent} {os : List Output} (ht : t.Armed)
    (hstep : t.uploading.step e = some (u, os)) : (t.follow u os e).Armed := by
  have hattempting := attempting_of_step hstep
  cases e with
  | attempt schedule => exact fun _ _ => rfl
  | relay e =>
    intro h haccepted
    have hbefore : t.accepted = false := (Bool.or_eq_false_iff.mp haccepted).1
    exact ht ((hattempting h).resolve_left nofun) hbefore
  | _ => exact fun h haccepted => ht ((hattempting h).resolve_left nofun) haccepted

theorem step_armed (ht : t.Justified) (harmed : t.Armed) (hstep : t.step e = some (t', os)) :
    t'.Armed := by
  cases e with
  | uploading e =>
    obtain ⟨u, os', hu, rfl⟩ := step_uploading hstep
    exact harmed.follow hu
  | connectWebsocket =>
    simp only [step, Option.map_eq_some_iff] at hstep
    obtain ⟨⟨u, os'⟩, hu, hnext⟩ := hstep
    obtain ⟨rfl, rfl⟩ := Prod.mk.inj hnext
    exact fun h haccepted => harmed ((attempting_of_step hu h).resolve_left nofun) haccepted
  | ack websocket =>
    simp only [step] at hstep
    split at hstep
    · next ack acks hacks _ =>
      obtain ⟨rfl, rfl⟩ := Prod.mk.inj (Option.some.inj hstep)
      intro h haccepted
      rw [cancel_uploading] at h
      rw [cancel_accepted] at haccepted
      -- The ack is timely, so the attempt is accepted.
      have htimely := ht.underway h websocket _ hacks ack List.mem_cons_self
      exact absurd htimely.2 (Bool.eq_false_iff.mp haccepted)
    · cases hstep
  | closed websocket =>
    simp only [step] at hstep
    split at hstep
    · obtain ⟨rfl, rfl⟩ := Prod.mk.inj (Option.some.inj hstep)
      exact harmed
    · cases hstep

theorem ack_aborts {websocket : Token} {ack : UploadDataAck} {acks : List UploadDataAck}
    (hacks : t.websockets websocket = some (ack :: acks))
    (hattempting : t.uploading.relayTask.isAttempting = true) (hhandle : t.handle = some t.attempt) :
    ∃ t' os, t.step (.ack websocket) = some (t', os) ∧ t'.aborted = some ack ∧
      t'.accepted = t.accepted := by
  have hresult : t.uploading.result = none := by
    unfold Uploading.result
    cases htask : t.uploading.relayTask with
    | attempting upload underway => rfl
    | _ => simp [htask, RelayTask.isAttempting] at hattempting
  simp only [step, hacks, hresult]
  refine ⟨_, _, rfl, ?_, cancel_accepted ack⟩
  simp only [TimedUpload.cancel, hhandle, hattempting, and_self, if_true]

theorem timeout_of_not_aborted (haborted : t.aborted = none)
    (hattempting : t.uploading.relayTask.isAttempting = true) :
    ∃ t' os, t.step (.uploading .timeout) = some (t', os) := by
  cases htask : t.uploading.relayTask with
  | attempting upload underway =>
    simp only [step, haborted, Uploading.step, htask, Option.map_some]
    exact ⟨_, _, rfl⟩
  | _ => simp [htask, RelayTask.isAttempting] at hattempting

end TimedUpload

/-- In a run whose acks come in time, an ack aborts the timeout of an attempt only if the relay
emitted it once it had accepted a `StartUpload` of that attempt; until then the attempt can run
into its timeout. -/
theorem timeout_is_aborted_by_acceptance {tr : Trace TimedEvent TimedOutput}
    (h : (timedUpload metadata encryptedBytes schedule).Path AcksInTime
      (timedUpload metadata encryptedBytes schedule).init tr t) :
    (∀ ack, t.aborted = some ack → ack.emission = ⟨t.attempt, true⟩ ∧ t.accepted = true) ∧
    (t.accepted = false → t.uploading.relayTask.isAttempting = true →
      ∃ t' os, t.step (.uploading .timeout) = some (t', os)) := by
  have hjustified : t.Justified := h.invariant ⟨nofun, nofun⟩
    fun _ _ _ _ ht hguard hstep => TimedUpload.step_justified ht hguard hstep
  refine ⟨hjustified.aborted, fun haccepted hattempting => ?_⟩
  refine TimedUpload.timeout_of_not_aborted ?_ hattempting
  cases haborted : t.aborted with
  | none => rfl
  | some ack =>
    have haccepts := (hjustified.aborted ack haborted).2
    rw [haccepted] at haccepts
    cases haccepts

def ownAck : List TimedEvent :=
  [.connectWebsocket, .uploading (.relay .turn), .uploading (.relay (.websocketResume 0)),
    .uploading (.attempt [1]), .uploading .wake, .uploading .arrive, .uploading (.relay .turn),
    .uploading .answer, .uploading .arrive, .uploading (.relay .turn),
    .uploading (.relay (.websocketInbox 0 true)), .ack 0]

theorem timeout_is_aborted_by_acceptance_own : ∃ tr t,
    (timedUpload "" (List.replicate 28 0) [1]).exec
        (timedUpload "" (List.replicate 28 0) [1]).init ownAck = some (tr, t) ∧
    t.aborted = some ⟨0, ⟨1, true⟩⟩ ∧ t.attempt = 1 ∧ t.accepted = true := by
  obtain ⟨tr, t, hexec, hpath, haborted⟩ : ∃ tr t,
      (timedUpload "" (List.replicate 28 0) [1]).exec
        (timedUpload "" (List.replicate 28 0) [1]).init ownAck =
        some (tr, t) ∧
      (timedUpload "" (List.replicate 28 0) [1]).Path AcksInTime
        (timedUpload "" (List.replicate 28 0) [1]).init tr t ∧
      t.aborted = some ⟨0, ⟨1, true⟩⟩ := by
    refine ⟨_, _, rfl, ?_, rfl⟩
    refine .cons trivial rfl (.cons nofun rfl (.cons nofun rfl (.cons ?_ rfl (.cons trivial rfl
      (.cons trivial rfl (.cons ?_ rfl (.cons trivial rfl (.cons trivial rfl (.cons ?_ rfl
      (.cons ?_ rfl (.cons trivial rfl .refl)))))))))))
    · intro websocket acks hacks
      change Function.update (fun _ : Token => none) 0 (some []) websocket = some acks at hacks
      rw [Function.update_apply] at hacks
      split_ifs at hacks
      exact (Option.some.inj hacks).symm
    · rintro - r os ⟨⟩
      exact .inr rfl
    · rintro - r os ⟨⟩
      exact .inl rfl
    · rintro - r os ⟨⟩
      exact .inl rfl
  obtain ⟨hemission, haccepted⟩ := (timeout_is_aborted_by_acceptance hpath).1 _ haborted
  exact ⟨tr, t, hexec, haborted, (congrArg Emission.attempt hemission).symm, haccepted⟩

/-- The ack of the first attempt is delivered after the second one has begun. -/
theorem late_ack_aborts_the_next_timeout : ∃ tr t,
    (timedUpload "" (List.replicate 28 0) [1]).exec (timedUpload "" (List.replicate 28 0) [1]).init
      [.connectWebsocket, .uploading (.relay .turn), .uploading (.relay (.websocketResume 0)),
        .uploading (.attempt [1]), .uploading .wake, .uploading .arrive, .uploading (.relay .turn),
        .uploading .answer, .uploading .arrive, .uploading (.relay .turn), .uploading .timeout,
        .uploading (.attempt [1]), .uploading (.relay (.websocketInbox 0 true)), .ack 0] =
        some (tr, t) ∧
    t.attempt = 2 ∧ t.aborted = some ⟨0, ⟨1, true⟩⟩ ∧ t.accepted = false ∧
    t.uploading.relayTask.isAttempting = true ∧ t.step (.uploading .timeout) = none :=
  ⟨_, _, rfl, rfl, rfl, rfl, rfl, rfl⟩

/-- The first step that is not in time leaves an attempt that is not accepted with an ack that
aborts its timeout if it is delivered next. -/
theorem late_ack_aborts {tr : Trace TimedEvent TimedOutput}
    (h : (timedUpload metadata encryptedBytes schedule).Path AcksInTime
      (timedUpload metadata encryptedBytes schedule).init tr t)
    (hstep : t.step e = some (t', os)) (hattempting : t'.uploading.relayTask.isAttempting = true)
    (hlate : ¬AcksInTime t e) :
    ∃ websocket ack t'' os', t'.step (.ack websocket) = some (t'', os') ∧
      t''.aborted = some ack ∧ t''.accepted = false := by
  have hboth : t.Justified ∧ t.Armed := by
    refine h.invariant (P := fun t => t.Justified ∧ t.Armed) ⟨⟨nofun, nofun⟩, nofun⟩ ?_
    intro t e t' os ht hguard hstep
    exact ⟨TimedUpload.step_justified ht.1 hguard hstep, TimedUpload.step_armed ht.1 ht.2 hstep⟩
  obtain ⟨hjustified, harmed⟩ := hboth
  have harmed' := TimedUpload.step_armed hjustified harmed hstep
  -- It is enough that an ack is on its way to an attempt that is not accepted.
  have haborts : ∀ websocket ack acks, t'.websockets websocket = some (ack :: acks) →
      t'.accepted = false → ∃ websocket ack t'' os', t'.step (.ack websocket) = some (t'', os') ∧
        t''.aborted = some ack ∧ t''.accepted = false := by
    intro websocket ack acks hacks haccepted
    obtain ⟨t'', os', hack, haborted, hsame⟩ :=
      TimedUpload.ack_aborts hacks hattempting (harmed' hattempting haccepted)
    exact ⟨websocket, ack, t'', os', hack, haborted, hsame.trans haccepted⟩
  cases e with
  | uploading e =>
    obtain ⟨u, os', hu, rfl⟩ := TimedUpload.step_uploading hstep
    cases e with
    | attempt schedule =>
      simp only [AcksInTime, not_forall] at hlate
      obtain ⟨websocket, acks, hacks, hne⟩ := hlate
      obtain ⟨ack, rest, rfl⟩ := List.exists_cons_of_ne_nil hne
      exact haborts websocket ack rest hacks rfl
    | relay e =>
      simp only [AcksInTime, not_forall, not_or] at hlate
      obtain ⟨_, r, os'', hrelay, haccepted, hchanged⟩ := hlate
      obtain ⟨⟨r', _⟩, hrelay', hnext⟩ := Option.map_eq_some_iff.mp hu
      obtain ⟨rfl, rfl⟩ := Prod.mk.inj hnext
      obtain ⟨rfl, rfl⟩ := Prod.mk.inj (Option.some.inj (hrelay.symm.trans hrelay'))
      obtain ⟨websocket, hwebsocket⟩ := Function.ne_iff.mp hchanged
      rcases emit_grows _ t.websockets websocket with hsame | ⟨ack, acks, hacks⟩
      · exact absurd hsame hwebsocket
      · exact haborts websocket ack acks hacks (Bool.eq_false_iff.mpr haccepted)
    | _ => exact absurd trivial hlate
  | _ => exact absurd trivial hlate

end Glopfile.UploaderClient
