import Glopfile.Api.UploadFile
import Glopfile.Relay.UploadAnswers

/-!
# `upload_provisioned_file_async`

An upload with `Transport::Both`, from where its tasks are set up. The relay task retries
`upload_file`, each attempt under a timeout, and its result is the result of the upload; that of
the p2p task is only noted. The requests of the relay task go to the relay one at a time. A
request that has been sent arrives by an event of its own, and may be lost at any time before it
is answered. What becomes of the handler of a request that the client has given up is up to the
relay's events, as are the other clients, the body of the upload and its websocket.
-/

namespace Glopfile.UploaderClient

open EventMachine (Trace)
open Glopfile.Api (Duration Error RetryError Request Upload UploadEvent retryPolicy uploadFile)
open Glopfile.Relay (Attended BodyItem Heard Output Position System SystemEvent Token Waiter
  uploadError uploadPosition)

/-- Where the request of the relay task is: on its way, with its handler, or on its way back. -/
inductive Underway
  | sent (request : Request)
  | start (reply : Waiter)
  | content (token : Token)
  | answered (response : Relay.Response)

inductive RelayTask
  | sleeping
  | attempting (upload : Upload) (underway : Option Underway)
  | returned (result : Except Error Unit)
  | panicked

structure Uploading where
  relay : System
  encryptedBytes : List UInt8
  schedule : List Duration
  relayTask : RelayTask
  p2p : Option (Except Error Unit)

inductive UploadingEvent
  | relay (e : SystemEvent)
  | attempt (schedule : List Duration)
  | wake
  | arrive
  | answer
  | lost (source : String)
  | timeout
  | p2pReturned (result : Except Error Unit)

/-- `IntoResponse`; the relay sets no `Retry-After`. -/
def intoResponse : Relay.Response → Api.Response
  | .ok => ⟨200, none, .ok ⟨some .ok, none⟩⟩
  | .error reason => ⟨200, none, .ok ⟨some (.error reason), none⟩⟩
  | .conflict position => ⟨409, none, .ok ⟨none, some position⟩⟩
  | .notFound => ⟨404, none, .ok ⟨none, none⟩⟩
  | .invalid _ => ⟨400, none, .ok ⟨none, none⟩⟩

def uploadResult : Relay.UploadResult → Relay.Response
  | .ok () => .ok
  | .error error => uploadError error

def route (r : System) : Request → System × Underway
  | .start position => ((r.request (.checkStartUpload position)).1, .start r.fresh)
  | .content _ contentRange =>
    match uploadPosition (some contentRange) with
    | .ok position => ((r.upload position).1, .content r.fresh)
    | .error reason => (r, .answered (.invalid reason))

def Underway.response (r : System) : Underway → Option Relay.Response
  | .start reply => (r.response reply).map fun answer => uploadResult (System.uploadAnswer answer)
  | .answered response => some response
  | _ => none

def responseTo (token : Token) : Output → Option Relay.Response
  | .responded other response => if other = token then some response else none
  | _ => none

def Underway.hear (os : List Output) : Underway → Underway
  | .content token =>
    match os.findSome? (responseTo token) with
    | some response => .answered response
    | none => .content token
  | underway => underway

def RelayTask.hear (os : List Output) : RelayTask → RelayTask
  | .attempting upload underway => .attempting upload (underway.map (Underway.hear os))
  | task => task

namespace Uploading

def result (u : Uploading) : Option (Except Error Unit) :=
  match u.relayTask with
  | .returned result => some result
  | _ => none

def fail (u : Uploading) (error : RetryError) : Uploading :=
  match retryPolicy.delay u.schedule error with
  | some _ => { u with schedule := u.schedule.tail, relayTask := .sleeping }
  | none => { u with relayTask := .returned (.error error.error) }

def proceed (u : Uploading) (next : Upload × List Request) : Uploading :=
  match next.1.phase with
  | .returned (.ok ()) => { u with relayTask := .returned (.ok ()) }
  | .returned (.error error) => u.fail (.ofError error)
  | .panicked => { u with relayTask := .panicked }
  | _ => { u with relayTask := .attempting next.1 (next.2.head?.map .sent) }

def advance (u : Uploading) (upload : Upload) (e : UploadEvent) :
    Option (Uploading × List Output) :=
  (upload.step e).map fun next => (u.proceed next, [])

def step (u : Uploading) : UploadingEvent → Option (Uploading × List Output)
  | .relay e => (u.relay.step e).map fun (relay, os) =>
    ({ u with relay := relay, relayTask := u.relayTask.hear os }, os)
  | .attempt schedule =>
    match u.relayTask with
    | .sleeping => some (u.proceed ((uploadFile u.encryptedBytes schedule).init, []), [])
    | _ => none
  | .wake =>
    match u.relayTask with
    | .attempting upload none => u.advance upload .wake
    | _ => none
  | .arrive =>
    match u.relayTask with
    | .attempting upload (some (.sent request)) =>
      let (relay, underway) := route u.relay request
      some ({ u with relay := relay, relayTask := .attempting upload (some underway) }, [])
    | _ => none
  | .answer =>
    match u.relayTask with
    | .attempting upload (some underway) =>
      match underway.response u.relay with
      | some response => u.advance upload (.answer (.response (intoResponse response)))
      | none => none
    | _ => none
  | .lost source =>
    match u.relayTask with
    | .attempting upload (some _) => u.advance upload (.answer (.failed source))
    | _ => none
  | .timeout =>
    match u.relayTask with
    | .attempting _ _ => some (u.fail (.ofError .timeout), [])
    | _ => none
  -- The loop ends with the relay task.
  | .p2pReturned result =>
    match u.p2p, u.result with
    | none, none => some ({ u with p2p := some result }, [])
    | _, _ => none

end Uploading

def uploadProvisionedFileAsync (metadata : String) (encryptedBytes : List UInt8)
    (schedule : List Duration) : EventMachine Uploading UploadingEvent Output where
  init := ⟨.spawn metadata, encryptedBytes, schedule, .sleeping, none⟩
  step := Uploading.step

def finished (u : Uploading) (before : Bool) : UploadingEvent → List Output → Bool
  | .relay e, _ => before || u.relay.endsFinished e
  | _, _ => before

def observed (metadata : String) (encryptedBytes : List UInt8) (schedule : List Duration) :
    EventMachine (Uploading × Bool) UploadingEvent Output :=
  (uploadProvisionedFileAsync metadata encryptedBytes schedule).withGhost false finished

/-- The p2p task went well and `finish_download` has ended the session, but the upload failed
for want of it. -/
def Disagrees (p : Uploading × Bool) : Prop :=
  p.1.p2p = some (.ok ()) ∧ p.2 = true ∧
    ∃ error, p.1.result = some (.error error) ∧ error.NotFound

def RelayTask.Answered (r : System) : RelayTask → Prop
  | .attempting _ (some (.start reply)) => (r.replies reply).isSome = true
  | .attempting _ (some (.content token)) =>
    ∀ task, r.uploads token = some task → task.Decided r.replies ∨ r.Finishes task
  | _ => True

/-- `finish_download` does not end the session before a request has its answer, and no request
reaches the relay after it. -/
def InTime (p : Uploading × Bool) : UploadingEvent → Prop
  | .arrive => p.2 = false
  | .relay e => p.1.relay.endsFinished e = true → p.1.relayTask.Answered p.1.relay
  | _ => True

variable {metadata : String} {encryptedBytes : List UInt8} {schedule : List Duration}
  {u u' : Uploading} {ended ended' : Bool} {e : UploadingEvent} {os : List Output}
  {task : RelayTask} {r r' : System}

def RelayTask.Found (r : System) : RelayTask → Prop
  | .attempting _ (some (.start reply)) => r.Checks reply
  | .attempting _ (some (.content token)) => r.Attends token
  | .attempting _ (some (.answered response)) => response ≠ .notFound
  | .returned result => ∀ error, result = .error error → ¬error.NotFound
  | _ => True

theorem status_ne_notFound {response : Relay.Response} (h : response ≠ .notFound) :
    (intoResponse response).status ≠ 404 := by
  cases response <;> simp_all [intoResponse]

theorem fail_found {error : RetryError} (herror : ¬error.error.NotFound) :
    (u.fail error).relayTask.Found r := by
  unfold Uploading.fail
  split
  · trivial
  · intro other hother
    cases hother
    exact herror

theorem proceed_found {next : Upload × List Request} (hnext : Upload.EndsFound next) :
    (u.proceed next).relayTask.Found r := by
  unfold Uploading.proceed
  split
  · nofun
  · next error hreturned => exact fail_found (hnext error hreturned)
  · trivial
  · cases next.2.head? <;> trivial

@[simp] theorem fail_relay {error : RetryError} : (u.fail error).relay = u.relay := by
  unfold Uploading.fail
  split <;> rfl

@[simp] theorem proceed_relay {next : Upload × List Request} :
    (u.proceed next).relay = u.relay := by
  unfold Uploading.proceed
  split <;> simp

theorem response_ne_notFound {underway : Underway} {upload : Upload} {response : Relay.Response}
    (h : (RelayTask.attempting upload (some underway)).Found r) (hheard : Heard r)
    (hattended : Attended r) (hresponse : underway.response r = some response) :
    response ≠ .notFound := by
  cases underway with
  | sent request => cases hresponse
  | content token => cases hresponse
  | answered answer =>
    cases hresponse
    exact h
  | start reply =>
    obtain ⟨answer, hanswer, rfl⟩ := Option.map_eq_some_iff.mp hresponse
    obtain ⟨result, hreply, rfl⟩ := System.Checks.answered h hattended hanswer
    cases result with
    | ok _ => nofun
    | error error =>
      intro hnotFound
      rw [Relay.uploadError_eq_notFound hnotFound] at hreply
      exact hheard.found reply hreply

theorem mem_of_responseTo {token : Token} {response : Relay.Response}
    (h : os.findSome? (responseTo token) = some response) :
    Output.responded token response ∈ os := by
  obtain ⟨o, ho, hresponse⟩ := List.exists_of_findSome?_eq_some h
  cases o with
  | responded other response' =>
    simp only [responseTo, Option.ite_none_right_eq_some, Option.some.injEq] at hresponse
    obtain ⟨rfl, rfl⟩ := hresponse
    exact ho
  | handled c effects => cases hresponse
  | took token event => cases hresponse

theorem RelayTask.Found.hear {e : SystemEvent} (h : task.Found r) (hheard : Heard r)
    (hattended : Attended r) (hstep : r.step e = some (r', os))
    (hends : r'.session.running = true ∨ r.session.running = false ∨
      r.endsFinished e = true ∧ task.Answered r) : (task.hear os).Found r' := by
  have hturn : r.endsFinished e = true → e = .turn := by
    intro hfinished
    cases e <;> first | rfl | cases hfinished
  cases task with
  | sleeping => trivial
  | panicked => trivial
  | returned result => exact h
  | attempting upload underway =>
    cases underway with
    | none => trivial
    | some underway =>
      cases underway with
      | sent request => trivial
      | answered response => exact h
      | start reply =>
        refine System.Checks.step h hattended hstep ?_
        rcases hends with hrunning | hstopped | ⟨-, hanswered⟩
        · exact .inl hrunning
        · rcases h with ⟨result, hreply⟩ | ⟨hrunning, -⟩
          · exact .inr (by rw [hreply]; rfl)
          · rw [hstopped] at hrunning
            cases hrunning
        · exact .inr hanswered
      | content token =>
        simp only [RelayTask.hear, Option.map_some, Underway.hear]
        cases hresponse : os.findSome? (responseTo token) with
        | some response =>
          exact System.Attends.responded h hheard hattended hstep (mem_of_responseTo hresponse)
        | none =>
          refine System.Attends.step h hattended hstep ?_
          rcases hends with hrunning | hstopped | ⟨hfinished, hanswered⟩
          · exact .inl hrunning
          · obtain ⟨task, htask, hrunning | hdecided⟩ := h
            · rw [hstopped] at hrunning
              cases hrunning
            · refine .inr fun task' htask' => .inl ?_
              obtain rfl := Option.some.inj (htask.symm.trans htask')
              exact hdecided
          · exact .inr fun task htask =>
              (hanswered task htask).imp_right fun hfinishes => ⟨hturn hfinished, hfinishes⟩

theorem route_found {upload : Upload} {request : Request} (hrunning : r.session.running = true) :
    (RelayTask.attempting upload (some (route r request).2)).Found (route r request).1 := by
  cases request with
  | start position =>
    refine .inr ⟨hrunning, position, ?_⟩
    have hqueue := System.send_queue (r := r.draw 1) (c := .checkStartUpload position r.fresh) hrunning
    exact hqueue ▸ List.mem_append_right _ (List.mem_singleton_self _)
  | content body contentRange =>
    simp only [route]
    split
    · exact ⟨_, Function.update_self _ _ _, .inl hrunning⟩
    · nofun

theorem route_step (r : System) (request : Request) : (route r request).1 = r ∨
    ∃ e os, r.step e = some ((route r request).1, os) := by
  cases request with
  | start position => exact .inr ⟨.checkStartUpload position, _, rfl⟩
  | content body contentRange =>
    simp only [route]
    split
    · next position _ => exact .inr ⟨.upload position, _, rfl⟩
    · exact .inl rfl

inductive Changed (p : Uploading × Bool) : UploadingEvent → Uploading × Bool → List Output → Prop
  | relay {e : SystemEvent} {r' : System} {os : List Output}
      (hstep : p.1.relay.step e = some (r', os)) :
      Changed p (.relay e) ({ p.1 with relay := r', relayTask := p.1.relayTask.hear os },
        p.2 || p.1.relay.endsFinished e) os
  | arrive {upload : Upload} {request : Request}
      (htask : p.1.relayTask = .attempting upload (some (.sent request))) :
      Changed p .arrive ({ p.1 with
        relay := (route p.1.relay request).1
        relayTask := .attempting upload (some (route p.1.relay request).2) }, p.2) []
  | client {e : UploadingEvent} {u' : Uploading} (hrelay : u'.relay = p.1.relay)
      (hfound : Heard p.1.relay → Attended p.1.relay → p.1.relayTask.Found p.1.relay →
        u'.relayTask.Found p.1.relay) :
      Changed p e (u', p.2) []

theorem advance_changed {p : Uploading × Bool} {upload : Upload} {answered : UploadEvent}
    (hadvance : p.1.advance upload answered = some (u', os))
    (hstatus : Heard p.1.relay → Attended p.1.relay → p.1.relayTask.Found p.1.relay →
      ∀ response, answered = .answer (.response response) → response.status ≠ 404) :
    Changed p e (u', p.2) os := by
  obtain ⟨next, hstep, hnext⟩ := Option.map_eq_some_iff.mp hadvance
  obtain ⟨rfl, rfl⟩ := Prod.mk.inj hnext
  exact .client proceed_relay fun hheard hattended hfound =>
    proceed_found (Upload.EndsFound.step hstep (hstatus hheard hattended hfound))

theorem step_changed {p q : Uploading × Bool}
    (hobserved : (observed metadata encryptedBytes schedule).step p e = some (q, os)) :
    Changed p e q os := by
  obtain ⟨u, ended⟩ := p
  obtain ⟨u', ended'⟩ := q
  obtain ⟨hstep, rfl⟩ := EventMachine.withGhost_step.mp hobserved
  change u.step e = some (u', os) at hstep
  cases e with
  | relay e =>
    obtain ⟨⟨r', os'⟩, hrelay, hnext⟩ := Option.map_eq_some_iff.mp hstep
    obtain ⟨rfl, rfl⟩ := Prod.mk.inj hnext
    exact .relay hrelay
  | attempt schedule =>
    simp only [Uploading.step] at hstep
    split at hstep
    · cases hstep
      refine .client proceed_relay fun _ _ _ => proceed_found fun error hreturned => ?_
      dsimp only [uploadFile] at hreturned
      split_ifs at hreturned
    · cases hstep
  | wake =>
    simp only [Uploading.step] at hstep
    split at hstep
    · exact advance_changed hstep fun _ _ _ _ he => by cases he
    · cases hstep
  | arrive =>
    simp only [Uploading.step] at hstep
    split at hstep
    · next upload request htask =>
      cases hstep
      exact .arrive htask
    · cases hstep
  | answer =>
    simp only [Uploading.step] at hstep
    split at hstep
    · next upload underway htask =>
      split at hstep
      · next response hresponse =>
        refine advance_changed hstep fun hheard hattended hfound response' he => ?_
        cases he
        rw [htask] at hfound
        exact status_ne_notFound (response_ne_notFound hfound hheard hattended hresponse)
      · cases hstep
    · cases hstep
  | lost source =>
    simp only [Uploading.step] at hstep
    split at hstep
    · exact advance_changed hstep fun _ _ _ _ he => by cases he
    · cases hstep
  | timeout =>
    simp only [Uploading.step] at hstep
    split at hstep
    · cases hstep
      exact .client fail_relay fun _ _ _ => fail_found nofun
    · cases hstep
  | p2pReturned result =>
    simp only [Uploading.step] at hstep
    split at hstep
    · cases hstep
      exact .client rfl fun _ _ => id
    · cases hstep

structure Tracked (p : Uploading × Bool) : Prop where
  attended : Attended p.1.relay
  heard : Heard p.1.relay
  stopped : p.2 = true → p.1.relay.session.running = false

def Served (p : Uploading × Bool) : Prop :=
  p.1.relay.session.running = true ∨ p.2 = true → p.1.relayTask.Found p.1.relay

namespace Tracked

theorem init : Tracked (observed metadata encryptedBytes schedule).init where
  attended := .spawn
  heard := .spawn
  stopped := nofun

theorem change {p q : Uploading × Bool} (h : Tracked p) (hchanged : Changed p e q os) :
    Tracked q := by
  have hgoes : ∀ {e : SystemEvent} {r' : System} {os : List Output},
      p.1.relay.step e = some (r', os) → Attended r' ∧ Heard r' ∧
        (p.2 = true → r'.session.running = false) := by
    intro e r' os hstep
    have hchange := System.step_change hstep
    refine ⟨h.attended.change hchange, h.heard.change h.attended hchange, fun hended => ?_⟩
    by_contra hne
    have hstopped := h.stopped hended
    rw [hchange.running (by simpa using hne)] at hstopped
    cases hstopped
  cases hchanged with
  | relay hstep =>
    obtain ⟨hattended, hheard, hstopped⟩ := hgoes hstep
    refine ⟨hattended, hheard, fun hends => ?_⟩
    rcases Bool.or_eq_true_iff.mp hends with hended | hfinished
    · exact hstopped hended
    · exact System.stopped_of_endsFinished hfinished hstep
  | @arrive upload request htask =>
    rcases route_step p.1.relay request with hsame | ⟨e, os, hstep⟩
    · simp only [hsame]
      exact ⟨h.attended, h.heard, h.stopped⟩
    · obtain ⟨hattended, hheard, hstopped⟩ := hgoes hstep
      exact ⟨hattended, hheard, hstopped⟩
  | client hrelay hfound =>
    exact ⟨by rw [hrelay]; exact h.attended, by rw [hrelay]; exact h.heard,
      by rw [hrelay]; exact h.stopped⟩

theorem served {p q : Uploading × Bool} (h : Tracked p) (hfound : Served p) (hguard : InTime p e)
    (hchanged : Changed p e q os) : Served q := by
  intro hends
  cases hchanged with
  | relay hstep =>
    rcases hends with hrunning | hends
    · have hbefore := (System.step_change hstep).running hrunning
      exact (hfound (.inl hbefore)).hear h.heard h.attended hstep (.inl hrunning)
    · rcases Bool.or_eq_true_iff.mp hends with hended | hfinished
      · exact (hfound (.inr hended)).hear h.heard h.attended hstep
          (.inr (.inl (h.stopped hended)))
      · have hbefore := System.running_of_endsFinished hfinished
        exact (hfound (.inl hbefore)).hear h.heard h.attended hstep
          (.inr (.inr ⟨hfinished, hguard hfinished⟩))
  | @arrive upload request htask =>
    have hended : p.2 = false := hguard
    have hrunning := hends.resolve_right (by simp [hended])
    refine route_found ?_
    rcases route_step p.1.relay request with hsame | ⟨e, os, hstep⟩
    · rwa [hsame] at hrunning
    · exact (System.step_change hstep).running hrunning
  | client hrelay hkeeps =>
    rw [hrelay] at hends ⊢
    exact hkeeps h.heard h.attended (hfound hends)

end Tracked

/-- A run in which every step comes in time does not leave the two sides with different
results. -/
theorem upload_agrees {tr : Trace UploadingEvent Output} {p : Uploading × Bool}
    (hrun : (observed metadata encryptedBytes schedule).Path InTime
      (observed metadata encryptedBytes schedule).init tr p) : ¬Disagrees p := by
  have h : Tracked p ∧ Served p := by
    refine hrun.invariant (P := fun p => Tracked p ∧ Served p) ⟨.init, fun _ => trivial⟩ ?_
    intro p e q os h hguard hstep
    exact ⟨h.1.change (step_changed hstep), h.1.served h.2 hguard (step_changed hstep)⟩
  rintro ⟨-, hended, error, hresult, hnotFound⟩
  have hfound := h.2 (.inr hended)
  unfold Uploading.result at hresult
  split at hresult
  · next result htask =>
    rw [htask] at hfound
    exact hfound error (Option.some.inj hresult) hnotFound
  · cases hresult

/-- The upload cannot do without a session: 404 is permanent, for the attempt and for the task. -/
theorem answer_notFound {upload : Upload} {underway : Underway}
    (htask : u.relayTask = .attempting upload (some underway))
    (hphase : (∃ position sendBytes contentRange,
      upload.phase = .starting position sendBytes contentRange) ∨
      ∃ position, upload.phase = .posting position)
    (hresponse : underway.response u.relay = some .notFound) :
    ∃ error, u.step .answer = some ({ u with relayTask := .returned (.error error) }, []) ∧
      error.NotFound := by
  refine ⟨.clientHttpErrorResponse "failed to upload content" 404 none, ?_, _, _, rfl⟩
  have hrefused : ∀ position, (upload.handleResponse position (intoResponse .notFound)).1.phase =
      .returned (.error (.clientHttpErrorResponse "failed to upload content" 404 none)) := by
    intro position
    rfl
  have hstep : ∃ next, upload.step (.answer (.response (intoResponse .notFound))) = some next ∧
      next.1.phase =
        .returned (.error (.clientHttpErrorResponse "failed to upload content" 404 none)) := by
    rcases hphase with ⟨position, sendBytes, contentRange, hphase⟩ | ⟨position, hphase⟩
    · exact ⟨_, by simp only [Upload.step, hphase]; rfl, hrefused position⟩
    · exact ⟨_, by simp only [Upload.step, hphase], hrefused position⟩
  obtain ⟨next, hnext, hreturned⟩ := hstep
  simp only [Uploading.step, htask, hresponse, Uploading.advance, hnext, Option.map_some,
    Uploading.proceed, hreturned]
  rfl

theorem response_of_stopped {waiter : Waiter} (hstopped : r.session.running = false)
    (hnone : r.replies waiter = none) : r.response waiter = some none := by
  simp [System.response, System.replyHeld, hstopped, hnone]

theorem late_start_fails {upload : Upload} {position : Position} {sendBytes : List UInt8}
    {contentRange : Relay.HeaderValue} (h : Tracked (u, true))
    (htask : u.relayTask = .attempting upload (some (.sent (.start position))))
    (hphase : upload.phase = .starting position sendBytes contentRange) :
    ∃ u' error, (observed metadata encryptedBytes schedule).exec (u, true) [.arrive, .answer] =
      some ([(.arrive, []), (.answer, [])], (u', true)) ∧ u'.result = some (.error error) ∧
      error.NotFound := by
  let v : Uploading := { u with
    relay := (u.relay.request (.checkStartUpload position)).1
    relayTask := .attempting upload (some (.start u.relay.fresh)) }
  have harrive : u.step .arrive = some (v, []) := by
    simp only [Uploading.step, htask]
    rfl
  have hresponse : (Underway.start u.relay.fresh).response v.relay = some .notFound := by
    rw [Underway.response, response_of_stopped (r := v.relay) (h.stopped rfl)
      (h.attended.undrawn _ (Nat.le_refl _))]
    rfl
  obtain ⟨error, hanswer, hnotFound⟩ :=
    answer_notFound (u := v) rfl (.inl ⟨position, sendBytes, contentRange, hphase⟩) hresponse
  refine ⟨{ v with relayTask := .returned (.error error) }, error, ?_, rfl, hnotFound⟩
  simp only [EventMachine.exec, observed, EventMachine.withGhost, uploadProvisionedFileAsync,
    harrive, hanswer, Option.map_some, finished]

theorem inTime_of_not_ended {tr : Trace UploadingEvent Output} {p : Uploading × Bool}
    (hrun : (observed metadata encryptedBytes schedule).Run tr p) (hended : p.2 = false) :
    (observed metadata encryptedBytes schedule).Path InTime
      (observed metadata encryptedBytes schedule).init tr p := by
  unfold EventMachine.Run at hrun
  induction hrun with
  | refl => exact .refl
  | @snoc tr p q e os hpath _ hstep ih =>
    obtain ⟨u', ended'⟩ := q
    obtain ⟨-, rfl⟩ := EventMachine.withGhost_step.mp hstep
    have hbefore : p.2 = false ∧ InTime p e := by
      cases e with
      | relay e =>
        obtain ⟨hbefore, hgoes⟩ := Bool.or_eq_false_iff.mp hended
        exact ⟨hbefore, fun hfinished => absurd (hgoes.symm.trans hfinished) nofun⟩
      | arrive => exact ⟨hended, hended⟩
      | _ => exact ⟨hended, trivial⟩
    exact .snoc (ih hbefore.1) hbefore.2 hstep

def finishedWhilePending : List UploadingEvent :=
  [.attempt [1], .wake, .arrive, .relay .turn, .answer, .arrive, .relay .turn,
    .relay (.uploadResume 1), .relay .turn, .relay (.uploadResume 1),
    .relay (.uploadBody 1 (.chunk (List.replicate 28 0))), .relay (.uploadBody 1 .eof),
    .relay .turn, .p2pReturned (.ok ()), .relay .finishDownload]

theorem upload_agrees_finished : ∃ tr t tr' p,
    (observed "" (List.replicate 28 0) [1]).exec
        (observed "" (List.replicate 28 0) [1]).init finishedWhilePending = some (tr, t) ∧
    (observed "" (List.replicate 28 0) [1]).exec t
      [.relay .turn, .relay (.uploadResume 1), .answer] = some (tr', p) ∧
    p.1.p2p = some (.ok ()) ∧ p.2 = true ∧ p.1.result = some (.ok ()) ∧ ¬Disagrees p := by
  have hexec :
      (observed "" (List.replicate 28 0) [1]).exec
          (observed "" (List.replicate 28 0) [1]).init finishedWhilePending = some (_, _) := rfl
  have hpath := inTime_of_not_ended (EventMachine.exec_run _ hexec) rfl
  refine ⟨_, _, _, _, hexec, rfl, rfl, rfl, rfl, upload_agrees (.snoc (e := .answer)
    (.snoc (e := .relay (.uploadResume 1)) (.snoc (e := .relay .turn) hpath ?_ rfl) ?_ rfl)
    ?_ rfl)⟩
  · rintro - task ⟨⟩
    exact .inr ⟨6, [], 5, rfl, rfl, rfl, rfl⟩
  · nofun
  · trivial

/-- The downloader has it all by p2p, and finishes while `/start` is on its way. -/
theorem upload_disagrees : ¬∀ tr p,
    (observed "" (List.replicate 28 0) [1]).Run tr p → ¬Disagrees p := by
  intro h
  have hexec :
      (observed "" (List.replicate 28 0) [1]).exec (observed "" (List.replicate 28 0) [1]).init
        [.attempt [1], .wake, .relay .finishDownload, .p2pReturned (.ok ()), .relay .turn, .arrive,
          .answer] = some (_, _) := rfl
  exact h _ _ (EventMachine.exec_run _ hexec) ⟨rfl, rfl, _, rfl, _, _, rfl⟩

end Glopfile.UploaderClient
