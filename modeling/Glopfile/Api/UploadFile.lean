import Glopfile.Api.Retry
import Glopfile.Relay.Range

/-!
# `ApiClient::upload_file`

An attempt is a loop. Each round asks the server whether it may start at a position and then
posts the rest of the file; an answer 409 names the position of the next round. The position is
shared by the attempts, and is stored before it is compared with the size of the file.

An event is the end of a delay, or the server's answer to the request that is under way. What
the deserializer makes of a body is part of the answer.
-/

namespace Glopfile.Api

open HeaderText
open EventMachine (Trace)
open Glopfile.Relay (HeaderValue Position uploadPosition downloadPosition)

inductive UploadResponse
  | ok
  | error (reason : String)
  deriving DecidableEq, Repr

structure Body where
  uploadResponse : Option UploadResponse
  conflictResponse : Option Position
  deriving DecidableEq, Repr

/-- A response; `body` is the text of the transport error when it cannot be read. -/
structure Response where
  status : UInt16
  retryAfter : Option HeaderValue
  body : Except String Body

inductive Answer
  | failed (source : String)
  | response (response : Response)

inductive Request
  | start (position : Position)
  | content (body : List UInt8) (contentRange : HeaderValue)
  deriving DecidableEq, Repr

inductive UploadPhase
  | sleeping
  | starting (position : Position) (sendBytes : List UInt8) (contentRange : HeaderValue)
  | posting (position : Position)
  | returned (result : Except Error Unit)
  | panicked

structure Upload where
  encryptedBytes : List UInt8
  schedule : List Duration
  positionShared : Position
  phase : UploadPhase

inductive UploadEvent
  | wake
  | answer (answer : Answer)

def Response.okOr (r : Response) (message : String) : Except Error Response :=
  if isSuccess r.status then .ok r
  else
    match r.retryAfter with
    | none => .error (.clientHttpErrorResponse message r.status none)
    | some header =>
      match parseRetryAfter header with
      | .error error => .error error
      | .ok retryAfter => .error (.clientHttpErrorResponse message r.status retryAfter)

def UploadResponse.okOr (r : UploadResponse) (message : String) : Except Error Unit :=
  match r with
  | .ok => .ok ()
  | .error reason => .error (.clientApiErrorResponse message reason)

def contentRange (position fileSize : ℕ) : List Char :=
  if position < fileSize then
    "bytes ".toList ++ ((decimal position ++ '-' :: decimal (fileSize - 1)) ++
      '/' :: decimal fileSize)
  else "bytes ".toList ++ (['*'] ++ '/' :: decimal fileSize)

namespace Upload

def fileSize (u : Upload) : ℕ := u.encryptedBytes.length

def fail (u : Upload) (error : RetryError) : Upload :=
  match retryPolicy.delay u.schedule error with
  | some _ => { u with schedule := u.schedule.tail, phase := .sleeping }
  | none => { u with phase := .returned (.error error.error) }

/-- A round of the loop up to its first request; slicing panics beyond the end. -/
def round (u : Upload) : Upload × List Request :=
  let position := u.positionShared
  if position ≤ u.fileSize then
    ({ u with phase := .starting position (u.encryptedBytes.drop position)
                (encode (contentRange position u.fileSize)) }, [.start position])
  else ({ u with phase := .panicked }, [])

def conflict (u : Upload) (oldPosition position : Position) : Upload × List Request :=
  let u := { u with positionShared := position }
  if position > u.fileSize then
    let message := s!"Downloader requested file position {position} " ++
      s!"which is greater than file size {u.fileSize}."
    (u.fail (.ofError (.invalidPeerMessage message)), [])
  else if position = oldPosition then
    (u.fail (.transient (.clientHttpErrorResponse
      "Spurious 409 Conflict response from server; identical offset." 409 none)), [])
  else u.round

def handleResponse (u : Upload) (position : Position) (r : Response) : Upload × List Request :=
  if r.status = 409 then
    match r.body with
    | .error source => (u.fail (.ofError (.httpClient source)), [])
    | .ok body =>
      match body.conflictResponse with
      | none => (u.fail (.ofError (.invalidServerResponse "Invalid conflict error response")), [])
      | some next => u.conflict position next
  else
    match r.okOr "failed to upload content" with
    | .error error => (u.fail (.ofError error), [])
    | .ok r =>
      match r.body with
      | .error source => (u.fail (.ofError (.httpClient source)), [])
      | .ok body =>
        match body.uploadResponse with
        | none => (u.fail (.ofError (.invalidServerResponse "Invalid upload response")), [])
        | some response =>
          match response.okOr "failed to upload" with
          | .error error => (u.fail (.ofError error), [])
          | .ok () => ({ u with phase := .returned (.ok ()) }, [])

def handleStart (u : Upload) (position : Position) (sendBytes : List UInt8)
    (contentRange : HeaderValue) (r : Response) : Upload × List Request :=
  if isSuccess r.status then
    match r.body with
    | .error source => (u.fail (.ofError (.httpClient source)), [])
    | .ok body =>
      match body.uploadResponse with
      | none => (u.fail (.ofError (.invalidServerResponse "Invalid start upload response")), [])
      | some response =>
        match response.okOr "failed to start upload" with
        | .error error => (u.fail (.ofError error), [])
        | .ok () => ({ u with phase := .posting position }, [.content sendBytes contentRange])
  else u.handleResponse position r

def step (u : Upload) (e : UploadEvent) : Option (Upload × List Request) :=
  match u.phase, e with
  | .sleeping, .wake => some u.round
  | .starting _ _ _, .answer (.failed source) | .posting _, .answer (.failed source) =>
    some (u.fail (.ofError (.httpClient source)), [])
  | .starting position sendBytes contentRange, .answer (.response r) =>
    some (u.handleStart position sendBytes contentRange r)
  | .posting position, .answer (.response r) => some (u.handleResponse position r)
  | _, _ => none

end Upload

/-- The first attempt starts without a delay. `file_size - 1` panics when there is nothing to
upload. -/
def uploadFile (encryptedBytes : List UInt8) (schedule : List Duration) :
    EventMachine Upload UploadEvent Request where
  init := ⟨encryptedBytes, schedule, 0, if encryptedBytes = [] then .panicked else .sleeping⟩
  step := Upload.step

def downloadRange (contentOffset : ℕ) : HeaderValue :=
  encode ("bytes=".toList ++ (decimal contentOffset ++ ['-']))

def finishRange : HeaderValue := encode "bytes=-0".toList

variable {u : Upload} {encryptedBytes : List UInt8} {position : Position} {error : RetryError}
  {response : Response} {schedule : List Duration}

def Request.Valid (encryptedBytes : List UInt8) : Request → Prop
  | .start position => position ≤ encryptedBytes.length
  | .content body contentRange => ∃ position ≤ encryptedBytes.length,
      body = encryptedBytes.drop position ∧ uploadPosition (some contentRange) = .ok position

/-- The shared position lies in the file as long as another round may come. -/
def Upload.Sound (encryptedBytes : List UInt8) (u : Upload) : Prop :=
  u.encryptedBytes = encryptedBytes ∧
    match u.phase with
    | .sleeping | .posting _ => u.positionShared ≤ u.fileSize
    | .starting _ sendBytes contentRange =>
      u.positionShared ≤ u.fileSize ∧
        (Request.content sendBytes contentRange).Valid encryptedBytes
    | .returned _ => True
    | .panicked => False

theorem uploadPosition_contentRange {fileSize : ℕ} (hle : position ≤ fileSize)
    (hpos : 0 < fileSize) (hlt : fileSize < 2 ^ 64) :
    uploadPosition (some (encode (contentRange position fileSize))) = .ok position := by
  unfold contentRange
  split_ifs with hrest
  · obtain ⟨last, rfl⟩ := Nat.exists_eq_succ_of_ne_zero (Nat.ne_of_gt hpos)
    exact Relay.uploadPosition_range (Nat.lt_trans hrest hlt) hlt
  · obtain rfl : position = fileSize := Nat.le_antisymm hle (Nat.le_of_not_lt hrest)
    exact Relay.uploadPosition_star hlt

namespace Upload.Sound

theorem fail (h : u.encryptedBytes = encryptedBytes)
    (hposition : u.positionShared ≤ u.fileSize ∨ error.retriability = .permanent) :
    (u.fail error).Sound encryptedBytes := by
  unfold Upload.fail
  cases hdelay : retryPolicy.delay u.schedule error with
  | none => exact ⟨h, trivial⟩
  | some delay =>
    refine ⟨h, hposition.resolve_right fun hpermanent => ?_⟩
    rw [delay_eq_none_iff.mpr (.inl hpermanent)] at hdelay
    cases hdelay

end Upload.Sound

def Keeps (encryptedBytes : List UInt8) (next : Upload × List Request) : Prop :=
  next.1.Sound encryptedBytes ∧ ∀ o ∈ next.2, o.Valid encryptedBytes

theorem Keeps.fail (h : u.encryptedBytes = encryptedBytes)
    (hposition : u.positionShared ≤ u.fileSize ∨ error.retriability = .permanent) :
    Keeps encryptedBytes (u.fail error, []) := ⟨.fail h hposition, by simp⟩

section
variable (hpos : 0 < encryptedBytes.length) (hlt : encryptedBytes.length < 2 ^ 64)
include hpos hlt

theorem round_keeps (h : u.encryptedBytes = encryptedBytes)
    (hposition : u.positionShared ≤ u.fileSize) : Keeps encryptedBytes u.round := by
  subst h
  rw [Upload.round, if_pos hposition]
  refine ⟨⟨rfl, hposition, u.positionShared, hposition, rfl, ?_⟩, ?_⟩
  · exact uploadPosition_contentRange hposition hpos hlt
  · intro o ho
    obtain rfl := List.mem_singleton.mp ho
    exact hposition

theorem conflict_keeps (h : u.encryptedBytes = encryptedBytes) (oldPosition : Position) :
    Keeps encryptedBytes (u.conflict oldPosition position) := by
  unfold Upload.conflict
  dsimp only
  split_ifs with hbeyond hsame
  -- The position is out of the file, but there will be no other round.
  · exact .fail h (.inr rfl)
  · exact .fail h (.inl (Nat.le_of_not_lt hbeyond))
  · exact round_keeps hpos hlt h (Nat.le_of_not_lt hbeyond)

theorem handleResponse_keeps (h : u.encryptedBytes = encryptedBytes)
    (hposition : u.positionShared ≤ u.fileSize) :
    Keeps encryptedBytes (u.handleResponse position response) := by
  have hfail : ∀ error, Keeps encryptedBytes (u.fail error, []) := fun error =>
    .fail h (.inl hposition)
  unfold Upload.handleResponse
  split
  · split
    · exact hfail _
    · split
      · exact hfail _
      · exact conflict_keeps hpos hlt h position
  · split
    · exact hfail _
    · split
      · exact hfail _
      · split
        · exact hfail _
        · split
          · exact hfail _
          · exact ⟨⟨h, trivial⟩, by simp⟩

theorem handleStart_keeps {sendBytes : List UInt8} {range : HeaderValue}
    (h : u.encryptedBytes = encryptedBytes) (hposition : u.positionShared ≤ u.fileSize)
    (hrequest : (Request.content sendBytes range).Valid encryptedBytes) :
    Keeps encryptedBytes (u.handleStart position sendBytes range response) := by
  have hfail : ∀ error, Keeps encryptedBytes (u.fail error, []) := fun error =>
    .fail h (.inl hposition)
  unfold Upload.handleStart
  split
  · split
    · exact hfail _
    · split
      · exact hfail _
      · split
        · exact hfail _
        · exact ⟨⟨h, hposition⟩, by simpa using hrequest⟩
  · exact handleResponse_keeps hpos hlt h hposition

theorem step_keeps {e : UploadEvent} {next : Upload × List Request}
    (h : u.Sound encryptedBytes) (hstep : u.step e = some next) : Keeps encryptedBytes next := by
  obtain ⟨hbytes, hphase⟩ := h
  unfold Upload.step at hstep
  split at hstep
  · next hsleeping =>
    obtain rfl := Option.some.inj hstep
    exact round_keeps hpos hlt hbytes (by simpa [hsleeping] using hphase)
  · next hstarting =>
    obtain rfl := Option.some.inj hstep
    rw [hstarting] at hphase
    exact .fail hbytes (.inl hphase.1)
  · next hposting =>
    obtain rfl := Option.some.inj hstep
    rw [hposting] at hphase
    exact .fail hbytes (.inl hphase)
  · next hstarting =>
    obtain rfl := Option.some.inj hstep
    rw [hstarting] at hphase
    exact handleStart_keeps hpos hlt hbytes hphase.1 hphase.2
  · next hposting =>
    obtain rfl := Option.some.inj hstep
    rw [hposting] at hphase
    exact handleResponse_keeps hpos hlt hbytes hphase
  · cases hstep

theorem run_keeps {tr : Trace UploadEvent Request}
    (hrun : (uploadFile encryptedBytes schedule).Run tr u) :
    u.Sound encryptedBytes ∧ ∀ o ∈ tr.flatMap Prod.snd, o.Valid encryptedBytes := by
  have hne : encryptedBytes ≠ [] := List.ne_nil_of_length_pos hpos
  have hstart : (uploadFile encryptedBytes schedule).init.Sound encryptedBytes :=
    ⟨rfl, by simp [uploadFile, hne]⟩
  refine hrun.history (P := fun tr u => u.Sound encryptedBytes ∧
    ∀ o ∈ tr.flatMap Prod.snd, o.Valid encryptedBytes) ⟨hstart, by simp⟩ ?_
  intro tr u e next os _ ih _ hstep
  have hkeeps := step_keeps hpos hlt ih.1 hstep
  refine ⟨hkeeps.1, fun o ho => ?_⟩
  rw [List.flatMap_append, List.mem_append] at ho
  rcases ho with ho | ho
  · exact ih.2 o ho
  · exact hkeeps.2 o (by simpa using ho)

end

theorem Response.okOr_notFound {message : String} {error : Error} (hstatus : response.status ≠ 404)
    (hok : response.okOr message = .error error) : ¬error.NotFound := by
  rintro ⟨message', retryAfter, rfl⟩
  unfold Response.okOr at hok
  split_ifs at hok
  cases hheader : response.retryAfter with
  | none =>
    simp only [hheader, Except.error.injEq, Error.clientHttpErrorResponse.injEq] at hok
    exact hstatus hok.2.1
  | some header =>
    simp only [hheader] at hok
    cases hparse : parseRetryAfter header with
    | ok retryAfter =>
      simp only [hparse, Except.error.injEq, Error.clientHttpErrorResponse.injEq] at hok
      exact hstatus hok.2.1
    | error error =>
      simp only [hparse] at hok
      cases hok
      unfold parseRetryAfter at hparse
      split at hparse
      · cases hparse
      · split at hparse <;> cases hparse

theorem UploadResponse.okOr_notFound {uploaded : UploadResponse} {message : String} {error : Error}
    (hok : uploaded.okOr message = .error error) : ¬error.NotFound := by
  cases uploaded with
  | ok => cases hok
  | error reason =>
    cases hok
    nofun

/-- An attempt that ends with this step does not end because the server answered 404. -/
def Upload.EndsFound (next : Upload × List Request) : Prop :=
  ∀ error, next.1.phase = .returned (.error error) → ¬error.NotFound

namespace Upload.EndsFound

theorem fail (herror : ¬error.error.NotFound) : EndsFound (u.fail error, []) := by
  intro other hreturned
  unfold Upload.fail at hreturned
  split at hreturned
  · cases hreturned
  · cases hreturned
    exact herror

theorem ofError {other : Error} (hother : ¬other.NotFound) :
    EndsFound (u.fail (.ofError other), []) := fail hother

theorem round : EndsFound u.round := by
  intro error hreturned
  unfold Upload.round at hreturned
  dsimp only at hreturned
  split_ifs at hreturned

theorem conflict {oldPosition : Position} : EndsFound (u.conflict oldPosition position) := by
  unfold Upload.conflict
  dsimp only
  split_ifs
  · exact ofError nofun
  · exact fail (by simp [Error.NotFound, RetryError.transient])
  · exact round

theorem handleResponse (hstatus : response.status ≠ 404) :
    EndsFound (u.handleResponse position response) := by
  unfold Upload.handleResponse
  split
  · split
    · exact ofError nofun
    · split
      · exact ofError nofun
      · exact conflict
  · split
    · next hok => exact ofError (Response.okOr_notFound hstatus hok)
    · split
      · exact ofError nofun
      · split
        · exact ofError nofun
        · split
          · next herror => exact ofError (UploadResponse.okOr_notFound herror)
          · intro error hreturned
            cases hreturned

theorem handleStart {sendBytes : List UInt8} {range : HeaderValue}
    (hstatus : response.status ≠ 404) :
    EndsFound (u.handleStart position sendBytes range response) := by
  unfold Upload.handleStart
  split
  · split
    · exact ofError nofun
    · split
      · exact ofError nofun
      · split
        · next herror => exact ofError (UploadResponse.okOr_notFound herror)
        · intro error hreturned
          cases hreturned
  · exact handleResponse hstatus

theorem step {e : UploadEvent} {next : Upload × List Request} (hstep : u.step e = some next)
    (hstatus : ∀ response, e = .answer (.response response) → response.status ≠ 404) :
    EndsFound next := by
  unfold Upload.step at hstep
  split at hstep
  · cases hstep
    exact round
  · cases hstep
    exact ofError nofun
  · cases hstep
    exact ofError nofun
  · cases hstep
    exact handleStart (hstatus _ rfl)
  · cases hstep
    exact handleResponse (hstatus _ rfl)
  · cases hstep

end Upload.EndsFound

theorem conflict_beyond (oldPosition : Position) (hbeyond : u.fileSize < position) :
    ∃ error, u.conflict oldPosition position =
      ({ u with positionShared := position, phase := .returned (.error error) }, []) := by
  unfold Upload.conflict
  dsimp only
  split_ifs with h
  · exact ⟨_, rfl⟩
  · exact absurd hbeyond h
  · exact absurd hbeyond h

theorem step_conflict_beyond {next : Upload} {os : List Request} {body : Body}
    (hstep : u.step (.answer (.response response)) = some (next, os))
    (hstatus : response.status = 409) (hbody : response.body = .ok body)
    (hconflict : body.conflictResponse = some position) (hbeyond : u.fileSize < position) :
    os = [] ∧ ∃ error, next.phase = .returned (.error error) := by
  have hanswer : ∀ oldPosition, u.handleResponse oldPosition response =
      u.conflict oldPosition position := fun oldPosition => by
    simp only [Upload.handleResponse, hstatus, if_true, hbody, hconflict]
  have hrefused : isSuccess response.status = false := by
    rw [hstatus]
    rfl
  unfold Upload.step at hstep
  cases hphase : u.phase with
  | starting oldPosition sendBytes range =>
    obtain ⟨error, heq⟩ := conflict_beyond oldPosition hbeyond
    simp only [hphase, Upload.handleStart, hrefused, hanswer, heq] at hstep
    obtain ⟨rfl, rfl⟩ := Prod.mk.inj (Option.some.inj hstep)
    exact ⟨rfl, error, rfl⟩
  | posting oldPosition =>
    obtain ⟨error, heq⟩ := conflict_beyond oldPosition hbeyond
    simp only [hphase, hanswer, heq] at hstep
    obtain ⟨rfl, rfl⟩ := Prod.mk.inj (Option.some.inj hstep)
    exact ⟨rfl, error, rfl⟩
  | sleeping => simp [hphase] at hstep
  | returned result => simp [hphase] at hstep
  | panicked => simp [hphase] at hstep

/-- A server that answers in whatever way gets from an upload only requests that its parser
reads as they are meant, and none after a conflict beyond the end of the file. The ranges of
the downloads are read back as well. -/
theorem headers_agree (hsize : 28 ≤ encryptedBytes.length)
    (hlt : encryptedBytes.length < 2 ^ 64) (schedule : List Duration) :
    (∀ tr u, (uploadFile encryptedBytes schedule).Run tr u →
      u.phase ≠ .panicked ∧
      (∀ body contentRange, Request.content body contentRange ∈ tr.flatMap Prod.snd →
        ∃ position ≤ encryptedBytes.length, body = encryptedBytes.drop position ∧
          uploadPosition (some contentRange) = .ok position) ∧
      ∀ pre r body position os suf, tr = pre ++ (.answer (.response r), os) :: suf →
        r.status = 409 → r.body = .ok body → body.conflictResponse = some position →
        encryptedBytes.length < position → os = [] ∧ suf = []) ∧
    (∀ n < 2 ^ 64, downloadPosition (some (downloadRange n)) = .ok (.from n)) ∧
    downloadPosition (some finishRange) = .ok .eof := by
  have hpos : 0 < encryptedBytes.length := by omega
  refine ⟨fun tr u hrun => ⟨?_, ?_, ?_⟩, fun n hn => Relay.downloadPosition_from hn,
    Relay.downloadPosition_eof⟩
  · intro hpanicked
    have hsound := (run_keeps hpos hlt hrun).1.2
    rw [hpanicked] at hsound
    exact hsound
  · intro body contentRange hmem
    exact (run_keeps hpos hlt hrun).2 _ hmem
  · rintro pre r body position os suf rfl hstatus hbody hconflict hbeyond
    obtain ⟨t, hpre, hpath⟩ := hrun.split
    obtain ⟨next, hstep, hsuf⟩ := hpath.uncons
    have hbytes := (run_keeps hpos hlt hpre).1.1
    obtain ⟨hquiet, error, hreturned⟩ := step_conflict_beyond hstep hstatus hbody hconflict
      (by rwa [Upload.fileSize, hbytes])
    exact ⟨hquiet, hsuf.eq_nil_of_stuck fun e => by simp [uploadFile, Upload.step, hreturned]⟩

def beyondTheEnd : List UploadEvent :=
  [.wake, .answer (.response ⟨200, none, .ok ⟨some .ok, none⟩⟩),
    .answer (.response ⟨409, none, .ok ⟨none, some 28⟩⟩),
    .answer (.response ⟨200, none, .ok ⟨some .ok, none⟩⟩),
    .answer (.response ⟨409, none, .ok ⟨none, some 29⟩⟩)]

theorem headers_agree_beyond : ∃ tr u,
    (uploadFile (List.replicate 28 0) [1]).exec
        (uploadFile (List.replicate 28 0) [1]).init beyondTheEnd = some (tr, u) ∧
    tr.flatMap Prod.snd = [.start 0,
      .content (List.replicate 28 0) (encode "bytes 0-27/28".toList), .start 28,
      .content [] (encode "bytes */28".toList)] ∧
    u.phase ≠ .panicked ∧
    ∀ body contentRange, Request.content body contentRange ∈ tr.flatMap Prod.snd →
      ∃ position ≤ 28, body = (List.replicate 28 0).drop position ∧
        uploadPosition (some contentRange) = .ok position := by
  have hexec : (uploadFile (List.replicate 28 0) [1]).exec
      (uploadFile (List.replicate 28 0) [1]).init beyondTheEnd = some (_, _) := rfl
  have hagree := (headers_agree (by decide : 28 ≤ (List.replicate 28 (0 : UInt8)).length) (by decide)
    [1]).1 _ _ (EventMachine.exec_run _ hexec)
  exact ⟨_, _, hexec, rfl, hagree.1, hagree.2.1⟩

end Glopfile.Api
