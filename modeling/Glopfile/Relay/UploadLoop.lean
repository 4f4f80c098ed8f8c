import Glopfile.Relay.SystemSteps

/-!
# The upload handler as a loop

`upload` reads its body one chunk ahead, so that it knows which chunk is the last. The stream is
what its polls return, after its end as well; `Fuse` does not poll it again. `UploadCall` is what
`upload_data` is called with, and the answers are those of the session, one for each call. A
handler that has made more calls than there are answers waits for the next one.
-/

namespace Glopfile.Relay

inductive UploadCall
  | more (data : List UInt8)
  | final (data : List UInt8)
  deriving DecidableEq, Repr

def BodyItem.data : BodyItem → Option (List UInt8)
  | .chunk data => some data
  | .eof | .failed => none

structure Fuse where
  stream : List BodyItem
  done : Bool

def Fuse.next (chunks : Fuse) : BodyItem × Fuse :=
  if chunks.done then (.eof, chunks)
  else
    match chunks.stream with
    | [] => (.eof, { chunks with done := true })
    | .eof :: rest => (.eof, ⟨rest, true⟩)
    | item :: rest => (item, ⟨rest, false⟩)

def uploadLoop (answers : List UploadResult) (next : Option (List UInt8)) (chunks : Fuse) :
    List UploadCall × Option Response :=
  let data := next.getD []
  match chunks.next with
  | (.failed, _) => ([], some readFailed)
  | (item, chunks) =>
    let next := item.data
    let last := next.isNone
    let chunk := if last then .final data else .more data
    match answers with
    | [] => ([chunk], none)
    | .ok () :: answers =>
      if last then ([chunk], some .ok)
      else
        let (calls, response) := uploadLoop answers next chunks
        (chunk :: calls, response)
    | .error error :: _ => ([chunk], some (uploadError error))

/-- `upload`, from where `start_upload` and `flush_upload` have answered. -/
def upload (started : UploadResult) (body : List BodyItem) (answers : List UploadResult) :
    List UploadCall × Option Response :=
  match started with
  | .error error => ([], some (uploadError error))
  | .ok () =>
    match (Fuse.mk body false).next with
    | (.failed, _) => ([], some readFailed)
    | (item, chunks) => uploadLoop answers item.data chunks

/-- A body of some chunks and its end; `after` is what the stream would return from there. -/
def bodyOf (chunks : List (List UInt8)) (failed : Bool) (after : List BodyItem) : List BodyItem :=
  chunks.map .chunk ++ (if failed then .failed else .eof) :: after

def wholeBody (chunks : List (List UInt8)) : List UploadCall :=
  chunks.dropLast.map .more ++ [.final (chunks.getLast?.getD [])]

def callsOf (chunks : List (List UInt8)) (failed : Bool) : List UploadCall :=
  if failed then chunks.dropLast.map .more else wholeBody chunks

def responseOf (failed : Bool) : Response := if failed then readFailed else .ok

def answered (response : Response) : List UploadCall → List UploadResult →
    List UploadCall × Option Response
  | [], _ => ([], some response)
  | call :: _, [] => ([call], none)
  | call :: calls, .ok () :: answers =>
    (call :: (answered response calls answers).1, (answered response calls answers).2)
  | call :: _, .error error :: _ => ([call], some (uploadError error))

variable {chunks : List (List UInt8)} {failed : Bool} {after : List BodyItem}
  {answers : List UploadResult} {data : List UInt8}

theorem next_chunk : (Fuse.mk (bodyOf (data :: chunks) failed after) false).next =
    (.chunk data, ⟨bodyOf chunks failed after, false⟩) := rfl

theorem next_failed : (Fuse.mk (bodyOf [] true after) false).next = (.failed, ⟨after, false⟩) :=
  rfl

theorem next_eof : (Fuse.mk (bodyOf [] false after) false).next = (.eof, ⟨after, true⟩) := rfl

theorem uploadLoop_last {next : Option (List UInt8)} {fuse fuse' : Fuse}
    (h : fuse.next = (.eof, fuse')) :
    uploadLoop answers next fuse = answered .ok [.final (next.getD [])] answers := by
  unfold uploadLoop
  simp only [h, BodyItem.data, Option.isNone_none, if_true]
  cases answers with
  | nil => rfl
  | cons answer answers =>
    cases answer with
    | ok value => rfl
    | error error => rfl

theorem callsOf_cons_cons (data next : List UInt8) :
    callsOf (data :: next :: chunks) failed = .more data :: callsOf (next :: chunks) failed := by
  cases failed with
  | false => simp [callsOf, wholeBody]
  | true => rfl

theorem uploadLoop_chunks (data : List UInt8) :
    uploadLoop answers (some data) ⟨bodyOf chunks failed after, false⟩ =
      answered (responseOf failed) (callsOf (data :: chunks) failed) answers := by
  induction chunks generalizing data answers with
  | nil =>
    cases failed with
    | true =>
      unfold uploadLoop
      rw [next_failed]
      rfl
    | false => exact uploadLoop_last next_eof
  | cons next chunks ih =>
    rw [callsOf_cons_cons]
    unfold uploadLoop
    simp only [next_chunk, BodyItem.data, Option.isNone_some, Bool.false_eq_true, if_false,
      Option.getD_some]
    cases answers with
    | nil => rfl
    | cons answer answers =>
      cases answer with
      | ok value =>
        simp only [answered, ih]
      | error error => rfl

theorem upload_eq (chunks : List (List UInt8)) (failed : Bool) (after : List BodyItem)
    (answers : List UploadResult) :
    upload (.ok ()) (bodyOf chunks failed after) answers =
      answered (responseOf failed) (callsOf chunks failed) answers := by
  unfold upload
  cases chunks with
  | nil =>
    cases failed with
    | true => rfl
    | false =>
      -- The stream has ended, and the loop asks it for its next chunk again.
      have hagain : (Fuse.mk after true).next = (.eof, ⟨after, true⟩) := rfl
      exact uploadLoop_last hagain
  | cons data chunks => exact uploadLoop_chunks data

theorem answered_ok {response : Response} {calls : List UploadCall}
    (hok : ∀ answer ∈ answers, answer = .ok ()) (hall : calls.length ≤ answers.length) :
    answered response calls answers = (calls, some response) := by
  induction calls generalizing answers with
  | nil =>
    cases answers with
    | nil => rfl
    | cons answer answers => rfl
  | cons call calls ih =>
    cases answers with
    | nil => simp at hall
    | cons answer answers =>
      obtain ⟨rfl, hrest⟩ := List.forall_mem_cons.mp hok
      rw [answered, ih hrest (Nat.le_of_succ_le_succ hall)]

theorem answered_prefix {response : Response} {calls : List UploadCall} :
    (answered response calls answers).1 <+: calls := by
  induction calls generalizing answers with
  | nil => simp [answered]
  | cons call calls ih =>
    cases answers with
    | nil => exact List.prefix_append [call] calls
    | cons answer answers =>
      cases answer with
      | ok value => exact List.cons_prefix_cons.mpr ⟨rfl, ih⟩
      | error error => exact List.prefix_append [call] calls

theorem answered_refused {response : Response} {calls : List UploadCall} {error : UploadError}
    {later : List UploadResult} (k : ℕ) :
    (answered response calls (List.replicate k (.ok ()) ++ .error error :: later)).1.length ≤
        k + 1 ∧
      (k < calls.length →
        (answered response calls (List.replicate k (.ok ()) ++ .error error :: later)).2 =
          some (uploadError error)) := by
  induction calls generalizing k with
  | nil => simp [answered]
  | cons call calls ih =>
    cases k with
    | zero => simp [answered]
    | succ k =>
      obtain ⟨hlen, hresponse⟩ := ih k
      rw [List.replicate_succ, List.cons_append, answered]
      exact ⟨Nat.succ_le_succ hlen, fun hk => hresponse (Nat.lt_of_succ_lt_succ hk)⟩

/-- The calls of a body that is read to its end are its chunks in order, all of them more but the
last; one that cannot be read to its end has no final call. After a refusal there is no call. -/
theorem upload_calls (chunks : List (List UInt8)) (after : List BodyItem)
    (answers : List UploadResult) :
    (((∀ answer ∈ answers, answer = .ok ()) → (wholeBody chunks).length ≤ answers.length →
        upload (.ok ()) (bodyOf chunks false after) answers = (wholeBody chunks, some .ok)) ∧
      (upload (.ok ()) (bodyOf chunks false after) answers).1 <+: wholeBody chunks) ∧
    (∃ sent, sent <+: chunks ∧
      (upload (.ok ()) (bodyOf chunks true after) answers).1 = sent.map .more) ∧
    ∀ failed oks error later, answers = List.replicate oks (.ok ()) ++ .error error :: later →
      (upload (.ok ()) (bodyOf chunks failed after) answers).1.length ≤ oks + 1 ∧
      (oks < (callsOf chunks failed).length →
        (upload (.ok ()) (bodyOf chunks failed after) answers).2 = some (uploadError error)) := by
  refine ⟨⟨fun hok hall => ?_, ?_⟩, ?_, ?_⟩
  · rw [upload_eq]
    exact answered_ok hok hall
  · rw [upload_eq]
    exact answered_prefix
  · rw [upload_eq]
    have hprefix : (answered (responseOf true) (chunks.dropLast.map .more) answers).1 <+:
        chunks.dropLast.map .more := answered_prefix
    obtain ⟨sent, hsent, hcalls⟩ := List.prefix_map_iff.mp hprefix
    exact ⟨sent, hsent.trans (List.dropLast_prefix chunks), hcalls⟩
  · rintro failed oks error later rfl
    rw [upload_eq]
    exact answered_refused oks

theorem upload_calls_two :
    upload (.ok ()) (bodyOf [[1], [2, 3]] false [.chunk [4]]) [.ok (), .ok ()] =
      ([.more [1], .final [2, 3]], some .ok) ∧
    (upload (.ok ()) (bodyOf [[1], [2], [3]] true []) [.ok (), .error .dataPending]).1.length ≤ 2 :=
  ⟨(upload_calls [[1], [2, 3]] [.chunk [4]] [.ok (), .ok ()]).1.1 (by simp) (by decide),
    ((upload_calls [[1], [2], [3]] [] [.ok (), .error .dataPending]).2.2 true 1 .dataPending []
      rfl).1⟩

end Glopfile.Relay
