import Glopfile.Client.FileCalls
import Glopfile.Client.WebDownloadFile
import Glopfile.Simulation

/-!
# A download in the browser

The decrypted file of a download in the browser writes to a `DownloadFile`, which hands its buffers
to JavaScript. A poll of the boxed future polls the operations of this file one after another, each
of which meets a promise; both are the machines that they are alone.
-/

namespace Glopfile.Client.BrowserDownload

open EventMachine (Trace)
open WebDownloadFile (Promise taken called resolved)

variable {decrypt : List UInt8 → Option (List UInt8)}

abbrev FileTrace := Trace WebDownloadFile.Event WebDownloadFile.Output

structure Awaited where
  file : WebDownloadFile.DownloadFile
  polls : FileTrace
  io : List IoResult

/-- One poll of an operation of the file, with what it leaves to `next` if it is ready. A panic
would be an error here; it does not come to one. -/
def Awaited.poll (file : WebDownloadFile.DownloadFile) (call : WebDownloadFile.Call)
    (promise : Promise) (len : ℕ) (next : WebDownloadFile.DownloadFile → Awaited) : Awaited :=
  let (file, os, poll) := file.poll call promise
  let polls : FileTrace := [(⟨call, promise⟩, os ++ [.returned call poll])]
  match poll with
  | .ready =>
    let rest := next file
    ⟨rest.file, polls ++ rest.polls, .ready len :: rest.io⟩
  | .pending => ⟨file, polls, [.pending]⟩
  | .failed _ | .panicked => ⟨file, polls, [.error]⟩

def awaited (decrypt : List UInt8 → Option (List UInt8)) :
    List Promise → PendingWrite → WebDownloadFile.DownloadFile → Awaited
  | [], _, file => ⟨file, [], []⟩
  | promise :: promises, .decrypt data, file =>
    match promise, decrypt data with
    | .pending, _ => ⟨file, [], [.pending]⟩
    | .rejected _, _ => ⟨file, [], [.error]⟩
    | .resolved, none => ⟨file, [], [.ready 0]⟩
    | .resolved, some plaintext =>
      let rest := awaited decrypt promises (.writing plaintext) file
      { rest with io := .ready 0 :: rest.io }
  | promise :: promises, .write rest, file =>
    .poll file (.write rest) promise rest.length (awaited decrypt promises .flush)
  | promise :: promises, .flush, file =>
    .poll file .flush promise 0 (awaited decrypt promises .close)
  | promise :: _, .close, file => .poll file .close promise 0 fun file => ⟨file, [], []⟩

structure BrowserFile where
  decrypted : DecryptedFile
  file : WebDownloadFile.DownloadFile

inductive Call
  | offset
  | write (buf : List UInt8)
  | flush (promises : List Promise)
  | close (promises : List Promise)
  deriving DecidableEq, Repr

structure Event where
  clone : ℕ
  call : Call
  deriving DecidableEq, Repr

structure Output where
  call : FileCall
  returned : FileReturn
  polls : FileTrace

namespace BrowserFile

def pendingWrite (s : BrowserFile) : Option PendingWrite :=
  match s.decrypted.state with
  | .unwritten data => if data.length ≠ s.decrypted.fileSize then none else some (.decrypt data)
  | .pending w => some w
  | .complete | .poisoned => none

def await (decrypt : List UInt8 → Option (List UInt8)) (s : BrowserFile)
    (promises : List Promise) : Awaited :=
  match s.pendingWrite with
  | some w => awaited decrypt promises w s.file
  | none => ⟨s.file, [], []⟩

def call (decrypt : List UInt8 → Option (List UInt8)) (s : BrowserFile) (call : FileCall)
    (file : WebDownloadFile.DownloadFile) (polls : FileTrace) : BrowserFile × Output :=
  let (decrypted, returned) := s.decrypted.call decrypt call
  (⟨decrypted, file⟩, ⟨call, returned, polls⟩)

def step (decrypt : List UInt8 → Option (List UInt8)) (s : BrowserFile) :
    Call → BrowserFile × Output
  | .offset => s.call decrypt .offset s.file []
  | .write buf => s.call decrypt (.write buf) s.file []
  | .flush promises =>
    let awaited := s.await decrypt promises
    s.call decrypt (.flush awaited.io) awaited.file awaited.polls
  | .close promises =>
    let awaited := s.await decrypt promises
    s.call decrypt (.close awaited.io) awaited.file awaited.polls

end BrowserFile

def browserDownload (decrypt : List UInt8 → Option (List UInt8)) (fileSize : ℕ) :
    EventMachine BrowserFile Event Output where
  init := ⟨.new fileSize, .new⟩
  step s e := some ((s.step decrypt e.call).1, [(s.step decrypt e.call).2])

section Polls
open WebDownloadFile (Writes Fails webDownloadFile)
variable {received : List UInt8} {file file' : WebDownloadFile.DownloadFile}
  {before os : List WebDownloadFile.Output}
  {call : WebDownloadFile.Call} {promise : Promise} {promises : List Promise} {w : PendingWrite}
  {len : ℕ} {next : WebDownloadFile.DownloadFile → Awaited} {output : OutputFile}
  {poll : WebDownloadFile.Poll}

theorem Awaited.poll_path
    (hnext : ∀ file,
      webDownloadFile.Path (fun _ _ => True) file (next file).polls (next file).file) :
    webDownloadFile.Path (fun _ _ => True) file (Awaited.poll file call promise len next).polls
      (Awaited.poll file call promise len next).file := by
  obtain ⟨file', os, poll, hpoll⟩ : ∃ file' os poll,
      file.poll call promise = (file', os, poll) := ⟨_, _, _, rfl⟩
  have hstep : webDownloadFile.step file ⟨call, promise⟩ =
      some (file', os ++ [.returned call poll]) := by
    simp [webDownloadFile, hpoll]
  unfold Awaited.poll
  rw [hpoll]
  cases poll with
  | ready => exact .cons trivial hstep (hnext file')
  | pending => exact .single trivial hstep
  | failed message => exact .single trivial hstep
  | panicked => exact .single trivial hstep

theorem awaited_path : webDownloadFile.Path (fun _ _ => True) file
    (awaited decrypt promises w file).polls (awaited decrypt promises w file).file := by
  induction promises generalizing w file with
  | nil => exact .refl
  | cons promise promises ih =>
    cases w with
    | decrypt data =>
      unfold awaited
      cases promise with
      | pending => exact .refl
      | rejected message => exact .refl
      | resolved =>
        cases decrypt data with
        | none => exact .refl
        | some plaintext => exact ih
    | write rest => exact Awaited.poll_path fun _ => ih
    | flush => exact Awaited.poll_path fun _ => ih
    | close => exact Awaited.poll_path fun _ => .refl

def buffers (plaintext : List UInt8) : List (List UInt8) :=
  if plaintext = [] then [] else [plaintext]

theorem buffers_length {plaintext : List UInt8} : (buffers plaintext).length ≤ 1 := by
  unfold buffers
  split_ifs <;> simp

theorem buffers_flatten {plaintext : List UInt8} : (buffers plaintext).flatten = plaintext := by
  unfold buffers
  split_ifs with h
  · exact h.symm
  · simp

structure Fed (decrypt : List UInt8 → Option (List UInt8)) (received : List UInt8)
    (os : List WebDownloadFile.Output) (written : List UInt8) : Prop where
  fed : taken os = buffers written
  plaintext : ∀ data ∈ taken os, decrypt received = some data

def Stands (os : List WebDownloadFile.Output) (written : List UInt8) : PendingWrite → Prop
  | .decrypt _ => written = []
  | .write rest => written = [] ∧ rest ≠ []
  | .flush => True
  | .close => resolved os = taken os

structure PollsOnce (before : List WebDownloadFile.Output) (call : WebDownloadFile.Call)
    (os : List WebDownloadFile.Output) (file : WebDownloadFile.DownloadFile)
    (poll : WebDownloadFile.Poll) : Prop where
  writes : Writes (before ++ (os ++ [.returned call poll])) file
  took : taken (before ++ (os ++ [.returned call poll])) =
    taken before ++ taken [.returned call poll]
  ready : poll = .ready → resolved (before ++ (os ++ [.returned call poll])) = taken before
  fails : Fails (before ++ (os ++ [.returned call poll])) ↔ ∃ message, poll = .failed message
  panicked : poll ≠ .panicked
  silent : ∀ call', .returned call' .panicked ∉ os ++ [.returned call poll]

theorem poll_once (hwrites : Writes before file) (hfails : ¬Fails before)
    (hpoll : file.poll call promise = (file', os, poll)) : PollsOnce before call os file' poll := by
  obtain ⟨g, polled, result, hpending⟩ : ∃ g polled result,
      file.pollPendingWrite promise = (g, polled, result) := ⟨_, _, _, rfl⟩
  have hpolls := hwrites.pollsOn hpending
  rw [WebDownloadFile.poll_eq hpending] at hpoll
  obtain ⟨rfl, rfl, rfl⟩ : result.leaves call g = file' ∧ polled = os ∧ result = poll := by
    simpa using hpoll
  have hnot : result ≠ .panicked := fun hpanicked =>
    hfails (hwrites.failed.mp (hpolls.panicked.mp hpanicked))
  refine ⟨hpolls.writes hwrites, hpolls.taken_append, fun hready => ?_, ?_, hnot,
    fun call' hmem => hnot (hpolls.mem_returned.mp hmem).2.symm⟩
  · rw [← List.append_assoc, WebDownloadFile.resolved_returned]
    exact (hpolls.ready hready).2
  · rw [hpolls.fails_append]
    exact or_iff_right hfails

def Feeds (decrypt : List UInt8 → Option (List UInt8)) (received : List UInt8)
    (os : List WebDownloadFile.Output) : OutputFile × WritePoll → Prop
  | (output, .pending w) =>
    Fed decrypt received os output.written ∧ Stands os output.written w ∧ ¬Fails os
  | (output, .ready) =>
    Fed decrypt received os output.written ∧ resolved os = taken os ∧ ¬Fails os
  | (output, .failed _) => Fed decrypt received os output.written

theorem Stands.stays {written : List UInt8} (h : Stands before written w)
    (hwrites : Writes (before ++ os) file) (htaken : taken (before ++ os) = taken before) :
    Stands (before ++ os) written w := by
  cases w with
  | decrypt data => exact h
  | write rest => exact h
  | flush => exact h
  | close =>
    have hall : resolved before ++ resolved os ++ file.underWay ++ file.waiting =
        resolved before := by
      rw [← WebDownloadFile.resolved_append, hwrites.underWay, hwrites.waiting, htaken]
      exact Eq.symm h
    have hnone : resolved os = [] := by
      rw [List.append_assoc, List.append_assoc, List.append_right_eq_self] at hall
      exact (List.append_eq_nil_iff.mp hall).1
    show resolved (before ++ os) = taken (before ++ os)
    rw [WebDownloadFile.resolved_append, hnone, List.append_nil, htaken]
    exact h

theorem Fed.stays {written : List UInt8} (h : Fed decrypt received before written)
    (htaken : taken os = taken before) : Fed decrypt received os written where
  fed := htaken.trans h.fed
  plaintext := by
    rw [htaken]
    exact h.plaintext

structure AwaitedFeeds (decrypt : List UInt8 → Option (List UInt8)) (received : List UInt8)
    (before : List WebDownloadFile.Output) (w : PendingWrite) (output : OutputFile) (a : Awaited) :
    Prop where
  writes : Writes (before ++ a.polls.outputs) a.file
  feeds : Feeds decrypt received (before ++ a.polls.outputs) (w.poll decrypt output a.io)
  silent : ∀ call, .returned call .panicked ∉ a.polls.outputs

theorem awaited_poll_feeds (hwrites : Writes before file) (hfails : ¬Fails before)
    (hfed : Fed decrypt received before output.written) (hstands : Stands before output.written w)
    (hnext : ∀ file' os, PollsOnce before call os file' .ready →
      AwaitedFeeds decrypt received (before ++ (os ++ [.returned call .ready])) w output
        ⟨(next file').file, (next file').polls, .ready len :: (next file').io⟩) :
    AwaitedFeeds decrypt received before w output (.poll file call promise len next) := by
  obtain ⟨file', os, poll, hpoll⟩ : ∃ file' os poll,
      file.poll call promise = (file', os, poll) := ⟨_, _, _, rfl⟩
  have honce := poll_once hwrites hfails hpoll
  unfold Awaited.poll
  rw [hpoll]
  cases poll with
  | ready =>
    obtain ⟨hwrites', hfeeds, hsilent⟩ := hnext file' os honce
    dsimp only at hwrites' hfeeds hsilent ⊢
    have houtputs : ∀ {polls : FileTrace},
        EventMachine.Trace.outputs
          (([(⟨call, promise⟩, os ++ [.returned call .ready])] : FileTrace) ++ polls) =
            os ++ [.returned call .ready] ++ polls.outputs := by
      intro polls
      rw [EventMachine.Trace.outputs_append, EventMachine.Trace.outputs_single]
    refine ⟨?_, ?_, fun call' hmem => ?_⟩
    · rw [houtputs, ← List.append_assoc]
      exact hwrites'
    · rw [houtputs, ← List.append_assoc]
      exact hfeeds
    · rw [houtputs] at hmem
      rcases List.mem_append.mp hmem with hmem | hmem
      · exact honce.silent call' hmem
      · exact hsilent call' hmem
  | pending =>
    have hsame : taken (before ++ (os ++ [.returned call .pending])) = taken before := by
      rw [honce.took]
      cases call <;> exact List.append_nil _
    refine ⟨?_, ?_, fun call' hmem => ?_⟩
    · rw [EventMachine.Trace.outputs_single]
      exact honce.writes
    · have hpoll : w.poll decrypt output [.pending] = (output, .pending w) := by cases w <;> rfl
      rw [EventMachine.Trace.outputs_single, hpoll]
      refine ⟨hfed.stays hsame, hstands.stays honce.writes hsame, ?_⟩
      rw [honce.fails]
      rintro ⟨message, hfailed⟩
      cases hfailed
    · rw [EventMachine.Trace.outputs_single] at hmem
      exact honce.silent call' hmem
  | failed message =>
    have hsame : taken (before ++ (os ++ [.returned call (.failed message)])) =
        taken before := by
      rw [honce.took]
      cases call <;> exact List.append_nil _
    refine ⟨?_, ?_, fun call' hmem => ?_⟩
    · rw [EventMachine.Trace.outputs_single]
      exact honce.writes
    · have hpoll : ∃ error, w.poll decrypt output [.error] = (output, .failed error) := by
        cases w <;> exact ⟨_, rfl⟩
      obtain ⟨error, hpoll⟩ := hpoll
      rw [EventMachine.Trace.outputs_single, hpoll]
      exact hfed.stays hsame
    · rw [EventMachine.Trace.outputs_single] at hmem
      exact honce.silent call' hmem
  | panicked => exact absurd rfl honce.panicked

theorem AwaitedFeeds.ready {w' : PendingWrite} {output' : OutputFile} {a : Awaited}
    (h : AwaitedFeeds decrypt received before w' output' a)
    (hpoll : ∀ io, w.poll decrypt output (.ready len :: io) = w'.poll decrypt output' io) :
    AwaitedFeeds decrypt received before w output ⟨a.file, a.polls, .ready len :: a.io⟩ where
  writes := h.writes
  feeds := by
    rw [hpoll]
    exact h.feeds
  silent := h.silent

theorem AwaitedFeeds.of_decrypt {data : List UInt8} {io : List IoResult}
    (hwrites : Writes before file)
    (hfeeds : Feeds decrypt received before (PendingWrite.poll decrypt (.decrypt data) output io)) :
    AwaitedFeeds decrypt received before (.decrypt data) output ⟨file, [], io⟩ where
  writes := by
    rw [EventMachine.Trace.outputs_nil, List.append_nil]
    exact hwrites
  feeds := by
    rw [EventMachine.Trace.outputs_nil, List.append_nil]
    exact hfeeds
  silent := nofun

theorem PollsOnce.not_fails (h : PollsOnce before call os file' .ready) :
    ¬Fails (before ++ (os ++ [.returned call .ready])) := by
  rw [h.fails]
  rintro ⟨message, hfailed⟩
  cases hfailed

theorem PollsOnce.fed {rest : List UInt8} (h : PollsOnce before (.write rest) os file' .ready)
    (hfed : Fed decrypt received before []) (hrest : rest ≠ [])
    (hplain : decrypt received = some rest) :
    Fed decrypt received (before ++ (os ++ [.returned (.write rest) .ready])) rest := by
  have hbefore : taken before = [] := hfed.fed
  have htaken : taken (before ++ (os ++ [.returned (.write rest) .ready])) = [rest] := by
    rw [h.took, hbefore]
    rfl
  refine ⟨?_, fun data hdata => ?_⟩
  · rw [htaken, buffers, if_neg hrest]
  · rw [htaken] at hdata
    rw [List.mem_singleton.mp hdata, hplain]

theorem awaited_nil (hwrites : Writes before file)
    (hfeeds : Feeds decrypt received before (output, .pending w)) :
    AwaitedFeeds decrypt received before w output (awaited decrypt [] w file) := by
  have hpoll : w.poll decrypt output [] = (output, .pending w) := by cases w <;> rfl
  refine ⟨?_, ?_, fun _ => List.not_mem_nil⟩
  · rw [awaited, EventMachine.Trace.outputs_nil, List.append_nil]
    exact hwrites
  · rw [awaited, EventMachine.Trace.outputs_nil, List.append_nil, hpoll]
    exact hfeeds

theorem awaited_close {promises : List Promise} {promise : Promise}
    (hwrites : Writes before file) (hfails : ¬Fails before)
    (hfed : Fed decrypt received before output.written)
    (hstands : Stands before output.written .close) :
    AwaitedFeeds decrypt received before .close output
      (awaited decrypt (promise :: promises) .close file) := by
  refine awaited_poll_feeds hwrites hfails hfed hstands fun file' os honce => ?_
  have hsame : taken (before ++ (os ++ [.returned .close .ready])) = taken before := by
    rw [honce.took]
    exact List.append_nil _
  refine ⟨?_, ?_, fun _ => List.not_mem_nil⟩
  · rw [EventMachine.Trace.outputs_nil, List.append_nil]
    exact honce.writes
  · rw [EventMachine.Trace.outputs_nil, List.append_nil]
    exact ⟨hfed.stays hsame, (honce.ready rfl).trans hsame.symm, honce.not_fails⟩

theorem awaited_feeds (hwrites : Writes before file) (hfails : ¬Fails before)
    (hfed : Fed decrypt received before output.written) (hstands : Stands before output.written w)
    (hwrote : w.Wrote decrypt received output) :
    AwaitedFeeds decrypt received before w output (awaited decrypt promises w file) := by
  induction promises generalizing w file before output with
  | nil => exact awaited_nil hwrites ⟨hfed, hstands, hfails⟩
  | cons promise promises ih =>
    cases w with
    | decrypt data =>
      unfold awaited
      cases promise with
      | pending => exact .of_decrypt hwrites ⟨hfed, hstands, hfails⟩
      | rejected message => exact .of_decrypt hwrites hfed
      | resolved =>
        cases hplain : decrypt data with
        | none =>
          refine .of_decrypt hwrites ?_
          simp only [PendingWrite.poll, hplain]
          exact hfed
        | some plaintext =>
          obtain ⟨rfl, rfl⟩ := hwrote
          refine (ih hwrites hfails hfed ?_ (PendingWrite.writing_wrote ?_)).ready ?_
          · cases plaintext with
            | nil => trivial
            | cons b rest => exact ⟨rfl, List.cons_ne_nil b rest⟩
          · simpa [OutputFile.empty] using hplain
          · intro io
            simp only [PendingWrite.poll, hplain]
    | write rest =>
      refine awaited_poll_feeds hwrites hfails hfed hstands fun file' os honce => ?_
      obtain ⟨hnone, hrest⟩ := hstands
      have hplain : decrypt received = some rest := by
        rw [PendingWrite.Wrote, hnone] at hwrote
        exact hwrote
      have hflushed : AwaitedFeeds decrypt received
          (before ++ (os ++ [.returned (.write rest) .ready])) .flush
          { output with written := rest } (awaited decrypt promises .flush file') :=
        ih honce.writes honce.not_fails (honce.fed (hnone ▸ hfed) hrest hplain) trivial hplain
      refine hflushed.ready fun io => ?_
      have hlen : rest.length ≠ 0 := fun hzero => hrest (List.length_eq_zero_iff.mp hzero)
      simp [PendingWrite.poll, hlen, hnone, PendingWrite.writing]
    | flush =>
      refine awaited_poll_feeds hwrites hfails hfed hstands fun file' os honce => ?_
      have hsame : taken (before ++ (os ++ [.returned .flush .ready])) = taken before := by
        rw [honce.took]
        exact List.append_nil _
      have hstands' : Stands (before ++ (os ++ [.returned .flush .ready])) output.written .close :=
        (honce.ready rfl).trans hsame.symm
      have hclosed : AwaitedFeeds decrypt received (before ++ (os ++ [.returned .flush .ready]))
          .close { output with flushed := true } (awaited decrypt promises .close file') :=
        ih honce.writes honce.not_fails (hfed.stays hsame) hstands' ⟨hwrote, rfl⟩
      exact hclosed.ready fun io => rfl
    | close => exact awaited_close hwrites hfails hfed hstands

structure Downloads (decrypt : List UInt8 → Option (List UInt8)) (received : List UInt8)
    (os : List WebDownloadFile.Output) (s : BrowserFile) : Prop where
  writes : Writes os s.file
  fed : Fed decrypt received os s.decrypted.file.written
  pending : ∀ w, s.decrypted.state = .pending w → Stands os s.decrypted.file.written w
  complete : s.decrypted.state = .complete → resolved os = taken os
  fails : s.decrypted.state ≠ .poisoned → ¬Fails os
  silent : ∀ call, .returned call .panicked ∉ os

variable {s : BrowserFile} {g : DecryptedFile} {io : List IoResult} {result : FlushPoll}

theorem new_downloads {fileSize : ℕ} : Downloads decrypt [] [] ⟨.new fileSize, .new⟩ where
  writes := WebDownloadFile.new_writes
  fed := ⟨rfl, nofun⟩
  pending := nofun
  complete := nofun
  fails := fun _ => by simp [Fails]
  silent := nofun

theorem pendingWrite_none (hnone : s.pendingWrite = none)
    (hflush : s.decrypted.pollFlush decrypt io = (g, result)) : g = s.decrypted := by
  unfold BrowserFile.pendingWrite at hnone
  rcases DecryptedFile.pollFlush_cases hflush with ⟨_, _, _, rfl, _⟩ | ⟨_, rfl, _⟩ | ⟨_, rfl, _⟩ |
    ⟨w, hstate | ⟨data, hstate, hlen, -⟩, -⟩
  · rfl
  · rfl
  · rfl
  · simp [hstate] at hnone
  · simp [hstate, hlen] at hnone

theorem pendingWrite_some (hstores : s.decrypted.Stores decrypt received)
    (h : Downloads decrypt received before s) (hsome : s.pendingWrite = some w) :
    w.Wrote decrypt received s.decrypted.file ∧ Stands before s.decrypted.file.written w ∧
      ¬Fails before ∧ ∀ io, s.decrypted.pollFlush decrypt io =
        s.decrypted.pollPending decrypt w io := by
  unfold BrowserFile.pendingWrite at hsome
  unfold DecryptedFile.Stores at hstores
  cases hstate : s.decrypted.state with
  | unwritten data =>
    rw [hstate] at hsome hstores
    obtain ⟨rfl, hfile⟩ := hstores
    by_cases hlen : data.length = s.decrypted.fileSize
    · obtain rfl : PendingWrite.decrypt data = w := by simpa [hlen] using hsome
      refine ⟨⟨rfl, hfile⟩, ?_, h.fails (by rw [hstate]; nofun), fun io => ?_⟩
      · show s.decrypted.file.written = []
        rw [hfile]
        rfl
      · simp [DecryptedFile.pollFlush, hstate, hlen]
    · simp [hlen] at hsome
  | pending w' =>
    rw [hstate] at hsome hstores
    obtain rfl := Option.some.inj hsome
    refine ⟨hstores.2, h.pending w' hstate, h.fails (by rw [hstate]; nofun), fun io => ?_⟩
    simp [DecryptedFile.pollFlush, hstate]
  | complete => simp [hstate] at hsome
  | poisoned => simp [hstate] at hsome

theorem Downloads.flush (h : Downloads decrypt received before s)
    (hstores : s.decrypted.Stores decrypt received)
    (hflush : s.decrypted.pollFlush decrypt (s.await decrypt promises).io = (g, result)) :
    Downloads decrypt received (before ++ (s.await decrypt promises).polls.outputs)
      ⟨g, (s.await decrypt promises).file⟩ := by
  unfold BrowserFile.await at hflush ⊢
  cases hpending : s.pendingWrite with
  | none =>
    obtain rfl := pendingWrite_none hpending hflush
    dsimp only
    rw [EventMachine.Trace.outputs_nil, List.append_nil]
    exact ⟨h.writes, h.fed, h.pending, h.complete, h.fails, h.silent⟩
  | some w =>
    obtain ⟨hwrote, hstands, hfails, hpoll⟩ := pendingWrite_some hstores h hpending
    rw [hpending] at hflush
    dsimp only at hflush ⊢
    have hawaited : AwaitedFeeds decrypt received before w s.decrypted.file
        (awaited decrypt promises w s.file) := awaited_feeds h.writes hfails h.fed hstands hwrote
    obtain ⟨hwrites, hfeeds, hsilent⟩ := hawaited
    rw [hpoll] at hflush
    have hsilent' : ∀ call, .returned call .panicked ∉
        before ++ (awaited decrypt promises w s.file).polls.outputs := by
      intro call hmem
      rcases List.mem_append.mp hmem with hmem | hmem
      · exact h.silent call hmem
      · exact hsilent call hmem
    obtain ⟨file, ⟨w', hp, rfl, -⟩ | ⟨hp, rfl, -⟩ | ⟨error, hp, rfl, -⟩⟩ :=
      DecryptedFile.pollPending_cases hflush
    · rw [hp] at hfeeds
      refine ⟨hwrites, hfeeds.1, ?_, nofun, fun _ => hfeeds.2.2, hsilent'⟩
      rintro w'' hsame
      obtain rfl := DecryptedFileWriteState.pending.inj hsame
      exact hfeeds.2.1
    · rw [hp] at hfeeds
      exact ⟨hwrites, hfeeds.1, nofun, fun _ => hfeeds.2.1, fun _ => hfeeds.2.2, hsilent'⟩
    · rw [hp] at hfeeds
      exact ⟨hwrites, hfeeds, nofun, nofun, fun hne => absurd rfl hne, hsilent'⟩

theorem await_path : webDownloadFile.Path (fun _ _ => True) s.file
    (s.await decrypt promises).polls (s.await decrypt promises).file := by
  unfold BrowserFile.await
  cases s.pendingWrite with
  | none => exact .refl
  | some w => exact awaited_path

theorem Downloads.write {buf : List UInt8} (h : Downloads decrypt received before s)
    (hstores : s.decrypted.Stores decrypt received) (clone : ℕ) :
    Downloads decrypt
      (received ++ bufferedBy (⟨clone, .write buf⟩, [.write (s.decrypted.pollWrite buf).2]))
      before ⟨(s.decrypted.pollWrite buf).1, s.file⟩ := by
  unfold DecryptedFile.pollWrite
  cases hstate : s.decrypted.state with
  | unwritten data =>
    have hfile : s.decrypted.file = .empty := by
      unfold DecryptedFile.Stores at hstores
      rw [hstate] at hstores
      exact hstores.2
    have hnone : taken before = [] := by
      rw [h.fed.fed, hfile]
      rfl
    refine ⟨h.writes, ⟨h.fed.fed, ?_⟩, nofun, nofun, ?_, h.silent⟩
    · rw [hnone]
      nofun
    · exact fun _ => h.fails (by rw [hstate]; nofun)
  | pending w | complete | poisoned =>
    simp only [bufferedBy, List.append_nil]
    exact ⟨h.writes, h.fed, h.pending, h.complete, h.fails, h.silent⟩

theorem Downloads.step {s' : BrowserFile} {o : Output} (h : Downloads decrypt received before s)
    (hstores : s.decrypted.Stores decrypt received) (clone : ℕ) (call : Call)
    (hstep : s.step decrypt call = (s', o)) :
    Downloads decrypt (received ++ bufferedBy (⟨clone, o.call⟩, [o.returned]))
      (before ++ o.polls.outputs) s' := by
  cases call with
  | offset =>
    obtain ⟨rfl, rfl⟩ := Prod.mk.inj hstep
    rw [EventMachine.Trace.outputs_nil, List.append_nil]
    simp only [bufferedBy, List.append_nil]
    exact ⟨h.writes, h.fed, h.pending, h.complete, h.fails, h.silent⟩
  | write buf =>
    obtain ⟨rfl, rfl⟩ := Prod.mk.inj hstep
    rw [EventMachine.Trace.outputs_nil, List.append_nil]
    exact h.write hstores clone
  | flush promises =>
    obtain ⟨rfl, rfl⟩ := Prod.mk.inj hstep
    simp only [bufferedBy, List.append_nil]
    exact h.flush hstores rfl
  | close promises =>
    obtain ⟨rfl, rfl⟩ := Prod.mk.inj hstep
    simp only [bufferedBy, List.append_nil]
    obtain ⟨flushed, hflush, -⟩ := DecryptedFile.pollClose_cases
      (rfl : s.decrypted.pollClose decrypt (s.await decrypt promises).io = _)
    exact h.flush hstores hflush

end Polls

section Run
open WebDownloadFile (webDownloadFile)
variable {fileSize : ℕ} {tr : Trace Event Output} {s : BrowserFile}

def fileCallsIn (x : Event × List Output) : Trace CloneCall FileReturn :=
  x.2.map fun o => (⟨x.1.clone, o.call⟩, [o.returned])

def pollsIn (x : Event × List Output) : FileTrace := x.2.flatMap Output.polls

def fileTrace (tr : Trace Event Output) : Trace CloneCall FileReturn := tr.flatMap fileCallsIn

def pollTrace (tr : Trace Event Output) : FileTrace := tr.flatMap pollsIn

theorem run_files (hrun : (browserDownload decrypt fileSize).Run tr s) :
    (fileCalls decrypt fileSize).Run (fileTrace tr) s.decrypted := by
  refine EventMachine.Path.simulate BrowserFile.decrypted fileCallsIn hrun ?_
  rintro s ⟨clone, call⟩ s' os - hstep
  obtain ⟨rfl, rfl⟩ := Prod.mk.inj (Option.some.inj hstep)
  cases call with
  | offset => exact .single trivial rfl
  | write buf => exact .single trivial rfl
  | flush promises => exact .single trivial rfl
  | close promises => exact .single trivial rfl

theorem run_polls (hrun : (browserDownload decrypt fileSize).Run tr s) :
    webDownloadFile.Run (pollTrace tr) s.file := by
  refine EventMachine.Path.simulate BrowserFile.file pollsIn hrun ?_
  rintro s ⟨clone, call⟩ s' os - hstep
  obtain ⟨rfl, rfl⟩ := Prod.mk.inj (Option.some.inj hstep)
  rw [pollsIn, List.flatMap_singleton]
  cases call with
  | offset => exact .refl
  | write buf => exact .refl
  | flush promises => exact await_path
  | close promises => exact await_path

theorem run_downloads (hrun : (browserDownload decrypt fileSize).Run tr s) :
    Downloads decrypt (buffered (fileTrace tr)) (pollTrace tr).outputs s := by
  refine hrun.history (P := fun tr s =>
    Downloads decrypt (buffered (fileTrace tr)) (pollTrace tr).outputs s) new_downloads ?_
  rintro tr s ⟨clone, call⟩ s' os hpath ih - hstep
  obtain ⟨rfl, rfl⟩ := Prod.mk.inj (Option.some.inj hstep)
  have hstores := (fileCalls_written (run_files hpath)).1
  have hnext := ih.step hstores clone call rfl
  rw [fileTrace, pollTrace, List.flatMap_append, List.flatMap_append, List.flatMap_singleton,
    List.flatMap_singleton, fileCallsIn, pollsIn, List.map_singleton, List.flatMap_singleton,
    buffered_snoc, EventMachine.Trace.outputs_append]
  exact hnext

/-- The decrypted file and the file it writes to are what they are alone. JavaScript is called with
the whole plaintext of the whole buffer, if at all, and only once; by the time the download is
complete it has written it. The future of a write is never polled on after it has completed. -/
theorem browser_gets_the_plaintext (hrun : (browserDownload decrypt fileSize).Run tr s) :
    (fileCalls decrypt fileSize).Run (fileTrace tr) s.decrypted ∧
      webDownloadFile.Run (pollTrace tr) s.file ∧
      (∀ data ∈ called (pollTrace tr).outputs, decrypt (buffered (fileTrace tr)) = some data) ∧
      (called (pollTrace tr).outputs).length ≤ 1 ∧
      (s.decrypted.state = .complete →
        decrypt (buffered (fileTrace tr)) = some (resolved (pollTrace tr).outputs).flatten ∧
          called (pollTrace tr).outputs = resolved (pollTrace tr).outputs) ∧
      ∀ call, .returned call .panicked ∉ (pollTrace tr).outputs := by
  obtain ⟨hwrites, hfed, -, hcomplete, -, hsilent⟩ := run_downloads hrun
  have hcalled : called (pollTrace tr).outputs <+: taken (pollTrace tr).outputs :=
    ⟨s.file.waiting, hwrites.waiting⟩
  refine ⟨run_files hrun, run_polls hrun,
    fun data hdata => hfed.plaintext data (hcalled.subset hdata), ?_, fun hstate => ?_, hsilent⟩
  · refine Nat.le_trans hcalled.length_le ?_
    rw [hfed.fed]
    exact buffers_length
  · have hresolved := hcomplete hstate
    have hfinished := (fileCalls_written (run_files hrun)).1.complete hstate
    refine ⟨?_, ?_⟩
    · rw [hresolved, hfed.fed, buffers_flatten]
      exact hfinished.1
    · have hunderWay : resolved (pollTrace tr).outputs <+: called (pollTrace tr).outputs :=
        ⟨s.file.underWay, hwrites.underWay⟩
      refine (hunderWay.eq_of_length_le ?_).symm
      rw [hresolved]
      exact hcalled.length_le

theorem browser_gets_the_plaintext_pending : ∃ tr s,
    (browserDownload unframe 2).Run tr s ∧ s.decrypted.state = .complete ∧
      called (pollTrace tr).outputs = [[7, 8]] ∧ (called (pollTrace tr).outputs).length ≤ 1 := by
  have hexec : (browserDownload unframe 2).exec ⟨.new 2, .new⟩
      [⟨0, .write (List.replicate 12 0 ++ [7, 8] ++ List.replicate 16 0)⟩,
        ⟨0, .flush [.resolved, .pending, .pending]⟩, ⟨1, .flush [.resolved, .pending]⟩] =
      some (_, _) := rfl
  have hrun : (browserDownload unframe 2).Run _ _ := EventMachine.exec_run _ hexec
  exact ⟨_, _, hrun, rfl, rfl, (browser_gets_the_plaintext hrun).2.2.2.1⟩

end Run

end Glopfile.Client.BrowserDownload
