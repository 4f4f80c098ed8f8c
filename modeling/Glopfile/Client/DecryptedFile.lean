import Mathlib.Algebra.Ring.Nat
import Mathlib.Data.List.Basic

/-!
# The decrypted file

A `DecryptedFile` buffers the ciphertext of a download. A flush of the full buffer starts
one boxed future that decrypts it and writes, flushes and closes the output file; every
clone that flushes or closes polls this future on. What a single poll meets is a list of
results, one for each operation awaited in turn; where the list ends, the poll is pending.

`decrypt` is the AES-GCM decryption of `ContentCipher`. `Stores` says what a file that was
given some bytes holds, and `store_*` and `poll_*` lemmas that every operation keeps it.
-/

namespace Glopfile.Client

def extraCiphertextLen : ℕ := 12 + 16

/-- `file_size + extra_ciphertext_len()` in `u64`, as the release build adds. -/
def ciphertextLen (fileSize : ℕ) : ℕ := (fileSize + extraCiphertextLen) % 2 ^ 64

inductive IoError
  | invalidInput (message : String)
  | decrypt
  | output
  | writeZero
  deriving DecidableEq, Repr

def moreBytes : IoError := .invalidInput "received more bytes than expected"

def lessBytes : IoError := .invalidInput "received less bytes than expected"

/-- What polling one operation returns; `len` counts the bytes a write accepted. -/
inductive IoResult
  | pending
  | ready (len : ℕ)
  | error
  deriving DecidableEq, Repr

structure OutputFile where
  written : List UInt8
  flushed : Bool
  closed : Bool
  deriving DecidableEq, Repr

def OutputFile.empty : OutputFile := ⟨[], false, false⟩

inductive PendingWrite
  | decrypt (data : List UInt8)
  | write (rest : List UInt8)
  | flush
  | close
  deriving DecidableEq, Repr

inductive WritePoll
  | pending (pendingWrite : PendingWrite)
  | ready
  | failed (error : IoError)
  deriving DecidableEq, Repr

inductive FlushPoll
  | pending
  | ready
  | failed (error : IoError)
  | panicked
  deriving DecidableEq, Repr

inductive DecryptedFileWriteState
  | unwritten (data : List UInt8)
  | pending (pendingWrite : PendingWrite)
  | complete
  | poisoned
  deriving DecidableEq, Repr

/-- The state and the output file are shared by all clones. -/
structure DecryptedFile where
  fileSize : ℕ
  state : DecryptedFileWriteState
  file : OutputFile
  deriving DecidableEq, Repr

namespace PendingWrite

def writing : List UInt8 → PendingWrite
  | [] => .flush
  | b :: rest => .write (b :: rest)

def poll (decrypt : List UInt8 → Option (List UInt8)) :
    PendingWrite → OutputFile → List IoResult → OutputFile × WritePoll
  | w, file, [] => (file, .pending w)
  | w, file, .pending :: _ => (file, .pending w)
  | .decrypt _, file, .error :: _ => (file, .failed .decrypt)
  | .decrypt data, file, .ready _ :: io =>
    match decrypt data with
    | none => (file, .failed .decrypt)
    | some plaintext => (writing plaintext).poll decrypt file io
  | _, file, .error :: _ => (file, .failed .output)
  | .write rest, file, .ready len :: io =>
    if len = 0 then (file, .failed .writeZero)
    else
      (writing (rest.drop len)).poll decrypt
        { file with written := file.written ++ rest.take len } io
  | .flush, file, .ready _ :: io => PendingWrite.close.poll decrypt { file with flushed := true } io
  | .close, file, .ready _ :: _ => ({ file with closed := true }, .ready)

end PendingWrite

namespace DecryptedFile

def new (fileSize : ℕ) : DecryptedFile :=
  ⟨ciphertextLen fileSize, .unwritten [], .empty⟩

/-- `none` is the panic on an invalid state. -/
def offset (f : DecryptedFile) : Option ℕ :=
  match f.state with
  | .unwritten data => some data.length
  | .pending _ | .complete => some f.fileSize
  | .poisoned => none

/-- Never pending; `none` is the panic. -/
def pollWrite (f : DecryptedFile) (buf : List UInt8) :
    DecryptedFile × Option (Except IoError ℕ) :=
  match f.state with
  | .unwritten data => ({ f with state := .unwritten (data ++ buf) }, some (.ok buf.length))
  | .pending _ | .complete => (f, some (.error moreBytes))
  | .poisoned => (f, none)

/-- `write_all`; one `poll_write` takes the whole buffer. -/
def writeAll (f : DecryptedFile) (buf : List UInt8) : DecryptedFile × Option (Except IoError Unit) :=
  if buf = [] then (f, some (.ok ()))
  else
    let (g, result) := f.pollWrite buf
    (g, result.map fun r => r.map fun _ => ())

def pollPending (decrypt : List UInt8 → Option (List UInt8)) (f : DecryptedFile)
    (pendingWrite : PendingWrite) (io : List IoResult) : DecryptedFile × FlushPoll :=
  match pendingWrite.poll decrypt f.file io with
  | (file, .pending w) => ({ f with state := .pending w, file := file }, .pending)
  | (file, .ready) => ({ f with state := .complete, file := file }, .ready)
  -- `?` returns while the state is still the `Poisoned` that was swapped in.
  | (file, .failed error) => ({ f with state := .poisoned, file := file }, .failed error)

def pollFlush (decrypt : List UInt8 → Option (List UInt8)) (f : DecryptedFile)
    (io : List IoResult) : DecryptedFile × FlushPoll :=
  match f.state with
  | .unwritten data =>
    if data.length ≠ f.fileSize then (f, .ready) else f.pollPending decrypt (.decrypt data) io
  | .pending w => f.pollPending decrypt w io
  | .complete => (f, .ready)
  | .poisoned => (f, .panicked)

def pollClose (decrypt : List UInt8 → Option (List UInt8)) (f : DecryptedFile)
    (io : List IoResult) : DecryptedFile × FlushPoll :=
  match f.pollFlush decrypt io with
  | (g, .ready) =>
    match g.state with
    | .complete => (g, .ready)
    | .pending _ | .unwritten _ => (g, .failed lessBytes)
    | .poisoned => (g, .panicked)
  | other => other

end DecryptedFile

/-- A cipher that neither encrypts nor authenticates; for evaluating the model. -/
def unframe (data : List UInt8) : Option (List UInt8) :=
  if data.length < extraCiphertextLen then none
  else some ((data.drop 12).take (data.length - extraCiphertextLen))

variable {decrypt : List UInt8 → Option (List UInt8)}

def PendingWrite.Wrote (decrypt : List UInt8 → Option (List UInt8)) (received : List UInt8)
    (file : OutputFile) : PendingWrite → Prop
  | .decrypt data => data = received ∧ file = .empty
  | .write rest => decrypt received = some (file.written ++ rest)
  | .flush => decrypt received = some file.written
  | .close => decrypt received = some file.written ∧ file.flushed = true

def OutputFile.Finished (decrypt : List UInt8 → Option (List UInt8)) (received : List UInt8)
    (file : OutputFile) : Prop :=
  decrypt received = some file.written ∧ file.flushed = true ∧ file.closed = true

namespace PendingWrite
variable {received : List UInt8} {file : OutputFile}

theorem writing_wrote {plaintext : List UInt8} (h : decrypt received = some (file.written ++ plaintext)) :
    (writing plaintext).Wrote decrypt received file := by
  cases plaintext with
  | nil => simpa [writing, Wrote] using h
  | cons b rest => exact h

theorem poll_wrote (io : List IoResult) {w : PendingWrite} (h : w.Wrote decrypt received file) :
    match w.poll decrypt file io with
    | (file', .pending w') => w'.Wrote decrypt received file'
    | (file', .ready) => file'.Finished decrypt received
    | (_, .failed _) => True := by
  induction io generalizing w file with
  | nil =>
    cases w with
    | decrypt data => exact h
    | write rest => exact h
    | flush => exact h
    | close => exact h
  | cons r io ih =>
    cases r with
    | pending =>
      cases w with
      | decrypt data => exact h
      | write rest => exact h
      | flush => exact h
      | close => exact h
    | error =>
      cases w with
      | decrypt data => trivial
      | write rest => trivial
      | flush => trivial
      | close => trivial
    | ready len =>
      cases w with
      | decrypt data =>
        obtain ⟨rfl, rfl⟩ := h
        simp only [poll]
        cases hplain : decrypt data with
        | none => trivial
        | some plaintext => exact ih (writing_wrote (by simpa [OutputFile.empty] using hplain))
      | write rest =>
        simp only [poll]
        by_cases hlen : len = 0
        · simp only [hlen, if_true]
        · simp only [hlen, if_false]
          refine ih (writing_wrote ?_)
          rw [List.append_assoc, List.take_append_drop]
          exact h
      | flush => exact ih ⟨h, rfl⟩
      | close => exact ⟨h.1, h.2, rfl⟩

end PendingWrite

namespace DecryptedFile
variable {f : DecryptedFile} {received : List UInt8}

def Stores (decrypt : List UInt8 → Option (List UInt8)) (received : List UInt8)
    (f : DecryptedFile) : Prop :=
  match f.state with
  | .unwritten data => data = received ∧ f.file = .empty
  | .pending w => received.length = f.fileSize ∧ w.Wrote decrypt received f.file
  | .complete => received.length = f.fileSize ∧ f.file.Finished decrypt received
  | .poisoned => received.length = f.fileSize

def started (f : DecryptedFile) : Bool :=
  match f.state with
  | .unwritten _ => false
  | _ => true

theorem new_stores (fileSize : ℕ) : (new fileSize).Stores decrypt [] := ⟨rfl, rfl⟩

theorem offset_unwritten {data : List UInt8} (h : f.state = .unwritten data) :
    f.offset = some data.length := by
  simp only [offset, h]

theorem Stores.offset (h : f.Stores decrypt received) {n : ℕ} (hn : f.offset = some n) :
    n = received.length := by
  unfold Stores at h
  unfold DecryptedFile.offset at hn
  cases hstate : f.state with
  | unwritten data =>
    rw [hstate] at h hn
    rw [← h.1]
    exact (Option.some.inj hn).symm
  | pending w =>
    rw [hstate] at h hn
    rw [h.1]
    exact (Option.some.inj hn).symm
  | complete =>
    rw [hstate] at h hn
    rw [h.1]
    exact (Option.some.inj hn).symm
  | poisoned =>
    rw [hstate] at hn
    cases hn

theorem Stores.unwritten (h : f.Stores decrypt received) {data : List UInt8}
    (hstate : f.state = .unwritten data) : data = received := by
  unfold Stores at h
  rw [hstate] at h
  exact h.1

theorem Stores.started (h : f.Stores decrypt received) (hst : f.started = true) :
    received.length = f.fileSize := by
  unfold Stores at h
  unfold DecryptedFile.started at hst
  cases hstate : f.state with
  | unwritten data => simp [hstate] at hst
  | pending w =>
    rw [hstate] at h
    exact h.1
  | complete =>
    rw [hstate] at h
    exact h.1
  | poisoned =>
    rw [hstate] at h
    exact h

theorem Stores.complete (h : f.Stores decrypt received) (hstate : f.state = .complete) :
    f.file.Finished decrypt received := by
  unfold Stores at h
  rw [hstate] at h
  exact h.2

theorem started_unwritten {data : List UInt8} (h : f.state = .unwritten data) :
    f.started = false := by
  simp only [started, h]

theorem started_eq_false (h : f.started = false) : ∃ data, f.state = .unwritten data := by
  unfold started at h
  cases hstate : f.state with
  | unwritten data => exact ⟨data, rfl⟩
  | _ => simp [hstate] at h

theorem writeAll_cases (f : DecryptedFile) (buf : List UInt8) :
    (buf = [] ∧ f.writeAll buf = (f, some (.ok ()))) ∨
    (∃ data, f.state = .unwritten data ∧
      f.writeAll buf = ({ f with state := .unwritten (data ++ buf) }, some (.ok ()))) ∨
    (buf ≠ [] ∧ f.started = true ∧ f.writeAll buf = (f, some (.error moreBytes))) ∨
    (buf ≠ [] ∧ f.state = .poisoned ∧ f.writeAll buf = (f, none)) := by
  unfold writeAll pollWrite started
  by_cases hbuf : buf = []
  · exact .inl ⟨hbuf, if_pos hbuf⟩
  · right
    simp only [hbuf, if_false, ne_eq, not_false_eq_true, true_and]
    cases hstate : f.state with
    | unwritten data => exact .inl ⟨data, rfl, rfl⟩
    | pending w => exact .inr (.inl ⟨rfl, rfl⟩)
    | complete => exact .inr (.inl ⟨rfl, rfl⟩)
    | poisoned => exact .inr (.inr ⟨rfl, rfl⟩)

theorem writeAll_stores {g : DecryptedFile} {buf : List UInt8} (hs : f.Stores decrypt received)
    (h : f.writeAll buf = (g, some (.ok ()))) : g.Stores decrypt (received ++ buf) := by
  rcases f.writeAll_cases buf with ⟨rfl, hw⟩ | ⟨data, hstate, hw⟩ | ⟨_, _, hw⟩ | ⟨_, _, hw⟩
  · obtain ⟨rfl, _⟩ := Prod.mk.inj (hw.symm.trans h)
    rwa [List.append_nil]
  · obtain ⟨rfl, _⟩ := Prod.mk.inj (hw.symm.trans h)
    unfold Stores at hs ⊢
    rw [hstate] at hs
    exact ⟨congrArg (· ++ buf) hs.1, hs.2⟩
  · cases (Prod.mk.inj (hw.symm.trans h)).2
  · cases (Prod.mk.inj (hw.symm.trans h)).2

theorem writeAll_ok {g : DecryptedFile} {buf : List UInt8}
    (h : f.writeAll buf = (g, some (.ok ()))) :
    (g = f ∧ buf = []) ∨
    ∃ data, f.state = .unwritten data ∧ g = { f with state := .unwritten (data ++ buf) } := by
  rcases f.writeAll_cases buf with ⟨rfl, hw⟩ | ⟨data, hstate, hw⟩ | ⟨_, _, hw⟩ | ⟨_, _, hw⟩
  · exact .inl ⟨(Prod.mk.inj (hw.symm.trans h)).1.symm, rfl⟩
  · exact .inr ⟨data, hstate, (Prod.mk.inj (hw.symm.trans h)).1.symm⟩
  · cases (Prod.mk.inj (hw.symm.trans h)).2
  · cases (Prod.mk.inj (hw.symm.trans h)).2

theorem writeAll_refused {g : DecryptedFile} {buf : List UInt8}
    {result : Option (Except IoError Unit)} (h : f.writeAll buf = (g, result))
    (hresult : result ≠ some (.ok ())) :
    g = f ∧ buf ≠ [] ∧ f.started = true ∧ (result = none → f.state = .poisoned) := by
  rcases f.writeAll_cases buf with ⟨_, hw⟩ | ⟨_, _, hw⟩ | ⟨hbuf, hst, hw⟩ | ⟨hbuf, hst, hw⟩
  · exact absurd (Prod.mk.inj (hw.symm.trans h)).2.symm hresult
  · exact absurd (Prod.mk.inj (hw.symm.trans h)).2.symm hresult
  · obtain ⟨rfl, rfl⟩ := Prod.mk.inj (hw.symm.trans h)
    exact ⟨rfl, hbuf, hst, fun hnone => by cases hnone⟩
  · obtain ⟨rfl, rfl⟩ := Prod.mk.inj (hw.symm.trans h)
    exact ⟨rfl, hbuf, by simp only [started, hst], fun _ => hst⟩

theorem pollPending_cases {g : DecryptedFile} {w : PendingWrite} {io : List IoResult}
    {result : FlushPoll} (h : f.pollPending decrypt w io = (g, result)) :
    ∃ file,
      (∃ w', w.poll decrypt f.file io = (file, .pending w') ∧
        g = { f with state := .pending w', file := file } ∧ result = .pending) ∨
      (w.poll decrypt f.file io = (file, .ready) ∧
        g = { f with state := .complete, file := file } ∧ result = .ready) ∨
      (∃ error, w.poll decrypt f.file io = (file, .failed error) ∧
        g = { f with state := .poisoned, file := file } ∧ result = .failed error) := by
  unfold pollPending at h
  generalize w.poll decrypt f.file io = polled at h ⊢
  obtain ⟨file, polled⟩ := polled
  refine ⟨file, ?_⟩
  cases polled with
  | pending w' =>
    obtain ⟨rfl, rfl⟩ := Prod.mk.inj h
    exact .inl ⟨w', rfl, rfl, rfl⟩
  | ready =>
    obtain ⟨rfl, rfl⟩ := Prod.mk.inj h
    exact .inr (.inl ⟨rfl, rfl, rfl⟩)
  | failed error =>
    obtain ⟨rfl, rfl⟩ := Prod.mk.inj h
    exact .inr (.inr ⟨error, rfl, rfl, rfl⟩)

theorem pollPending_stores {g : DecryptedFile} {w : PendingWrite} {io : List IoResult}
    {result : FlushPoll} (h : f.pollPending decrypt w io = (g, result))
    (hlen : received.length = f.fileSize) (hw : w.Wrote decrypt received f.file) :
    g.Stores decrypt received := by
  have hpoll := PendingWrite.poll_wrote io hw
  obtain ⟨file, ⟨w', hp, rfl, _⟩ | ⟨hp, rfl, _⟩ | ⟨error, hp, rfl, _⟩⟩ := pollPending_cases h
  · rw [hp] at hpoll
    exact ⟨hlen, hpoll⟩
  · rw [hp] at hpoll
    exact ⟨hlen, hpoll⟩
  · exact hlen

section Flush
variable {g : DecryptedFile} {io : List IoResult} {result : FlushPoll}

theorem pollFlush_cases (h : f.pollFlush decrypt io = (g, result)) :
    (∃ data, f.state = .unwritten data ∧ data.length ≠ f.fileSize ∧ g = f ∧ result = .ready) ∨
    (f.state = .complete ∧ g = f ∧ result = .ready) ∨
    (f.state = .poisoned ∧ g = f ∧ result = .panicked) ∨
    (∃ w, (f.state = .pending w ∨
        ∃ data, f.state = .unwritten data ∧ data.length = f.fileSize ∧ w = .decrypt data) ∧
      f.pollPending decrypt w io = (g, result)) := by
  unfold pollFlush at h
  cases hstate : f.state with
  | unwritten data =>
    simp only [hstate] at h
    by_cases hlen : data.length = f.fileSize
    · rw [if_neg (not_not_intro hlen)] at h
      exact .inr (.inr (.inr ⟨_, .inr ⟨data, rfl, hlen, rfl⟩, h⟩))
    · rw [if_pos hlen] at h
      obtain ⟨rfl, rfl⟩ := Prod.mk.inj h
      exact .inl ⟨data, rfl, hlen, rfl, rfl⟩
  | pending w =>
    simp only [hstate] at h
    exact .inr (.inr (.inr ⟨w, .inl rfl, h⟩))
  | complete =>
    simp only [hstate] at h
    obtain ⟨rfl, rfl⟩ := Prod.mk.inj h
    exact .inr (.inl ⟨rfl, rfl, rfl⟩)
  | poisoned =>
    simp only [hstate] at h
    obtain ⟨rfl, rfl⟩ := Prod.mk.inj h
    exact .inr (.inr (.inl ⟨rfl, rfl, rfl⟩))

theorem pollFlush_stores (h : f.pollFlush decrypt io = (g, result))
    (hs : f.Stores decrypt received) : g.Stores decrypt received := by
  rcases pollFlush_cases h with ⟨_, _, _, rfl, _⟩ | ⟨_, rfl, _⟩ | ⟨_, rfl, _⟩ | ⟨w, hw, hpoll⟩
  · exact hs
  · exact hs
  · exact hs
  · unfold Stores at hs
    rcases hw with hstate | ⟨data, hstate, hlen, rfl⟩
    · rw [hstate] at hs
      exact pollPending_stores hpoll hs.1 hs.2
    · rw [hstate] at hs
      obtain ⟨rfl, hfile⟩ := hs
      exact pollPending_stores hpoll hlen ⟨rfl, hfile⟩

theorem pollFlush_fileSize (h : f.pollFlush decrypt io = (g, result)) :
    g.fileSize = f.fileSize := by
  rcases pollFlush_cases h with ⟨_, _, _, rfl, _⟩ | ⟨_, rfl, _⟩ | ⟨_, rfl, _⟩ | ⟨w, _, hpoll⟩
  · rfl
  · rfl
  · rfl
  · obtain ⟨file, ⟨_, _, rfl, _⟩ | ⟨_, rfl, _⟩ | ⟨_, _, rfl, _⟩⟩ := pollPending_cases hpoll
    · rfl
    · rfl
    · rfl

theorem pollFlush_result (h : f.pollFlush decrypt io = (g, result)) :
    match result with
    | .pending => g.started = true ∧ g.state ≠ .poisoned
    | .ready => g.state = .complete ∨
        (g = f ∧ ∃ data, f.state = .unwritten data ∧ data.length ≠ f.fileSize)
    | .failed _ => g.state = .poisoned
    | .panicked => g = f ∧ f.state = .poisoned := by
  rcases pollFlush_cases h with ⟨data, hstate, hlen, rfl, rfl⟩ | ⟨hstate, rfl, rfl⟩ |
    ⟨hstate, rfl, rfl⟩ | ⟨w, _, hpoll⟩
  · exact .inr ⟨rfl, data, hstate, hlen⟩
  · exact .inl hstate
  · exact ⟨rfl, hstate⟩
  · obtain ⟨file, ⟨_, _, rfl, rfl⟩ | ⟨_, rfl, rfl⟩ | ⟨_, _, rfl, rfl⟩⟩ := pollPending_cases hpoll
    · exact ⟨rfl, by simp only [ne_eq, reduceCtorEq, not_false_eq_true]⟩
    · exact .inl rfl
    · rfl

theorem pollFlush_started (h : f.pollFlush decrypt io = (g, result)) :
    g.started = true ∨ g = f := by
  rcases pollFlush_cases h with ⟨_, _, _, rfl, _⟩ | ⟨_, rfl, _⟩ | ⟨_, rfl, _⟩ | ⟨w, _, hpoll⟩
  · exact .inr rfl
  · exact .inr rfl
  · exact .inr rfl
  · obtain ⟨file, ⟨_, _, rfl, _⟩ | ⟨_, rfl, _⟩ | ⟨_, _, rfl, _⟩⟩ := pollPending_cases hpoll
    · exact .inl rfl
    · exact .inl rfl
    · exact .inl rfl

theorem pollFlush_unpoisoned (h : f.pollFlush decrypt io = (g, result)) (hstate : f.state ≠ .poisoned)
    (hfailed : ∀ error, result ≠ .failed error) : g.state ≠ .poisoned := by
  have hresult := pollFlush_result h
  cases result with
  | pending => exact hresult.2
  | ready =>
    rcases hresult with hcomplete | ⟨rfl, -⟩
    · simp [hcomplete]
    · exact hstate
  | failed error => exact absurd rfl (hfailed error)
  | panicked => exact absurd hresult.2 hstate

/-- `poll_close` is a flush that also asks whether everything was written. -/
theorem pollClose_cases (h : f.pollClose decrypt io = (g, result)) :
    ∃ flushed, f.pollFlush decrypt io = (g, flushed) ∧
      (result = .ready ∧ g.state = .complete ∨
        result = .failed lessBytes ∧ g.state ≠ .poisoned ∨ result = flushed ∧ flushed ≠ .ready) := by
  unfold pollClose at h
  rcases hflush : f.pollFlush decrypt io with ⟨g', flushed⟩
  rw [hflush] at h
  cases flushed with
  | ready =>
    simp only at h
    cases hstate : g'.state with
    | complete =>
      simp only [hstate] at h
      obtain ⟨rfl, rfl⟩ := Prod.mk.inj h
      exact ⟨_, rfl, .inl ⟨rfl, hstate⟩⟩
    | pending w | unwritten data =>
      simp only [hstate] at h
      obtain ⟨rfl, rfl⟩ := Prod.mk.inj h
      exact ⟨_, rfl, .inr (.inl ⟨rfl, by simp [hstate]⟩)⟩
    | poisoned =>
      rcases pollFlush_result hflush with hcomplete | ⟨rfl, data, hunwritten, -⟩
      · rw [hstate] at hcomplete
        cases hcomplete
      · rw [hstate] at hunwritten
        cases hunwritten
  | pending | failed error | panicked =>
    obtain ⟨rfl, rfl⟩ := Prod.mk.inj h
    exact ⟨_, rfl, .inr (.inr ⟨rfl, nofun⟩)⟩

end Flush

theorem exists_offset (hstate : f.state ≠ .poisoned) : ∃ n, f.offset = some n := by
  unfold DecryptedFile.offset
  cases hs : f.state with
  | unwritten data => exact ⟨_, rfl⟩
  | pending w | complete => exact ⟨_, rfl⟩
  | poisoned => exact absurd hs hstate

end DecryptedFile

end Glopfile.Client
