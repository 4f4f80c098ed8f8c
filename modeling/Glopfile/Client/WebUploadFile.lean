import Glopfile.EventMachine
import Glopfile.Client.Cipher

/-!
# Reading a file in the browser

`poll_read` asks JavaScript for as many bytes as the buffer takes and may be given fewer or
more. What does not fit is kept and handed out by the next calls; the offset counts what was
given, whether or not it was handed out. An event is a call, with the length of its buffer and
what the future would meet in JavaScript if this call polls it.

`readLen` is `Uint8Array::length`, a `u32`. A future that has completed panics when it is polled
again.
-/

namespace Glopfile.Client.WebUploadFile

open EventMachine (Trace)

abbrev Uint8Array := List UInt8

def readLen (data : Uint8Array) : ℕ := data.length % 2 ^ 32

def subarray (data : Uint8Array) (start stop : ℕ) : Uint8Array := (data.take stop).drop start

inductive ReadAt
  | pending
  | resolved (data : Uint8Array)
  | resolvedOther
  | rejected (message : String)
  deriving DecidableEq, Repr

structure PendingRead where
  offset : ℕ
  len : ℕ
  completed : Bool
  deriving DecidableEq, Repr

inductive UploadFileReadState
  | idle
  | reading (pendingRead : PendingRead)
  | available (data : Uint8Array)
  deriving DecidableEq, Repr

structure UploadFile where
  offset : ℕ
  pendingRead : UploadFileReadState
  deriving DecidableEq, Repr

inductive Panic
  /-- The future is polled after it has completed. -/
  | resumed
  /-- `expect("UploadableFile.read_at returns a Uint8Array")` -/
  | notUint8Array
  deriving DecidableEq, Repr

/-- `ready` has the bytes that were copied to the buffer. -/
inductive PollRead
  | pending
  | ready (bytes : List UInt8)
  | failed (message : String)
  | panicked (panic : Panic)
  deriving DecidableEq, Repr

structure Call where
  bufLen : ℕ
  readAt : ReadAt
  deriving DecidableEq, Repr

namespace UploadFile

def new : UploadFile := ⟨0, .idle⟩

def insert (f : UploadFile) (bufLen : ℕ) : PendingRead :=
  match f.pendingRead with
  | .reading pendingRead => pendingRead
  | _ => ⟨f.offset, bufLen, false⟩

def copyTo (f : UploadFile) (data : Uint8Array) (bufLen : ℕ) : UploadFile × PollRead :=
  let dataLen := readLen data
  let bytes := subarray data 0 (min dataLen bufLen)
  if bufLen < dataLen then
    ({ f with pendingRead := .available (subarray data bufLen dataLen) }, .ready bytes)
  else (f, .ready bytes)

/-- The call polls the future; an error leaves it where it is. -/
def pollFuture (f : UploadFile) (bufLen : ℕ) (readAt : ReadAt) : UploadFile × PollRead :=
  let pendingRead := f.insert bufLen
  let completed : PendingRead := { pendingRead with completed := true }
  if pendingRead.completed then
    ({ f with pendingRead := .reading pendingRead }, .panicked .resumed)
  else
    match readAt with
    | .pending => ({ f with pendingRead := .reading pendingRead }, .pending)
    | .rejected message => ({ f with pendingRead := .reading completed }, .failed message)
    | .resolvedOther => ({ f with pendingRead := .reading completed }, .panicked .notUint8Array)
    | .resolved data =>
      { f with offset := f.offset + readLen data, pendingRead := .idle }.copyTo data bufLen

def pollRead (f : UploadFile) (bufLen : ℕ) (readAt : ReadAt) : UploadFile × PollRead :=
  match f.pendingRead with
  | .reading _ | .idle => f.pollFuture bufLen readAt
  | .available data => { f with pendingRead := .idle }.copyTo data bufLen

end UploadFile

def webUploadFile : EventMachine UploadFile Call PollRead where
  init := .new
  step f call :=
    let (f', poll) := f.pollRead call.bufLen call.readAt
    some (f', [poll])

def PollRead.bytes : PollRead → List UInt8
  | .ready bytes => bytes
  | _ => []

def returned (tr : Trace Call PollRead) : List UInt8 :=
  tr.flatMap fun call => call.2.flatMap PollRead.bytes

def reads (tr : Trace Call PollRead) : List (List UInt8) :=
  tr.flatMap fun call => call.2.filterMap fun
    | .ready bytes => some bytes
    | _ => none

/-- JavaScript serves the file: a promise is not rejected, and resolves to bytes of the file
from where they were asked for, as many as it likes. Their length is zero only at its end. -/
def Serves (file : List UInt8) (f : UploadFile) (call : Call) : Prop :=
  0 < call.bufLen ∧
    (call.readAt = .pending ∨ ∃ k, let data := (file.drop (f.insert call.bufLen).offset).take k
      call.readAt = .resolved data ∧
        (readLen data = 0 → file.length ≤ (f.insert call.bufLen).offset))

def UploadFile.kept (f : UploadFile) : List UInt8 :=
  match f.pendingRead with
  | .available data => data
  | _ => []

structure Reads (file : List UInt8) (tr : Trace Call PollRead) (f : UploadFile) : Prop where
  accounted : returned tr ++ f.kept = file.take f.offset
  offset_le : f.offset ≤ file.length
  reading : ∀ pendingRead, f.pendingRead = .reading pendingRead →
    pendingRead.offset = f.offset ∧ pendingRead.completed = false
  available : ∀ data, f.pendingRead = .available data → data ≠ [] ∧ data.length < 2 ^ 32

variable {file data : List UInt8} {f f' : UploadFile} {call : Call} {poll : PollRead}
  {tr : Trace Call PollRead} {bufLen : ℕ}

theorem readLen_le : readLen data ≤ data.length := Nat.mod_le _ _

@[simp] theorem returned_snoc :
    returned (tr ++ [(call, [poll])]) = returned tr ++ poll.bytes := by
  simp [returned]

@[simp] theorem reads_ready {bytes : List UInt8} :
    reads (tr ++ [(call, [.ready bytes])]) = reads tr ++ [bytes] := by
  simp [reads]

theorem reads_of_ne (h : ∀ bytes, poll ≠ .ready bytes) :
    reads (tr ++ [(call, [poll])]) = reads tr ∧ poll.bytes = [] := by
  cases poll with
  | ready bytes => exact absurd rfl (h bytes)
  | pending => simp [reads, PollRead.bytes]
  | failed message => simp [reads, PollRead.bytes]
  | panicked panic => simp [reads, PollRead.bytes]

theorem subarray_append {n : ℕ} (h : bufLen ≤ n) :
    subarray data 0 bufLen ++ subarray data bufLen n = data.take n := by
  have hfirst : subarray data 0 bufLen = (data.take n).take bufLen := by
    rw [subarray, List.drop_zero, List.take_take, Nat.min_eq_left h]
  rw [hfirst, subarray, List.take_append_drop]

theorem length_subarray {n : ℕ} (h : n ≤ data.length) :
    (subarray data bufLen n).length = n - bufLen := by
  rw [subarray, List.length_drop, List.length_take, Nat.min_eq_left h]

structure Copies (f : UploadFile) (data : Uint8Array) (f' : UploadFile) (bytes : List UInt8) :
    Prop where
  offset : f'.offset = f.offset
  all : bytes ++ f'.kept = data.take (readLen data)
  empty : bytes = [] → readLen data = 0
  reading : ∀ pendingRead, f'.pendingRead ≠ .reading pendingRead
  available : ∀ kept, f'.pendingRead = .available kept → kept ≠ [] ∧ kept.length < 2 ^ 32

theorem copyTo_copies (hidle : f.pendingRead = .idle) (hbuf : 0 < bufLen) :
    ∃ f' bytes, f.copyTo data bufLen = (f', .ready bytes) ∧ Copies f data f' bytes := by
  have hle : readLen data ≤ data.length := readLen_le
  have hlt : readLen data < 2 ^ 32 := Nat.mod_lt _ (by decide)
  unfold UploadFile.copyTo
  dsimp only
  split_ifs with hfits
  · rw [Nat.min_eq_right (Nat.le_of_lt hfits)]
    have hkept : (subarray data bufLen (readLen data)).length = readLen data - bufLen :=
      length_subarray hle
    have hbytes : (subarray data 0 bufLen).length = bufLen - 0 := length_subarray (by omega)
    refine ⟨_, _, rfl, ⟨rfl, subarray_append (Nat.le_of_lt hfits), ?_, nofun, ?_⟩⟩
    · intro hempty
      rw [hempty, List.length_nil] at hbytes
      omega
    · intro kept hsame
      obtain rfl := UploadFileReadState.available.inj hsame
      rw [← List.length_pos_iff, hkept]
      omega
  · have hmin : min (readLen data) bufLen = readLen data := Nat.min_eq_left (Nat.not_lt.mp hfits)
    have hbytes : (subarray data 0 (readLen data)).length = readLen data - 0 := length_subarray hle
    rw [hmin]
    refine ⟨_, _, rfl, ⟨rfl, ?_, ?_, ?_, ?_⟩⟩
    · rw [UploadFile.kept, hidle, List.append_nil, subarray, List.drop_zero]
    · intro hempty
      rw [hempty, List.length_nil] at hbytes
      omega
    · rw [hidle]
      nofun
    · rw [hidle]
      nofun

theorem spawn_reads : Reads file [] .new where
  accounted := rfl
  offset_le := Nat.zero_le _
  reading := nofun
  available := nofun

theorem Reads.pending (h : Reads file tr f) {pendingRead : PendingRead}
    (hkept : f.kept = []) (hoffset : pendingRead.offset = f.offset)
    (hrunning : pendingRead.completed = false) :
    Reads file (tr ++ [(call, [.pending])]) { f with pendingRead := .reading pendingRead } where
  accounted := by
    have haccounted := h.accounted
    rw [hkept] at haccounted
    rw [returned_snoc, List.append_assoc]
    exact haccounted
  offset_le := h.offset_le
  reading := by
    intro other hsame
    obtain rfl := UploadFileReadState.reading.inj hsame
    exact ⟨hoffset, hrunning⟩
  available := nofun

theorem Reads.copies {bytes : List UInt8} {n : ℕ}
    (hcopies : Copies { f with offset := f.offset + n, pendingRead := .idle } data f' bytes)
    (hall : returned tr ++ data.take (readLen data) = file.take (f.offset + n))
    (hle : f.offset + n ≤ file.length) :
    Reads file (tr ++ [(call, [.ready bytes])]) f' where
  accounted := by
    rw [returned_snoc, PollRead.bytes, List.append_assoc, hcopies.all, hall, hcopies.offset]
  offset_le := by
    rw [hcopies.offset]
    exact hle
  reading pendingRead hreading := absurd hreading (hcopies.reading pendingRead)
  available := hcopies.available

theorem Reads.insert (h : Reads file tr f) :
    (f.insert bufLen).offset = f.offset ∧ (f.insert bufLen).completed = false := by
  unfold UploadFile.insert
  split
  · next pendingRead hreading => exact h.reading pendingRead hreading
  · exact ⟨rfl, rfl⟩

theorem Reads.pollFuture (h : Reads file tr f) (hserves : Serves file f call)
    (hkept : f.kept = []) :
    ∃ f' poll, f.pollFuture call.bufLen call.readAt = (f', poll) ∧
      Reads file (tr ++ [(call, [poll])]) f' ∧ (poll = .ready [] → returned tr = file) ∧
      ∀ panic, poll ≠ .panicked panic := by
  obtain ⟨hbuf, hreadAt⟩ := hserves
  obtain ⟨hoffset, hrunning⟩ := @Reads.insert file f tr call.bufLen h
  have hreturned : returned tr = file.take f.offset := by
    rw [← h.accounted, hkept, List.append_nil]
  unfold UploadFile.pollFuture
  simp only [hrunning, Bool.false_eq_true, if_false]
  rcases hreadAt with hpending | ⟨k, hresolved, hend⟩
  · rw [hpending]
    exact ⟨_, _, rfl, h.pending hkept hoffset hrunning, nofun, nofun⟩
  · rw [hoffset] at hresolved hend
    generalize hdata : (file.drop f.offset).take k = data at hresolved hend
    rw [hresolved]
    obtain ⟨f', bytes, hcopy, hcopies⟩ := @copyTo_copies data
      { f with offset := f.offset + readLen data, pendingRead := .idle } call.bufLen rfl hbuf
    have hle : readLen data ≤ data.length := readLen_le
    have hlength : data.length ≤ file.length - f.offset ∧ data.length ≤ k := by
      rw [← hdata, List.length_take, List.length_drop]
      omega
    refine ⟨f', .ready bytes, hcopy, ?_, ?_, nofun⟩
    · have hoffset_le := h.offset_le
      refine .copies hcopies ?_ (by omega)
      have htake : data.take (readLen data) = (file.drop f.offset).take (readLen data) := by
        rw [← hdata, List.take_take, hdata, Nat.min_eq_left (Nat.le_trans hle hlength.2)]
      rw [hreturned, htake, List.take_add]
    · intro hempty
      rw [hreturned, List.take_of_length_le (hend (hcopies.empty (PollRead.ready.inj hempty)))]

theorem Reads.pollRead (h : Reads file tr f) (hserves : Serves file f call) :
    ∃ f' poll, f.pollRead call.bufLen call.readAt = (f', poll) ∧
      Reads file (tr ++ [(call, [poll])]) f' ∧ (poll = .ready [] → returned tr = file) ∧
      ∀ panic, poll ≠ .panicked panic := by
  unfold UploadFile.pollRead
  cases hstate : f.pendingRead with
  | idle => exact h.pollFuture hserves (by rw [UploadFile.kept, hstate])
  | reading pendingRead => exact h.pollFuture hserves (by rw [UploadFile.kept, hstate])
  | available kept =>
    obtain ⟨hne, hlt⟩ := h.available kept hstate
    have hlen : readLen kept = kept.length := Nat.mod_eq_of_lt hlt
    obtain ⟨f', bytes, hcopy, hcopies⟩ :=
      @copyTo_copies kept { f with pendingRead := .idle } call.bufLen rfl hserves.1
    refine ⟨f', .ready bytes, hcopy, ?_, ?_, nofun⟩
    · refine @Reads.copies file kept f f' call tr bytes 0 hcopies ?_ h.offset_le
      have haccounted := h.accounted
      rw [UploadFile.kept, hstate] at haccounted
      rw [hlen, List.take_length]
      exact haccounted
    · intro hempty
      have hzero := hcopies.empty (PollRead.ready.inj hempty)
      rw [hlen] at hzero
      exact absurd (List.length_eq_zero_iff.mp hzero) hne

structure Returns (file : List UInt8) (tr : Trace Call PollRead) : Prop where
  ready_empty : tr.Each fun pre _ os => .ready [] ∈ os → returned pre = file
  no_panic : ∀ x ∈ tr, ∀ panic, .panicked panic ∉ x.2
  flatten_reads : (reads tr).flatten = returned tr
  read_to_end : [] ∈ reads tr → ContentCipherBuffer.readToEnd (reads tr) = file

theorem Returns.snoc (h : Returns file tr) (hempty : poll = .ready [] → returned tr = file)
    (hpanic : ∀ panic, poll ≠ .panicked panic) : Returns file (tr ++ [(call, [poll])]) := by
  have hready_empty : Trace.Each (fun pre _ os => .ready [] ∈ os → returned pre = file)
      (tr ++ [(call, [poll])]) :=
    EventMachine.Trace.each_snoc.mpr
      ⟨h.ready_empty, fun hmem => hempty (List.mem_singleton.mp hmem).symm⟩
  have hno_panic : ∀ x ∈ tr ++ [(call, [poll])], ∀ panic, .panicked panic ∉ x.2 := by
    intro x hx panic hmem
    rcases List.mem_append.mp hx with hx | hx
    · exact h.no_panic x hx panic hmem
    · rw [List.mem_singleton.mp hx] at hmem
      exact hpanic panic (List.mem_singleton.mp hmem).symm
  by_cases hready : ∃ bytes, poll = .ready bytes
  · obtain ⟨bytes, rfl⟩ := hready
    refine ⟨hready_empty, hno_panic, ?_, ?_⟩
    · rw [reads_ready, returned_snoc, List.flatten_append, h.flatten_reads, PollRead.bytes,
        List.flatten_singleton]
    · intro hend
      by_cases hended : [] ∈ reads tr
      · rw [reads_ready, ContentCipherBuffer.readToEnd_of_mem hended, h.read_to_end hended]
      · rw [reads_ready, List.mem_append, List.mem_singleton] at hend
        obtain rfl := hend.resolve_left hended
        rw [reads_ready, ContentCipherBuffer.readToEnd_snoc hended, h.flatten_reads, hempty rfl]
  · obtain ⟨hreads, hbytes⟩ := @reads_of_ne call poll tr (not_exists.mp hready)
    refine ⟨hready_empty, hno_panic, ?_, ?_⟩
    · rw [hreads, returned_snoc, hbytes, List.append_nil, h.flatten_reads]
    · rw [hreads]
      exact h.read_to_end

theorem path_reads (h : webUploadFile.Path (Serves file) .new tr f) :
    Reads file tr f ∧ Returns file tr := by
  refine h.history (P := fun tr f => Reads file tr f ∧ Returns file tr)
    ⟨spawn_reads, EventMachine.Trace.each_nil, nofun, rfl, nofun⟩ ?_
  rintro tr f call f' os - ⟨hreads, hreturns⟩ hserves hstep
  obtain ⟨g, poll, hpoll, hreads', hempty, hpanic⟩ := hreads.pollRead hserves
  have hstep' : some (g, [poll]) = some (f', os) := by
    rw [← hstep]
    simp only [webUploadFile, hpoll]
  obtain ⟨rfl, rfl⟩ := Prod.mk.inj (Option.some.inj hstep')
  exact ⟨hreads', hreturns.snoc hempty hpanic⟩

/-- In every run the bytes returned are a prefix of the file, a call returns none only when the
whole file has been returned, and no call panics. The loop that reads to the end reads it all. -/
theorem reader_returns_the_file (h : webUploadFile.Path (Serves file) .new tr f) :
    returned tr <+: file ∧
      (tr.Each fun pre _ os => .ready [] ∈ os → returned pre = file) ∧
      (∀ x ∈ tr, ∀ panic, .panicked panic ∉ x.2) ∧
      ([] ∈ reads tr → ContentCipherBuffer.readToEnd (reads tr) = file) := by
  obtain ⟨hreads, hreturns⟩ := path_reads h
  refine ⟨?_, hreturns.ready_empty, hreturns.no_panic, hreturns.read_to_end⟩
  have hread : returned tr <+: file.take f.offset := by
    rw [← hreads.accounted]
    exact List.prefix_append _ _
  exact hread.trans (List.take_prefix _ _)

theorem reader_returns_the_file_five :
    ∃ tr f, webUploadFile.Path (Serves [1, 2, 3, 4, 5]) .new tr f ∧
      reads tr = [[1, 2], [3, 4, 5], []] ∧
      ContentCipherBuffer.readToEnd (reads tr) = [1, 2, 3, 4, 5] := by
  have hpending : Serves [1, 2, 3, 4, 5] .new ⟨3, .pending⟩ := ⟨by decide, .inl rfl⟩
  have hresolved : Serves [1, 2, 3, 4, 5] ⟨0, .reading ⟨0, 3, false⟩⟩
      ⟨2, .resolved [1, 2, 3, 4, 5]⟩ := ⟨by decide, .inr ⟨5, rfl, by decide⟩⟩
  have hkept : Serves [1, 2, 3, 4, 5] ⟨5, .available [3, 4, 5]⟩ ⟨10, .pending⟩ :=
    ⟨by decide, .inl rfl⟩
  have hend : Serves [1, 2, 3, 4, 5] ⟨5, .idle⟩ ⟨10, .resolved []⟩ :=
    ⟨by decide, .inr ⟨0, rfl, by decide⟩⟩
  have hpath := EventMachine.Path.cons (m := webUploadFile) hpending rfl
    (.cons hresolved rfl (.cons hkept rfl (.cons hend rfl .refl)))
  exact ⟨_, _, hpath, by decide, (reader_returns_the_file hpath).2.2.2 (by decide)⟩

end Glopfile.Client.WebUploadFile
