import Glopfile.Api.FileMeta
import Glopfile.Client.Downloader

/-!
# Setting up a download

`decrypt_file` adds the length of nonce and tag to the size in the metadata, and reserves a
buffer of that size; `download_async` adds again. The size is any `u64` the uploader wrote.
Targets have 64 bits; `overflowChecks` tells debug builds from release builds, and `allocates`
which buffers the allocator grants.

The size is not checked. A size past `isize::MAX` panics where the buffer is reserved, before
a wrapped length is used; below it nothing wraps, and the download starts in the state the
machine of `downloadAsync` starts in.
-/

namespace Glopfile.Client

open Api (FileMeta DownloadMeta)

def isizeMax : ℕ := 2 ^ 63 - 1

inductive Crash
  /-- `expect("file fits in memory")` -/
  | fileFitsInMemory
  /-- attempt to add with overflow -/
  | overflow
  /-- capacity overflow -/
  | capacityOverflow
  /-- The process is aborted. -/
  | outOfMemory
  deriving DecidableEq, Repr

def usizeTryFrom (n : UInt64) : Except Crash ℕ :=
  if n.toNat < 2 ^ 64 then .ok n.toNat else .error .fileFitsInMemory

def addU64 (overflowChecks : Bool) (a b : UInt64) : Except Crash UInt64 :=
  if overflowChecks = true ∧ 2 ^ 64 ≤ a.toNat + b.toNat then .error .overflow else .ok (a + b)

def withCapacity (allocates : ℕ → Bool) (capacity : ℕ) : Except Crash (List UInt8) :=
  if isizeMax < capacity then .error .capacityOverflow
  else if capacity = 0 ∨ allocates capacity = true then .ok []
  else .error .outOfMemory

variable (overflowChecks : Bool) (allocates : ℕ → Bool) (downloadMeta : DownloadMeta)

def decryptFile : Except Crash DecryptedFile := do
  let dataLen ← usizeTryFrom downloadMeta.fileMeta.fileSize
  let fileSize ← addU64 overflowChecks downloadMeta.fileMeta.fileSize (.ofNat extraCiphertextLen)
  let data ← withCapacity allocates dataLen
  return ⟨fileSize.toNat, .unwritten data, .empty⟩

/-- `decrypt_file`, and the state that `download_async` starts from. Neither returns an error,
so that a download is not refused here. -/
def startDownload : Except Crash DownloadState := do
  let decryptedFile ← decryptFile overflowChecks allocates downloadMeta
  let totalLen ← addU64 overflowChecks downloadMeta.fileMeta.fileSize (.ofNat extraCiphertextLen)
  return { decryptedFile, requestedOffset := 0, totalLen := totalLen.toNat }

def Proceeds (fileSize : UInt64) (result : Except Crash DownloadState) : Prop :=
  ∃ state, result = .ok state ∧ state.totalLen = fileSize.toNat + 28 ∧
    state.decryptedFile.fileSize = fileSize.toNat + 28

def Reserved (allocates : ℕ → Bool) (fileSize : UInt64) : Prop :=
  fileSize.toNat ≤ isizeMax ∧ (fileSize.toNat = 0 ∨ allocates fileSize.toNat = true)

section Sizes
variable {overflowChecks allocates} {fileSize : UInt64}

theorem usizeTryFrom_eq (n : UInt64) : usizeTryFrom n = .ok n.toNat :=
  if_pos n.toNat_lt

theorem addU64_of_lt {a b : UInt64} (h : a.toNat + b.toNat < 2 ^ 64) :
    addU64 overflowChecks a b = .ok (a + b) := by
  have hover : ¬ (overflowChecks = true ∧ 2 ^ 64 ≤ a.toNat + b.toNat) :=
    fun hover => Nat.not_le.2 h hover.2
  exact if_neg hover

theorem withCapacity_ok_iff {data : List UInt8} :
    withCapacity allocates fileSize.toNat = .ok data ↔
      Reserved allocates fileSize ∧ data = [] := by
  unfold withCapacity Reserved
  split_ifs with hlarge hallocates
  · have hnot : ¬ fileSize.toNat ≤ isizeMax := Nat.not_le.2 hlarge
    simp only [hnot, false_and]
  · simp only [Except.ok.injEq, Nat.not_lt.1 hlarge, hallocates, and_self, true_and]
    exact eq_comm
  · simp only [hallocates, and_false, false_and]

theorem Reserved.add_lt (h : Reserved allocates fileSize) :
    fileSize.toNat + (UInt64.ofNat extraCiphertextLen).toNat < 2 ^ 64 := by
  have hextra : (UInt64.ofNat extraCiphertextLen).toNat = 28 := rfl
  have hsize : fileSize.toNat ≤ 2 ^ 63 - 1 := h.1
  omega

theorem Reserved.ciphertextLen_eq (h : Reserved allocates fileSize) :
    ciphertextLen fileSize.toNat = fileSize.toNat + 28 :=
  Nat.mod_eq_of_lt h.add_lt

theorem Reserved.addU64_eq (h : Reserved allocates fileSize) :
    ∃ total, addU64 overflowChecks fileSize (.ofNat extraCiphertextLen) = .ok total ∧
      total.toNat = ciphertextLen fileSize.toNat :=
  ⟨_, addU64_of_lt h.add_lt, UInt64.toNat_add _ _⟩

end Sizes

section Start
variable {overflowChecks : Bool} {allocates : ℕ → Bool} {downloadMeta : DownloadMeta}

theorem ok_of_bind {α β : Type} {x : Except Crash α} {next : α → Except Crash β} {b : β}
    (h : x >>= next = .ok b) : ∃ a, x = .ok a ∧ next a = .ok b := by
  cases x with
  | error crash => nomatch h
  | ok a => exact ⟨a, rfl, h⟩

theorem decryptFile_reserved {file : DecryptedFile}
    (h : decryptFile overflowChecks allocates downloadMeta = .ok file) :
    Reserved allocates downloadMeta.fileMeta.fileSize := by
  obtain ⟨dataLen, hlen, h⟩ := ok_of_bind h
  obtain ⟨fileSize, -, h⟩ := ok_of_bind h
  obtain ⟨data, hdata, -⟩ := ok_of_bind h
  cases (usizeTryFrom_eq _).symm.trans hlen
  exact (withCapacity_ok_iff.1 hdata).1

theorem startDownload_reserved {state : DownloadState}
    (h : startDownload overflowChecks allocates downloadMeta = .ok state) :
    Reserved allocates downloadMeta.fileMeta.fileSize := by
  obtain ⟨file, hfile, -⟩ := ok_of_bind h
  exact decryptFile_reserved hfile

theorem decryptFile_of_reserved (h : Reserved allocates downloadMeta.fileMeta.fileSize) :
    decryptFile overflowChecks allocates downloadMeta =
      .ok (.new downloadMeta.fileMeta.fileSize.toNat) := by
  obtain ⟨total, hadd, htotal⟩ := @Reserved.addU64_eq overflowChecks _ _ h
  have hdata : withCapacity allocates downloadMeta.fileMeta.fileSize.toNat = .ok [] :=
    withCapacity_ok_iff.2 ⟨h, rfl⟩
  rw [decryptFile, usizeTryFrom_eq, hadd, DecryptedFile.new, ← htotal]
  change (do let data ← withCapacity allocates downloadMeta.fileMeta.fileSize.toNat; _) = _
  rw [hdata]
  rfl

/-- What starts is the download of `downloadAsync`. -/
theorem startDownload_of_reserved (h : Reserved allocates downloadMeta.fileMeta.fileSize)
    (transport : Transport) :
    startDownload overflowChecks allocates downloadMeta =
      .ok (Download.spawn transport downloadMeta.fileMeta.fileSize.toNat).state := by
  obtain ⟨total, hadd, htotal⟩ := @Reserved.addU64_eq overflowChecks _ _ h
  rw [startDownload, decryptFile_of_reserved h, hadd, Download.spawn, ← htotal]
  rfl

end Start

theorem startDownload_proceeds {state : DownloadState}
    (h : startDownload overflowChecks allocates downloadMeta = .ok state) :
    Proceeds downloadMeta.fileMeta.fileSize
      (startDownload overflowChecks allocates downloadMeta) := by
  have hreserved := startDownload_reserved h
  refine ⟨_, startDownload_of_reserved hreserved .both, ?_, ?_⟩
  · exact hreserved.ciphertextLen_eq
  · exact hreserved.ciphertextLen_eq

/-- The sizes are admissible and the download proceeds iff a buffer of the size in its metadata
can be reserved. -/
theorem download_starts_iff :
    (downloadMeta.fileMeta.fileSize.toNat + 28 < 2 ^ 64 ∧
      downloadMeta.fileMeta.fileSize.toNat ≤ isizeMax ∧
      Proceeds downloadMeta.fileMeta.fileSize
        (startDownload overflowChecks allocates downloadMeta)) ↔
      Reserved allocates downloadMeta.fileMeta.fileSize := by
  constructor
  · rintro ⟨-, -, state, h, -, -⟩
    exact startDownload_reserved h
  · intro h
    refine ⟨h.add_lt, h.1, ?_⟩
    exact startDownload_proceeds overflowChecks allocates downloadMeta
      (startDownload_of_reserved h .both)

/-- The least size past `isize::MAX`; `fetch_meta` accepts it like any other. -/
theorem unchecked_size_panics :
    startDownload false (fun _ => true) ⟨"content/1", ⟨"a", 9223372036854775808⟩⟩ =
        .error .capacityOverflow ∧
      ¬ Proceeds 9223372036854775808
        (startDownload false (fun _ => true) ⟨"content/1", ⟨"a", 9223372036854775808⟩⟩) := by
  have hpanic : startDownload false (fun _ => true) ⟨"content/1", ⟨"a", 9223372036854775808⟩⟩ =
      .error .capacityOverflow := by decide
  refine ⟨hpanic, ?_⟩
  rintro ⟨state, h, -, -⟩
  nomatch hpanic.symm.trans h

end Glopfile.Client
