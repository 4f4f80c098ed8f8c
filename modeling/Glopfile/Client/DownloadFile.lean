import Glopfile.UnixPath
import Glopfile.Api.FileMeta

/-!
# Where a download is written

`DownloadFile::new` joins the name in the metadata to the output directory and creates the
file there. The file system is a parameter: its laws are the names no file can be created
under, and it may refuse any other for reasons of its own.

The name is not looked at, although the uploader sends only the last component of a path.
So the file stands directly inside the directory exactly for the names that walk one step
(`new_stays_inside`); any other name that can be created leads elsewhere.
-/

namespace Glopfile.Client

open UnixPath Api

inductive ErrorKind
  | invalidInput
  | isADirectory
  | notFound
  | permissionDenied
  | other
  deriving DecidableEq, Repr

structure FileSystem where
  create : Path → Except ErrorKind Unit
  create_nul : ∀ path, 0 ∈ path → create path = .error .invalidInput
  create_directory : ∀ path, lastPiece path ∈ [[], [dot], [dot, dot]] →
    ∃ kind, create path = .error kind

def FileSystem.writable : FileSystem where
  create path :=
    if 0 ∈ path then .error .invalidInput
    else if lastPiece path ∈ [[], [dot], [dot, dot]] then .error .isADirectory
    else .ok ()
  create_nul _ h := if_pos h
  create_directory path h := by
    by_cases hnul : 0 ∈ path
    · exact ⟨.invalidInput, if_pos hnul⟩
    · exact ⟨.isADirectory, (if_neg hnul).trans (if_pos h)⟩

structure DownloadFile where
  path : Path
  deriving DecidableEq, Repr

namespace DownloadFile

def pathOf (fileName : String) : Path := fileName.toUTF8.data.toList

def outputPath (fileName : String) : Option Path → Path
  | some outputDir => join outputDir (pathOf fileName)
  | none => pathOf fileName

def new (fs : FileSystem) (downloadMeta : DownloadMeta) (outputDir : Option Path) :
    Except ErrorKind DownloadFile :=
  let path := outputPath downloadMeta.fileMeta.fileName outputDir
  match fs.create path with
  | .error kind => .error kind
  | .ok () => .ok ⟨path⟩

/-- The path leads where the directory joined with one entry's name leads. -/
def DirectlyInside (outputDir : Option Path) (path : Path) : Prop :=
  ∃ entry, Normal entry ∧
    lead path = lead (match outputDir with
      | some outputDir => join outputDir entry
      | none => entry)

def NeverCreated (fileName : String) (outputDir : Option Path) : Prop :=
  0 ∈ pathOf fileName ∨ lastPiece (pathOf fileName) ∈ [[], [dot], [dot, dot]] ∨
    ∃ dir, outputDir = some dir ∧ 0 ∈ dir ∧ isAbsolute (pathOf fileName) = false

def OneStep (fileName : String) : Prop :=
  isAbsolute (pathOf fileName) = false ∧ (segments (pathOf fileName)).length = 1

def SpellsDirectory (fileName : String) (outputDir : Option Path) : Prop :=
  isAbsolute (pathOf fileName) = true ∧
    ∃ dir entry, outputDir = some dir ∧ isAbsolute dir = true ∧
      segments (pathOf fileName) = segments dir ++ [entry]

theorem new_ok_iff {fs : FileSystem} {downloadMeta : DownloadMeta} {outputDir : Option Path}
    {file : DownloadFile} :
    new fs downloadMeta outputDir = .ok file ↔
      file.path = outputPath downloadMeta.fileMeta.fileName outputDir ∧
        fs.create file.path = .ok () := by
  obtain ⟨path⟩ := file
  rw [new]
  constructor
  · intro h
    split at h
    · exact nomatch h
    · next hcreate =>
      obtain rfl := DownloadFile.mk.inj (Except.ok.inj h)
      exact ⟨rfl, hcreate⟩
  · rintro ⟨rfl, hcreate⟩
    rw [hcreate]

theorem lastPiece_outputPath (fileName : String) (outputDir : Option Path) :
    lastPiece (outputPath fileName outputDir) = lastPiece (pathOf fileName) := by
  cases outputDir with
  | none => rfl
  | some dir => exact lastPiece_join dir (pathOf fileName)

theorem nul_mem_outputPath {fileName : String} {outputDir : Option Path} :
    0 ∈ outputPath fileName outputDir ↔
      0 ∈ pathOf fileName ∨
        ∃ dir, outputDir = some dir ∧ 0 ∈ dir ∧ isAbsolute (pathOf fileName) = false := by
  cases outputDir with
  | none => simp [outputPath]
  | some dir => simpa [outputPath] using mem_join (by decide : (0 : UInt8) ≠ sep)

theorem neverCreated_iff (fileName : String) (outputDir : Option Path) :
    NeverCreated fileName outputDir ↔
      ∀ fs : FileSystem, fs.create (outputPath fileName outputDir) ≠ .ok () := by
  have hnever : NeverCreated fileName outputDir ↔
      0 ∈ outputPath fileName outputDir ∨
        lastPiece (outputPath fileName outputDir) ∈ [[], [dot], [dot, dot]] := by
    rw [nul_mem_outputPath, lastPiece_outputPath, NeverCreated, or_right_comm, or_assoc]
  rw [hnever]
  constructor
  · rintro (hnul | hdir) fs
    · rw [fs.create_nul _ hnul]
      nofun
    · obtain ⟨kind, hkind⟩ := fs.create_directory _ hdir
      rw [hkind]
      nofun
  · intro h
    by_contra hno
    rw [not_or] at hno
    apply h FileSystem.writable
    exact (if_neg hno.1).trans (if_neg hno.2)

theorem directlyInside_of_relative {fileName : String} {outputDir : Option Path}
    (hlast : lastPiece (pathOf fileName) ∉ [[], [dot], [dot, dot]])
    (hrelative : isAbsolute (pathOf fileName) = false) :
    DirectlyInside outputDir (outputPath fileName outputDir) ↔
      (segments (pathOf fileName)).length = 1 := by
  have hnormal := normal_lastPiece hlast
  constructor
  · rintro ⟨entry, hentry, hlead⟩
    have hsegments : segments (pathOf fileName) = [entry] := by
      cases outputDir with
      | none => exact congrArg Prod.snd (hlead.trans (lead_normal hentry))
      | some dir =>
        have hjoin := (lead_join_of_relative dir hrelative).symm.trans hlead
        rw [lead_join_normal dir hentry] at hjoin
        exact List.append_cancel_left (congrArg Prod.snd hjoin)
    exact congrArg List.length hsegments
  · intro hone
    obtain ⟨entry, hentry⟩ := List.length_eq_one_iff.1 hone
    have hsegments : segments (pathOf fileName) = [] ++ [entry] := hentry
    rw [eq_lastPiece_of_segments hlast hsegments] at hentry
    refine ⟨lastPiece (pathOf fileName), hnormal, ?_⟩
    cases outputDir with
    | none => rw [lead_normal hnormal, outputPath, lead, hrelative, hentry]
    | some dir =>
      rw [outputPath, lead_join_of_relative dir hrelative, lead_join_normal dir hnormal, hentry]

theorem directlyInside_of_absolute {fileName : String} {outputDir : Option Path}
    (hlast : lastPiece (pathOf fileName) ∉ [[], [dot], [dot, dot]])
    (habsolute : isAbsolute (pathOf fileName) = true) :
    DirectlyInside outputDir (outputPath fileName outputDir) ↔
      ∃ dir entry, outputDir = some dir ∧ isAbsolute dir = true ∧
        segments (pathOf fileName) = segments dir ++ [entry] := by
  have hnormal := normal_lastPiece hlast
  constructor
  · rintro ⟨entry, hentry, hlead⟩
    cases outputDir with
    | none =>
      have hstart := congrArg Prod.fst (hlead.trans (lead_normal hentry))
      exact absurd (habsolute.symm.trans hstart) nofun
    | some dir =>
      rw [lead_join_normal dir hentry, outputPath, join_of_absolute dir habsolute] at hlead
      have hstart : isAbsolute dir = true := (congrArg Prod.fst hlead).symm.trans habsolute
      exact ⟨dir, entry, rfl, hstart, congrArg Prod.snd hlead⟩
  · rintro ⟨dir, entry, rfl, hstart, hsegments⟩
    have hlastEntry := eq_lastPiece_of_segments hlast hsegments
    refine ⟨lastPiece (pathOf fileName), hnormal, ?_⟩
    rw [outputPath, join_of_absolute dir habsolute, lead_join_normal dir hnormal, lead,
      habsolute, hstart, hsegments, hlastEntry]

theorem directlyInside_iff {fileName : String} {outputDir : Option Path}
    (hlast : lastPiece (pathOf fileName) ∉ [[], [dot], [dot, dot]]) :
    DirectlyInside outputDir (outputPath fileName outputDir) ↔
      OneStep fileName ∨ SpellsDirectory fileName outputDir := by
  cases habsolute : isAbsolute (pathOf fileName) with
  | false =>
    rw [directlyInside_of_relative hlast habsolute]
    simp only [OneStep, SpellsDirectory, habsolute, true_and, Bool.false_eq_true, false_and,
      or_false]
  | true =>
    rw [directlyInside_of_absolute hlast habsolute]
    simp only [OneStep, SpellsDirectory, habsolute, true_and, Bool.true_eq_false, false_and,
      false_or]

/-- The file is directly inside the output directory, whatever the file system, exactly for
the names that cannot be created, that walk one step, or that spell the directory out. -/
theorem new_stays_inside (downloadMeta : DownloadMeta) (outputDir : Option Path) :
    (∀ (fs : FileSystem) (file : DownloadFile), new fs downloadMeta outputDir = .ok file →
      DirectlyInside outputDir file.path) ↔
      NeverCreated downloadMeta.fileMeta.fileName outputDir ∨
        OneStep downloadMeta.fileMeta.fileName ∨
        SpellsDirectory downloadMeta.fileMeta.fileName outputDir := by
  generalize hname : downloadMeta.fileMeta.fileName = fileName
  by_cases hnever : NeverCreated fileName outputDir
  · refine ⟨fun _ => .inl hnever, fun _ fs file hnew => ?_⟩
    obtain ⟨hpath, hcreate⟩ := new_ok_iff.1 hnew
    rw [hname] at hpath
    exact absurd (hpath ▸ hcreate) ((neverCreated_iff fileName outputDir).1 hnever fs)
  have hlast : lastPiece (pathOf fileName) ∉ [[], [dot], [dot, dot]] :=
    fun h => hnever (.inr (.inl h))
  rw [← directlyInside_iff hlast]
  constructor
  · intro h
    obtain ⟨fs, hcreate⟩ : ∃ fs : FileSystem,
        fs.create (outputPath fileName outputDir) = .ok () := by
      by_contra hno
      exact hnever ((neverCreated_iff fileName outputDir).2 fun fs hfs => hno ⟨fs, hfs⟩)
    exact .inr (h fs ⟨outputPath fileName outputDir⟩ (new_ok_iff.2 ⟨by rw [hname], hcreate⟩))
  · rintro (h | h) fs file hnew
    · exact absurd h hnever
    · rw [(new_ok_iff.1 hnew).1, hname]
      exact h

/-- `../x` climbs out of the directory it is joined to. -/
theorem new_climbs_out :
    new .writable ⟨"", "../x", 0⟩ (some (pathOf "out")) = .ok ⟨pathOf "out/../x"⟩ ∧
      ¬ DirectlyInside (some (pathOf "out")) (pathOf "out/../x") := by
  refine ⟨by decide, ?_⟩
  rintro ⟨entry, hentry, hlead⟩
  rw [lead_join_normal _ hentry] at hlead
  have hlength : 3 = 2 := congrArg (fun walk => walk.2.length) hlead
  exact absurd hlength (by decide)

end DownloadFile

end Glopfile.Client
