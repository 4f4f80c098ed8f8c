import Mathlib.Data.List.Basic

/-!
# Unix paths

A path is its bytes. A walk along a path takes the `segments`, the pieces between separators
that lead on; it starts at the root when the path is absolute. `join` is the join of the
standard library, where an absolute path replaces its base.
-/

namespace Glopfile.UnixPath

abbrev Path := List UInt8

def sep : UInt8 := 47

def dot : UInt8 := 46

def isAbsolute (path : Path) : Bool := path.head? == some sep

/-- `Path::join`. -/
def join (base path : Path) : Path :=
  if isAbsolute path then path
  else if base = [] ∨ base.getLast? = some sep then base ++ path
  else base ++ sep :: path

def pieces (path : Path) : List Path := path.splitOn sep

theorem pieces_ne_nil (path : Path) : pieces path ≠ [] := List.splitOn_ne_nil sep path

/-- Empty pieces and `.` lead nowhere. -/
def segments (path : Path) : List Path :=
  (pieces path).filter fun piece => piece ≠ [] ∧ piece ≠ [dot]

def lead (path : Path) : Bool × List Path := (isAbsolute path, segments path)

def lastPiece (path : Path) : Path := (pieces path).getLast (pieces_ne_nil path)

structure Normal (piece : Path) : Prop where
  sep_notMem : sep ∉ piece
  ne_nil : piece ≠ []
  ne_dot : piece ≠ [dot]
  ne_dot_dot : piece ≠ [dot, dot]

theorem sep_notMem_of_mem_pieces {path piece : Path} (h : piece ∈ pieces path) : sep ∉ piece := by
  induction path generalizing piece with
  | nil =>
    obtain rfl : piece = [] := by simpa [pieces] using h
    exact List.not_mem_nil
  | cons b path ih =>
    obtain ⟨first, rest, heq⟩ := List.exists_cons_of_ne_nil (pieces_ne_nil path)
    have hsplit : pieces (b :: path) =
        if b == sep then [] :: pieces path else (pieces path).modifyHead (b :: ·) :=
      List.splitOn_cons_eq_if_modifyHead b path
    rw [hsplit, heq] at h
    split at h
    · rcases List.mem_cons.1 h with rfl | h
      · exact List.not_mem_nil
      · exact ih (heq ▸ h)
    · next hb =>
      rcases List.mem_cons.1 h with rfl | h
      · intro hmem
        rcases List.mem_cons.1 hmem with rfl | hmem
        · exact hb (beq_self_eq_true sep)
        · exact ih (heq ▸ List.mem_cons_self) hmem
      · exact ih (heq ▸ List.mem_cons_of_mem first h)

theorem pieces_append_sep (base path : Path) :
    pieces (base ++ sep :: path) = pieces base ++ pieces path :=
  List.splitOn_append_cons_self base path

theorem pieces_of_sep_notMem {path : Path} (h : sep ∉ path) : pieces path = [path] :=
  List.splitOn_eq_singleton h

theorem segments_append_sep (base path : Path) :
    segments (base ++ sep :: path) = segments base ++ segments path := by
  simp [segments, pieces_append_sep]

theorem segments_nil : segments [] = [] := rfl

theorem segments_normal {piece : Path} (h : Normal piece) : segments piece = [piece] := by
  simp [segments, pieces_of_sep_notMem h.sep_notMem, h.ne_nil, h.ne_dot]

theorem isAbsolute_normal {piece : Path} (h : Normal piece) : isAbsolute piece = false := by
  cases piece with
  | nil => rfl
  | cons b piece =>
    have hb : b ≠ sep := fun hb => h.sep_notMem (hb ▸ List.mem_cons_self)
    simpa [isAbsolute] using hb

theorem join_of_absolute (base : Path) {path : Path} (h : isAbsolute path = true) :
    join base path = path :=
  if_pos h

theorem lead_join_of_relative (base : Path) {path : Path} (h : isAbsolute path = false) :
    lead (join base path) = (isAbsolute base, segments base ++ segments path) := by
  have hrel : ¬ isAbsolute path = true := by simp [h]
  rw [join, if_neg hrel]
  split
  · next hend =>
    rcases hend with rfl | hend
    · simp [lead, segments_nil, h, show isAbsolute [] = false from rfl]
    · obtain ⟨front, rfl⟩ := List.getLast?_eq_some_iff.1 hend
      have hsegments : segments (front ++ [sep] ++ path) =
          segments (front ++ [sep]) ++ segments path := by
        rw [List.append_assoc, List.singleton_append, segments_append_sep, segments_append_sep,
          segments_nil, List.append_nil]
      have habsolute : isAbsolute (front ++ [sep] ++ path) = isAbsolute (front ++ [sep]) := by
        cases front <;> rfl
      rw [lead, hsegments, habsolute]
  · next hend =>
    have hbase : base ≠ [] := fun hnil => hend (.inl hnil)
    obtain ⟨b, base, rfl⟩ := List.exists_cons_of_ne_nil hbase
    rw [lead, segments_append_sep]
    rfl

theorem lastPiece_append_sep (base path : Path) :
    lastPiece (base ++ sep :: path) = lastPiece path := by
  simp only [lastPiece, pieces_append_sep]
  exact List.getLast_append_of_ne_nil _ (pieces_ne_nil path)

theorem lastPiece_join (base path : Path) : lastPiece (join base path) = lastPiece path := by
  rw [join]
  split
  · rfl
  split
  · next hend =>
    rcases hend with rfl | hend
    · rfl
    · obtain ⟨front, rfl⟩ := List.getLast?_eq_some_iff.1 hend
      rw [List.append_assoc, List.singleton_append, lastPiece_append_sep]
  · exact lastPiece_append_sep base path

theorem segments_eq_append_lastPiece {path : Path} (hnil : lastPiece path ≠ [])
    (hdot : lastPiece path ≠ [dot]) :
    ∃ front, segments path = front ++ [lastPiece path] := by
  refine ⟨((pieces path).dropLast).filter fun piece => piece ≠ [] ∧ piece ≠ [dot], ?_⟩
  have hpieces : pieces path = (pieces path).dropLast ++ [lastPiece path] :=
    (List.dropLast_append_getLast (pieces_ne_nil path)).symm
  have hlast : [lastPiece path].filter (fun piece => piece ≠ [] ∧ piece ≠ [dot]) =
      [lastPiece path] := by
    simp [hnil, hdot]
  rw [segments, hpieces, List.filter_append, hlast, ← hpieces]

theorem normal_lastPiece {path : Path} (h : lastPiece path ∉ [[], [dot], [dot, dot]]) :
    Normal (lastPiece path) := by
  simp only [List.mem_cons, List.not_mem_nil, or_false, not_or] at h
  exact ⟨sep_notMem_of_mem_pieces (List.getLast_mem (pieces_ne_nil path)), h.1, h.2.1, h.2.2⟩

theorem lead_normal {piece : Path} (h : Normal piece) : lead piece = (false, [piece]) := by
  rw [lead, isAbsolute_normal h, segments_normal h]

theorem lead_join_normal (base : Path) {piece : Path} (h : Normal piece) :
    lead (join base piece) = (isAbsolute base, segments base ++ [piece]) := by
  rw [lead_join_of_relative base (isAbsolute_normal h), segments_normal h]

theorem eq_lastPiece_of_segments {path entry : Path} {front : List Path}
    (h : lastPiece path ∉ [[], [dot], [dot, dot]]) (hsegments : segments path = front ++ [entry]) :
    entry = lastPiece path := by
  have hnormal := normal_lastPiece h
  obtain ⟨front', hlast⟩ := segments_eq_append_lastPiece hnormal.ne_nil hnormal.ne_dot
  exact (List.append_inj' (hsegments.symm.trans hlast) rfl).2 |> List.singleton_inj.1

theorem mem_join {base path : Path} {b : UInt8} (hb : b ≠ sep) :
    b ∈ join base path ↔ b ∈ path ∨ b ∈ base ∧ isAbsolute path = false := by
  rw [join]
  split
  · next h => simp [h]
  · next h =>
    have h : isAbsolute path = false := by simpa using h
    split <;> simp [h, hb] <;> tauto

end Glopfile.UnixPath
