import Glopfile.Relay.DeclaredRange

/-!
# What the range parsers read beyond their grammars

The grammar of a header has plain digits for its numbers, and a range that runs from its start to
the end of the content. The parsers take a number with a plus sign as well. That of uploads does
not compare the start of a range with its end, and adds one to the end in `u64`.
-/

namespace Glopfile.Relay

open HeaderText

/-- `end + 1`, which is computed once all three numbers are read. -/
def overflows (header : Option HeaderValue) : Bool :=
  (declaredRange header).any fun range => 2 ^ 64 ≤ range.2.1 + 1

def DownloadGrammar : Option HeaderValue → DownloadPosition → Prop :=
  HeaderForm (.from 0) (DownloadRange (Denotes (2 ^ 64)))

def UploadGrammar : Option HeaderValue → Position → Prop :=
  HeaderForm 0 (UploadRange (Denotes (2 ^ 64)) fun start last size =>
    start ≤ last ∧ size = last + 1)

def DownloadUnsigned (header : Option HeaderValue) : Prop :=
  ∀ l start r t n, Blanks l → Blanks r → Blanks t → Numeral (2 ^ 64) start n →
    header = some (encode ("bytes=".toList ++ ((l ++ start ++ r) ++ '-' :: t))) → '+' ∉ start

/-- No plus sign stands before a number that is read; a range that runs to the end of the content
is not turned round, and none ends at the last position there is. -/
structure UploadPlain (header : Option HeaderValue) : Prop where
  position : ∀ l size r n, Blanks l → Blanks r → Numeral (2 ^ 64) size n →
    header = some (encode ("bytes ".toList ++ (l ++ (['*'] ++ '/' :: size) ++ r))) → '+' ∉ size
  range : ∀ l startText lastText sizeText r start last size, Blanks l → Blanks r →
    Numeral (2 ^ 64) startText start → Numeral (2 ^ 64) lastText last →
    Numeral (2 ^ 64) sizeText size → header = some (encode ("bytes ".toList ++
      (l ++ ((startText ++ '-' :: lastText) ++ '/' :: sizeText) ++ r))) →
    last + 1 < 2 ^ 64 ∧ (size = last + 1 →
      '+' ∉ startText ++ lastText ++ sizeText ∧ start ≤ last)

variable {header : Option HeaderValue} {text l r startText lastText sizeText : List Char}
  {start last size : ℕ} {position : Position} {target : DownloadPosition}

theorem overflows_eq_false_iff (h : declaredRange header = some (start, last, size)) :
    overflows header = false ↔ last + 1 < 2 ^ 64 := by
  rw [overflows, h, Option.any_some, decide_eq_false_iff_not, Nat.not_le]

theorem declaredRange_of_range (hl : Blanks l) (hr : Blanks r)
    (hstart : Numeral (2 ^ 64) startText start) (hlast : Numeral (2 ^ 64) lastText last)
    (hsize : Numeral (2 ^ 64) sizeText size) :
    declaredRange (some (encode ("bytes ".toList ++
      (l ++ ((startText ++ '-' :: lastText) ++ '/' :: sizeText) ++ r)))) =
        some (start, last, size) := by
  obtain ⟨hchars, hspace, hslash, hdash, hstar⟩ := rangeText_chars hstart hlast hsize
  simp only [declaredRange, toStr_padded hl hr hchars, dropPrefix_append, trim_blanks hl hr hspace,
    rsplitOnce_append hslash, splitOnce_append hdash, hstar, if_false, parsePosition,
    parseBelow_eq_some_iff.mpr hstart, parseBelow_eq_some_iff.mpr hlast,
    parseBelow_eq_some_iff.mpr hsize, Option.bind_eq_bind, Option.bind_some]

theorem declaredRange_of_star {n : ℕ} (hl : Blanks l) (hr : Blanks r)
    (hsize : Numeral (2 ^ 64) sizeText n) :
    declaredRange (some (encode ("bytes ".toList ++ (l ++ (['*'] ++ '/' :: sizeText) ++ r)))) =
      none := by
  obtain ⟨hchars, hspace, hslash⟩ := starText_chars hsize
  simp only [declaredRange, toStr_padded hl hr hchars, dropPrefix_append, trim_blanks hl hr hspace,
    rsplitOnce_append hslash, if_true, Option.bind_eq_bind, Option.bind_some]

theorem range_of_declaredRange (h : declaredRange header = some (start, last, size)) :
    ∃ l startText lastText sizeText r, Blanks l ∧ Blanks r ∧
      Numeral (2 ^ 64) startText start ∧ Numeral (2 ^ 64) lastText last ∧
      Numeral (2 ^ 64) sizeText size ∧ header = some (encode ("bytes ".toList ++
        (l ++ ((startText ++ '-' :: lastText) ++ '/' :: sizeText) ++ r))) := by
  simp only [declaredRange, Option.bind_eq_bind, Option.bind_eq_some_iff] at h
  obtain ⟨value, rfl, text, htext, spec, hspec, ⟨range, sizeText⟩, hsplit, hrange⟩ := h
  split_ifs at hrange with hstar
  simp only [Option.bind_eq_some_iff] at hrange
  obtain ⟨⟨startText, lastText⟩, hdash, start', hstart, last', hlast, size', hsize, heq⟩ := hrange
  obtain ⟨rfl, rfl, rfl⟩ : start' = start ∧ last' = last ∧ size' = size := by simpa using heq
  obtain ⟨l, r, hl, hr, rfl⟩ := header_of_split htext hspec hsplit
  obtain ⟨rfl, -⟩ := splitOnce_eq_some_iff.mp hdash
  exact ⟨l, startText, lastText, sizeText, r, hl, hr, parseBelow_eq_some_iff.mp hstart,
    parseBelow_eq_some_iff.mp hlast, parseBelow_eq_some_iff.mp hsize, rfl⟩

theorem HeaderForm.mono {α : Type} {absentValue a : α} {form form' : List Char → α → Prop}
    (h : HeaderForm absentValue form header a) (hform : ∀ text a, form text a → form' text a) :
    HeaderForm absentValue form' header a := by
  cases h with
  | absent => exact .absent
  | present h => exact .present (hform _ _ h)

theorem HeaderForm.of_encode {α : Type} {absentValue a : α} {form : List Char → α → Prop}
    (h : HeaderForm absentValue form (some (encode text)) a) : form text a := by
  generalize hheader : some (encode text) = header at h
  cases h with
  | absent => cases hheader
  | present h =>
    obtain rfl := encode_injective (Option.some.inj hheader)
    exact h

theorem downloadGrammar_read (h : DownloadGrammar header target) :
    downloadPosition header = .ok target := by
  refine downloadPosition_ok_iff.mpr (HeaderForm.mono h fun text target hform => ?_)
  cases hform with
  | position hl hr ht hstart => exact .position hl hr ht (.inl hstart)
  | eof hl hr ht => exact .eof hl hr ht

theorem uploadGrammar_read (h : UploadGrammar header position) :
    uploadPosition header = .ok position := by
  refine uploadPosition_ok_iff.mpr (HeaderForm.mono h fun text position hform => ?_)
  cases hform with
  | position hl hr hsize => exact .position hl hr (.inl hsize)
  | range hl hr hstart hlast hsize hfits =>
    exact .range hl hr (.inl hstart) (.inl hlast) (.inl hsize)
      (hfits.2.trans (Nat.mod_eq_of_lt (hfits.2 ▸ hsize.lt)).symm)

theorem DownloadRange.unsigned (h : DownloadRange (Denotes (2 ^ 64)) text target) :
    '+' ∉ text := by
  cases h with
  | position hl hr ht hstart =>
    simp only [List.mem_append, List.mem_cons, not_or]
    exact ⟨by decide, ⟨⟨hl.not_mem rfl, hstart.not_mem rfl⟩, hr.not_mem rfl⟩, by decide,
      ht.not_mem rfl⟩
  | eof hl hr ht =>
    simp only [List.mem_append, List.mem_cons, not_or]
    exact ⟨by decide, hl.not_mem rfl, by decide, ⟨hr.not_mem rfl, by decide, List.not_mem_nil⟩,
      ht.not_mem rfl⟩

theorem UploadRange.unsigned {fits : Position → Position → ℕ → Prop}
    (h : UploadRange (Denotes (2 ^ 64)) fits text position) : '+' ∉ text := by
  cases h with
  | position hl hr hsize =>
    simp only [List.mem_append, List.mem_cons, not_or]
    exact ⟨by decide, ⟨hl.not_mem rfl, ⟨by decide, List.not_mem_nil⟩, by decide,
      hsize.not_mem rfl⟩, hr.not_mem rfl⟩
  | range hl hr hstart hlast hsize _ =>
    simp only [List.mem_append, List.mem_cons, not_or]
    exact ⟨by decide, ⟨hl.not_mem rfl, ⟨hstart.not_mem rfl, by decide, hlast.not_mem rfl⟩,
      by decide, hsize.not_mem rfl⟩, hr.not_mem rfl⟩

theorem UploadRange.ordered {size' : ℕ} (h : UploadRange (Denotes (2 ^ 64))
      (fun start last size => start ≤ last ∧ size = last + 1) text position)
    (hdeclared : declaredRange (some (encode text)) = some (start, last, size')) :
    start ≤ last := by
  cases h with
  | position hl hr hsize =>
    rw [declaredRange_of_star hl hr (.inl hsize)] at hdeclared
    cases hdeclared
  | range hl hr hstart hlast hsize hfits =>
    rw [declaredRange_of_range hl hr (.inl hstart) (.inl hlast) (.inl hsize)] at hdeclared
    obtain ⟨rfl, rfl, -⟩ : _ = start ∧ _ = last ∧ _ = size' := by simpa using hdeclared
    exact hfits.1

theorem downloads_agree_iff :
    (∀ target, downloadPosition header = .ok target ↔ DownloadGrammar header target) ↔
      DownloadUnsigned header := by
  constructor
  · rintro h l start r t n hl hr ht hstart rfl hplus
    have hread := ok_of_downloadRange (.present (.position hl hr ht hstart))
    refine (HeaderForm.of_encode ((h _).mp hread)).unsigned ?_
    simp [hplus]
  · intro h target
    refine ⟨fun hread => ?_, downloadGrammar_read⟩
    cases downloadRange_of_ok hread with
    | absent => exact .absent
    | present hform =>
      cases hform with
      | position hl hr ht hstart =>
        exact .present (.position hl hr ht (hstart.denotes (h _ _ _ _ _ hl hr ht hstart rfl)))
      | eof hl hr ht => exact .present (.eof hl hr ht)

theorem uploadPlain_of_agree
    (h : ∀ position, uploadPosition header = .ok position ↔ UploadGrammar header position)
    (hfits : overflows header = false) : UploadPlain header := by
  constructor
  · rintro l size r n hl hr hsize rfl hplus
    have hread := ok_of_uploadRange (.present (.position hl hr hsize))
    refine (HeaderForm.of_encode ((h _).mp hread)).unsigned ?_
    simp [hplus]
  · rintro l startText lastText sizeText r start last size hl hr hstart hlast hsize rfl
    have hdeclared := declaredRange_of_range hl hr hstart hlast hsize
    have hlt : last + 1 < 2 ^ 64 := (overflows_eq_false_iff hdeclared).mp hfits
    refine ⟨hlt, fun hnext => ?_⟩
    have hread := ok_of_uploadRange (.present (.range hl hr hstart hlast hsize
      (hnext.trans (Nat.mod_eq_of_lt hlt).symm)))
    have hform := HeaderForm.of_encode ((h _).mp hread)
    refine ⟨fun hplus => hform.unsigned ?_, hform.ordered hdeclared⟩
    simp only [List.mem_append] at hplus
    rcases hplus with (hplus | hplus) | hplus
    · simp [hplus]
    · simp [hplus]
    · simp [hplus]

theorem UploadPlain.grammar (h : UploadPlain header) {position : Position}
    (hread : uploadPosition header = .ok position) : UploadGrammar header position := by
  cases uploadRange_of_ok hread with
  | absent => exact .absent
  | present hform =>
    cases hform with
    | position hl hr hsize =>
      exact .present (.position hl hr (hsize.denotes (h.position _ _ _ _ hl hr hsize rfl)))
    | range hl hr hstart hlast hsize hfits =>
      obtain ⟨hlt, hplain⟩ := h.range _ _ _ _ _ _ _ _ hl hr hstart hlast hsize rfl
      have hnext := hfits.trans (Nat.mod_eq_of_lt hlt)
      obtain ⟨hplus, hle⟩ := hplain hnext
      simp only [List.mem_append, not_or] at hplus
      exact .present (.range hl hr (hstart.denotes hplus.1.1) (hlast.denotes hplus.1.2)
        (hsize.denotes hplus.2) ⟨hle, hnext⟩)

theorem UploadPlain.fits (h : UploadPlain header) : overflows header = false := by
  cases hdeclared : declaredRange header with
  | none => rw [overflows, hdeclared, Option.any_none]
  | some range =>
    obtain ⟨start, last, size⟩ := range
    obtain ⟨l, startText, lastText, sizeText, r, hl, hr, hstart, hlast, hsize, hheader⟩ :=
      range_of_declaredRange hdeclared
    exact (overflows_eq_false_iff hdeclared).mpr
      (h.range _ _ _ _ _ _ _ _ hl hr hstart hlast hsize hheader).1

theorem uploads_agree_iff :
    ((∀ position, uploadPosition header = .ok position ↔ UploadGrammar header position) ∧
      overflows header = false) ↔ UploadPlain header := by
  constructor
  · rintro ⟨h, hfits⟩
    exact uploadPlain_of_agree h hfits
  · intro h
    exact ⟨fun position => ⟨h.grammar, uploadGrammar_read⟩, h.fits⟩

/-- The parsers read their grammars, without an overflow, exactly when no plus sign stands before
a number, and an upload's range is not turned round and does not end at the last position. -/
theorem range_parsers_read_their_grammars (header : Option HeaderValue) :
    ((∀ target, downloadPosition header = .ok target ↔ DownloadGrammar header target) ↔
      DownloadUnsigned header) ∧
    ((∀ position, uploadPosition header = .ok position ↔ UploadGrammar header position) ∧
      overflows header = false ↔ UploadPlain header) :=
  ⟨downloads_agree_iff, uploads_agree_iff⟩

/-- A range that is turned round starts an upload behind the end of its content. -/
theorem turned_range_is_read :
    uploadPosition (some (encode "bytes 5-3/4".toList)) = .ok 5 ∧
    (∀ position, ¬UploadGrammar (some (encode "bytes 5-3/4".toList)) position) ∧
    uploadPosition (some (encode "bytes 7-18446744073709551615/0".toList)) = .ok 7 ∧
    overflows (some (encode "bytes 7-18446744073709551615/0".toList)) = true ∧
    downloadPosition (some (encode "bytes=+7-".toList)) = .ok (.from 7) ∧
    ∀ target, ¬DownloadGrammar (some (encode "bytes=+7-".toList)) target := by
  refine ⟨by decide, fun position h => ?_, by decide, by decide, by decide, fun target h => ?_⟩
  · have hdeclared : declaredRange (some (encode "bytes 5-3/4".toList)) = some (5, 3, 4) := by
      decide
    have hle := (HeaderForm.of_encode h).ordered hdeclared
    simp at hle
  · exact (HeaderForm.of_encode h).unsigned (by decide)

end Glopfile.Relay
