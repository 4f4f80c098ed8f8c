import Glopfile.HeaderText
import Glopfile.Relay.Session

/-!
# The `Range` and `Content-Range` headers

Header values are bytes. `to_str` admits visible ASCII characters and tabs, of which `trim`
removes the blanks. `DownloadRange` and `UploadRange` are the forms of the two headers over what
counts as a number; the parsers accept them with numbers that may have a plus sign.
-/

namespace Glopfile.Relay

open HeaderText

abbrev HeaderValue := List UInt8

inductive DownloadPosition
  | from (position : Position)
  | eof
  deriving DecidableEq, Repr

def okOr {α : Type} (error : String) : Option α → Except String α
  | some a => .ok a
  | none => .error error

def parsePosition (text : List Char) : Option Position := parseBelow (2 ^ 64) text

def downloadPosition : Option HeaderValue → Except String DownloadPosition
  | none => .ok (.from 0)
  | some value => do
    let value ← okOr "malformed range" (toStr value)
    let specs ← okOr "unsupported range unit" (value.dropPrefix? "bytes=".toList)
    let (start, last) ← okOr "malformed range" (splitOnce '-' specs)
    if ',' ∈ last then .error "multiple ranges unimplemented"
    else
      match trim start, trim last with
      | [], ['0'] => .ok .eof
      | [], _ => .error "suffix ranges unimplemented"
      | start, [] => do
        let position ← okOr "malformed range" (parsePosition start)
        .ok (.from position)
      | _, _ => .error "partial ranges unimplemented"

def uploadPosition : Option HeaderValue → Except String Position
  | none => .ok 0
  | some value => do
    let value ← okOr "malformed content range" (toStr value)
    let spec ← okOr "unsupported range unit" (value.dropPrefix? "bytes ".toList)
    let (range, size) ← okOr "malformed content range" (rsplitOnce '/' (trim spec))
    if range = ['*'] then okOr "malformed content range" (parsePosition size)
    else do
      let (start, last) ← okOr "malformed content range" (splitOnce '-' range)
      let start ← okOr "malformed content range" (parsePosition start)
      let last ← okOr "malformed content range" (parsePosition last)
      let size ← okOr "malformed content range" (parsePosition size)
      if size ≠ addU64 last 1 then .error "partial ranges unimplemented" else .ok start

inductive HeaderForm {α : Type} (absentValue : α) (form : List Char → α → Prop) :
    Option HeaderValue → α → Prop
  | absent : HeaderForm absentValue form none absentValue
  | present {text : List Char} {a : α} : form text a →
      HeaderForm absentValue form (some (encode text)) a

inductive DownloadRange (number : List Char → ℕ → Prop) : List Char → DownloadPosition → Prop
  | position {l start r t : List Char} {n : ℕ} : Blanks l → Blanks r → Blanks t → number start n →
      DownloadRange number ("bytes=".toList ++ ((l ++ start ++ r) ++ '-' :: t)) (.from n)
  | eof {l r t : List Char} : Blanks l → Blanks r → Blanks t →
      DownloadRange number ("bytes=".toList ++ (l ++ '-' :: (r ++ ['0'] ++ t))) .eof

inductive UploadRange (number : List Char → ℕ → Prop) (fits : Position → Position → ℕ → Prop) :
    List Char → Position → Prop
  | position {l size r : List Char} {n : ℕ} : Blanks l → Blanks r → number size n →
      UploadRange number fits ("bytes ".toList ++ (l ++ (['*'] ++ '/' :: size) ++ r)) n
  | range {l startText lastText sizeText r : List Char} {start last size : ℕ} : Blanks l →
      Blanks r → number startText start → number lastText last → number sizeText size →
      fits start last size →
      UploadRange number fits ("bytes ".toList ++
        (l ++ ((startText ++ '-' :: lastText) ++ '/' :: sizeText) ++ r)) start

variable {header : Option HeaderValue} {text l r startText lastText sizeText : List Char}
  {n start last size : ℕ} {position : Position} {target : DownloadPosition}

theorem okOr_bind_eq_ok {α β : Type} {error : String} {o : Option α} {f : α → Except String β}
    {b : β} (h : (okOr error o >>= f) = .ok b) : ∃ a, o = some a ∧ f a = .ok b := by
  cases o with
  | none => cases h
  | some a => exact ⟨a, rfl, h⟩

section Download

theorem downloadRange_of_ok (h : downloadPosition header = .ok target) :
    HeaderForm (.from 0) (DownloadRange (Numeral (2 ^ 64))) header target := by
  cases header with
  | none =>
    obtain rfl := Except.ok.inj h
    exact .absent
  | some value =>
    unfold downloadPosition at h
    obtain ⟨text, htext, hspec⟩ := okOr_bind_eq_ok h
    obtain ⟨specs, hspecs, hrange⟩ := okOr_bind_eq_ok hspec
    obtain ⟨⟨start, last⟩, hsplit, hposition⟩ := okOr_bind_eq_ok hrange
    clear h hspec hrange
    obtain ⟨rfl, hchars⟩ := toStr_eq_some_iff.mp htext
    obtain rfl := dropPrefix_eq_some_iff.mp hspecs
    obtain ⟨rfl, -⟩ := splitOnce_eq_some_iff.mp hsplit
    simp only [List.forall_mem_append, List.forall_mem_cons] at hchars
    obtain ⟨-, hstarts, -, hlasts⟩ := hchars
    obtain ⟨l, r, hl, hr, hstart⟩ := exists_blanks hstarts
    obtain ⟨l', r', hl', hr', hlast⟩ := exists_blanks hlasts
    dsimp only at hposition
    split_ifs at hposition with hcomma
    split at hposition
    · next hs ht =>
      obtain rfl := Except.ok.inj hposition
      rw [hs, List.append_nil] at hstart
      rw [ht] at hlast
      rw [hstart, hlast]
      exact .present (.eof (hl.append hr) hl' hr')
    · cases hposition
    · next ht hnot =>
      obtain ⟨n, hparse, hn⟩ := okOr_bind_eq_ok hposition
      obtain rfl := Except.ok.inj hn
      rw [ht, List.append_nil] at hlast
      rw [hstart, hlast]
      exact .present (.position hl hr (hl'.append hr') (parseBelow_eq_some_iff.mp hparse))
    · cases hposition

theorem ok_of_downloadRange
    (h : HeaderForm (.from 0) (DownloadRange (Numeral (2 ^ 64))) header target) :
    downloadPosition header = .ok target := by
  cases h with
  | absent => rfl
  | present hform =>
    cases hform with
    | @position l start r t n hl hr ht hstart =>
      have hchars : ∀ c ∈ "bytes=".toList ++ ((l ++ start ++ r) ++ '-' :: t),
          isHeaderChar c = true := by
        simp only [List.forall_mem_append, List.forall_mem_cons]
        exact ⟨List.all_eq_true.mp (by decide),
          ⟨⟨hl.isHeaderChar, hstart.isHeaderChar⟩, hr.isHeaderChar⟩, rfl, ht.isHeaderChar⟩
      have hdash : '-' ∉ l ++ start ++ r := by
        simp only [List.mem_append, not_or]
        exact ⟨⟨hl.not_mem rfl, hstart.not_mem rfl (by decide)⟩, hr.not_mem rfl⟩
      have hcomma : ',' ∉ t := ht.not_mem rfl
      obtain ⟨c, rest, hcons⟩ := List.exists_cons_of_ne_nil hstart.ne_nil
      have hparse : parsePosition start = some n := parseBelow_eq_some_iff.mpr hstart
      simp only [downloadPosition, toStr_of_isHeaderChar hchars, okOr, bind, Except.bind,
        dropPrefix_append, splitOnce_append hdash, hcomma, if_false,
        trim_blanks hl hr hstart.not_isWhitespace, trim_eq_nil ht]
      rw [hcons] at hparse ⊢
      simp only [hparse]
    | @eof l r t hl hr ht =>
      have hchars : ∀ c ∈ "bytes=".toList ++ (l ++ '-' :: (r ++ ['0'] ++ t)),
          isHeaderChar c = true := by
        simp only [List.forall_mem_append, List.forall_mem_cons]
        exact ⟨List.all_eq_true.mp (by decide), hl.isHeaderChar, rfl,
          ⟨hr.isHeaderChar, rfl, nofun⟩, ht.isHeaderChar⟩
      have hdash : '-' ∉ l := hl.not_mem rfl
      have hcomma : ',' ∉ r ++ ['0'] ++ t := by
        simp only [List.mem_append, not_or]
        exact ⟨⟨hr.not_mem rfl, by decide⟩, ht.not_mem rfl⟩
      have htrim : trim (r ++ ['0'] ++ t) = ['0'] :=
        trim_blanks hr ht (List.forall_mem_singleton.mpr rfl)
      simp only [downloadPosition, toStr_of_isHeaderChar hchars, okOr, bind, Except.bind,
        dropPrefix_append, splitOnce_append hdash, hcomma, if_false, trim_eq_nil hl, htrim]

theorem downloadPosition_ok_iff : downloadPosition header = .ok target ↔
    HeaderForm (.from 0) (DownloadRange (Numeral (2 ^ 64))) header target :=
  ⟨downloadRange_of_ok, ok_of_downloadRange⟩

end Download

section Upload

theorem toStr_padded {body : List Char} (hl : Blanks l) (hr : Blanks r)
    (hbody : ∀ c ∈ body, isHeaderChar c = true) :
    toStr (encode ("bytes ".toList ++ (l ++ body ++ r))) =
      some ("bytes ".toList ++ (l ++ body ++ r)) := by
  refine toStr_of_isHeaderChar ?_
  simp only [List.forall_mem_append]
  exact ⟨List.all_eq_true.mp (by decide), ⟨hl.isHeaderChar, hbody⟩, hr.isHeaderChar⟩

theorem starText_chars (hsize : Numeral (2 ^ 64) sizeText size) :
    (∀ c ∈ ['*'] ++ '/' :: sizeText, isHeaderChar c = true) ∧
      (∀ c ∈ ['*'] ++ '/' :: sizeText, c.isWhitespace = false) ∧ '/' ∉ sizeText := by
  simp only [List.forall_mem_append, List.forall_mem_cons]
  exact ⟨⟨⟨rfl, nofun⟩, rfl, hsize.isHeaderChar⟩, ⟨⟨rfl, nofun⟩, rfl, hsize.not_isWhitespace⟩,
    hsize.not_mem rfl (by decide)⟩

theorem rangeText_chars (hstart : Numeral (2 ^ 64) startText start)
    (hlast : Numeral (2 ^ 64) lastText last) (hsize : Numeral (2 ^ 64) sizeText size) :
    (∀ c ∈ (startText ++ '-' :: lastText) ++ '/' :: sizeText, isHeaderChar c = true) ∧
      (∀ c ∈ (startText ++ '-' :: lastText) ++ '/' :: sizeText, c.isWhitespace = false) ∧
      '/' ∉ sizeText ∧ '-' ∉ startText ∧ startText ++ '-' :: lastText ≠ ['*'] := by
  simp only [List.forall_mem_append, List.forall_mem_cons]
  refine ⟨⟨⟨hstart.isHeaderChar, rfl, hlast.isHeaderChar⟩, rfl, hsize.isHeaderChar⟩,
    ⟨⟨hstart.not_isWhitespace, rfl, hlast.not_isWhitespace⟩, rfl, hsize.not_isWhitespace⟩,
    hsize.not_mem rfl (by decide), hstart.not_mem rfl (by decide), fun h => ?_⟩
  have hmem : '-' ∈ ['*'] := h ▸ List.mem_append_right _ List.mem_cons_self
  simp at hmem

theorem header_of_split {value : HeaderValue} {spec range : List Char}
    (htext : toStr value = some text) (hspec : text.dropPrefix? "bytes ".toList = some spec)
    (hsplit : rsplitOnce '/' (trim spec) = some (range, sizeText)) :
    ∃ l r, Blanks l ∧ Blanks r ∧
      value = encode ("bytes ".toList ++ (l ++ (range ++ '/' :: sizeText) ++ r)) := by
  obtain ⟨rfl, hchars⟩ := toStr_eq_some_iff.mp htext
  obtain rfl := dropPrefix_eq_some_iff.mp hspec
  obtain ⟨hrange, -⟩ := rsplitOnce_eq_some_iff.mp hsplit
  obtain ⟨l, r, hl, hr, htrim⟩ := exists_blanks fun c hc => hchars c (List.mem_append_right _ hc)
  rw [hrange] at htrim
  exact ⟨l, r, hl, hr, congrArg (fun spec => encode ("bytes ".toList ++ spec)) htrim⟩

theorem uploadRange_of_ok (h : uploadPosition header = .ok position) :
    HeaderForm 0 (UploadRange (Numeral (2 ^ 64)) fun _ last size => size = addU64 last 1) header
      position := by
  cases header with
  | none =>
    obtain rfl := Except.ok.inj h
    exact .absent
  | some value =>
    unfold uploadPosition at h
    obtain ⟨text, htext, hrest⟩ := okOr_bind_eq_ok h
    obtain ⟨spec, hspec, hsplits⟩ := okOr_bind_eq_ok hrest
    obtain ⟨⟨range, sizeText⟩, hsplit, hposition⟩ := okOr_bind_eq_ok hsplits
    clear h hrest hsplits
    obtain ⟨l, r, hl, hr, rfl⟩ := header_of_split htext hspec hsplit
    by_cases hstar : range = ['*']
    · subst hstar
      simp only [if_true] at hposition
      cases hparse : parsePosition sizeText with
      | none => simp [hparse, okOr] at hposition
      | some size =>
        obtain rfl : size = position := by simpa [hparse, okOr] using hposition
        exact .present (.position hl hr (parseBelow_eq_some_iff.mp hparse))
    · simp only [hstar, if_false] at hposition
      obtain ⟨⟨startText, lastText⟩, hdash, hstart⟩ := okOr_bind_eq_ok hposition
      obtain ⟨start, hstartParse, hlast⟩ := okOr_bind_eq_ok hstart
      obtain ⟨last, hlastParse, hsize⟩ := okOr_bind_eq_ok hlast
      obtain ⟨size, hsizeParse, hfits⟩ := okOr_bind_eq_ok hsize
      split_ifs at hfits with hne
      obtain rfl := Except.ok.inj hfits
      obtain ⟨rfl, -⟩ := splitOnce_eq_some_iff.mp hdash
      exact .present (.range hl hr (parseBelow_eq_some_iff.mp hstartParse)
        (parseBelow_eq_some_iff.mp hlastParse) (parseBelow_eq_some_iff.mp hsizeParse)
        (not_not.mp hne))

theorem ok_of_uploadRange (h : HeaderForm 0
    (UploadRange (Numeral (2 ^ 64)) fun _ last size => size = addU64 last 1) header position) :
    uploadPosition header = .ok position := by
  cases h with
  | absent => rfl
  | present hform =>
    cases hform with
    | position hl hr hsize =>
      obtain ⟨hchars, hspace, hslash⟩ := starText_chars hsize
      simp only [uploadPosition, toStr_padded hl hr hchars, okOr, bind, Except.bind,
        dropPrefix_append, trim_blanks hl hr hspace, rsplitOnce_append hslash, if_true,
        parsePosition, parseBelow_eq_some_iff.mpr hsize]
    | range hl hr hstart hlast hsize hfits =>
      obtain ⟨hchars, hspace, hslash, hdash, hstar⟩ := rangeText_chars hstart hlast hsize
      simp only [uploadPosition, toStr_padded hl hr hchars, okOr, bind, Except.bind,
        dropPrefix_append, trim_blanks hl hr hspace, rsplitOnce_append hslash, hstar, if_false,
        splitOnce_append hdash, parsePosition, parseBelow_eq_some_iff.mpr hstart,
        parseBelow_eq_some_iff.mpr hlast, parseBelow_eq_some_iff.mpr hsize, hfits, ne_eq,
        not_true_eq_false]

/-- What is read is the grammar with numbers that may have a plus sign, a range that may be
turned round, and an end that wraps. -/
theorem uploadPosition_ok_iff : uploadPosition header = .ok position ↔
    HeaderForm 0 (UploadRange (Numeral (2 ^ 64)) fun _ last size => size = addU64 last 1) header
      position :=
  ⟨uploadRange_of_ok, ok_of_uploadRange⟩

end Upload

theorem uploadPosition_lt (h : uploadPosition header = .ok start) : start < 2 ^ 64 := by
  cases uploadRange_of_ok h with
  | absent => decide
  | present hform =>
    cases hform with
    | position _ _ hsize => exact hsize.lt
    | range _ _ hstart _ _ _ => exact hstart.lt

theorem decimal_numeral (hn : n < 2 ^ 64) : Numeral (2 ^ 64) (decimal n) n :=
  .inl (decimal_denotes hn)

theorem downloadPosition_from (hn : n < 2 ^ 64) :
    downloadPosition (some (encode ("bytes=".toList ++ (decimal n ++ ['-'])))) = .ok (.from n) := by
  have hform : DownloadRange (Numeral (2 ^ 64))
      ("bytes=".toList ++ (([] ++ decimal n ++ []) ++ '-' :: [])) (.from n) :=
    .position .nil .nil .nil (decimal_numeral hn)
  rw [List.append_nil, List.nil_append] at hform
  exact ok_of_downloadRange (.present hform)

theorem downloadPosition_eof : downloadPosition (some (encode "bytes=-0".toList)) = .ok .eof := by
  decide

theorem uploadPosition_range (hstart : start < 2 ^ 64) (hlast : last + 1 < 2 ^ 64) :
    uploadPosition (some (encode ("bytes ".toList ++
      ((decimal start ++ '-' :: decimal last) ++ '/' :: decimal (last + 1))))) = .ok start := by
  have hnext : last + 1 = addU64 last 1 := (Nat.mod_eq_of_lt hlast).symm
  have hform : UploadRange (Numeral (2 ^ 64)) (fun _ last size => size = addU64 last 1)
      ("bytes ".toList ++
        ([] ++ ((decimal start ++ '-' :: decimal last) ++ '/' :: decimal (last + 1)) ++ [])) start :=
    .range .nil .nil (decimal_numeral hstart) (decimal_numeral (Nat.lt_of_succ_lt hlast))
      (decimal_numeral hlast) hnext
  rw [List.append_nil, List.nil_append] at hform
  exact ok_of_uploadRange (.present hform)

theorem uploadPosition_star (hn : n < 2 ^ 64) :
    uploadPosition (some (encode ("bytes ".toList ++ (['*'] ++ '/' :: decimal n)))) = .ok n := by
  have hform : UploadRange (Numeral (2 ^ 64)) (fun _ last size => size = addU64 last 1)
      ("bytes ".toList ++ ([] ++ (['*'] ++ '/' :: decimal n) ++ [])) n :=
    .position .nil .nil (decimal_numeral hn)
  rw [List.append_nil, List.nil_append] at hform
  exact ok_of_uploadRange (.present hform)

end Glopfile.Relay
