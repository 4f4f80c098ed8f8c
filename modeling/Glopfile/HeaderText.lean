import Mathlib.Algebra.Ring.Nat
import Mathlib.Data.List.Basic
import Mathlib.Data.List.TakeWhile

/-!
# The text of header values

A header value is a string of bytes; its text, when it has one, is a list of visible ASCII
characters. The operations are those of the standard string library that parsers of header
values are made of, each with the texts on which it succeeds. A number is read from its digits,
which may follow a plus sign; one written in decimal is read back as it was.
-/

namespace HeaderText

variable {a b text : List Char} {sep : Char} {n bound : ℕ}

def isVisibleAscii (byte : UInt8) : Bool := (32 ≤ byte && byte < 127) || byte = 9

def toStr (value : List UInt8) : Option (List Char) :=
  if value.all isVisibleAscii then some (value.map fun byte => Char.ofNat byte.toNat) else none

def encode (text : List Char) : List UInt8 := text.flatMap String.utf8EncodeChar

def splitOnce (sep : Char) : List Char → Option (List Char × List Char)
  | [] => none
  | c :: rest =>
    if c = sep then some ([], rest)
    else (splitOnce sep rest).map fun split => (c :: split.1, split.2)

def rsplitOnce (sep : Char) (text : List Char) : Option (List Char × List Char) :=
  (splitOnce sep text.reverse).map fun split => (split.2.reverse, split.1.reverse)

def trim (text : List Char) : List Char :=
  ((text.dropWhile Char.isWhitespace).reverse.dropWhile Char.isWhitespace).reverse

def readDigit (bound value : ℕ) (c : Char) : Option ℕ :=
  if c.isDigit then
    let next := value * 10 + (c.toNat - 48)
    if next < bound then some next else none
  else none

def parseBelow (bound : ℕ) (text : List Char) : Option ℕ :=
  let digits := (text.dropPrefix? ['+']).getD text
  if digits.isEmpty then none else digits.foldlM (readDigit bound) 0

def decimal (n : ℕ) : List Char := Nat.toDigits 10 n

theorem encode_eq_map (h : ∀ c ∈ text, c.toNat < 128) :
    encode text = text.map fun c => c.toNat.toUInt8 := by
  induction text with
  | nil => rfl
  | cons c text ih =>
    have hsize : c.utf8Size = 1 := by
      have hlt := h c List.mem_cons_self
      have hle : c.val ≤ 0x7f := by
        rw [UInt32.le_iff_toNat_le]
        exact Nat.le_of_lt_succ hlt
      simp [Char.utf8Size, hle]
    have hrest := ih fun d hd => h d (List.mem_cons_of_mem c hd)
    rw [encode] at hrest ⊢
    rw [List.flatMap_cons, hrest, String.utf8EncodeChar_eq_singleton hsize, List.map_cons,
      List.singleton_append]
    rfl

theorem encode_injective : Function.Injective encode := by
  intro a b h
  have hbytes : a.utf8Encode = b.utf8Encode := congrArg List.toByteArray h
  rw [← String.toByteArray_ofList, ← String.toByteArray_ofList, String.toByteArray_inj] at hbytes
  exact String.ofList_inj.mp hbytes

def isHeaderChar (c : Char) : Bool := (32 ≤ c.toNat && c.toNat < 127) || c = '\t'

theorem toNat_lt_of_isHeaderChar {c : Char} (h : isHeaderChar c = true) : c.toNat < 128 := by
  simp only [isHeaderChar, Bool.or_eq_true, Bool.and_eq_true, decide_eq_true_eq] at h
  rcases h with ⟨-, hlt⟩ | rfl
  · exact Nat.lt_succ_of_lt hlt
  · decide

theorem toNat_ofNat {byte : UInt8} : (Char.ofNat byte.toNat).toNat = byte.toNat := by
  have hlt := byte.toNat_lt
  rw [Char.ofNat, dif_pos (.inl (by omega))]
  rfl

theorem isHeaderChar_ofNat (byte : UInt8) :
    isHeaderChar (Char.ofNat byte.toNat) = isVisibleAscii byte := by
  have htab : Char.ofNat byte.toNat = '\t' ↔ byte = 9 := by
    rw [← Char.toNat_inj, toNat_ofNat, ← UInt8.toNat_inj]
    rfl
  simp only [isHeaderChar, isVisibleAscii, toNat_ofNat, htab, UInt8.le_iff_toNat_le,
    UInt8.lt_iff_toNat_lt]
  rfl

theorem ofNat_toUInt8 {c : Char} (h : c.toNat < 128) :
    Char.ofNat c.toNat.toUInt8.toNat = c := by
  have hbyte : c.toNat.toUInt8.toNat = c.toNat := by
    simp
    omega
  rw [hbyte, Char.ofNat_toNat]

theorem toStr_eq_some_iff {value : List UInt8} :
    toStr value = some text ↔ value = encode text ∧ ∀ c ∈ text, isHeaderChar c = true := by
  constructor
  · intro h
    unfold toStr at h
    split_ifs at h with hall
    obtain rfl := Option.some.inj h
    have hchars : ∀ c ∈ value.map fun byte => Char.ofNat byte.toNat, isHeaderChar c = true := by
      intro c hc
      obtain ⟨byte, hbyte, rfl⟩ := List.mem_map.mp hc
      rw [isHeaderChar_ofNat]
      exact List.all_eq_true.mp hall byte hbyte
    refine ⟨?_, hchars⟩
    rw [encode_eq_map fun c hc => toNat_lt_of_isHeaderChar (hchars c hc), List.map_map]
    have hself : ∀ byte ∈ value, (Char.ofNat byte.toNat).toNat.toUInt8 = byte := by
      intro byte _
      rw [toNat_ofNat, Nat.toUInt8, UInt8.ofNat_toNat]
    exact (List.map_id value).symm.trans (List.map_congr_left fun b hb => (hself b hb).symm)
  · rintro ⟨rfl, hchars⟩
    have hascii := fun c hc => toNat_lt_of_isHeaderChar (hchars c hc)
    have hall : (encode text).all isVisibleAscii = true := by
      rw [encode_eq_map hascii, List.all_map, List.all_eq_true]
      intro c hc
      rw [Function.comp, ← isHeaderChar_ofNat, ofNat_toUInt8 (hascii c hc)]
      exact hchars c hc
    rw [toStr, if_pos hall, encode_eq_map hascii, List.map_map]
    congr 1
    calc text.map _ = text.map id := List.map_congr_left fun c hc => ofNat_toUInt8 (hascii c hc)
      _ = text := List.map_id text

theorem toStr_of_isHeaderChar (h : ∀ c ∈ text, isHeaderChar c = true) :
    toStr (encode text) = some text := toStr_eq_some_iff.mpr ⟨rfl, h⟩

theorem dropPrefix_append : (a ++ b).dropPrefix? a = some b :=
  List.dropPrefix?_append_of_beq b (BEq.refl a)

theorem dropPrefix_eq_some_iff : text.dropPrefix? a = some b ↔ text = a ++ b := by
  constructor
  · intro h
    obtain ⟨front, rfl, hbeq⟩ := List.dropPrefix?_eq_some_iff.mp h
    rw [eq_of_beq hbeq]
  · rintro rfl
    exact dropPrefix_append

theorem splitOnce_append (h : sep ∉ a) : splitOnce sep (a ++ sep :: b) = some (a, b) := by
  induction a with
  | nil => simp [splitOnce]
  | cons c a ih =>
    obtain ⟨hc, ha⟩ := not_or.mp (List.mem_cons.not.mp h)
    rw [List.cons_append, splitOnce, if_neg (Ne.symm hc), ih ha, Option.map_some]

theorem splitOnce_eq_some_iff :
    splitOnce sep text = some (a, b) ↔ text = a ++ sep :: b ∧ sep ∉ a := by
  constructor
  · intro h
    induction text generalizing a with
    | nil => cases h
    | cons c text ih =>
      unfold splitOnce at h
      split_ifs at h with hc
      · obtain ⟨rfl, rfl⟩ := Prod.mk.inj (Option.some.inj h)
        exact ⟨by rw [hc, List.nil_append], List.not_mem_nil⟩
      · obtain ⟨⟨a', b'⟩, hrest, hpair⟩ := Option.map_eq_some_iff.mp h
        obtain ⟨rfl, rfl⟩ := Prod.mk.inj hpair
        obtain ⟨rfl, hnot⟩ := ih hrest
        exact ⟨rfl, List.not_mem_cons_of_ne_of_not_mem (Ne.symm hc) hnot⟩
  · rintro ⟨rfl, hnot⟩
    exact splitOnce_append hnot

theorem rsplitOnce_append (h : sep ∉ b) : rsplitOnce sep (a ++ sep :: b) = some (a, b) := by
  have hreverse : (a ++ sep :: b).reverse = b.reverse ++ sep :: a.reverse := by simp
  rw [rsplitOnce, hreverse, splitOnce_append (by simpa using h)]
  simp

theorem rsplitOnce_eq_some_iff :
    rsplitOnce sep text = some (a, b) ↔ text = a ++ sep :: b ∧ sep ∉ b := by
  constructor
  · intro h
    obtain ⟨⟨front, back⟩, hsplit, hpair⟩ := Option.map_eq_some_iff.mp h
    obtain ⟨rfl, rfl⟩ := Prod.mk.inj hpair
    obtain ⟨htext, hnot⟩ := splitOnce_eq_some_iff.mp hsplit
    refine ⟨?_, by simpa using hnot⟩
    rw [← List.reverse_reverse text, htext]
    simp
  · rintro ⟨rfl, hnot⟩
    exact rsplitOnce_append hnot

theorem trim_eq_self (h : ∀ c ∈ text, c.isWhitespace = false) : trim text = text := by
  have hdrop : ∀ l : List Char, (∀ c ∈ l, c.isWhitespace = false) →
      l.dropWhile Char.isWhitespace = l := by
    intro l hl
    cases l with
    | nil => rfl
    | cons c l => rw [List.dropWhile_cons, if_neg (by simp [hl c])]
  rw [trim, hdrop text h, hdrop text.reverse (fun c hc => h c (List.mem_reverse.mp hc)),
    List.reverse_reverse]

def Blanks (text : List Char) : Prop := ∀ c ∈ text, c = ' ' ∨ c = '\t'

namespace Blanks

theorem nil : Blanks [] := nofun

theorem append (ha : Blanks a) (hb : Blanks b) : Blanks (a ++ b) := fun c hc =>
  (List.mem_append.mp hc).elim (ha c) (hb c)

theorem isWhitespace (h : Blanks text) : ∀ c ∈ text, c.isWhitespace = true := by
  intro c hc
  rcases h c hc with rfl | rfl
  · rfl
  · rfl

theorem isHeaderChar (h : Blanks text) : ∀ c ∈ text, HeaderText.isHeaderChar c = true := by
  intro c hc
  rcases h c hc with rfl | rfl
  · rfl
  · rfl

theorem not_mem {c : Char} (h : Blanks text) (hc : c.isWhitespace = false) : c ∉ text := by
  intro hmem
  rw [h.isWhitespace c hmem] at hc
  cases hc

theorem of_isWhitespace (h : ∀ c ∈ text, c.isWhitespace = true)
    (hheader : ∀ c ∈ text, HeaderText.isHeaderChar c = true) : Blanks text := by
  intro c hc
  have hspace := h c hc
  simp only [Char.isWhitespace, Bool.or_eq_true, decide_eq_true_eq] at hspace
  rcases hspace with ((rfl | rfl) | rfl) | rfl
  · exact .inl rfl
  · exact .inr rfl
  · exact absurd (hheader _ hc) (by decide)
  · exact absurd (hheader _ hc) (by decide)

end Blanks

theorem exists_blanks (hheader : ∀ c ∈ text, isHeaderChar c = true) :
    ∃ l r, Blanks l ∧ Blanks r ∧ text = l ++ trim text ++ r := by
  let front := text.dropWhile Char.isWhitespace
  have hfront : front = trim text ++ (front.reverse.takeWhile Char.isWhitespace).reverse := by
    rw [trim, ← List.reverse_append, List.takeWhile_append_dropWhile, List.reverse_reverse]
  have htext : text = text.takeWhile Char.isWhitespace ++ trim text ++
      (front.reverse.takeWhile Char.isWhitespace).reverse := by
    rw [List.append_assoc, ← hfront, List.takeWhile_append_dropWhile]
  refine ⟨_, _, .of_isWhitespace ?_ ?_, .of_isWhitespace ?_ ?_, htext⟩
  · exact fun c hc => List.mem_takeWhile_imp hc
  · exact fun c hc => hheader c (List.takeWhile_subset _ hc)
  · exact fun c hc => List.mem_takeWhile_imp (List.mem_reverse.mp hc)
  · exact fun c hc => hheader c (htext ▸ List.mem_append_right _ hc)

theorem trim_blanks {l r : List Char} (hl : Blanks l) (hr : Blanks r)
    (h : ∀ c ∈ text, c.isWhitespace = false) : trim (l ++ text ++ r) = text := by
  cases text with
  | nil =>
    have hall : ∀ c ∈ l ++ [] ++ r, c.isWhitespace = true := by
      simpa [or_imp, forall_and] using ⟨hl.isWhitespace, hr.isWhitespace⟩
    rw [trim, List.dropWhile_eq_nil_iff.mpr hall]
    rfl
  | cons c text =>
    have hdrop : (l ++ (c :: text) ++ r).dropWhile Char.isWhitespace = c :: text ++ r := by
      rw [List.append_assoc, List.dropWhile_append_of_pos hl.isWhitespace, List.cons_append,
        List.dropWhile_cons_of_neg (by simp [h c List.mem_cons_self])]
    have hback : (r.reverse ++ (c :: text).reverse).dropWhile Char.isWhitespace =
        (c :: text).reverse.dropWhile Char.isWhitespace :=
      List.dropWhile_append_of_pos fun d hd => hr.isWhitespace d (List.mem_reverse.mp hd)
    rw [trim, hdrop, List.reverse_append, hback]
    have hself := trim_eq_self h
    rwa [trim, List.dropWhile_cons_of_neg (by simp [h c List.mem_cons_self])] at hself

theorem trim_eq_nil (h : Blanks text) : trim text = [] := by
  have htrim : trim ([] ++ [] ++ text) = [] := trim_blanks .nil h nofun
  simpa using htrim

theorem isDigit_of_mem_decimal {c : Char} (hc : c ∈ decimal n) : c.isDigit = true :=
  Nat.isDigit_of_mem_toDigits (by decide) (by decide) hc

theorem isDigit_bounds {c : Char} (h : c.isDigit = true) : 48 ≤ c.toNat ∧ c.toNat ≤ 57 := by
  simpa [Char.isDigit, UInt32.le_iff_toNat_le] using h

theorem not_isWhitespace_of_isDigit {c : Char} (h : c.isDigit = true) :
    c.isWhitespace = false := by
  by_contra hspace
  simp only [Char.isWhitespace, Bool.not_eq_false, Bool.or_eq_true, decide_eq_true_eq] at hspace
  rcases hspace with ((rfl | rfl) | rfl) | rfl <;> cases h

theorem decimal_ne_nil : decimal n ≠ [] := Nat.toDigits_ne_nil

structure Denotes (bound : ℕ) (digits : List Char) (n : ℕ) : Prop where
  ne_nil : digits ≠ []
  digit : ∀ c ∈ digits, c.isDigit = true
  value : Nat.ofDigitChars 10 digits 0 = n
  lt : n < bound

def Numeral (bound : ℕ) (text : List Char) (n : ℕ) : Prop :=
  Denotes bound text n ∨ ∃ digits, text = '+' :: digits ∧ Denotes bound digits n

namespace Numeral
variable {c : Char}

theorem mem (h : Numeral bound text n) (hc : c ∈ text) : c.isDigit = true ∨ c = '+' := by
  rcases h with h | ⟨digits, rfl, h⟩
  · exact .inl (h.digit c hc)
  · rcases List.mem_cons.mp hc with rfl | hc
    · exact .inr rfl
    · exact .inl (h.digit c hc)

theorem not_mem (h : Numeral bound text n) (hdigit : c.isDigit = false) (hplus : c ≠ '+') :
    c ∉ text := by
  intro hc
  rcases h.mem hc with hd | rfl
  · rw [hdigit] at hd
    cases hd
  · exact hplus rfl

theorem isHeaderChar (h : Numeral bound text n) :
    ∀ c ∈ text, HeaderText.isHeaderChar c = true := by
  intro c hc
  rcases h.mem hc with hd | rfl
  · have hbounds := isDigit_bounds hd
    simp only [HeaderText.isHeaderChar, Bool.or_eq_true, Bool.and_eq_true, decide_eq_true_eq]
    omega
  · rfl

theorem not_isWhitespace (h : Numeral bound text n) : ∀ c ∈ text, c.isWhitespace = false := by
  intro c hc
  rcases h.mem hc with hd | rfl
  · exact not_isWhitespace_of_isDigit hd
  · rfl

theorem ne_nil (h : Numeral bound text n) : text ≠ [] := by
  rcases h with h | ⟨digits, rfl, -⟩
  · exact h.ne_nil
  · exact nofun

theorem lt (h : Numeral bound text n) : n < bound := by
  rcases h with h | ⟨digits, -, h⟩
  · exact h.lt
  · exact h.lt

theorem denotes (h : Numeral bound text n) (hplus : '+' ∉ text) : Denotes bound text n := by
  rcases h with h | ⟨digits, rfl, -⟩
  · exact h
  · exact absurd List.mem_cons_self hplus

end Numeral

theorem Denotes.not_mem {c : Char} (h : Denotes bound text n) (hc : c.isDigit = false) :
    c ∉ text := by
  intro hmem
  rw [h.digit c hmem] at hc
  cases hc

theorem le_ofDigitChars (digits : List Char) (value : ℕ) :
    value ≤ Nat.ofDigitChars 10 digits value := by
  rw [Nat.ofDigitChars_eq_ofDigitChars_zero]
  have hpow : 1 ≤ 10 ^ digits.length := Nat.one_le_pow _ _ (by decide)
  exact Nat.le_trans (Nat.le_mul_of_pos_left value hpow) (Nat.le_add_right _ _)

theorem foldlM_readDigit {digits : List Char} {value : ℕ} (hvalue : value < bound) :
    digits.foldlM (readDigit bound) value = some n ↔
      (∀ c ∈ digits, c.isDigit = true) ∧ Nat.ofDigitChars 10 digits value = n ∧ n < bound := by
  induction digits generalizing value with
  | nil =>
    simp only [List.foldlM_nil, Option.pure_def, Option.some.injEq, List.not_mem_nil,
      Nat.ofDigitChars_nil]
    constructor
    · rintro rfl
      exact ⟨nofun, rfl, hvalue⟩
    · exact fun h => h.2.1
  | cons c digits ih =>
    have hnext : value * 10 + (c.toNat - 48) = 10 * value + (c.toNat - '0'.toNat) := by
      rw [Nat.mul_comm]
      rfl
    simp only [List.foldlM_cons, Option.bind_eq_bind, Option.bind_eq_some_iff, readDigit,
      Nat.ofDigitChars_cons, ← hnext]
    constructor
    · rintro ⟨next, hread, hrest⟩
      split_ifs at hread with hdigit hlt
      obtain rfl := Option.some.inj hread
      obtain ⟨hdigits, hsame, hn⟩ := (ih hlt).mp hrest
      exact ⟨List.forall_mem_cons.mpr ⟨hdigit, hdigits⟩, hsame, hn⟩
    · rintro ⟨hdigits, hsame, hn⟩
      obtain ⟨hdigit, hrest⟩ := List.forall_mem_cons.mp hdigits
      have hlt : value * 10 + (c.toNat - 48) < bound :=
        Nat.lt_of_le_of_lt (hsame ▸ le_ofDigitChars digits _) hn
      exact ⟨_, by rw [if_pos hdigit, if_pos hlt], (ih hlt).mpr ⟨hrest, hsame, hn⟩⟩

theorem parseBelow_eq_some_iff : parseBelow bound text = some n ↔ Numeral bound text n := by
  have hdigits : ∀ digits : List Char,
      (if digits.isEmpty then none else digits.foldlM (readDigit bound) 0) = some n ↔
        Denotes bound digits n := by
    intro digits
    cases digits with
    | nil => exact ⟨nofun, fun h => absurd rfl h.ne_nil⟩
    | cons c digits =>
      simp only [List.isEmpty_cons, Bool.false_eq_true, if_false]
      constructor
      · intro h
        have hbound : 0 < bound := by
          have hfirst := h
          simp only [List.foldlM_cons, Option.bind_eq_bind, Option.bind_eq_some_iff,
            readDigit] at hfirst
          obtain ⟨next, hread, -⟩ := hfirst
          split_ifs at hread with _ hlt
          exact Nat.zero_lt_of_lt hlt
        obtain ⟨hdigit, hvalue, hlt⟩ := (foldlM_readDigit hbound).mp h
        exact ⟨nofun, hdigit, hvalue, hlt⟩
      · intro h
        exact (foldlM_readDigit (Nat.zero_lt_of_lt h.lt)).mpr ⟨h.digit, h.value, h.lt⟩
  unfold parseBelow
  dsimp only
  cases hplus : text.dropPrefix? ['+'] with
  | some rest =>
    obtain rfl := dropPrefix_eq_some_iff.mp hplus
    simp only [Option.getD_some, hdigits]
    constructor
    · exact fun h => .inr ⟨rest, rfl, h⟩
    · rintro (h | ⟨digits, hsame, h⟩)
      · exact absurd (h.digit '+' List.mem_cons_self) (by decide)
      · obtain rfl := (List.cons.inj hsame).2
        exact h
  | none =>
    simp only [Option.getD_none, hdigits]
    constructor
    · exact .inl
    · rintro (h | ⟨digits, rfl, h⟩)
      · exact h
      · rw [dropPrefix_eq_some_iff.mpr (List.singleton_append).symm] at hplus
        cases hplus

theorem decimal_denotes (h : n < bound) : Denotes bound (decimal n) n :=
  ⟨decimal_ne_nil, fun _ => isDigit_of_mem_decimal, Nat.ofDigitChars_ten_toDigits, h⟩

end HeaderText
