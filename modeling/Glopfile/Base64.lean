import Mathlib.Data.Fintype.Basic
import Mathlib.Data.List.FinRange

/-!
# Base64

Three octets are four groups of six bits, and each group is a symbol of an alphabet. A last
group of one or two octets is filled up with zero bits and padded to four symbols. The decoder
requires the padding, and the bits that were filled in to be zero, so that every text it
accepts is the encoding of what it returns.

An `Engine` is what the codecs above it rely on. One that writes other symbols for some of the
engine's accepts a text without writing it where writing does not undo reading
(`Engine.encodeWith_eq_iff`).
-/

namespace Glopfile.Base64

structure Octets where
  first : UInt8
  second : UInt8
  third : UInt8
  deriving DecidableEq, Repr

structure Sextets where
  first : Fin 64
  second : Fin 64
  third : Fin 64
  fourth : Fin 64
  deriving DecidableEq, Repr

def Octets.sextets (o : Octets) : Sextets where
  first := .ofNat 64 (o.first.toNat / 4)
  second := .ofNat 64 (o.first.toNat % 4 * 16 + o.second.toNat / 16)
  third := .ofNat 64 (o.second.toNat % 16 * 4 + o.third.toNat / 64)
  fourth := .ofNat 64 (o.third.toNat % 64)

def Sextets.octets (s : Sextets) : Octets where
  first := .ofNat (s.first.val * 4 + s.second.val / 16)
  second := .ofNat (s.second.val % 16 * 16 + s.third.val / 4)
  third := .ofNat (s.third.val % 4 * 64 + s.fourth.val)

theorem Octets.octets_sextets (o : Octets) : o.sextets.octets = o := by
  obtain ⟨a, b, c⟩ := o
  have ha := a.toNat_lt
  have hb := b.toNat_lt
  have hc := c.toNat_lt
  simp only [sextets, Sextets.octets, Fin.ofNat, Octets.mk.injEq, ← UInt8.toNat_inj,
    UInt8.toNat_ofNat']
  omega

theorem Sextets.sextets_octets (s : Sextets) : s.octets.sextets = s := by
  obtain ⟨a, b, c, d⟩ := s
  have ha := a.isLt
  have hb := b.isLt
  have hc := c.isLt
  have hd := d.isLt
  simp only [octets, Octets.sextets, Sextets.mk.injEq, Fin.ext_iff, Fin.ofNat,
    UInt8.toNat_ofNat']
  omega

theorem Octets.octets_first (a : UInt8) :
    (Sextets.mk (mk a 0 0).sextets.first (mk a 0 0).sextets.second 0 0).octets = ⟨a, 0, 0⟩ := by
  have hfilled : Sextets.mk (mk a 0 0).sextets.first (mk a 0 0).sextets.second 0 0 =
      (mk a 0 0).sextets := by simp [sextets]
  rw [hfilled, octets_sextets]

theorem Octets.octets_second (a b : UInt8) :
    (Sextets.mk (mk a b 0).sextets.first (mk a b 0).sextets.second (mk a b 0).sextets.third
      0).octets = ⟨a, b, 0⟩ := by
  have hfilled : Sextets.mk (mk a b 0).sextets.first (mk a b 0).sextets.second
      (mk a b 0).sextets.third 0 = (mk a b 0).sextets := by simp [sextets]
  rw [hfilled, octets_sextets]

theorem Sextets.sextets_first {first second : Fin 64}
    (h : (mk first second 0 0).octets.second = 0) :
    (Octets.mk (mk first second 0 0).octets.first 0 0).sextets = ⟨first, second, 0, 0⟩ := by
  have hthird : (mk first second 0 0).octets.third = 0 := by simp [octets]
  have hfilled : Octets.mk (mk first second 0 0).octets.first 0 0 =
      (mk first second 0 0).octets := by
    rw [← h]
    exact congrArg _ (h.trans hthird.symm)
  rw [hfilled, sextets_octets]

theorem Sextets.sextets_second {first second third : Fin 64}
    (h : (mk first second third 0).octets.third = 0) :
    (Octets.mk (mk first second third 0).octets.first (mk first second third 0).octets.second
      0).sextets = ⟨first, second, third, 0⟩ := by
  rw [← h]
  exact sextets_octets ⟨first, second, third, 0⟩

structure Alphabet (σ : Type) where
  symbol : Fin 64 → σ
  pad : σ
  symbol_injective : Function.Injective symbol
  symbol_ne_pad : ∀ v, symbol v ≠ pad

namespace Alphabet
variable {σ : Type} (A : Alphabet σ)

def encode : List UInt8 → List σ
  | [] => []
  | [a] =>
    let s := (Octets.mk a 0 0).sextets
    [A.symbol s.first, A.symbol s.second, A.pad, A.pad]
  | [a, b] =>
    let s := (Octets.mk a b 0).sextets
    [A.symbol s.first, A.symbol s.second, A.symbol s.third, A.pad]
  | a :: b :: c :: bytes =>
    let s := (Octets.mk a b c).sextets
    A.symbol s.first :: A.symbol s.second :: A.symbol s.third :: A.symbol s.fourth :: encode bytes

theorem symbol_of_mem_encode (bytes : List UInt8) :
    ∀ c ∈ A.encode bytes, c = A.pad ∨ ∃ v, A.symbol v = c := by
  induction bytes using encode.induct with
  | case1 => nofun
  | case2 a =>
    simp only [encode, List.forall_mem_cons]
    exact ⟨.inr ⟨_, rfl⟩, .inr ⟨_, rfl⟩, .inl trivial, .inl trivial, nofun⟩
  | case3 a b =>
    simp only [encode, List.forall_mem_cons]
    exact ⟨.inr ⟨_, rfl⟩, .inr ⟨_, rfl⟩, .inr ⟨_, rfl⟩, .inl trivial, nofun⟩
  | case4 a b c bytes ih =>
    simp only [encode, List.forall_mem_cons]
    exact ⟨.inr ⟨_, rfl⟩, .inr ⟨_, rfl⟩, .inr ⟨_, rfl⟩, .inr ⟨_, rfl⟩, ih⟩

variable [DecidableEq σ]

def value (c : σ) : Option (Fin 64) := (List.finRange 64).find? fun v => A.symbol v = c

theorem symbol_of_value {c : σ} {v : Fin 64} (h : A.value c = some v) : A.symbol v = c :=
  of_decide_eq_true (@List.find?_some _ (fun v => decide (A.symbol v = c)) _ _ h)

@[simp] theorem value_symbol (v : Fin 64) : A.value (A.symbol v) = some v := by
  cases hvalue : A.value (A.symbol v) with
  | none =>
    have hnot := List.find?_eq_none.1 hvalue v (List.mem_finRange v)
    exact absurd (decide_eq_true rfl) hnot
  | some w => exact congrArg some (A.symbol_injective (A.symbol_of_value hvalue))

def decodeLast (a b c : σ) : Option (List UInt8) :=
  if c = A.pad then do
    let first ← A.value a
    let second ← A.value b
    let o := (Sextets.mk first second 0 0).octets
    if o.second = 0 then some [o.first] else none
  else do
    let first ← A.value a
    let second ← A.value b
    let third ← A.value c
    let o := (Sextets.mk first second third 0).octets
    if o.third = 0 then some [o.first, o.second] else none

def decode : List σ → Option (List UInt8)
  | [] => some []
  | a :: b :: c :: d :: text =>
    if d = A.pad ∧ text = [] then A.decodeLast a b c
    else do
      let first ← A.value a
      let second ← A.value b
      let third ← A.value c
      let fourth ← A.value d
      let o := (Sextets.mk first second third fourth).octets
      let bytes ← decode text
      some (o.first :: o.second :: o.third :: bytes)
  | _ => none

theorem decode_encode (bytes : List UInt8) : A.decode (A.encode bytes) = some bytes := by
  induction bytes using encode.induct with
  | case1 => rfl
  | case2 a =>
    rw [encode, decode, if_pos ⟨rfl, rfl⟩, decodeLast, if_pos rfl]
    simp only [value_symbol, Option.bind_eq_bind, Option.bind_some, Octets.octets_first, if_true]
  | case3 a b =>
    rw [encode, decode, if_pos ⟨rfl, rfl⟩, decodeLast, if_neg (A.symbol_ne_pad _)]
    simp only [value_symbol, Option.bind_eq_bind, Option.bind_some, Octets.octets_second, if_true]
  | case4 a b c bytes ih =>
    have ho := Octets.octets_sextets ⟨a, b, c⟩
    have hlast : ∀ text : List σ,
        ¬ (A.symbol (Octets.mk a b c).sextets.fourth = A.pad ∧ text = []) :=
      fun _ h => A.symbol_ne_pad _ h.1
    rw [encode, decode, if_neg (hlast _), ih]
    simp only [value_symbol, Option.bind_eq_bind, Option.bind_some, ho]

theorem encode_decodeLast {a b c : σ} {bytes : List UInt8} (h : A.decodeLast a b c = some bytes) :
    A.encode bytes = [a, b, c, A.pad] := by
  unfold decodeLast at h
  split at h
  case isTrue hc =>
    simp only [Option.bind_eq_bind, Option.bind_eq_some_iff] at h
    obtain ⟨first, ha, second, hb, h⟩ := h
    obtain ⟨hzero, h⟩ := Option.ite_none_right_eq_some.1 h
    cases h
    rw [encode, Sextets.sextets_first hzero, A.symbol_of_value ha, A.symbol_of_value hb, hc]
  case isFalse hc =>
    simp only [Option.bind_eq_bind, Option.bind_eq_some_iff] at h
    obtain ⟨first, ha, second, hb, third, hc, h⟩ := h
    obtain ⟨hzero, h⟩ := Option.ite_none_right_eq_some.1 h
    cases h
    rw [encode, Sextets.sextets_second hzero, A.symbol_of_value ha, A.symbol_of_value hb,
      A.symbol_of_value hc]

theorem encode_decode {text : List σ} {bytes : List UInt8} (h : A.decode text = some bytes) :
    A.encode bytes = text := by
  fun_induction A.decode text generalizing bytes with
  | case1 =>
    cases h
    rfl
  | case2 a b c d text hlast =>
    obtain ⟨rfl, rfl⟩ := hlast
    exact A.encode_decodeLast h
  | case3 a b c d text hlast ih =>
    simp only [Option.bind_eq_bind, Option.bind_eq_some_iff, Option.some.injEq] at h
    obtain ⟨first, ha, second, hb, third, hc, fourth, hd, bytes, hrest, rfl⟩ := h
    have hgroup := Sextets.sextets_octets ⟨first, second, third, fourth⟩
    rw [encode, hgroup, ih hrest, A.symbol_of_value ha, A.symbol_of_value hb,
      A.symbol_of_value hc, A.symbol_of_value hd]
  | case4 => nomatch h

end Alphabet

structure Engine (Symbol : Char → Prop) where
  encode : List UInt8 → String
  decode : String → Option (List UInt8)
  decode_encode : ∀ bytes, decode (encode bytes) = some bytes
  encode_decode : ∀ {text bytes}, decode text = some bytes → encode bytes = text
  symbol_of_mem : ∀ {bytes}, ∀ c ∈ (encode bytes).toList, Symbol c

namespace Alphabet

def engine {Symbol : Char → Prop} (A : Alphabet Char) (hpad : Symbol A.pad)
    (hsymbol : ∀ v, Symbol (A.symbol v)) : Engine Symbol where
  encode bytes := .ofList (A.encode bytes)
  decode text := A.decode text.toList
  decode_encode bytes := by rw [String.toList_ofList, A.decode_encode]
  encode_decode h := by rw [A.encode_decode h, String.ofList_toList]
  symbol_of_mem {bytes} c h := by
    rw [String.toList_ofList] at h
    obtain rfl | ⟨v, rfl⟩ := A.symbol_of_mem_encode bytes c h
    · exact hpad
    · exact hsymbol v

end Alphabet

namespace Engine
variable {Symbol : Char → Prop} (engine : Engine Symbol) (write read : Char → Char)

def encodeWith (bytes : List UInt8) : String := .ofList ((engine.encode bytes).toList.map write)

def decodeWith (text : String) : Option (List UInt8) :=
  engine.decode (.ofList (text.toList.map read))

variable {write read}

theorem map_eq_self_iff {α : Type} {f : α → α} {l : List α} :
    l.map f = l ↔ ∀ a ∈ l, f a = a := by
  calc l.map f = l ↔ l.map f = l.map id := by rw [List.map_id]
    _ ↔ ∀ a ∈ l, f a = a := List.map_inj_left

theorem encode_decodeWith {text : String} {bytes : List UInt8}
    (h : engine.decodeWith read text = some bytes) :
    (engine.encode bytes).toList = text.toList.map read := by
  rw [engine.encode_decode h, String.toList_ofList]

theorem decodeWith_encodeWith (h : ∀ c, Symbol c → read (write c) = c) (bytes : List UInt8) :
    engine.decodeWith read (engine.encodeWith write bytes) = some bytes := by
  have hread : (engine.encode bytes).toList.map (read ∘ write) = (engine.encode bytes).toList :=
    map_eq_self_iff.2 fun c hc => h c (engine.symbol_of_mem c hc)
  rw [decodeWith, encodeWith, String.toList_ofList, List.map_map, hread, String.ofList_toList,
    engine.decode_encode]

/-- A text that is accepted is the encoding iff each of its symbols is written as it is read. -/
theorem encodeWith_eq_iff {text : String} {bytes : List UInt8}
    (h : engine.decodeWith read text = some bytes) :
    engine.encodeWith write bytes = text ↔ ∀ c ∈ text.toList, write (read c) = c := by
  rw [encodeWith, engine.encode_decodeWith h, List.map_map, ← String.toList_inj,
    String.toList_ofList]
  exact map_eq_self_iff

end Engine

def standardSymbols : List Char :=
  "ABCDEFGHIJKLMNOPQRSTUVWXYZabcdefghijklmnopqrstuvwxyz0123456789+/".toList

def standardAlphabet : Alphabet Char where
  symbol v := standardSymbols.get (v.cast (by decide))
  pad := '='
  symbol_injective v w h := by
    have hnodup : standardSymbols.Nodup := by decide
    exact Fin.cast_injective _ (hnodup.injective_get h)
  symbol_ne_pad := by decide

def Standard (c : Char) : Prop := c.isAlphanum = true ∨ c = '+' ∨ c = '/' ∨ c = '='

instance : DecidablePred Standard :=
  fun c => inferInstanceAs (Decidable (c.isAlphanum = true ∨ c = '+' ∨ c = '/' ∨ c = '='))

theorem standard_symbol : ∀ v, Standard (standardAlphabet.symbol v) := by decide +kernel

def standard : Engine Standard :=
  standardAlphabet.engine (by decide) standard_symbol

example : standard.encode [0xfb, 0xff, 0xbf, 0x00] = "+/+/AA==" := by decide

end Glopfile.Base64
