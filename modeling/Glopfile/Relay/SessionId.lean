import Glopfile.Base64

/-!
# Session ids

An id is written in base64 with `-`, `_` and `~` for the three symbols that have a meaning in
a URL. Reading turns these back and leaves every other character as it is, among them the
three symbols themselves: a session answers to each text between its standard and its
URL-safe encoding (`SessionId.only_text_iff`).

`engine` is the engine `STANDARD`.
-/

namespace Glopfile.Relay

open Base64 (Engine Standard)

structure SessionId where
  bytes : List UInt8
  nonempty : bytes ≠ []
  deriving DecidableEq, Repr

inductive InvalidSessionId
  | mk
  deriving DecidableEq, Repr

def toUrlChar (ch : Char) : Char :=
  match ch with
  | '+' => '-'
  | '/' => '_'
  | '=' => '~'
  | ch => ch

def fromUrlChar (ch : Char) : Char :=
  match ch with
  | '-' => '+'
  | '_' => '/'
  | '~' => '='
  | ch => ch

def UrlSafe (c : Char) : Prop := c.isAlphanum = true ∨ c = '-' ∨ c = '_' ∨ c = '~'

instance : DecidablePred UrlSafe :=
  fun c => inferInstanceAs (Decidable (c.isAlphanum = true ∨ c = '-' ∨ c = '_' ∨ c = '~'))

section Characters
variable {c : Char}

theorem fromUrlChar_of_standard (h : Standard c) : fromUrlChar c = c := by
  unfold fromUrlChar
  split
  · exact absurd h (by decide)
  · exact absurd h (by decide)
  · exact absurd h (by decide)
  · rfl

theorem fromUrlChar_toUrlChar (h : Standard c) : fromUrlChar (toUrlChar c) = c := by
  unfold toUrlChar
  split
  · rfl
  · rfl
  · rfl
  · exact fromUrlChar_of_standard h

theorem urlSafe_toUrlChar (h : Standard c) : UrlSafe (toUrlChar c) := by
  unfold toUrlChar
  split
  · exact .inr (.inl rfl)
  · exact .inr (.inr (.inl rfl))
  · exact .inr (.inr (.inr rfl))
  · next hplus hslash hpad =>
    obtain h | h | h | h := h
    · exact .inl h
    · exact absurd h hplus
    · exact absurd h hslash
    · exact absurd h hpad

theorem toUrlChar_fromUrlChar_iff :
    toUrlChar (fromUrlChar c) = c ↔ c ≠ '+' ∧ c ≠ '/' ∧ c ≠ '=' := by
  unfold fromUrlChar
  split
  · decide
  · decide
  · decide
  · unfold toUrlChar
    split <;> simp_all

end Characters

namespace SessionId
variable (engine : Engine Standard)

def decode (encoded : String) : Except InvalidSessionId SessionId :=
  let standard := String.ofList (encoded.toList.map fromUrlChar)
  match engine.decode standard with
  | none => .error .mk
  | some bytes => if h : bytes = [] then .error .mk else .ok ⟨bytes, h⟩

def encode (id : SessionId) : String :=
  .ofList ((engine.encode id.bytes).toList.map toUrlChar)

variable {engine} {id : SessionId} {text : String}

theorem decode_ok_iff :
    decode engine text = .ok id ↔ engine.decodeWith fromUrlChar text = some id.bytes := by
  obtain ⟨bytes, hbytes⟩ := id
  unfold decode
  cases hdecode : engine.decode (.ofList (text.toList.map fromUrlChar)) with
  | none => simp [Engine.decodeWith, hdecode]
  | some found =>
    simp only [Engine.decodeWith, hdecode, Option.some.injEq]
    split
    case isTrue hempty => simp [hempty, hbytes.symm]
    case isFalse => simp

theorem decode_encode (id : SessionId) : decode engine (id.encode engine) = .ok id :=
  decode_ok_iff.2 (engine.decodeWith_encodeWith (fun _ => fromUrlChar_toUrlChar) id.bytes)

/-- What is accepted is what was encoded iff no symbol of the standard alphabet is left. -/
theorem encode_eq_iff (h : decode engine text = .ok id) :
    id.encode engine = text ↔ '+' ∉ text.toList ∧ '/' ∉ text.toList ∧ '=' ∉ text.toList := by
  calc id.encode engine = text ↔ ∀ c ∈ text.toList, toUrlChar (fromUrlChar c) = c :=
        engine.encodeWith_eq_iff (decode_ok_iff.1 h)
    _ ↔ ∀ c ∈ text.toList, c ≠ '+' ∧ c ≠ '/' ∧ c ≠ '=' := by
      simp only [toUrlChar_fromUrlChar_iff]
    _ ↔ '+' ∉ text.toList ∧ '/' ∉ text.toList ∧ '=' ∉ text.toList := by
      constructor
      · intro hall
        exact ⟨fun hmem => (hall _ hmem).1 rfl, fun hmem => (hall _ hmem).2.1 rfl,
          fun hmem => (hall _ hmem).2.2 rfl⟩
      · rintro ⟨hplus, hslash, hpad⟩ c hmem
        refine ⟨?_, ?_, ?_⟩
        · rintro rfl
          exact hplus hmem
        · rintro rfl
          exact hslash hmem
        · rintro rfl
          exact hpad hmem

theorem urlSafe_of_mem {c : Char} (h : c ∈ (id.encode engine).toList) : UrlSafe c := by
  rw [encode, String.toList_ofList] at h
  obtain ⟨standard, hmem, rfl⟩ := List.mem_map.1 h
  exact urlSafe_toUrlChar (engine.symbol_of_mem standard hmem)

theorem mem_encode_of_mem (h : decode engine text = .ok id) {c : Char} (hc : c ∈ text.toList) :
    toUrlChar (fromUrlChar c) ∈ (id.encode engine).toList := by
  rw [encode, String.toList_ofList, engine.encode_decodeWith (decode_ok_iff.1 h)]
  exact List.mem_map_of_mem (List.mem_map_of_mem hc)

theorem decode_standard (id : SessionId) : decode engine (engine.encode id.bytes) = .ok id := by
  have hread : (engine.encode id.bytes).toList.map fromUrlChar =
      (engine.encode id.bytes).toList :=
    Base64.Engine.map_eq_self_iff.2 fun c hc => fromUrlChar_of_standard (engine.symbol_of_mem c hc)
  rw [decode_ok_iff, Engine.decodeWith, hread, String.ofList_toList, engine.decode_encode]

theorem only_text_iff (id : SessionId) :
    (∀ text, decode engine text = .ok id → id.encode engine = text) ↔
      '-' ∉ (id.encode engine).toList ∧ '_' ∉ (id.encode engine).toList ∧
        '~' ∉ (id.encode engine).toList := by
  constructor
  · intro honly
    have hstandard : ∀ c ∈ (id.encode engine).toList, Standard c := by
      rw [honly _ (decode_standard id)]
      exact engine.symbol_of_mem
    refine ⟨?_, ?_, ?_⟩
    · exact fun hmem => absurd (hstandard _ hmem) (by decide)
    · exact fun hmem => absurd (hstandard _ hmem) (by decide)
    · exact fun hmem => absurd (hstandard _ hmem) (by decide)
  · rintro ⟨hdash, hunderscore, htilde⟩ text h
    refine (encode_eq_iff h).2 ⟨?_, ?_, ?_⟩
    · exact fun hmem => hdash (mem_encode_of_mem h hmem)
    · exact fun hmem => hunderscore (mem_encode_of_mem h hmem)
    · exact fun hmem => htilde (mem_encode_of_mem h hmem)

end SessionId

end Glopfile.Relay
