import Mathlib.Data.List.Basic
import Mathlib.Data.Nat.Init

/-!
# Percent-encoding

A percent-encode set says which code points of a part of a URL are written as `%XX`, one for
each byte of UTF-8. No set has the characters of the escapes, so what was encoded has no code
point of the set, and encoding it once more does nothing.
-/

namespace Whatwg

def escapeChars : List Char := "%0123456789ABCDEF".toList

structure PercentEncodeSet where
  mem : Char → Bool
  escape : escapeChars.all (fun c => !mem c) = true

def c0ControlPercentEncodeSet : PercentEncodeSet :=
  ⟨fun c => c.toNat ≤ 0x1f || 0x7e < c.toNat, by decide⟩

def fragmentPercentEncodeSet : PercentEncodeSet :=
  ⟨fun c => c0ControlPercentEncodeSet.mem c || " \"<>`".toList.contains c, by decide⟩

def queryPercentEncodeSet : PercentEncodeSet :=
  ⟨fun c => c0ControlPercentEncodeSet.mem c || " \"#<>".toList.contains c, by decide⟩

def specialQueryPercentEncodeSet : PercentEncodeSet :=
  ⟨fun c => queryPercentEncodeSet.mem c || "'".toList.contains c, by decide⟩

def pathPercentEncodeSet : PercentEncodeSet :=
  ⟨fun c => queryPercentEncodeSet.mem c || "?^`\x7b\x7d".toList.contains c, by decide⟩

def userinfoPercentEncodeSet : PercentEncodeSet :=
  ⟨fun c => pathPercentEncodeSet.mem c || "/:;=@[\\]|".toList.contains c, by decide⟩

def upperHexDigit (n : ℕ) : Char := (Nat.digitChar n).toUpper

def percentEncodeByte (byte : UInt8) : List Char :=
  ['%', upperHexDigit (byte.toNat / 16), upperHexDigit (byte.toNat % 16)]

namespace PercentEncodeSet

def encodeChar (set : PercentEncodeSet) (c : Char) : List Char :=
  if set.mem c then (String.utf8EncodeChar c).flatMap percentEncodeByte else [c]

def encode (set : PercentEncodeSet) (text : List Char) : List Char := text.flatMap set.encodeChar

def Avoids (set : PercentEncodeSet) (text : List Char) : Prop := ∀ c ∈ text, set.mem c = false

variable {set : PercentEncodeSet} {c : Char} {text : List Char}

theorem mem_escapeChars {byte : UInt8} (h : c ∈ percentEncodeByte byte) : c ∈ escapeChars := by
  have hdigit : ∀ n < 16, upperHexDigit n ∈ escapeChars := by decide
  have hbyte : byte.toNat < 256 := byte.toNat_lt
  rw [percentEncodeByte, List.mem_cons, List.mem_cons, List.mem_singleton] at h
  rcases h with rfl | rfl | rfl
  · decide
  · exact hdigit _ (by omega)
  · exact hdigit _ (by omega)

theorem avoids_encodeChar : set.Avoids (set.encodeChar c) := by
  intro d hd
  unfold encodeChar at hd
  split_ifs at hd with hmem
  · obtain ⟨byte, -, hbyte⟩ := List.mem_flatMap.mp hd
    have hescape := List.all_eq_true.mp set.escape d (mem_escapeChars hbyte)
    rwa [Bool.not_eq_true'] at hescape
  · rw [List.mem_singleton.mp hd]
    exact Bool.eq_false_iff.mpr hmem

theorem avoids_encode : set.Avoids (set.encode text) := by
  intro d hd
  obtain ⟨c, -, hc⟩ := List.mem_flatMap.mp hd
  exact avoids_encodeChar d hc

theorem encodeChar_eq_self (h : set.mem c = false) : set.encodeChar c = [c] := by
  rw [encodeChar, h, if_neg Bool.false_ne_true]

theorem encode_eq_self (h : set.Avoids text) : set.encode text = text := by
  induction text with
  | nil => rfl
  | cons c text ih =>
    rw [encode, List.flatMap_cons, encodeChar_eq_self (h c List.mem_cons_self), ← encode,
      ih fun d hd => h d (List.mem_cons_of_mem c hd), List.singleton_append]

theorem Avoids.nil : set.Avoids [] := nofun

theorem Avoids.append {rest : List Char} (h : set.Avoids text) (hrest : set.Avoids rest) :
    set.Avoids (text ++ rest) := fun c hc =>
  (List.mem_append.mp hc).elim (h c) (hrest c)

theorem Avoids.ne {d : Char} (h : set.Avoids text) (hc : c ∈ text) (hd : set.mem d = true) :
    c ≠ d := by
  rintro rfl
  rw [h c hc] at hd
  cases hd

end PercentEncodeSet

section Inclusions
variable {c : Char}

theorem query_of_specialQuery (h : specialQueryPercentEncodeSet.mem c = false) :
    queryPercentEncodeSet.mem c = false := (Bool.or_eq_false_iff.mp h).1

theorem query_of_path (h : pathPercentEncodeSet.mem c = false) :
    queryPercentEncodeSet.mem c = false := (Bool.or_eq_false_iff.mp h).1

theorem path_of_userinfo (h : userinfoPercentEncodeSet.mem c = false) :
    pathPercentEncodeSet.mem c = false := (Bool.or_eq_false_iff.mp h).1

theorem visible_of_c0Control (h : c0ControlPercentEncodeSet.mem c = false) (hspace : c ≠ ' ') :
    0x20 < c.toNat := by
  have hlow := (Bool.or_eq_false_iff.mp h).1
  rw [decide_eq_false_iff_not] at hlow
  have hne : c.toNat ≠ 0x20 := fun hsame => hspace (Char.toNat_inj.mp hsame)
  omega

theorem visible_of_query (h : queryPercentEncodeSet.mem c = false) : 0x20 < c.toNat := by
  refine visible_of_c0Control (Bool.or_eq_false_iff.mp h).1 ?_
  rintro rfl
  cases h

theorem visible_of_fragment (h : fragmentPercentEncodeSet.mem c = false) : 0x20 < c.toNat := by
  refine visible_of_c0Control (Bool.or_eq_false_iff.mp h).1 ?_
  rintro rfl
  cases h

end Inclusions

end Whatwg
