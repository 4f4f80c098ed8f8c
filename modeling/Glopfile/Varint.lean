import Mathlib.Data.Nat.Init
import Mathlib.Tactic.Ring

/-!
# Varints and length-delimited values

A number of up to 64 bits in groups of seven, least first; every byte but the last has its
high bit set. A length-delimited value is its length as a varint and then the value; what
follows it is left to the reader.
-/

namespace Glopfile.Varint

def encode (n : ℕ) : List UInt8 :=
  if n < 128 then [UInt8.ofNat n] else UInt8.ofNat (n % 128 + 128) :: encode (n / 128)

/-- Reads at most `count` bytes; the last one of ten has one bit only. -/
def decodeBelow : ℕ → List UInt8 → Option (ℕ × List UInt8)
  | 0, _ | _, [] => none
  | count + 1, b :: bytes =>
    if b.toNat < 128 then
      if count = 0 ∧ 2 ≤ b.toNat then none else some (b.toNat, bytes)
    else (decodeBelow count bytes).map fun (n, rest) => (b.toNat - 128 + 128 * n, rest)

def decode (bytes : List UInt8) : Option (ℕ × List UInt8) := decodeBelow 10 bytes

theorem encode_of_lt {n : ℕ} (h : n < 128) : encode n = [UInt8.ofNat n] := by
  rw [encode, if_pos h]

theorem encode_of_le {n : ℕ} (h : 128 ≤ n) :
    encode n = UInt8.ofNat (n % 128 + 128) :: encode (n / 128) := by
  rw [encode, if_neg (Nat.not_lt.2 h)]

theorem toNat_ofNat {n : ℕ} (h : n < 256) : (UInt8.ofNat n).toNat = n := by
  rw [UInt8.toNat_ofNat']
  exact Nat.mod_eq_of_lt h

theorem decodeBelow_encode (count : ℕ) (rest : List UInt8) {n : ℕ} (h : n < 2 * 128 ^ count) :
    decodeBelow (count + 1) (encode n ++ rest) = some (n, rest) := by
  induction count generalizing n with
  | zero =>
    have hn : n < 128 := by omega
    rw [encode_of_lt hn, List.singleton_append, decodeBelow, toNat_ofNat (by omega), if_pos hn,
      if_neg (by omega)]
  | succ count ih =>
    by_cases hn : n < 128
    · rw [encode_of_lt hn, List.singleton_append, decodeBelow, toNat_ofNat (by omega), if_pos hn,
        if_neg (by omega)]
    · have hn : 128 ≤ n := Nat.not_lt.1 hn
      have hbyte : n % 128 + 128 < 256 := by omega
      have hhigh : n / 128 < 2 * 128 ^ count := by
        rw [Nat.div_lt_iff_lt_mul (by decide)]
        calc n < 2 * 128 ^ (count + 1) := h
          _ = 2 * 128 ^ count * 128 := by ring
      rw [encode_of_le hn, List.cons_append, decodeBelow, toNat_ofNat hbyte, if_neg (by omega),
        ih hhigh, Option.map_some]
      have hvalue : n % 128 + 128 - 128 + 128 * (n / 128) = n := by omega
      exact congrArg (fun value => some (value, rest)) hvalue

theorem decode_encode {n : ℕ} (h : n < 2 ^ 64) (rest : List UInt8) :
    decode (encode n ++ rest) = some (n, rest) :=
  decodeBelow_encode 9 rest (Nat.lt_of_lt_of_eq h (by norm_num))

section Delimited

def delimit (value : List UInt8) : List UInt8 := encode value.length ++ value

inductive DelimitError
  | invalidVarint
  | underflow
  deriving DecidableEq, Repr

def undelimit (bytes : List UInt8) : Except DelimitError (List UInt8) :=
  match decode bytes with
  | none => .error .invalidVarint
  | some (length, rest) => if length ≤ rest.length then .ok (rest.take length) else .error .underflow

theorem undelimit_delimit {value : List UInt8} (h : value.length < 2 ^ 64) (rest : List UInt8) :
    undelimit (delimit value ++ rest) = .ok value := by
  have hdecode : decode (delimit value ++ rest) = some (value.length, value ++ rest) := by
    rw [delimit, List.append_assoc]
    exact decode_encode h (value ++ rest)
  rw [undelimit, hdecode]
  simp only [List.length_append, Nat.le_add_right, if_true, List.take_left']

end Delimited

end Glopfile.Varint
