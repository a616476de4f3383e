import Mathlib.Data.BitVec
import Mathlib.Data.UInt
import Mathlib.Tactic.Ring

/-!
# Foundations - Byte representations of fixed-width words

A word of `n` bytes is stored by a little-endian machine as the list of its
base-256 digits, least significant digit first.  This file fixes the two
directions of that representation for natural numbers and for bit vectors whose
width is a whole number of bytes, and proves that they are mutually inverse.

Main results:

- Theorems {lit}`ofDigits_digits` and {lit}`digits_ofDigits`: the digit lists of
  length {lit}`n` are in bijection with the numbers below {lit}`256 ^ n`.
- Theorems {lit}`ofBytes_bytes` and {lit}`bytes_ofBytes`: the same for words.
- Theorem {lit}`reverseBytes_involutive`: reversing the stored bytes of a word
  twice gives the word back.

Current gaps:

- None.
-/

namespace ByteOrder

/-! ## Digits of a natural number -/

/-- The `n` base-256 digits of a number, least significant first. -/
def digits : ℕ → ℕ → List UInt8
  | 0, _ => []
  | n + 1, v => UInt8.ofNat (v % 256) :: digits n (v / 256)

/-- The number with the given base-256 digits, least significant first. -/
def ofDigits : List UInt8 → ℕ
  | [] => 0
  | b :: bs => b.toNat + 256 * ofDigits bs

@[simp]
theorem length_digits (n v : ℕ) : (digits n v).length = n := by
  induction n generalizing v with
  | zero => rfl
  | succ n ih => simp [digits, ih]

/-- Digit lists denote numbers below the corresponding power of 256. -/
theorem ofDigits_lt (bs : List UInt8) : ofDigits bs < 256 ^ bs.length := by
  induction bs with
  | nil => simp [ofDigits]
  | cons b bs ih =>
      have hb : b.toNat < 256 := b.toNat_lt
      simp only [ofDigits, List.length_cons, pow_succ]
      omega

/-- A number below `256 ^ n` is determined by its first `n` digits. -/
theorem ofDigits_digits {n v : ℕ} (hv : v < 256 ^ n) : ofDigits (digits n v) = v := by
  induction n generalizing v with
  | zero =>
      simp only [pow_zero] at hv
      simp only [digits, ofDigits]
      omega
  | succ n ih =>
      have hdiv : v / 256 < 256 ^ n := by
        rw [pow_succ] at hv
        exact Nat.div_lt_of_lt_mul (by rwa [mul_comm])
      have hmod : (UInt8.ofNat (v % 256)).toNat = v % 256 := by
        rw [UInt8.toNat_ofNat']
        exact Nat.mod_eq_of_lt (Nat.mod_lt v (by norm_num))
      rw [digits, ofDigits, ih hdiv, hmod]
      omega

/-- A digit list is recovered from the number it denotes. -/
theorem digits_ofDigits (bs : List UInt8) : digits bs.length (ofDigits bs) = bs := by
  induction bs with
  | nil => rfl
  | cons b bs ih =>
      have hb : b.toNat < 256 := b.toNat_lt
      have hmod : (b.toNat + 256 * ofDigits bs) % 256 = b.toNat := by omega
      have hdiv : (b.toNat + 256 * ofDigits bs) / 256 = ofDigits bs := by omega
      simp only [List.length_cons, ofDigits, digits, hmod, hdiv, ih]
      simp

/-! ## Words of a whole number of bytes -/

/-- The object representation of an `n`-byte word on a little-endian machine. -/
def bytes {n : ℕ} (v : BitVec (8 * n)) : List UInt8 :=
  digits n v.toNat

/-- The `n`-byte word stored in a list of bytes. -/
def ofBytes (n : ℕ) (bs : List UInt8) : BitVec (8 * n) :=
  BitVec.ofNat (8 * n) (ofDigits bs)

@[simp]
theorem length_bytes {n : ℕ} (v : BitVec (8 * n)) : (bytes v).length = n :=
  length_digits n v.toNat

private theorem two_pow_eight_mul (n : ℕ) : 2 ^ (8 * n) = 256 ^ n := by
  rw [pow_mul]
  norm_num

@[simp]
theorem ofBytes_bytes {n : ℕ} (v : BitVec (8 * n)) : ofBytes n (bytes v) = v := by
  have hv : v.toNat < 256 ^ n := two_pow_eight_mul n ▸ v.isLt
  rw [ofBytes, bytes, ofDigits_digits hv]
  simp

theorem bytes_ofBytes {n : ℕ} {bs : List UInt8} (hlen : bs.length = n) :
    bytes (ofBytes n bs) = bs := by
  have hlt : ofDigits bs < 2 ^ (8 * n) := by
    rw [two_pow_eight_mul, ← hlen]
    exact ofDigits_lt bs
  rw [bytes, ofBytes, BitVec.toNat_ofNat, Nat.mod_eq_of_lt hlt, ← hlen]
  exact digits_ofDigits bs

/-- The word whose stored bytes are those of `v` in the opposite order. -/
def reverseBytes {n : ℕ} (v : BitVec (8 * n)) : BitVec (8 * n) :=
  ofBytes n (bytes v).reverse

/-- Reversing the bytes of a word reverses its object representation. -/
@[simp]
theorem bytes_reverseBytes {n : ℕ} (v : BitVec (8 * n)) :
    bytes (reverseBytes v) = (bytes v).reverse :=
  bytes_ofBytes (by simp)

theorem reverseBytes_involutive {n : ℕ} (v : BitVec (8 * n)) :
    reverseBytes (reverseBytes v) = v := by
  rw [reverseBytes, bytes_reverseBytes, List.reverse_reverse, ofBytes_bytes]

end ByteOrder
