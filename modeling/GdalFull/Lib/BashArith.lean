import GdalFull.Lib.PyStr
import Mathlib.Algebra.Group.Nat.Defs
import Mathlib.Tactic.Common

/-!
# Numerals in the arithmetic of bash

A numeral with a leading zero is octal, a digit that is too great for the base is an error, and the
value is a word of 64 bits that wraps around (`strlong`).

`strlong_eq` gives the value of a numeral, and `valueIn_octal` compares the octal reading with the
decimal one where the decimal value is small.
-/

namespace GdalFull.Lib

def digitOf (c : Char) : Nat := c.toNat - '0'.toNat

/-- No digit is too great for the base. -/
def DigitsBelow (base : Nat) (s : Text) : Prop := ∀ c ∈ s, digitOf c < base

instance (base : Nat) (s : Text) : Decidable (DigitsBelow base s) :=
  List.decidableBAll (fun c => digitOf c < base) s

theorem digitsBelow_nil (base : Nat) : DigitsBelow base [] :=
  fun _ hc => absurd hc List.not_mem_nil

theorem digitsBelow_cons {base : Nat} {c : Char} {s : Text} :
    DigitsBelow base (c :: s) ↔ digitOf c < base ∧ DigitsBelow base s :=
  List.forall_mem_cons

/-- The loop over the digits; `none` is the error `value too great for base`. -/
def strlongLoop (base : Nat) : BitVec 64 → Text → Option (BitVec 64)
  | v, [] => some v
  | v, c :: s =>
    if digitOf c < base then
      strlongLoop base (v * BitVec.ofNat 64 base + BitVec.ofNat 64 (digitOf c)) s
    else none

/-- The value of a numeral. -/
def strlong (s : Text) : Option (BitVec 64) :=
  match s with
  | ['0'] => some 0
  | '0' :: rest => strlongLoop 8 0 rest
  | s => strlongLoop 10 0 s

/-- The base in which a numeral is read. -/
def strlongBase : Text → Nat
  | '0' :: _ :: _ => 8
  | _ => 10

/-- The number that digits stand for in a base. -/
def valueIn (base : Nat) (s : Text) : Nat := Nat.ofDigitChars base s 0

theorem valueIn_concat (base : Nat) (s : Text) (c : Char) :
    valueIn base (s ++ [c]) = base * valueIn base s + digitOf c := by
  rw [valueIn, Nat.ofDigitChars_append, Nat.ofDigitChars_cons, Nat.ofDigitChars_nil]
  rfl

theorem valueIn_zero (base : Nat) (s : Text) : valueIn base ('0' :: s) = valueIn base s := by
  rw [valueIn, Nat.ofDigitChars_cons]
  simp [valueIn]

/-- The loop goes on from the value of the digits before. -/
theorem strlongLoop_eq (base : Nat) (before s : Text) :
    strlongLoop base (BitVec.ofNat 64 (valueIn base before)) s =
      if DigitsBelow base s then some (BitVec.ofNat 64 (valueIn base (before ++ s)))
      else none := by
  induction s generalizing before with
  | nil => rw [strlongLoop, if_pos (digitsBelow_nil base), List.append_nil]
  | cons c s ih =>
    have hnext : BitVec.ofNat 64 (valueIn base before) * BitVec.ofNat 64 base +
        BitVec.ofNat 64 (digitOf c) = BitVec.ofNat 64 (valueIn base (before ++ [c])) := by
      rw [valueIn_concat, BitVec.ofNat_add, BitVec.ofNat_mul, BitVec.mul_comm]
    rw [strlongLoop, hnext, ih, List.append_assoc, List.singleton_append]
    simp only [digitsBelow_cons]
    by_cases hc : digitOf c < base
    · simp only [hc, if_true, true_and]
    · simp only [hc, if_false, false_and]

/-- **The value of a numeral.** -/
theorem strlong_eq (s : Text) :
    strlong s =
      if DigitsBelow (strlongBase s) s then
        some (BitVec.ofNat 64 (valueIn (strlongBase s) s))
      else none := by
  unfold strlong strlongBase
  split
  · rfl
  · rename_i rest hrest
    cases rest with
    | nil => exact absurd rfl hrest
    | cons c rest =>
      have hzero : digitOf '0' < 8 := by decide
      refine (strlongLoop_eq 8 [] (c :: rest)).trans ?_
      rw [valueIn_zero, List.nil_append]
      simp only [digitsBelow_cons, hzero, true_and]
  · rename_i hone hmany
    have hbase : (match s with | '0' :: _ :: _ => 8 | _ => 10) = 10 := by
      split
      · exact absurd rfl (hmany _)
      · rfl
    rw [hbase]
    exact strlongLoop_eq 10 [] s

/-! ## Octal and decimal -/

theorem valueIn_mono {base base' : Nat} (h : base ≤ base') (s : Text) :
    valueIn base s ≤ valueIn base' s := by
  induction s using List.reverseRecOn with
  | nil => exact Nat.le_refl 0
  | append_singleton s c ih =>
    rw [valueIn_concat, valueIn_concat]
    exact Nat.add_le_add_right (Nat.mul_le_mul h ih) _

theorem digitOf_le_valueIn (base : Nat) (hbase : 0 < base) (s : Text) :
    ∀ c ∈ s, digitOf c ≤ valueIn base s := by
  induction s using List.reverseRecOn with
  | nil => exact fun c hc => absurd hc List.not_mem_nil
  | append_singleton s d ih =>
    intro c hc
    rw [valueIn_concat]
    rcases List.mem_append.mp hc with hc | hc
    · have hle := ih c hc
      have hmul : valueIn base s ≤ base * valueIn base s := Nat.le_mul_of_pos_left _ hbase
      omega
    · rw [List.mem_singleton.mp hc]
      omega

/-- A value of one decimal digit is the same in octal. -/
theorem valueIn_octal_digit {s : Text} (h : valueIn 10 s < 10) : valueIn 8 s = valueIn 10 s := by
  induction s using List.reverseRecOn with
  | nil => rfl
  | append_singleton s c _ =>
    have hmono := valueIn_mono (show 8 ≤ 10 by decide) s
    rw [valueIn_concat] at h
    rw [valueIn_concat, valueIn_concat]
    omega

/-- A decimal value below 100 in octal: the tens count 8. -/
theorem valueIn_octal {s : Text} (hdigits : DigitsBelow 10 s) (h : valueIn 10 s < 100) :
    valueIn 8 s = 8 * (valueIn 10 s / 10) + valueIn 10 s % 10 := by
  induction s using List.reverseRecOn with
  | nil => rfl
  | append_singleton s c _ =>
    have hc := hdigits c (List.mem_append_right s List.mem_cons_self)
    rw [valueIn_concat] at h
    have htens := valueIn_octal_digit (s := s) (by omega)
    rw [valueIn_concat, valueIn_concat, htens]
    omega

/-- A value with a tens digit and a units digit below 8 has octal digits only. -/
theorem octalDigits_of_valueIn {s : Text} (h : valueIn 10 s < 80) (hunits : valueIn 10 s % 10 < 8)
    (hdigits : DigitsBelow 10 s) : DigitsBelow 8 s := by
  induction s using List.reverseRecOn with
  | nil => exact fun c hc => absurd hc List.not_mem_nil
  | append_singleton s d _ =>
    have hd := hdigits d (List.mem_append_right s List.mem_cons_self)
    rw [valueIn_concat] at h hunits
    intro c hc
    rcases List.mem_append.mp hc with hc | hc
    · have hle := digitOf_le_valueIn 10 (by decide) s c hc
      omega
    · rw [List.mem_singleton.mp hc]
      omega

/-- The units digit of a value is a digit of it. -/
theorem exists_units {s : Text} (hne : s ≠ []) (hdigits : DigitsBelow 10 s) :
    ∃ c ∈ s, digitOf c = valueIn 10 s % 10 := by
  induction s using List.reverseRecOn with
  | nil => exact absurd rfl hne
  | append_singleton s d _ =>
    have hd := hdigits d (List.mem_append_right s List.mem_cons_self)
    refine ⟨d, List.mem_append_right s List.mem_cons_self, ?_⟩
    rw [valueIn_concat]
    omega

/-- A word is from 1 to some small bound as a signed number exactly when it is as an unsigned
one. -/
theorem toInt_range_iff {v : BitVec 64} {k : Nat} (hk : k < 2 ^ 63) :
    1 ≤ v.toInt ∧ v.toInt ≤ k ↔ 1 ≤ v.toNat ∧ v.toNat ≤ k := by
  have hlt := v.isLt
  rw [BitVec.toInt_eq_toNat_cond]
  split <;> omega

end GdalFull.Lib
