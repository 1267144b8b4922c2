import Mathlib.Algebra.Order.Field.Power
import Mathlib.Algebra.Order.Ring.Rat
import Mathlib.Tactic.FieldSimp
import Mathlib.Tactic.Linarith
import Mathlib.Tactic.Ring
import FilterSql.Decimal.Basic

/-!
# Values of decimals

`Decimal.value` is the number that a decimal stands for.  Reducing keeps it and leaves out as many digits
as there are zeros at the end (`Decimal.value_reduced`, `Decimal.length_digits_reduced_le`).  With all
places written out, a text shows that number (`Decimal.isSpelledBy_positional`).
-/

namespace FilterSql

/-- The number that the decimal stands for. -/
def Decimal.value (d : Decimal) : ℚ := d.significand * 10 ^ d.exponent

/-! ### Powers of ten -/

theorem ten_zpow_pos (e : ℤ) : (0 : ℚ) < 10 ^ e := zpow_pos (by norm_num) e

/-- A power of ten as a fraction of whole numbers. -/
theorem ten_zpow_eq_div (e : ℤ) :
    (10 : ℚ) ^ e = ((10 ^ e.toNat : ℕ) : ℚ) / ((10 ^ (-e).toNat : ℕ) : ℚ) := by
  obtain ⟨n, rfl | rfl⟩ := e.eq_nat_or_neg
  · simp
  · simp

theorem ten_zpow_add_natCast (e : ℤ) (n : ℕ) : (10 : ℚ) ^ (e + n) = 10 ^ n * 10 ^ e := by
  rw [zpow_add₀ (by norm_num), zpow_natCast, mul_comm]

/-! ### Reducing -/

namespace Decimal

/-- What is in front of the last zeros of a number does not end with a zero. -/
theorem exists_mul_pow_eq {n : ℕ} (hn : 0 < n) :
    ∃ m, n = m * 10 ^ ((Nat.toDigits 10 n).reverse.takeWhile (· = '0')).length ∧ ¬ 10 ∣ m := by
  induction n using Nat.strongRecOn with
  | ind n ih =>
    rcases Nat.lt_or_ge n 10 with hlt | hge
    · refine ⟨n, ?_, Nat.not_dvd_of_pos_of_lt hn hlt⟩
      simp [Nat.toDigits_of_lt_base hlt, hn.ne']
    rw [Nat.toDigits_of_base_le (by decide) hge, List.reverse_append, List.reverse_singleton,
      List.singleton_append, List.takeWhile_cons]
    by_cases hzero : n % 10 = 0
    · obtain ⟨m, hm, hlast⟩ := ih (n / 10) (by omega) (by omega)
      refine ⟨m, ?_, hlast⟩
      rw [if_pos (by simp [hzero]), List.length_cons, Nat.pow_succ, ← Nat.mul_assoc, ← hm]
      omega
    · refine ⟨n, ?_, by omega⟩
      rw [if_neg (by simpa using hzero), List.length_nil, Nat.pow_zero, Nat.mul_one]

variable {d : Decimal}

theorem exists_reduced_eq (h : d.significand ≠ 0) :
    ∃ m zeros : ℕ, d.significand = m * 10 ^ zeros ∧ ¬ 10 ∣ m ∧ d.reduced = ⟨m, d.exponent + zeros⟩ := by
  obtain ⟨m, hm, hlast⟩ := exists_mul_pow_eq (Nat.pos_of_ne_zero h)
  refine ⟨m, _, hm, hlast, ?_⟩
  have hdiv : d.significand / Nat.pow 10 (d.digits.reverse.takeWhile (· = '0')).length = m :=
    Nat.div_eq_of_eq_mul_left (Nat.pow_pos (by decide)) hm
  rw [reduced, if_neg h, hdiv]
  rfl

theorem value_reduced (d : Decimal) : d.reduced.value = d.value := by
  by_cases h : d.significand = 0
  · simp [reduced, value, h]
  · obtain ⟨m, zeros, hm, -, hreduced⟩ := exists_reduced_eq h
    rw [hreduced, value, value, hm, ten_zpow_add_natCast]
    push_cast
    ring

/-- A number of at most `k` digits, or `10 ^ k`, has at most `k` digits when it is reduced. -/
theorem length_digits_reduced_le {k : ℕ} (hk : 0 < k) (hd : d.significand ≤ 10 ^ k) :
    d.reduced.digits.length ≤ k := by
  rw [digits, Nat.length_toDigits_le_iff (by decide) hk]
  by_cases h : d.significand = 0
  · simp [reduced, h]
  · obtain ⟨m, zeros, hm, hlast, hreduced⟩ := exists_reduced_eq h
    rw [hreduced]
    show m < 10 ^ k
    have hle : m ≤ m * 10 ^ zeros := Nat.le_mul_of_pos_right m (Nat.pow_pos (by decide))
    -- Nothing is left out of `10 ^ k` only if it does not end with a zero.
    refine Nat.lt_of_le_of_ne (hle.trans (hm ▸ hd)) fun hpow => hlast ?_
    rw [hpow]
    exact dvd_pow_self 10 hk.ne'

/-! ### Texts -/

/-- The text has digits only, but a point in front of those of the fraction, if there are any.  Read as
one whole number they are the decimal times a power of ten for each digit behind the point. -/
def IsSpelledBy (d : Decimal) (cs : List Char) : Prop :=
  ∃ whole fraction, cs = whole ++ (if fraction = [] then [] else '.' :: fraction) ∧
    whole ≠ [] ∧ (∀ c ∈ whole ++ fraction, c.isDigit = true) ∧
    (Nat.ofDigitChars 10 (whole ++ fraction) 0 : ℚ) = d.value * 10 ^ fraction.length

theorem ofDigitChars_digits (d : Decimal) : Nat.ofDigitChars 10 d.digits 0 = d.significand :=
  Nat.ofDigitChars_ten_toDigits

/-- All digits in one, with the zeros that stand in for places. -/
theorem ofDigitChars_parts (d : Decimal) :
    (Nat.ofDigitChars 10 (d.wholePart ++ d.fractionPart) 0 : ℚ)
      = d.value * 10 ^ d.fractionPart.length := by
  have hplaces : d.places = d.digits.length + d.exponent := rfl
  rw [wholePart, fractionPart, value]
  by_cases he : 0 ≤ d.exponent
  · -- Zeros up to the point.
    obtain ⟨n, hn⟩ := Int.eq_ofNat_of_zero_le he
    rw [if_pos he, if_pos he, List.append_nil, Nat.ofDigitChars_append, ofDigitChars_digits, zeros,
      Nat.ofDigitChars_replicate_zero, hn, zpow_natCast, Int.toNat_natCast]
    push_cast
    rw [List.length_nil, pow_zero, mul_one, mul_comm]
  obtain ⟨n, hn⟩ : ∃ n : ℕ, d.exponent = -n := ⟨(-d.exponent).toNat, by omega⟩
  have hcancel : (10 : ℚ) ^ d.exponent * 10 ^ n = 1 := by
    rw [hn, zpow_neg, zpow_natCast]
    exact inv_mul_cancel₀ (by positivity)
  rw [if_neg he, if_neg he]
  by_cases hp : 0 < d.places
  · -- The point stands between two digits.
    have hlength : (d.digits.drop d.places.toNat).length = n := by
      rw [List.length_drop]
      omega
    rw [if_pos hp, show (-d.places).toNat = 0 by omega, zeros, List.replicate_zero, List.nil_append,
      List.take_append_drop, ofDigitChars_digits, hlength, mul_assoc, hcancel, mul_one]
  · -- Zeros behind the point.
    have hlength : (zeros (-d.places).toNat ++ d.digits.drop d.places.toNat).length = n := by
      rw [List.length_append, zeros, List.length_replicate, List.length_drop]
      omega
    rw [if_neg hp, hlength, mul_assoc, hcancel, mul_one, show d.places.toNat = 0 by omega,
      List.drop_zero, zeros, Nat.ofDigitChars_append, Nat.ofDigitChars_append]
    simp [Nat.ofDigitChars_cons, Nat.ofDigitChars_replicate_zero, ofDigitChars_digits]

theorem isSpelledBy_positional (d : Decimal) : d.IsSpelledBy d.positional.toList := by
  refine ⟨d.wholePart, d.fractionPart, by rw [positional, String.toList_ofList],
    d.wholePart_ne_nil, fun c hc => ?_, d.ofDigitChars_parts⟩
  rcases List.mem_append.1 hc with hc | hc
  · exact isDigit_of_mem_wholePart hc
  · exact isDigit_of_mem_fractionPart hc

end Decimal

end FilterSql
