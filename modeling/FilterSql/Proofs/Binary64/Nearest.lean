import Mathlib.Tactic.Linarith
import Mathlib.Tactic.Ring
import FilterSql.Decimal.Shortest

/-!
# What rounds to a datum

`Binary64.interval` holds just the fractions that `Binary64.nearest` takes to the absolute value of a
finite datum (`Binary64.nearest_eq_iff`).  In units of `2^-1074` a fraction is rounded to a whole
number of steps of `2^t`.  These are the steps of the datum, or half of them: the fraction can lie below
the datum in the next smaller binade.
-/

namespace FilterSql

/-! ### Whole numbers -/

/-- A whole number is taken for what is at most a half away from it, an odd one for less. -/
theorem halfEven_eq_iff {num den m : Nat} (hden : 0 < den) :
    halfEven num den = m ↔ 2 * (m * den) ≤ 2 * num + den ∧ 2 * num ≤ 2 * (m * den) + den ∧
      (m % 2 = 1 → 2 * (m * den) < 2 * num + den ∧ 2 * num < 2 * (m * den) + den) := by
  have hnum : den * (num / den) + num % den = num := Nat.div_add_mod num den
  have hrest : num % den < den := Nat.mod_lt num hden
  rw [halfEven]
  generalize num / den = q at *
  generalize num % den = r at *
  have hsucc : (q + 1) * den = q * den + den := Nat.succ_mul q den
  rw [Nat.mul_comm] at hnum
  constructor
  · rintro rfl
    split
    · omega
    split
    · rcases Nat.mod_two_eq_zero_or_one q with hq | hq
      · rw [hq, Nat.add_zero]
        omega
      · rw [hq]
        omega
    · omega
  · rintro ⟨hle, hge, hodd⟩
    have hlow : q ≤ m := by
      by_contra hlt
      have := Nat.mul_le_mul_right den (Nat.lt_of_not_le hlt)
      have := Nat.succ_mul m den
      omega
    have hhigh : m ≤ q + 1 := by
      by_contra hlt
      have := Nat.mul_le_mul_right den (Nat.lt_of_not_le hlt)
      have := Nat.succ_mul (q + 1) den
      omega
    obtain rfl | rfl : m = q ∨ m = q + 1 := by omega
    · split
      · rfl
      split <;> omega
    · split
      · omega
      split <;> omega

/-- The number of bits behind the first 53 is the number of halvings that leave 53 bits. -/
theorem log2_sub_eq_iff {n t : Nat} : n.log2 - 52 = t ↔
    n < 0x20000000000000 * 2 ^ t ∧ (t = 0 ∨ 0x10000000000000 * 2 ^ t ≤ n) := by
  have hlt : n < 0x20000000000000 * 2 ^ t ↔ n.log2 < 53 + t := by
    rcases Nat.eq_zero_or_pos n with rfl | hn
    · simp [Nat.log2_zero]
    · rw [Nat.log2_lt hn.ne', Nat.pow_add]
  have hle : 0 < t → (0x10000000000000 * 2 ^ t ≤ n ↔ 52 + t ≤ n.log2) := by
    intro ht
    rcases Nat.eq_zero_or_pos n with rfl | hn
    · simp [Nat.log2_zero]
    · rw [Nat.le_log2 hn.ne', Nat.pow_add]
  rw [hlt]
  rcases Nat.eq_zero_or_pos t with rfl | ht
  · omega
  · rw [hle ht]
    omega

namespace Binary64

variable {x : Binary64} {num den : Nat}

/-- One, in units of `2^-1074`. -/
@[irreducible]
def one : Nat := Nat.pow 2 1074

theorem one_pos : 0 < one := by
  unfold one
  generalize 1074 = n
  exact Nat.two_pow_pos n

/-! ### Fields -/

theorem fraction_lt (x : Binary64) : x.fraction < 0x10000000000000 :=
  Nat.mod_lt _ (by decide)

theorem magnitude_eq (x : Binary64) :
    x.magnitude = x.exponentField * 0x10000000000000 + x.fraction := by
  rw [exponentField, fraction, Nat.mul_comm]
  exact (Nat.div_add_mod _ _).symm

theorem significand_lt (x : Binary64) : x.significand < 0x20000000000000 := by
  have := x.fraction_lt
  rw [significand]
  split <;> omega

theorem spacing_pos (x : Binary64) : 0 < x.spacing := Nat.two_pow_pos _

/-- The steps of the next smaller binade are half as long. -/
theorem spacing_eq_two_mul (h : 1 < x.exponentField) :
    x.spacing = 2 * 2 ^ (x.exponentField - 2) := by
  rw [spacing, show x.exponentField - 1 = x.exponentField - 2 + 1 by omega]
  exact Nat.pow_succ'

theorem units_mul (x : Binary64) (n : Nat) :
    x.units * n = x.significand * (n * x.spacing) := by
  rw [units]
  ring

/-- The word of a datum is its significand behind the steps that its exponent field counts. -/
theorem magnitude_eq_significand (x : Binary64) :
    x.magnitude = (x.exponentField - 1) * 0x10000000000000 + x.significand := by
  rw [magnitude_eq, significand]
  split <;> omega

/-! ### The interval -/

theorem lowGap_eq (x : Binary64) : x.lowGap = x.spacing ∧ x.significand = 0x10000000000000 ∨
    x.lowGap = 2 * x.spacing := by
  rw [lowGap]
  split
  · next h => exact .inl ⟨rfl, by rw [significand, if_neg (by omega), h.1]⟩
  · exact .inr rfl

theorem lowGap_pos (x : Binary64) : 0 < x.lowGap := by
  have := x.spacing_pos
  rcases x.lowGap_eq with ⟨h, -⟩ | h <;> omega

/-- The gap below does not reach past zero. -/
theorem lowGap_le (hx : x.significand ≠ 0) : x.lowGap ≤ 2 * x.units := by
  have hunits : x.spacing ≤ x.units := Nat.le_mul_of_pos_left _ (Nat.pos_of_ne_zero hx)
  rcases x.lowGap_eq with ⟨h, -⟩ | h <;> omega

/-- The interval reaches from half way to the neighbour below to half way to the one above. -/
theorem holds_interval_iff :
    x.interval.holds (4 * num) den = true ↔
      4 * (x.units * den) ≤ 4 * num + x.lowGap * den ∧
      4 * num ≤ 4 * (x.units * den) + 2 * (x.spacing * den) ∧
      (x.significand % 2 = 1 → 4 * (x.units * den) < 4 * num + x.lowGap * den ∧
        4 * num < 4 * (x.units * den) + 2 * (x.spacing * den)) := by
  have hlow : (4 * x.units - x.lowGap) * den = 4 * (x.units * den) - x.lowGap * den := by
    rw [Nat.sub_mul, Nat.mul_assoc]
  have hhigh : (4 * x.units + 2 * x.spacing) * den
      = 4 * (x.units * den) + 2 * (x.spacing * den) := by
    ring
  have hgap : x.significand % 2 = 1 → x.lowGap * den ≤ 2 * (x.units * den) := fun hodd => by
    have hle := Nat.mul_le_mul_right den (lowGap_le (x := x) (by omega))
    rwa [Nat.mul_assoc] at hle
  rw [Interval.holds, interval, hlow, hhigh]
  rcases Nat.mod_two_eq_zero_or_one x.significand with h | h
  · simp only [h, decide_true, if_true, Bool.and_eq_true, decide_eq_true_eq]
    omega
  · have := hgap h
    simp only [h, Nat.one_ne_zero, decide_false, Bool.false_eq_true, if_false, Bool.and_eq_true,
      decide_eq_true_eq, forall_const]
    omega

/-! ### Rounding -/

/-- In the steps of the datum. -/
theorem holds_interval_iff_halfEven (hden : 0 < den)
    (hnum : x.exponentField ≤ 1 ∨ 0x10000000000000 * (den * x.spacing) ≤ num) :
    x.interval.holds (4 * num) den = true ↔ halfEven num (den * x.spacing) = x.significand := by
  have hpos : 0 < den * x.spacing := Nat.mul_pos hden x.spacing_pos
  rw [holds_interval_iff, halfEven_eq_iff hpos, units_mul, Nat.mul_comm x.spacing]
  by_cases hgap : x.fraction = 0 ∧ 1 < x.exponentField
  · -- The gap below is a half step only, but the fraction is no less than the datum.
    have hsignificand : x.significand = 0x10000000000000 := by
      rw [significand, if_neg (by omega), hgap.1]
    rw [lowGap, if_pos hgap, hsignificand, Nat.mul_comm x.spacing]
    omega
  · have hlow : x.lowGap * den = 2 * (den * x.spacing) := by
      rw [lowGap, if_neg hgap, Nat.mul_assoc, Nat.mul_comm x.spacing]
    rw [hlow]
    omega

/-- In half steps of a datum that has a smaller binade below. -/
theorem holds_interval_iff_halfEven_of_lt {step : Nat} (hden : 0 < den) (hstep : 0 < step)
    (hspacing : x.spacing = 2 * step) (hgap : x.fraction = 0 ∧ 1 < x.exponentField)
    (hnum : num < 0x10000000000000 * (den * x.spacing)) :
    x.interval.holds (4 * num) den = true ↔ halfEven num (den * step) = 0x20000000000000 := by
  have hpos : 0 < den * step := Nat.mul_pos hden hstep
  have hsignificand : x.significand = 0x10000000000000 := by
    rw [significand, if_neg (by omega), hgap.1]
  have hunits : x.units * den = 0x10000000000000 * (2 * (den * step)) := by
    rw [units, hsignificand, hspacing]
    ring
  have hspan : x.spacing * den = 2 * (den * step) := by rw [hspacing]; ring
  rw [Nat.mul_comm den, hspan] at hnum
  rw [holds_interval_iff, halfEven_eq_iff hpos, hunits, lowGap, if_pos hgap, hspan, hsignificand]
  omega

/-- The halvings that leave 53 bits of a fraction. -/
theorem log2_div_sub_eq_iff {t : Nat} (hden : 0 < den) : (num / den).log2 - 52 = t ↔
    num < 0x20000000000000 * (den * 2 ^ t) ∧ (t = 0 ∨ 0x10000000000000 * (den * 2 ^ t) ≤ num) := by
  rw [log2_sub_eq_iff, Nat.div_lt_iff_lt_mul hden, Nat.le_div_iff_mul_le hden, Nat.mul_assoc,
    Nat.mul_assoc, Nat.mul_comm (2 ^ t)]

/-- With 53 bits left, a fraction is rounded to no more than the next power of two. -/
theorem halfEven_bounds {t : Nat} (hden : 0 < den) (ht : (num / den).log2 - 52 = t) :
    halfEven num (den * 2 ^ t) ≤ 0x20000000000000 ∧
      (t = 0 ∨ 0x10000000000000 ≤ halfEven num (den * 2 ^ t)) := by
  have hpos : 0 < den * 2 ^ t := Nat.mul_pos hden (Nat.two_pow_pos t)
  obtain ⟨hlt, hge⟩ := (log2_div_sub_eq_iff hden).1 ht
  obtain ⟨hlow, hhigh, -⟩ :=
    (halfEven_eq_iff hpos).1 (rfl : halfEven num (den * 2 ^ t) = _)
  generalize halfEven num (den * 2 ^ t) = m at *
  generalize den * 2 ^ t = p at *
  constructor
  · by_contra hm
    have := Nat.mul_le_mul_right p (Nat.lt_of_not_le hm)
    omega
  · refine hge.imp_right fun hge => ?_
    by_contra hm
    have := Nat.mul_le_mul_right p (Nat.lt_of_not_le hm)
    have := Nat.succ_mul m p
    omega

/-- The steps in which a fraction is rounded to the word of a datum: those of the datum, or half of
them and up to the power of two that begins its binade. -/
theorem steps_cases {t m : Nat} (hle : m ≤ 0x20000000000000) (hge : t = 0 ∨ 0x10000000000000 ≤ m)
    (h : t * 0x10000000000000 + m = x.magnitude) :
    x.exponentField - 1 = t ∧ m = x.significand ∨
      x.exponentField = t + 2 ∧ x.fraction = 0 ∧ m = 0x20000000000000 := by
  have hfraction := x.fraction_lt
  rw [magnitude_eq] at h
  rw [significand]
  split <;> omega

/-- A fraction that is no less than the power of two below the datum, in the steps of the datum. -/
theorem log2_of_holds (hden : 0 < den) (h : x.interval.holds (4 * num) den = true)
    (hnum : x.exponentField ≤ 1 ∨ 0x10000000000000 * (den * x.spacing) ≤ num) :
    (num / den).log2 - 52 = x.exponentField - 1 := by
  refine (log2_div_sub_eq_iff hden).2 ⟨?_, hnum.imp_left fun _ => by omega⟩
  show num < 0x20000000000000 * (den * x.spacing)
  obtain ⟨-, hhigh, -⟩ := holds_interval_iff.1 h
  rw [units_mul, Nat.mul_comm x.spacing] at hhigh
  have hpos := Nat.mul_pos hden x.spacing_pos
  have hbound := Nat.mul_le_mul_right (den * x.spacing) (Nat.succ_le_of_lt x.significand_lt)
  have hsucc := Nat.succ_mul x.significand (den * x.spacing)
  omega

/-- A fraction below the datum and below its binade. -/
theorem log2_of_holds_of_lt (hden : 0 < den) (h : x.interval.holds (4 * num) den = true)
    (hexponent : 1 < x.exponentField) (hnum : num < 0x10000000000000 * (den * x.spacing)) :
    x.fraction = 0 ∧ (num / den).log2 - 52 = x.exponentField - 2 := by
  have hsignificand : x.significand = 0x10000000000000 + x.fraction := if_neg (by omega)
  obtain ⟨hlow, -, -⟩ := holds_interval_iff.1 h
  rw [units_mul] at hlow
  have hfirst : x.fraction = 0 := by
    by_contra hne
    have hbound := Nat.mul_le_mul_right (den * x.spacing)
      (show 0x10000000000001 ≤ x.significand by omega)
    rw [lowGap, if_neg (by omega), Nat.mul_assoc, Nat.mul_comm x.spacing] at hlow
    omega
  refine ⟨hfirst, (log2_div_sub_eq_iff hden).2 ?_⟩
  rw [lowGap, if_pos ⟨hfirst, hexponent⟩, hsignificand, hfirst, Nat.mul_comm x.spacing,
    spacing_eq_two_mul hexponent, Nat.mul_left_comm den] at hlow
  rw [spacing_eq_two_mul hexponent, Nat.mul_left_comm den] at hnum
  exact ⟨by omega, .inr (by omega)⟩

/-- The word that a fraction in units rounds to, before it is capped. -/
theorem steps_eq_magnitude_iff (hden : 0 < den) :
    ((num / den).log2 - 52) * 0x10000000000000
        + halfEven num (den * 2 ^ ((num / den).log2 - 52)) = x.magnitude ↔
      x.interval.holds (4 * num) den = true := by
  constructor
  · obtain ⟨t, ht⟩ : ∃ t, (num / den).log2 - 52 = t := ⟨_, rfl⟩
    obtain ⟨hle, hge⟩ := halfEven_bounds hden ht
    obtain ⟨hlt, hnum⟩ := (log2_div_sub_eq_iff hden).1 ht
    rw [ht]
    intro h
    rcases steps_cases hle hge h with ⟨rfl, hround⟩ | ⟨hexponent, hfirst, hround⟩
    · exact (holds_interval_iff_halfEven hden (hnum.imp_left fun _ => by omega)).2 hround
    · have hspacing : x.spacing = 2 * 2 ^ t := by
        rw [spacing_eq_two_mul (by omega), hexponent, Nat.add_sub_cancel]
      refine (holds_interval_iff_halfEven_of_lt hden (Nat.two_pow_pos t) hspacing
        ⟨hfirst, by omega⟩ ?_).2 hround
      rw [hspacing, Nat.mul_left_comm den]
      omega
  · intro h
    by_cases hnum : x.exponentField ≤ 1 ∨ 0x10000000000000 * (den * x.spacing) ≤ num
    · rw [log2_of_holds hden h hnum, x.magnitude_eq_significand]
      exact congrArg _ ((holds_interval_iff_halfEven hden hnum).1 h)
    · rw [not_or, Nat.not_le, Nat.not_le] at hnum
      obtain ⟨hexponent, hnum⟩ := hnum
      obtain ⟨hfirst, ht⟩ := log2_of_holds_of_lt hden h hexponent hnum
      rw [ht, x.magnitude_eq, hfirst, (holds_interval_iff_halfEven_of_lt hden (Nat.two_pow_pos _)
        (spacing_eq_two_mul hexponent) ⟨hfirst, hexponent⟩ hnum).1 h]
      omega

theorem nearestMagnitude_eq (num den : Nat) :
    nearestMagnitude num den = min (((num * one / den).log2 - 52) * 0x10000000000000
      + halfEven (num * one) (den * 2 ^ ((num * one / den).log2 - 52))) infinity := by
  unfold nearestMagnitude one
  generalize Nat.pow 2 1074 = one
  rfl

/-- A fraction is nearest to the absolute value of a finite datum just if it lies in the interval of
that datum. -/
theorem nearest_eq_iff (hx : x.isFinite = true) (hden : 0 < den) :
    nearest num den = x.withSign false ↔ x.interval.holds (4 * (num * one)) den = true := by
  have hfinite : x.magnitude < infinity := by
    have := x.fraction_lt
    rw [isFinite, decide_eq_true_eq] at hx
    rw [magnitude_eq, infinity]
    omega
  have hcap : ∀ word, min word infinity = x.magnitude ↔ word = x.magnitude := fun word => by omega
  have hmagnitude : nearest num den = x.withSign false ↔
      nearestMagnitude num den = x.magnitude := by
    refine ⟨fun h => ?_, fun h => by rw [nearest, withSign, h]⟩
    rw [← magnitude_nearest, h, magnitude_withSign]
  rw [hmagnitude, nearestMagnitude_eq, ← steps_eq_magnitude_iff hden, hcap]

end Binary64

end FilterSql
