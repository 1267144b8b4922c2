import Mathlib.Data.Nat.Cast.Order.Field
import FilterSql.Proofs.Binary64.Nearest
import FilterSql.Proofs.Decimal.Value

/-!
# The shortest decimal reads back

The numbers that round to a datum are those that it covers (`Decimal.readsBack_iff_covers`).  On a grid
of equal steps they are an unbroken stretch around the datum, so that one of the two points beside it is
covered if any point is (`Binary64.onGrid_eq_none_iff`).  A grid of 17 digits is always fine enough
(`Binary64.onGrid_seventeen`), and a decimal with fewer digits is found on an earlier grid.  So
`Binary64.shortest` is what a shortest decimal has to be (`Binary64.isShortest_shortest`).
-/

namespace FilterSql

/-- The number lies between the ends of the interval, or is an end that belongs to it. -/
def Interval.Contains (i : Interval) (q : ℚ) : Prop :=
  i.low ≤ q ∧ q ≤ i.high ∧ (i.closed = false → i.low < q ∧ q < i.high)

/-- The decimal is nearest to the absolute value of the datum, among all data. -/
def Decimal.ReadsBack (d : Decimal) (x : Binary64) : Prop :=
  Binary64.nearest (d.significand * 10 ^ d.exponent.toNat) (10 ^ (-d.exponent).toNat)
    = x.withSign false

/-! ### Intervals -/

namespace Interval

variable {i : Interval} {p q r : ℚ}

theorem holds_iff_contains {num den : ℕ} (hden : 0 < den) :
    i.holds num den = true ↔ i.Contains (num / den) := by
  have hpos : (0 : ℚ) < den := by exact_mod_cast hden
  have hle : i.low * den ≤ num ↔ (i.low : ℚ) ≤ num / den := by
    rw [le_div_iff₀ hpos]
    exact_mod_cast Iff.rfl
  have hge : num ≤ i.high * den ↔ (num / den : ℚ) ≤ i.high := by
    rw [div_le_iff₀ hpos]
    exact_mod_cast Iff.rfl
  have hlt : i.low * den < num ↔ (i.low : ℚ) < num / den := by
    rw [lt_div_iff₀ hpos]
    exact_mod_cast Iff.rfl
  have hgt : num < i.high * den ↔ (num / den : ℚ) < i.high := by
    rw [div_lt_iff₀ hpos]
    exact_mod_cast Iff.rfl
  rw [holds, Contains]
  cases i.closed with
  | true => simp [hle, hge]
  | false =>
    simp only [Bool.false_eq_true, if_false, Bool.and_eq_true, decide_eq_true_eq, hlt, hgt,
      forall_const]
    exact ⟨fun h => ⟨h.1.le, h.2.le, h⟩, fun h => h.2.2⟩

/-- What lies between two numbers of the interval lies in it too. -/
theorem Contains.of_between (hp : i.Contains p) (hr : i.Contains r) (hpq : p ≤ q) (hqr : q ≤ r) :
    i.Contains q :=
  ⟨hp.1.trans hpq, hqr.trans hr.2.1, fun h => ⟨(hp.2.2 h).1.trans_le hpq, hqr.trans_lt (hr.2.2 h).2⟩⟩

end Interval

namespace Binary64

variable {x : Binary64} {p q r : ℚ}

/-- The absolute value of a finite datum. -/
def value (x : Binary64) : ℚ := x.units / one

/-- The number is in the interval of the datum. -/
def Covers (x : Binary64) (q : ℚ) : Prop := x.interval.Contains (4 * (one * q))

theorem Covers.of_between (hp : x.Covers p) (hr : x.Covers r) (hpq : p ≤ q) (hqr : q ≤ r) :
    x.Covers q := by
  have hone : (0 : ℚ) < one := by exact_mod_cast one_pos
  have hmono : ∀ {a b : ℚ}, a ≤ b → 4 * (one * a) ≤ 4 * (one * b) := fun h =>
    mul_le_mul_of_nonneg_left (mul_le_mul_of_nonneg_left h hone.le) (by norm_num)
  exact Interval.Contains.of_between hp hr (hmono hpq) (hmono hqr)

theorem one_mul_value (x : Binary64) : one * x.value = x.units := by
  have hone : (one : ℚ) ≠ 0 := by exact_mod_cast one_pos.ne'
  rw [value]
  field_simp

/-- A datum covers its own value. -/
theorem covers_value (x : Binary64) : x.Covers x.value := by
  have hspacing := x.spacing_pos
  have hgap := x.lowGap_pos
  have hcast : 4 * (one * x.value) = ((4 * x.units : ℕ) : ℚ) := by
    rw [one_mul_value]
    push_cast
    rfl
  rw [Covers, hcast, Interval.Contains]
  simp only [interval, Nat.cast_le, Nat.cast_lt, decide_eq_false_iff_not]
  refine ⟨by omega, by omega, fun hodd => ⟨?_, by omega⟩⟩
  have hle : x.lowGap ≤ 2 * x.units := lowGap_le fun h => hodd (by rw [h])
  omega

/-! ### Grids -/

variable {tie : Tie} {e : ℤ} {c : ℕ} {d : Decimal}

/-- The step of a grid, times a power of ten that makes it whole. -/
def step (e : ℤ) : ℕ := one * Nat.pow 10 e.toNat

/-- The greatest point of the grid that is not above the datum. -/
def below (x : Binary64) (e : ℤ) : ℕ := x.units * Nat.pow 10 (-e).toNat / step e

/-- What the datum is above that point. -/
def rest (x : Binary64) (e : ℤ) : ℕ := x.units * Nat.pow 10 (-e).toNat % step e

/-- Whether a point of the grid is accepted. -/
def reads (x : Binary64) (e : ℤ) (c : ℕ) : Bool :=
  x.interval.holds (4 * c * step e) (Nat.pow 10 (-e).toNat)

theorem step_pos (e : ℤ) : 0 < step e :=
  Nat.mul_pos one_pos (Nat.pow_pos (by decide))

theorem reads_iff : x.reads e c = true ↔ x.Covers (c * 10 ^ e) := by
  have hden : 0 < Nat.pow 10 (-e).toNat := Nat.pow_pos (by decide)
  have hcast : ((4 * c * step e : ℕ) : ℚ) / ((Nat.pow 10 (-e).toNat : ℕ) : ℚ)
      = 4 * (one * (c * 10 ^ e)) := by
    rw [ten_zpow_eq_div, step]
    push_cast
    simp only [Nat.pow_eq, Nat.cast_pow, Nat.cast_ofNat]
    ring
  rw [reads, Interval.holds_iff_contains hden, Covers, hcast]

/-- The datum lies between two points of the grid. -/
theorem value_eq (x : Binary64) (e : ℤ) :
    x.value = (x.below e + x.rest e / step e) * 10 ^ e := by
  have hone : (one : ℚ) ≠ 0 := by exact_mod_cast one_pos.ne'
  have hstep : (step e : ℚ) ≠ 0 := by exact_mod_cast (step_pos e).ne'
  have hdivmod : (step e * x.below e + x.rest e : ℚ) = x.units * (10 ^ (-e).toNat : ℕ) := by
    exact_mod_cast Nat.div_add_mod (x.units * 10 ^ (-e).toNat) (step e)
  have hsplit : (x.below e + x.rest e / step e : ℚ) = x.units * (10 ^ (-e).toNat : ℕ) / step e := by
    rw [← hdivmod]
    field_simp
  have hup : ((10 ^ e.toNat : ℕ) : ℚ) ≠ 0 := by positivity
  have hdown : ((10 ^ (-e).toNat : ℕ) : ℚ) ≠ 0 := by positivity
  have hcast : (step e : ℚ) = one * (10 ^ e.toNat : ℕ) := by
    rw [step, Nat.cast_mul, Nat.pow_eq]
  rw [hsplit, hcast, ten_zpow_eq_div, value]
  field_simp

theorem rest_bounds (x : Binary64) (e : ℤ) :
    0 ≤ (x.rest e / step e : ℚ) ∧ (x.rest e / step e : ℚ) < 1 := by
  have hstep : (0 : ℚ) < step e := by exact_mod_cast step_pos e
  refine ⟨by positivity, (div_lt_one hstep).2 ?_⟩
  exact_mod_cast Nat.mod_lt _ (step_pos e)

theorem below_le (x : Binary64) (e : ℤ) : x.below e * (10 : ℚ) ^ e ≤ x.value := by
  rw [value_eq x e]
  exact mul_le_mul_of_nonneg_right (le_add_of_nonneg_right (rest_bounds x e).1) (ten_zpow_pos e).le

theorem lt_above (x : Binary64) (e : ℤ) : x.value < (x.below e + 1) * (10 : ℚ) ^ e := by
  rw [value_eq x e]
  exact mul_lt_mul_of_pos_right (add_lt_add_right (rest_bounds x e).2 _) (ten_zpow_pos e)

/-- What the datum is above the point below it and below the point above it, in steps. -/
theorem distances (x : Binary64) (e : ℤ) :
    x.value - x.below e * (10 : ℚ) ^ e = x.rest e / step e * 10 ^ e ∧
      (x.below e + 1) * (10 : ℚ) ^ e - x.value = (1 - x.rest e / step e) * 10 ^ e := by
  rw [value_eq x e]
  constructor <;> ring

/-- The point above is no farther than the point below. -/
theorem above_sub_le_iff : (x.below e + 1) * (10 : ℚ) ^ e - x.value
    ≤ x.value - x.below e * (10 : ℚ) ^ e ↔ step e ≤ 2 * x.rest e := by
  have hstep : (0 : ℚ) < step e := by exact_mod_cast step_pos e
  obtain ⟨hdown, hup⟩ := distances x e
  rw [hdown, hup, mul_le_mul_iff_left₀ (ten_zpow_pos e), sub_le_iff_le_add, ← two_mul,
    ← mul_div_assoc, le_div_iff₀ hstep, one_mul]
  exact_mod_cast Iff.rfl

/-- The point below is no farther than the point above. -/
theorem sub_below_le_iff : x.value - x.below e * (10 : ℚ) ^ e
    ≤ (x.below e + 1) * (10 : ℚ) ^ e - x.value ↔ 2 * x.rest e ≤ step e := by
  have hstep : (0 : ℚ) < step e := by exact_mod_cast step_pos e
  obtain ⟨hdown, hup⟩ := distances x e
  rw [hdown, hup, mul_le_mul_iff_left₀ (ten_zpow_pos e), le_sub_iff_add_le, ← two_mul,
    ← mul_div_assoc, div_le_one hstep]
  exact_mod_cast Iff.rfl

/-- Of the two points around the datum, the nearer one that is accepted. -/
theorem onGrid_eq (tie : Tie) (x : Binary64) (e : ℤ) :
    ∃ aboveNearer : Bool,
      (aboveNearer = true → (x.below e + 1) * (10 : ℚ) ^ e - x.value
        ≤ x.value - x.below e * (10 : ℚ) ^ e) ∧
      (aboveNearer = false → x.value - x.below e * (10 : ℚ) ^ e
        ≤ (x.below e + 1) * (10 : ℚ) ^ e - x.value) ∧
      (tie = .upward → aboveNearer = false → x.value - x.below e * (10 : ℚ) ^ e
        < (x.below e + 1) * (10 : ℚ) ^ e - x.value) ∧
      onGrid tie x e =
        if x.reads e (x.below e) && !(x.reads e (x.below e + 1) && aboveNearer) then
          some ⟨x.below e, e⟩
        else if x.reads e (x.below e + 1) then some ⟨x.below e + 1, e⟩
        else none := by
  refine ⟨decide (step e < 2 * x.rest e) || (decide (step e = 2 * x.rest e) &&
    (decide (tie = .upward) || decide (x.below e % 2 = 1))), fun h => ?_, fun h => ?_,
    fun htie h => ?_, ?_⟩
  · simp only [Bool.or_eq_true, Bool.and_eq_true, decide_eq_true_eq] at h
    exact above_sub_le_iff.2 (by omega)
  · simp only [Bool.or_eq_false_iff, decide_eq_false_iff_not] at h
    exact sub_below_le_iff.2 (by omega)
  · simp only [htie, Bool.or_eq_false_iff, Bool.and_eq_false_iff, decide_eq_false_iff_not,
      not_true, false_and, or_false] at h
    rw [← not_le, above_sub_le_iff]
    omega
  · unfold onGrid reads below rest step one
    generalize Nat.pow 2 1074 = one
    rfl

/-- If any point of the grid is accepted, one of the two around the datum is. -/
theorem reads_below_or_above (h : x.Covers (c * 10 ^ e)) :
    (c ≤ x.below e → x.reads e (x.below e) = true) ∧
      (x.below e < c → x.reads e (x.below e + 1) = true) := by
  have hten := (ten_zpow_pos e).le
  constructor
  · intro hc
    have hle : (c : ℚ) * 10 ^ e ≤ x.below e * 10 ^ e :=
      mul_le_mul_of_nonneg_right (by exact_mod_cast hc) hten
    exact reads_iff.2 (h.of_between x.covers_value hle (below_le x e))
  · intro hc
    have hle : ((x.below e + 1 : ℕ) : ℚ) * 10 ^ e ≤ c * 10 ^ e :=
      mul_le_mul_of_nonneg_right (by exact_mod_cast hc) hten
    refine reads_iff.2 (x.covers_value.of_between h ?_ hle)
    rw [Nat.cast_succ]
    exact (lt_above x e).le

/-- A grid gives nothing just if it has no point in the interval. -/
theorem onGrid_eq_none_iff : onGrid tie x e = none ↔ ∀ c : ℕ, ¬ x.Covers (c * 10 ^ e) := by
  obtain ⟨nearer, -, -, -, hgrid⟩ := onGrid_eq tie x e
  rw [hgrid]
  constructor
  · intro h c hc
    obtain ⟨hbelow, habove⟩ := reads_below_or_above hc
    rcases Nat.lt_or_ge (x.below e) c with hlt | hge
    · simp [habove hlt] at h
      split at h <;> simp at h
    · cases hr : x.reads e (x.below e + 1) <;> simp [hbelow hge, hr] at h
      split at h <;> simp at h
  · intro h
    have hreads : ∀ c, x.reads e c = false := fun c =>
      Bool.eq_false_iff.2 fun hc => h c (reads_iff.1 hc)
    simp [hreads]

/-- What a grid gives lies on it and in the interval.  No other such point is nearer to the datum, and
when ties go upward, none that is as near is greater. -/
theorem onGrid_eq_some (h : onGrid tie x e = some d) :
    d.exponent = e ∧ d.significand ≤ x.below e + 1 ∧ x.Covers d.value ∧
      ∀ c : ℕ, x.Covers (c * 10 ^ e) → |d.value - x.value| ≤ |c * 10 ^ e - x.value| ∧
        (tie = .upward → |c * 10 ^ e - x.value| = |d.value - x.value| → c * 10 ^ e ≤ d.value) := by
  obtain ⟨nearer, hnear, hfar, hless, hgrid⟩ := onGrid_eq tie x e
  have hpoint : ∀ {a b : ℕ}, a ≤ b → (a : ℚ) * 10 ^ e ≤ b * 10 ^ e := fun hab =>
    mul_le_mul_of_nonneg_right (by exact_mod_cast hab) (ten_zpow_pos e).le
  have hbelow := below_le x e
  have habove := lt_above x e
  have hlow : ∀ c : ℕ, c ≤ x.below e → |c * 10 ^ e - x.value| = x.value - c * 10 ^ e := fun c hc =>
    by rw [abs_sub_comm, abs_of_nonneg (sub_nonneg.2 ((hpoint hc).trans hbelow))]
  have hhigh : ∀ c : ℕ, x.below e < c → (x.below e + 1) * (10 : ℚ) ^ e ≤ c * 10 ^ e ∧
      |c * 10 ^ e - x.value| = c * 10 ^ e - x.value := by
    intro c hc
    have hle : ((x.below e + 1 : ℕ) : ℚ) * 10 ^ e ≤ c * 10 ^ e := hpoint hc
    rw [Nat.cast_succ] at hle
    exact ⟨hle, abs_of_nonneg (sub_nonneg.2 (habove.le.trans hle))⟩
  rw [hgrid] at h
  split at h
  · next hchosen =>
    obtain rfl := Option.some.inj h
    simp only [Bool.and_eq_true, Bool.not_eq_true', Bool.and_eq_false_iff] at hchosen
    refine ⟨rfl, Nat.le_succ _, reads_iff.1 hchosen.1, fun c hc => ?_⟩
    rw [Decimal.value, hlow _ le_rfl]
    rcases Nat.lt_or_ge (x.below e) c with hlt | hge
    · have hnot : nearer = false :=
        hchosen.2.resolve_left (by simp [(reads_below_or_above hc).2 hlt])
      obtain ⟨hle, hdistance⟩ := hhigh c hlt
      rw [hdistance]
      refine ⟨by linarith [hfar hnot], fun htie heq => ?_⟩
      linarith [hless htie hnot]
    · rw [hlow c hge]
      exact ⟨by linarith [hpoint hge], fun _ _ => hpoint hge⟩
  split at h
  · next hnot hchosen =>
    obtain rfl := Option.some.inj h
    refine ⟨rfl, le_rfl, reads_iff.1 hchosen, fun c hc => ?_⟩
    rw [Decimal.value, (hhigh _ (Nat.lt_succ_self _)).2]
    rcases Nat.lt_or_ge (x.below e) c with hlt | hge
    · obtain ⟨hle, hdistance⟩ := hhigh c hlt
      rw [hdistance, Nat.cast_succ]
      exact ⟨by linarith, fun _ heq => by linarith⟩
    · have hnearer : nearer = true := by
        simpa [(reads_below_or_above hc).1 hge, hchosen] using hnot
      rw [hlow c hge, Nat.cast_succ]
      exact ⟨by linarith [hnear hnearer, hpoint hge], fun _ _ => by linarith [hpoint hge]⟩
  · exact absurd h (by simp)

/-! ### Seventeen digits -/

/-- What is less than a half step above and less than half the gap below. -/
theorem covers_of_lt (hx : x.units ≠ 0) (hlow : (4 * x.units : ℚ) < 4 * (one * q) + x.lowGap)
    (hhigh : 4 * (one * q) < (4 * x.units + 2 * x.spacing : ℚ)) : x.Covers q := by
  have hgap : x.lowGap ≤ 2 * x.units := lowGap_le fun h => hx (by rw [units, h, Nat.zero_mul])
  have hle : ((4 * x.units - x.lowGap : ℕ) : ℚ) < 4 * (one * q) := by
    rw [Nat.cast_sub (by omega)]
    push_cast
    linarith
  have hge : 4 * (one * q) < ((4 * x.units + 2 * x.spacing : ℕ) : ℚ) := by
    push_cast
    exact hhigh
  exact ⟨hle.le, hge.le, fun _ => ⟨hle, hge⟩⟩

theorem length_toDigits_bounds {n : ℕ} (hn : 0 < n) :
    ∃ more, (Nat.toDigits 10 n).length = more + 1 ∧ 10 ^ more ≤ n ∧ n < 10 ^ (more + 1) := by
  obtain ⟨more, hmore⟩ := Nat.exists_eq_succ_of_ne_zero
    (Nat.length_toDigits_pos (b := 10) (n := n)).ne'
  refine ⟨more, hmore, ?_, (Nat.length_toDigits_le_iff (by decide) more.succ_pos).1 hmore.le⟩
  rcases Nat.eq_zero_or_pos more with rfl | hpos
  · exact hn
  · rw [← Nat.not_lt, ← Nat.length_toDigits_le_iff (by decide) hpos]
    omega

/-- The leading digit of a datum. -/
theorem places_bounds (hx : x.units ≠ 0) :
    (10 : ℚ) ^ (x.places - 1) ≤ x.value ∧ x.value < 10 ^ x.places := by
  have hone : (0 : ℚ) < one := by exact_mod_cast one_pos
  have hplaces : x.places = if one ≤ x.units then ((Nat.toDigits 10 (x.units / one)).length : ℤ)
      else 1 - (Nat.toDigits 10 ((one - 1) / x.units)).length := by
    unfold places one
    generalize Nat.pow 2 1074 = one
    rfl
  rw [hplaces, value]
  split
  · next hle =>
    obtain ⟨more, hmore, hlow, hhigh⟩ := length_toDigits_bounds (Nat.div_pos hle one_pos)
    rw [Nat.le_div_iff_mul_le one_pos] at hlow
    rw [Nat.div_lt_iff_lt_mul one_pos] at hhigh
    rw [hmore, Nat.cast_succ, add_sub_cancel_right, le_div_iff₀ hone, div_lt_iff₀ hone]
    constructor
    · exact_mod_cast hlow
    · exact_mod_cast hhigh
  · next hlt =>
    have hpos := Nat.pos_of_ne_zero hx
    obtain ⟨more, hmore, hlow, hhigh⟩ := length_toDigits_bounds
      (Nat.div_pos (show x.units ≤ one - 1 by omega) hpos)
    rw [Nat.le_div_iff_mul_le hpos] at hlow
    rw [Nat.div_lt_iff_lt_mul hpos] at hhigh
    have hfirst : (1 - ((more + 1 : ℕ) : ℤ)) - 1 = -((more + 1 : ℕ) : ℤ) := by omega
    have hlast : 1 - ((more + 1 : ℕ) : ℤ) = -(more : ℤ) := by omega
    rw [hmore, hfirst, hlast, zpow_neg, zpow_neg, zpow_natCast, zpow_natCast, le_div_iff₀ hone,
      div_lt_iff₀ hone, inv_mul_le_iff₀ (by positivity), lt_inv_mul_iff₀ (by positivity)]
    have hlow' : 10 ^ more * x.units < one := by omega
    have hhigh' : one ≤ 10 ^ (more + 1) * x.units := by omega
    constructor
    · exact_mod_cast hhigh'
    · exact_mod_cast hlow'

/-- The step of a grid of 17 digits is less than the interval is wide. -/
theorem seventeen_digits_fine (hx : x.units ≠ 0) :
    4 * (one * (10 : ℚ) ^ (x.places - 17)) < 2 * x.spacing + x.lowGap := by
  have hone : (0 : ℚ) ≤ one := Nat.cast_nonneg one
  have hspacing : (0 : ℚ) < x.spacing := by exact_mod_cast x.spacing_pos
  have hten : (10 : ℚ) ^ (x.places - 1) = 10 ^ 16 * 10 ^ (x.places - 17) := by
    rw [show x.places - 1 = x.places - 17 + (16 : ℕ) by omega, ten_zpow_add_natCast]
  have hstep : 10 ^ 16 * (one * (10 : ℚ) ^ (x.places - 17)) ≤ x.significand * x.spacing := by
    have := mul_le_mul_of_nonneg_left (places_bounds hx).1 hone
    rw [one_mul_value, units, Nat.cast_mul, hten] at this
    linarith
  rcases x.lowGap_eq with ⟨hgap, hsignificand⟩ | hgap
  · rw [hsignificand] at hstep
    rw [hgap]
    push_cast at hstep
    linarith
  · have hlt : (x.significand : ℚ) * x.spacing < 10 ^ 16 * x.spacing := by
      refine mul_lt_mul_of_pos_right ?_ hspacing
      have := x.significand_lt
      exact_mod_cast (show x.significand < 10 ^ 16 by omega)
    rw [hgap]
    push_cast
    linarith

/-- A grid of 17 digits has a point in the interval. -/
theorem onGrid_seventeen (tie : Tie) (hx : x.units ≠ 0) : onGrid tie x (x.places - 17) ≠ none := by
  intro hnone
  have hcovers := onGrid_eq_none_iff.1 hnone
  have hone : (0 : ℚ) < one := by exact_mod_cast one_pos
  have hspacing : (0 : ℚ) < x.spacing := by exact_mod_cast x.spacing_pos
  have hgap : (0 : ℚ) ≤ x.lowGap := Nat.cast_nonneg _
  have hbelow := mul_le_mul_of_nonneg_left (below_le x (x.places - 17)) hone.le
  have habove := mul_lt_mul_of_pos_left (lt_above x (x.places - 17)) hone
  rw [one_mul_value] at hbelow habove
  -- The two points around the datum are a step apart, but both lie outside the interval.
  have hlow : 4 * (one * (x.below (x.places - 17) * (10 : ℚ) ^ (x.places - 17))) + x.lowGap
      ≤ 4 * x.units := by
    by_contra hlt
    exact hcovers (x.below (x.places - 17)) (covers_of_lt hx (not_le.1 hlt) (by linarith))
  have hhigh : 4 * x.units + 2 * x.spacing
      ≤ 4 * (one * ((x.below (x.places - 17) + 1 : ℕ) * (10 : ℚ) ^ (x.places - 17))) := by
    by_contra hlt
    refine hcovers (x.below (x.places - 17) + 1) (covers_of_lt hx ?_ (not_le.1 hlt))
    push_cast
    linarith
  have hfine := seventeen_digits_fine hx
  push_cast at hhigh
  linarith

/-- The first hit is on one of the grids, and those before it give nothing. -/
theorem firstOnGrid_eq_some {n more : ℕ} (h : firstOnGrid tie x n more = some d) :
    ∃ k : ℕ, n ≤ k ∧ k < n + more ∧ onGrid tie x (x.places - k) = some d ∧
      ∀ j : ℕ, n ≤ j → j < k → onGrid tie x (x.places - j) = none := by
  induction more generalizing n with
  | zero => exact absurd h (by simp [firstOnGrid])
  | succ more ih =>
    rw [firstOnGrid] at h
    cases hn : onGrid tie x (x.places - n) with
    | some d' =>
      rw [hn, Option.some_or] at h
      exact ⟨n, le_rfl, by omega, hn.trans h, fun j hj hlt => absurd hlt (by omega)⟩
    | none =>
      rw [hn, Option.none_or] at h
      obtain ⟨k, hk, hlast, hd, hbefore⟩ := ih h
      refine ⟨k, by omega, by omega, hd, fun j hj hlt => ?_⟩
      rcases Nat.eq_or_lt_of_le hj with rfl | hj
      · exact hn
      · exact hbefore j hj hlt

theorem firstOnGrid_ne_none {n more k : ℕ} (hn : n ≤ k) (hk : k < n + more)
    (h : onGrid tie x (x.places - k) ≠ none) : firstOnGrid tie x n more ≠ none := by
  induction more generalizing n with
  | zero => omega
  | succ more ih =>
    rw [firstOnGrid]
    rcases Nat.eq_or_lt_of_le hn with rfl | hn
    · simp [h]
    · simp [ih hn (by omega)]

/-! ### Fewest digits -/

theorem units_eq_zero_iff : x.units = 0 ↔ x.isZero = true := by
  have hspacing := x.spacing_pos
  rw [isZero, decide_eq_true_eq, magnitude_eq_significand, units, Nat.mul_eq_zero, significand]
  split <;> omega

/-- A decimal with `n` digits that is covered is on the grid of `n` digits, or a point of that grid
lies between it and the datum. -/
theorem exists_covers_grid {n : ℕ} (hx : x.units ≠ 0) (hn : 0 < n) (hd : d.significand < 10 ^ n)
    (h : x.Covers d.value) :
    ∃ c : ℕ, x.Covers (c * 10 ^ (x.places - n)) ∧ d.value ≤ c * 10 ^ (x.places - n) ∧
      |c * 10 ^ (x.places - n) - x.value| ≤ |d.value - x.value| := by
  rcases le_or_gt (x.places - n) d.exponent with hle | hlt
  · -- A coarser grid is part of a finer one.
    obtain ⟨k, hk⟩ := Int.eq_ofNat_of_zero_le (sub_nonneg.2 hle)
    have hvalue : ((d.significand * 10 ^ k : ℕ) : ℚ) * 10 ^ (x.places - n) = d.value := by
      rw [Decimal.value, show d.exponent = x.places - n + (k : ℕ) by omega, ten_zpow_add_natCast]
      push_cast
      ring
    exact ⟨d.significand * 10 ^ k, by rw [hvalue]; exact ⟨h, le_rfl, le_rfl⟩⟩
  · -- The decimal has fewer places than the datum, so a power of ten lies between the two.
    have hpower : ((10 ^ (n - 1) : ℕ) : ℚ) * 10 ^ (x.places - n) = 10 ^ (x.places - 1) := by
      rw [show x.places - 1 = x.places - n + (n - 1 : ℕ) by omega, ten_zpow_add_natCast]
      push_cast
      ring
    have hbelow : d.value ≤ 10 ^ (x.places - 1) := by
      have hlt : (d.significand : ℚ) ≤ 10 ^ n := by exact_mod_cast hd.le
      calc d.value ≤ 10 ^ n * 10 ^ d.exponent :=
            mul_le_mul_of_nonneg_right hlt (ten_zpow_pos _).le
        _ = 10 ^ (d.exponent + n) := (ten_zpow_add_natCast _ n).symm
        _ ≤ 10 ^ (x.places - 1) := zpow_le_zpow_right₀ (by norm_num) (by omega)
    have habove := (places_bounds hx).1
    refine ⟨10 ^ (n - 1), ?_⟩
    rw [hpower, abs_sub_comm, abs_sub_comm d.value, abs_of_nonneg (sub_nonneg.2 habove),
      abs_of_nonneg (sub_nonneg.2 (hbelow.trans habove))]
    exact ⟨h.of_between x.covers_value hbelow habove, hbelow, sub_le_sub_left hbelow _⟩

theorem below_lt {k : ℕ} (hx : x.units ≠ 0) : x.below (x.places - k) < 10 ^ k := by
  have hlt := (below_le x (x.places - k)).trans_lt (places_bounds hx).2
  have hpower : (10 : ℚ) ^ x.places = 10 ^ k * 10 ^ (x.places - k) := by
    rw [← ten_zpow_add_natCast, sub_add_cancel]
  rw [hpower] at hlt
  exact_mod_cast lt_of_mul_lt_mul_right hlt (ten_zpow_pos _).le

/-- The shortest decimal is the hit on the first grid that has one, reduced. -/
theorem exists_shortest_eq (tie : Tie) (hx : x.units ≠ 0) :
    ∃ (k : ℕ) (d : Decimal), 0 < k ∧ k ≤ 17 ∧ onGrid tie x (x.places - k) = some d ∧
      (∀ j : ℕ, 0 < j → j < k → onGrid tie x (x.places - j) = none) ∧
      shortest tie x = d.reduced := by
  have hne : firstOnGrid tie x 1 17 ≠ none :=
    firstOnGrid_ne_none (by decide) (by decide) (onGrid_seventeen tie hx)
  obtain ⟨d, hd⟩ := Option.ne_none_iff_exists'.1 hne
  obtain ⟨k, hk, hlast, hgrid, hbefore⟩ := firstOnGrid_eq_some hd
  refine ⟨k, d, hk, by omega, hgrid, hbefore, ?_⟩
  rw [shortest, if_neg (fun h => hx (units_eq_zero_iff.2 h)), hd, Option.getD_some]

theorem shortest_of_units_eq_zero (tie : Tie) (hx : x.units = 0) : shortest tie x = ⟨0, 0⟩ := by
  rw [shortest, if_pos (units_eq_zero_iff.1 hx)]

/-- The shortest decimal lies in the interval. -/
theorem covers_shortest (tie : Tie) (x : Binary64) : x.Covers (shortest tie x).value := by
  by_cases hx : x.units = 0
  · have hzero : (shortest tie x).value = x.value := by
      rw [shortest_of_units_eq_zero tie hx, value, hx]
      simp [Decimal.value]
    rw [hzero]
    exact x.covers_value
  · obtain ⟨k, d, -, -, hgrid, -, hshortest⟩ := exists_shortest_eq tie hx
    rw [hshortest, Decimal.value_reduced]
    exact (onGrid_eq_some hgrid).2.2.1

theorem length_digits_shortest_le (tie : Tie) (x : Binary64) :
    (shortest tie x).digits.length ≤ 17 := by
  by_cases hx : x.units = 0
  · rw [shortest_of_units_eq_zero tie hx]
    decide
  · obtain ⟨k, d, hk, hlast, hgrid, -, hshortest⟩ := exists_shortest_eq tie hx
    rw [hshortest]
    exact (Decimal.length_digits_reduced_le hk
      ((onGrid_eq_some hgrid).2.1.trans (below_lt hx))).trans hlast

/-- No decimal in the interval has fewer digits than the shortest one, and none of as many digits is
nearer. -/
theorem shortest_le_of_covers (tie : Tie) {d : Decimal} (h : x.Covers d.value) :
    (shortest tie x).digits.length ≤ d.digits.length ∧
      (d.digits.length = (shortest tie x).digits.length →
        |(shortest tie x).value - x.value| ≤ |d.value - x.value| ∧
        (tie = .upward → |d.value - x.value| = |(shortest tie x).value - x.value| →
          d.value ≤ (shortest tie x).value)) := by
  have hpos : 0 < d.digits.length := List.length_pos_of_ne_nil d.digits_ne_nil
  by_cases hx : x.units = 0
  · have hvalue : x.value = 0 := by simp [value, hx]
    have hzero : (⟨0, 0⟩ : Decimal).value = 0 := by simp [Decimal.value]
    rw [shortest_of_units_eq_zero tie hx, hvalue, hzero, sub_zero, sub_zero, abs_zero]
    exact ⟨hpos, fun _ => ⟨abs_nonneg _, fun _ h => (abs_eq_zero.1 h).le⟩⟩
  · obtain ⟨k, hit, hk, -, hgrid, hbefore, hshortest⟩ := exists_shortest_eq tie hx
    obtain ⟨-, hbound, -, hbest⟩ := onGrid_eq_some hgrid
    have hlt : d.significand < 10 ^ d.digits.length :=
      (Nat.length_toDigits_le_iff (by decide) hpos).1 le_rfl
    obtain ⟨c, hc, hbelow, hnear⟩ := exists_covers_grid hx hpos hlt h
    have hle : (shortest tie x).digits.length ≤ k := by
      rw [hshortest]
      exact Decimal.length_digits_reduced_le hk (hbound.trans (below_lt hx))
    have hfewest : k ≤ d.digits.length := by
      -- Otherwise the grid of as many digits would have been taken.
      by_contra hfewer
      exact onGrid_eq_none_iff.1 (hbefore _ hpos (Nat.lt_of_not_le hfewer)) c hc
    refine ⟨hle.trans hfewest, fun hsame => ?_⟩
    obtain rfl : d.digits.length = k := by omega
    obtain ⟨hnearest, hgreatest⟩ := hbest c hc
    rw [hshortest, Decimal.value_reduced]
    exact ⟨hnearest.trans hnear, fun htie heq =>
      hbelow.trans (hgreatest htie ((hnear.trans heq.le).antisymm hnearest))⟩

end Binary64

/-- A decimal reads back as the datum just if the datum covers it. -/
theorem Decimal.readsBack_iff_covers {x : Binary64} (hx : x.isFinite = true) (d : Decimal) :
    d.ReadsBack x ↔ x.Covers d.value := by
  have hden : 0 < 10 ^ (-d.exponent).toNat := Nat.pow_pos (by decide)
  have hvalue : (((4 * (d.significand * 10 ^ d.exponent.toNat * Binary64.one) : ℕ) : ℚ)
      / ((10 ^ (-d.exponent).toNat : ℕ) : ℚ)) = 4 * (Binary64.one * d.value) := by
    rw [value, ten_zpow_eq_div]
    push_cast
    ring
  rw [ReadsBack, Binary64.nearest_eq_iff hx hden, Interval.holds_iff_contains hden,
    Binary64.Covers, ← hvalue]

/-- What the text of a finite datum shows: of the decimals that read back as its absolute value, those
with the fewest digits, of these the nearest, and of two equally near ones the greater. -/
structure Binary64.IsShortest (x : Binary64) (d : Decimal) : Prop where
  readsBack : d.ReadsBack x
  short : d.digits.length ≤ 17
  fewest : ∀ d' : Decimal, d'.ReadsBack x → d.digits.length ≤ d'.digits.length
  nearest : ∀ d' : Decimal, d'.ReadsBack x → d'.digits.length = d.digits.length →
    |d.value - x.value| ≤ |d'.value - x.value|
  greatest : ∀ d' : Decimal, d'.ReadsBack x → d'.digits.length = d.digits.length →
    |d'.value - x.value| = |d.value - x.value| → d'.value ≤ d.value

theorem Binary64.isShortest_shortest {x : Binary64} (hx : x.isFinite = true) :
    x.IsShortest (shortest .upward x) := by
  have hcovers : ∀ {d : Decimal}, d.ReadsBack x → x.Covers d.value := fun h =>
    (Decimal.readsBack_iff_covers hx _).1 h
  exact ⟨(Decimal.readsBack_iff_covers hx _).2 (covers_shortest .upward x),
    length_digits_shortest_le .upward x,
    fun d' h => (shortest_le_of_covers .upward (hcovers h)).1,
    fun d' h hsame => ((shortest_le_of_covers .upward (hcovers h)).2 hsame).1,
    fun d' h hsame => ((shortest_le_of_covers .upward (hcovers h)).2 hsame).2 rfl⟩

end FilterSql
