/-!
# Binary floating point with 64 bits

`Binary64` is one datum of the interchange format: a sign bit, an exponent field of 11 bits and a
fraction of 52 bits.  Every finite datum is a whole number of the smallest positive one, `2^-1074`;
`Binary64.units` is that number.  A datum counts as a word, so the two zeros differ and so do the
words that are not numbers.

`halfEven num den` rounds the fraction `num / den` to a whole number, a half to the even one.
`Binary64.nearest num den` is the datum nearest to `num / den` (a tie goes to the even
significand, a value past the largest finite datum to infinity).  Sums are not needed here:
`Binary64.ofNat`, `Binary64.mul` and `Binary64.div` are each one exact fraction that is rounded
once.
-/

namespace FilterSql

/-- A datum of the 64-bit binary interchange format. -/
structure Binary64 where
  /-- Sign, exponent field and fraction, from the highest bit down. -/
  bits : UInt64
  deriving DecidableEq, Repr

namespace Binary64

/-- The word without its sign bit. -/
def magnitude (x : Binary64) : Nat := x.bits.toNat % 0x8000000000000000

def isNegative (x : Binary64) : Bool := decide (0x8000000000000000 ≤ x.bits.toNat)

def exponentField (x : Binary64) : Nat := x.magnitude / 0x10000000000000

def fraction (x : Binary64) : Nat := x.magnitude % 0x10000000000000

/-- The all-ones exponent is kept for the infinities and for what is not a number. -/
def isFinite (x : Binary64) : Bool := decide (x.exponentField < 2047)

def isNaN (x : Binary64) : Bool := decide (2047 * 0x10000000000000 < x.magnitude)

def isZero (x : Binary64) : Bool := decide (x.magnitude = 0)

/-- The fraction, with the leading one that only the smallest exponent lacks. -/
def significand (x : Binary64) : Nat :=
  if x.exponentField = 0 then x.fraction else 0x10000000000000 + x.fraction

/-- How many units of `2^-1074` lie between the datum and its neighbours in the same binade. -/
def spacing (x : Binary64) : Nat := Nat.pow 2 (x.exponentField - 1)

/-- The absolute value of a finite datum in units of `2^-1074`. -/
def units (x : Binary64) : Nat := x.significand * x.spacing

/-- The datum with the given sign and the given word below the sign. -/
def ofMagnitude (negative : Bool) (magnitude : Nat) : Binary64 :=
  ⟨UInt64.ofNat (cond negative 0x8000000000000000 0 + magnitude % 0x8000000000000000)⟩

/-- The same absolute value with the given sign. -/
def withSign (negative : Bool) (x : Binary64) : Binary64 :=
  ofMagnitude negative x.magnitude

/-! ### Words and fields -/

theorem magnitude_lt (x : Binary64) : x.magnitude < 0x8000000000000000 :=
  Nat.mod_lt _ (by decide)

theorem toNat_bits_ofMagnitude (negative : Bool) (m : Nat) :
    (ofMagnitude negative m).bits.toNat = cond negative 0x8000000000000000 0 + m % 0x8000000000000000 := by
  have h : m % 0x8000000000000000 < 0x8000000000000000 := Nat.mod_lt _ (by decide)
  rw [ofMagnitude, UInt64.toNat_ofNat']
  cases negative
  · rw [cond_false]; omega
  · rw [cond_true]; omega

@[simp] theorem magnitude_ofMagnitude (negative : Bool) (m : Nat) :
    (ofMagnitude negative m).magnitude = m % 0x8000000000000000 := by
  rw [magnitude, toNat_bits_ofMagnitude]
  cases negative <;> simp

@[simp] theorem magnitude_withSign (negative : Bool) (x : Binary64) :
    (x.withSign negative).magnitude = x.magnitude := by
  rw [withSign, magnitude_ofMagnitude, Nat.mod_eq_of_lt x.magnitude_lt]

end Binary64

/-! ### Rounding to the nearest datum -/

/-- The whole number nearest to `num / den`; of two equally near ones, the even one. -/
def halfEven (num den : Nat) : Nat :=
  let q := num / den
  let r := num % den
  if 2 * r < den then q
  else if 2 * r = den then q + q % 2
  else q + 1

namespace Binary64

/-- The magnitude word of positive infinity. -/
def infinity : Nat := 2047 * 0x10000000000000

/-- The magnitude word nearest to `num / den`.  With `2^t` units between neighbours and `m` such
steps, the word is `t * 2^52 + m`, also where `m` has grown to the next power of two. -/
def nearestMagnitude (num den : Nat) : Nat :=
  let scaled := num * Nat.pow 2 1074
  let t := (scaled / den).log2 - 52
  min (t * 0x10000000000000 + halfEven scaled (den * Nat.pow 2 t)) infinity

/-- The positive datum nearest to `num / den`. -/
def nearest (num den : Nat) : Binary64 :=
  ofMagnitude false (nearestMagnitude num den)

/-- The datum nearest to a whole number. -/
def ofNat (n : Nat) : Binary64 :=
  nearest n 1

/-- The product of two finite positive data, rounded. -/
def mul (x y : Binary64) : Binary64 :=
  nearest (x.units * y.units) (Nat.pow 2 2148)

/-- The quotient of two finite positive data, rounded. -/
def div (x y : Binary64) : Binary64 :=
  nearest x.units y.units

/-! ### Bounds -/

theorem nearestMagnitude_le (num den : Nat) : nearestMagnitude num den ≤ infinity :=
  Nat.min_le_right _ _

@[simp] theorem magnitude_nearest (num den : Nat) :
    (nearest num den).magnitude = nearestMagnitude num den := by
  have h := nearestMagnitude_le num den
  rw [nearest, magnitude_ofMagnitude, Nat.mod_eq_of_lt]
  exact Nat.lt_of_le_of_lt h (by decide)

end Binary64

end FilterSql
