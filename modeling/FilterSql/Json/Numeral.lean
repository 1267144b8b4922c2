import FilterSql.Json.Basic

/-!
# Numerals of JSON texts

A `Json.Numeral` holds the parts of a written number, `Json.Numeral.read` takes one from the front
of a text.  `Json.Numeral.number?` is its value: a whole number when it is written without fraction
and exponent and fits, else a binary datum.  The datum comes from at most two roundings, one of the
gathered digits and one of the scaling by a power of ten, so it can differ from the nearest datum in
the last bit when more than 53 bits are gathered.
-/

namespace FilterSql

namespace Json

/-- The value is in the range of whole numbers. -/
def Number.ofInt? (value : Int) : Option Number :=
  if h : -0x8000000000000000 ≤ value ∧ value < 0x10000000000000000 then some (.integer value h.1 h.2) else none

/-- The datum as a number, unless it is infinite or no number at all. -/
def Number.ofBinary64? (x : Binary64) : Option Number :=
  if h : x.isFinite = true then some (.float x h) else none

/-- A written number: sign, digits before the point, digits behind it, written exponent. -/
structure Numeral where
  negative : Bool
  whole : List Char
  /-- Empty when no point is written, as a point has a digit behind it. -/
  fraction : List Char
  exponent : Option Int
  deriving DecidableEq, Repr

namespace Numeral

/-! ### Reading -/

/-- A sign in front of the rest, with `true` for a minus. -/
def readMinus : List Char → Bool × List Char
  | '-' :: rest => (true, rest)
  | cs => (false, cs)

/-- At least one digit. -/
def readDigits (cs : List Char) : Option (List Char × List Char) :=
  match cs.takeWhile Char.isDigit with
  | [] => none
  | digits => some (digits, cs.dropWhile Char.isDigit)

/-- A zero stands alone; any other digit may be followed by more. -/
def readWhole : List Char → Option (List Char × List Char)
  | '0' :: rest => some (['0'], rest)
  | cs => readDigits cs

def readFraction : List Char → Option (List Char × List Char)
  | '.' :: rest => readDigits rest
  | cs => some ([], cs)

/-- The value of decimal digits. -/
def digitsValue (digits : List Char) : Nat := Nat.ofDigitChars 10 digits 0

/-- The exponent behind its letter: a sign if there is one, and at least one digit. -/
def readPower : List Char → Option (Int × List Char)
  | '+' :: rest => (readDigits rest).map fun (ds, rest) => ((digitsValue ds : Int), rest)
  | '-' :: rest => (readDigits rest).map fun (ds, rest) => (-(digitsValue ds : Int), rest)
  | cs => (readDigits cs).map fun (ds, rest) => ((digitsValue ds : Int), rest)

def readExponent (cs : List Char) : Option (Option Int × List Char) :=
  match cs with
  | [] => some (none, cs)
  | c :: rest =>
    if c = 'e' || c = 'E' then (readPower rest).map fun (e, rest) => (some e, rest)
    else some (none, cs)

/-- The longest numeral at the front of the text, and what follows it. -/
def read (cs : List Char) : Option (Numeral × List Char) := do
  let (negative, cs) := readMinus cs
  let (whole, cs) ← readWhole cs
  let (fraction, cs) ← readFraction cs
  let (exponent, cs) ← readExponent cs
  return (⟨negative, whole, fraction, exponent⟩, cs)

/-! ### The value -/

/-- Appends digits to a number as long as it stays below `2^64`; the first digit that does not
fit, and all behind it, are left over. -/
def gather (s : Nat) : List Char → Nat × List Char
  | [] => (s, [])
  | d :: ds =>
    let more := s * 10 + (d.toNat - '0'.toNat)
    if more < 0x10000000000000000 then gather more ds else (s, d :: ds)

/-- The largest power of ten that is a finite datum. -/
def greatestPower : Nat := 308

/-- The largest written exponent that is taken at its value. -/
def greatestExponent : Nat := 0x7fffffff

def powerOfTen (k : Nat) : Binary64 := Binary64.ofNat (Nat.pow 10 k)

/-- Divides by `10 ^ k`, in steps of the greatest power until that is small enough or nothing is
left. -/
def shrink (x : Binary64) (k : Nat) : Binary64 :=
  if x.isZero then x
  else if k ≤ greatestPower then x.div (powerOfTen k)
  else shrink (x.div (powerOfTen greatestPower)) (k - greatestPower)
termination_by k
decreasing_by simp only [greatestPower] at *; omega

/-- The datum for `s * 10 ^ power`; there is none past the greatest power. -/
def scale (s : Nat) (power : Int) : Option Binary64 :=
  let x := Binary64.ofNat s
  if x.isZero then some x
  else if power < 0 then some (shrink x power.natAbs)
  else if power ≤ greatestPower then some (x.mul (powerOfTen power.natAbs))
  else none

/-- The numeral as a datum.  Digits that were not gathered count as zeros before the point and are
dropped behind it.  A written exponent past the greatest one gives zero, or nothing where it asks
for a large number. -/
def datum? (n : Numeral) : Option Binary64 :=
  let (s, cut) := gather 0 n.whole
  let (s, cutBehind) := gather s n.fraction
  let written := n.exponent.getD 0
  let power := (cut.length : Int) - (n.fraction.length - cutBehind.length : Nat) + written
  let magnitude :=
    if written.natAbs ≤ greatestExponent then scale s power
    else if s ≠ 0 ∧ 0 < written then none
    else some (Binary64.ofNat 0)
  magnitude.map (Binary64.withSign n.negative)

/-- The numeral as a whole number: written without fraction and exponent, and not a negative
zero. -/
def integer? (n : Numeral) : Option Number :=
  let value := digitsValue n.whole
  if n.fraction = [] ∧ n.exponent = none ∧ ¬(n.negative = true ∧ value = 0) then
    Number.ofInt? (if n.negative then -(value : Int) else value)
  else none

/-- The value of the numeral; numerals too large for a finite datum have none. -/
def number? (n : Numeral) : Option Number :=
  n.integer?.or (n.datum?.bind Number.ofBinary64?)

end Numeral

end Json

end FilterSql
