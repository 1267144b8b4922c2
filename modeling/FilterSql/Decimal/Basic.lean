/-!
# Decimal numbers and their layouts

A `Decimal` is a whole significand times a power of ten.  `Decimal.positional` writes it with all
its places and no exponent, `Decimal.scientific` as one digit, the other digits behind a point, and
the exponent of the leading digit.
-/

namespace FilterSql

/-- The number `significand * 10 ^ exponent`. -/
structure Decimal where
  significand : Nat
  exponent : Int
  deriving DecidableEq, Repr

namespace Decimal

/-- The digits of the significand, the highest first. -/
def digits (d : Decimal) : List Char := Nat.toDigits 10 d.significand

/-- How many places stand before the point: the leading digit counts `10 ^ (places - 1)`. -/
def places (d : Decimal) : Int := d.digits.length + d.exponent

/-- The same number with no zero at the end of the significand. -/
def reduced (d : Decimal) : Decimal :=
  let zeros := (d.digits.reverse.takeWhile (· = '0')).length
  if d.significand = 0 then ⟨0, 0⟩ else ⟨d.significand / Nat.pow 10 zeros, d.exponent + zeros⟩

def zeros (n : Nat) : List Char := List.replicate n '0'

/-- The digits before the point, at least one. -/
def wholePart (d : Decimal) : List Char :=
  if 0 ≤ d.exponent then d.digits ++ zeros d.exponent.toNat
  else if 0 < d.places then d.digits.take d.places.toNat
  else ['0']

/-- The digits behind the point. -/
def fractionPart (d : Decimal) : List Char :=
  if 0 ≤ d.exponent then []
  else zeros (-d.places).toNat ++ d.digits.drop d.places.toNat

/-- All places written out; a whole number ends without a point. -/
def positional (d : Decimal) : String :=
  String.ofList <|
    d.wholePart ++ if d.fractionPart = [] then [] else '.' :: d.fractionPart

/-- All places written out; a whole number ends with a point and a zero. -/
def positionalWithPoint (d : Decimal) : String :=
  String.ofList <|
    d.wholePart ++ '.' :: if d.fractionPart = [] then ['0'] else d.fractionPart

/-- One digit before the point, an exponent with its sign. -/
def scientific (d : Decimal) : String :=
  let power := d.places - 1
  String.ofList <|
    d.digits.take 1
      ++ (if d.digits.drop 1 = [] then [] else '.' :: d.digits.drop 1)
      ++ (if 0 ≤ power then ['e', '+'] else ['e', '-'])
      ++ Nat.toDigits 10 power.natAbs

/-! ### Only digits are written -/

theorem isDigit_of_mem_digits {d : Decimal} {c : Char} (h : c ∈ d.digits) : c.isDigit = true :=
  Nat.isDigit_of_mem_toDigits (by decide) (by decide) h

theorem digits_ne_nil (d : Decimal) : d.digits ≠ [] :=
  Nat.toDigits_ne_nil

theorem isDigit_of_mem_zeros {n : Nat} {c : Char} (h : c ∈ zeros n) : c.isDigit = true := by
  rw [List.eq_of_mem_replicate h]; decide

theorem isDigit_of_mem_wholePart {d : Decimal} {c : Char} (h : c ∈ d.wholePart) :
    c.isDigit = true := by
  unfold wholePart at h
  split at h
  · rcases List.mem_append.1 h with h | h
    · exact isDigit_of_mem_digits h
    · exact isDigit_of_mem_zeros h
  · split at h
    · exact isDigit_of_mem_digits (List.mem_of_mem_take h)
    · rw [List.mem_singleton.1 h]; decide

theorem isDigit_of_mem_fractionPart {d : Decimal} {c : Char} (h : c ∈ d.fractionPart) :
    c.isDigit = true := by
  unfold fractionPart at h
  split at h
  · exact absurd h List.not_mem_nil
  · rcases List.mem_append.1 h with h | h
    · exact isDigit_of_mem_zeros h
    · exact isDigit_of_mem_digits (List.mem_of_mem_drop h)

theorem wholePart_ne_nil (d : Decimal) : d.wholePart ≠ [] := by
  unfold wholePart
  split
  · simp [d.digits_ne_nil]
  · split
    · next h =>
      have : d.places.toNat ≠ 0 := by omega
      simp [d.digits_ne_nil, this]
    · simp

end Decimal

end FilterSql
