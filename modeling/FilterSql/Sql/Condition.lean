import FilterSql.Sql.Predicate
import FilterSql.Sql.Truth

/-!
# Conditions and their truth

A `Condition` is a boolean expression of SQL after reading: comparisons of operands, joined by AND
and OR.  `Condition.truth` is its truth value when every column has one given value, which may be
absent.  How texts compare is left open: a `Collation` says which texts count as the same, which
come before others and which match a pattern.
-/

namespace FilterSql

inductive Operand where
  | column (parts : List String)
  | literal (text : String)
  | joined (left right : Operand)
  deriving DecidableEq, Repr

inductive Condition where
  | compare (left : Operand) (comparison : Comparison) (right : Operand)
  | oneOf (left : Operand) (members : List Operand)
  | like (left pattern : Operand)
  | notLike (left pattern : Operand)
  | isNull (left : Operand)
  | isNotNull (left : Operand)
  | and (left right : Condition)
  | or (left right : Condition)
  deriving DecidableEq, Repr

/-- How a database compares texts. -/
structure Collation where
  same : String → String → Bool
  before : String → String → Bool
  /-- The text matches the pattern. -/
  like : (text pattern : String) → Bool

/-- The comparison of two texts. -/
def Collation.compares (m : Collation) (a : String) : Comparison → String → Bool
  | .equal, b => m.same a b
  | .notEqual, b => !m.same a b
  | .less, b => m.before a b
  | .lessOrEqual, b => !m.before b a
  | .greater, b => m.before b a
  | .greaterOrEqual, b => !m.before a b

/-- The text of an operand when every column has the given value. -/
def Operand.text? (value : Option String) : Operand → Option String
  | .column _ => value
  | .literal s => some s
  | .joined left right => do
    let a ← left.text? value
    let b ← right.text? value
    return a ++ b

/-- The truth of a relation between two texts, unknown when one is absent. -/
def Truth.ofTexts (relation : String → String → Bool) : Option String → Option String → Truth
  | some a, some b => Truth.ofBool (relation a b)
  | _, _ => .unknown

/-- The truth value of a condition when every column has the given value. -/
def Condition.truth (m : Collation) (value : Option String) : Condition → Truth
  | .compare left comparison right =>
    Truth.ofTexts (fun a b => m.compares a comparison b) (left.text? value) (right.text? value)
  | .oneOf left members =>
    Truth.any <| members.map fun x => Truth.ofTexts m.same (left.text? value) (x.text? value)
  | .like left pattern => Truth.ofTexts m.like (left.text? value) (pattern.text? value)
  | .notLike left pattern => (Truth.ofTexts m.like (left.text? value) (pattern.text? value)).not
  | .isNull left => Truth.ofBool (left.text? value).isNone
  | .isNotNull left => Truth.ofBool (left.text? value).isSome
  | .and left right => (left.truth m value).and (right.truth m value)
  | .or left right => (left.truth m value).or (right.truth m value)

end FilterSql
