import FilterSql.Decimal.Shortest
import FilterSql.Filter.FieldType
import FilterSql.Filter.Operator

/-!
# Filters

A `Filter` is a tree: its leaves are rules, each a comparison of a field (`Rule`), and its other
nodes are groups that join their children by a connective.  A group may be childless here; only
compiling refuses it.

A `Value` is what a rule compares with, made of `Scalar`s, the literals of a document with
`Scalar.plain` as their text.  `Value.single?`, `Value.list?` and `Value.pair?` read a value as the
kind that an operator asks for; a `Shape` describes a value that could not be read so.
-/

namespace FilterSql

/-! ### Values -/

/-- One literal of a document. -/
inductive Scalar where
  | integer (n : Int64)
  | float (x : Binary64)
  | text (s : String)
  | boolean (b : Bool)
  deriving DecidableEq, Repr

/-- The literal as plain text: decimal digits, or one and zero for a truth value. -/
def Scalar.plain : Scalar → String
  | .integer n => n.toInt.repr
  | .float x => x.plain
  | .text s => s
  | .boolean b => if b then "1" else "0"

/-- What a rule compares with. -/
inductive Value where
  | absent
  | single (x : Scalar)
  | list (xs : List Scalar)
  | pair (low high : Scalar)
  deriving DecidableEq, Repr

/-- A short description of a value. -/
inductive Shape where
  | nothing
  | single
  | list (length : Nat)
  | pair
  | emptyList
  /-- A text that was cut at its commas. -/
  | commaSeparated (pieces : Nat)
  deriving DecidableEq, Repr

def Shape.text : Shape → String
  | .nothing => "no value"
  | .single => "a single value"
  | .list n => "a list of " ++ n.repr ++ " value(s)"
  | .pair => "a pair of values"
  | .emptyList => "an empty list"
  | .commaSeparated n => n.repr ++ " comma-separated value(s)"

namespace Value

def shape : Value → Shape
  | .absent => .nothing
  | .single _ => .single
  | .list xs => .list xs.length
  | .pair _ _ => .pair

/-- The value as one scalar: a list of one counts. -/
def single? : Value → Option Scalar
  | .single x => some x
  | .list [x] => some x
  | _ => none

/-- The value as a list that is not empty: one scalar counts. -/
def list? : Value → Option (List Scalar)
  | .single x => some [x]
  | .list [] => none
  | .list xs => some xs
  | _ => none

/-- The value as two scalars: a list of two counts. -/
def pair? : Value → Option (Scalar × Scalar)
  | .pair low high => some (low, high)
  | .list [low, high] => some (low, high)
  | _ => none

theorem ne_nil_of_list? {v : Value} {xs : List Scalar} (h : v.list? = some xs) : xs ≠ [] := by
  unfold list? at h
  split at h <;> simp_all
  rw [← h]; simp

end Value

/-! ### Rules and groups -/

/-- A comparison of a field. -/
structure Rule where
  /-- The name of the field in the document, which is shown but never compiled. -/
  field : String
  type : FieldType
  operator : Operator
  value : Value
  deriving DecidableEq, Repr

inductive Filter where
  | rule (r : Rule)
  | group (connective : Connective) (children : List Filter)
  deriving Repr

end FilterSql
