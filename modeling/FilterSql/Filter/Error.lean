import FilterSql.Filter.Basic

/-!
# Errors and where they arise

An `Error` is the cause why a document is no filter, or a filter no predicate.  `Error.message` is
its text.  Errors about a place of the document carry a `Path` from the root.  Parts of a document
are read without knowing where they lie: their errors are relative to the part, and `Error.within`
puts the steps to the part in front.
-/

namespace FilterSql

/-- One step down in a document. -/
inductive Step where
  | key (name : String)
  | index (i : Nat)
  deriving DecidableEq, Repr

def Step.text : Step → String
  | .key name => "." ++ name
  | .index i => "[" ++ i.repr ++ "]"

/-- The steps from the root of a document down to one of its parts. -/
abbrev Path := List Step

/-- The path as text; the root is called `filter`. -/
def Path.text (p : Path) : String :=
  "filter" ++ String.join (p.map Step.text)

/-- What is wrong with the part of a document. -/
inductive Reason where
  | notAnObject
  | neitherGroupNorRule
  | unknownCondition (s : String)
  | conditionNotText
  | noCondition
  | rulesNotAnArray
  | operatorNotText
  | noField
  | typeNotText
  | nullInList
  | notAScalar
  deriving DecidableEq, Repr

def Reason.text : Reason → String
  | .notAnObject => "expected an object"
  | .neitherGroupNorRule => "expected a group (with 'rules') or a rule (with 'operator')"
  | .unknownCondition s => "unknown condition '" ++ s ++ "'"
  | .conditionNotText => "expected \"AND\" or \"OR\""
  | .noCondition => "group without 'condition'"
  | .rulesNotAnArray => "expected an array"
  | .operatorNotText => "expected an operator name"
  | .noField => "rule without 'field'"
  | .typeNotText => "expected a type name"
  | .nullInList => "null inside a value list"
  | .notAScalar => "expected a scalar value"

inductive Error where
  | unsupportedOperator (tag : String)
  /-- The value does not have the kind that the operator asks for. -/
  | valueArity (operator : Operator) (found : Shape)
  | unsupportedType (name : String)
  | malformed (place : Path) (reason : Reason)
  | emptyGroup (place : Path)
  | notJson
  deriving DecidableEq, Repr

namespace Error

def message : Error → String
  | .unsupportedOperator tag => "unsupported operator '" ++ tag ++ "'"
  | .valueArity operator found =>
    "operator '" ++ operator.tag ++ "' expects " ++ operator.arity.text ++ ", got " ++ found.text
  | .unsupportedType name => "unsupported type '" ++ name ++ "'"
  | .malformed place reason => "malformed filter at " ++ place.text ++ ": " ++ reason.text
  | .emptyGroup place => "empty group at " ++ place.text
  | .notJson => "invalid filter JSON: "

/-- The error of a part as an error of the whole, the steps leading from the whole to the part. -/
def within (steps : Path) : Error → Error
  | .malformed place reason => .malformed (steps ++ place) reason
  | .emptyGroup place => .emptyGroup (steps ++ place)
  | e => e

@[simp] theorem within_nil (e : Error) : e.within [] = e := by
  cases e <;> rfl

@[simp] theorem map_within_nil (errors : List Error) : errors.map (within []) = errors :=
  List.map_id'' within_nil errors

@[simp] theorem within_within (p q : Path) (e : Error) :
    (e.within q).within p = e.within (p ++ q) := by
  cases e <;> simp [within]

end Error

end FilterSql
