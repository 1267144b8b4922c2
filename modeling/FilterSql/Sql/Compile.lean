import FilterSql.Filter.Payload
import FilterSql.Sql.Predicate

/-!
# Compiling filters

`Scalar.literalText` is the text that a scalar compares with.  Only texts of the type `double` are
changed: a decimal comma becomes a point.

`Predicate.ofFilter` makes every check that compiling makes and prints nothing: a group needs a
child, a value needs the kind that its operator asks for, and types that are not known may be
refused.  The first fault from left to right is the error.  `Predicate.ofRoot` does the same for a
whole filter, where a lone rule counts as a group with one child.

`Filter.toSql` is the predicate of a filter as text, compared against one target column.
`compileJson` reads a decoded document first, and `compileText` a text; either gives nothing when
there is nothing to filter by.  All checks come before any printing, so whether a filter compiles,
and with which error, does not depend on the target and on the style.
-/

namespace FilterSql

/-! ### Literal texts -/

/-- The text of a scalar under a declared type, before it is escaped. -/
def Scalar.literalText (type : FieldType) : Scalar → String
  | .text s => if type = .double then Text.exchange ',' '.' s else s
  | x => x.plain

theorem Scalar.literalText_eq_plain {type : FieldType} (h : type ≠ .double) (x : Scalar) :
    x.literalText type = x.plain := by
  cases x <;> simp [literalText, plain, h]

/-- Without a comma there is nothing to change. -/
theorem Scalar.literalText_of_not_mem {x : Scalar} (h : ',' ∉ x.plain.toList) (type : FieldType) :
    x.literalText type = x.plain := by
  cases x with
  | text s =>
    rw [literalText]
    split
    · exact Text.exchange_eq_self h
    · rfl
  | integer n | float x | boolean b => rfl

/-! ### Tests of rules -/

/-- What becomes of a declared type that is not known. -/
inductive UnknownTypes where
  /-- The rule compiles like one of a text. -/
  | passThrough
  | reject
  deriving DecidableEq, Repr

namespace Rule

def arityError (r : Rule) : Error := .valueArity r.operator r.value.shape

/-- The one text that the rule compares with. -/
def singleText (r : Rule) : Except Error String :=
  match r.value.single? with
  | some x => .ok (x.literalText r.type)
  | none => .error r.arityError

/-- The texts that the rule compares with, at least one. -/
def listTexts (r : Rule) : Except Error (List String) :=
  match r.value.list? with
  | some xs => .ok (xs.map (Scalar.literalText r.type))
  | none => .error r.arityError

/-- The lower and the upper text of the rule. -/
def pairTexts (r : Rule) : Except Error (String × String) :=
  match r.value.pair? with
  | some (low, high) => .ok (low.literalText r.type, high.literalText r.type)
  | none => .error r.arityError

/-- The test that the operator makes of the value. -/
def test (r : Rule) : Except Error Test :=
  match r.operator with
  | .equal => r.singleText.map (.compare .equal)
  | .notEqual => r.singleText.map (.compare .notEqual)
  | .oneOf => r.listTexts.map .oneOf
  | .notOneOf => r.listTexts.map .notOneOf
  | .beginsWith => r.singleText.map fun s => .like (s ++ "%")
  | .notBeginsWith => r.singleText.map fun s => .notLike (s ++ "%")
  | .contains => r.singleText.map fun s => .like ("%" ++ s ++ "%")
  | .notContains => r.singleText.map fun s => .notLike ("%" ++ s ++ "%")
  | .endsWith => r.singleText.map fun s => .like ("%" ++ s)
  | .notEndsWith => r.singleText.map fun s => .notLike ("%" ++ s)
  | .isEmpty => .ok .isEmpty
  | .isNotEmpty => .ok .isNotEmpty
  | .isNull => .ok .isNull
  | .isNotNull => .ok .isNotNull
  | .less => r.singleText.map (.compare .less)
  | .lessOrEqual => r.singleText.map (.compare .lessOrEqual)
  | .greater => r.singleText.map (.compare .greater)
  | .greaterOrEqual => r.singleText.map (.compare .greaterOrEqual)
  | .between => r.pairTexts.map fun t => .between t.1 t.2
  | .notBetween => r.pairTexts.map fun t => .notBetween t.1 t.2

/-- The test of a rule whose type is accepted; the type is looked at before the value. -/
def checkedTest (unknown : UnknownTypes) (r : Rule) : Except Error Test :=
  if unknown = .reject ∧ r.type.isKnown = false then .error (.unsupportedType r.type.name)
  else r.test

end Rule

namespace Predicate

mutual
/-- The predicate of a part of a filter. -/
def ofFilter (unknown : UnknownTypes) : Filter → Except Error Predicate
  | .rule r => (r.checkedTest unknown).map .test
  | .group connective children =>
    if children.isEmpty then .error (.emptyGroup [])
    else (located [.key "rules"] (ofFilters unknown 0 children)).map (.group connective)

/-- The predicates of the children of a group, the first of which has index `i`. -/
def ofFilters (unknown : UnknownTypes) (i : Nat) : List Filter → Except Error (List Predicate)
  | [] => .ok []
  | f :: fs => do
    let p ← located [.index i] (ofFilter unknown f)
    let ps ← ofFilters unknown (i + 1) fs
    return p :: ps
end

theorem ofFilters_eq_eachAt (unknown : UnknownTypes) (i : Nat) (fs : List Filter) :
    ofFilters unknown i fs = eachAt (ofFilter unknown) i fs := by
  induction fs generalizing i with
  | nil => rfl
  | cons f fs ih => rw [ofFilters, eachAt, ih]

/-- The predicate of a whole filter. -/
def ofRoot (unknown : UnknownTypes) (f : Filter) : Except Error Predicate :=
  match f with
  | .rule r => (r.checkedTest unknown).map fun t => .group .and [.test t]
  | .group _ _ => ofFilter unknown f

end Predicate

/-! ### Texts of filters -/

/-- How filters are compiled. -/
structure Options extends Style where
  unknownTypes : UnknownTypes := .passThrough
  deriving DecidableEq, Repr

/-- The text of a predicate against the target column. -/
def Predicate.against (style : Style) (target : String) (p : Predicate) : String :=
  p.toSql style (style.dialect.quoteName target)

/-- The filter as text; the fields of its rules do not matter. -/
def Filter.toSql (options : Options) (f : Filter) (target : String) : Except Error String :=
  (Predicate.ofRoot options.unknownTypes f).map (Predicate.against options.toStyle target)

/-- The filter of a decoded document as text, if there is something to filter by. -/
def compileJson (options : Options) (j : Json) (target : String) :
    Except Error (Option String) :=
  if Payload.isVacant j then .ok none
  else do
    let f ← Filter.ofJson j
    let sql ← f.toSql options target
    return some sql

/-- The filter of a text as text, if there is something to filter by. -/
def compileText (options : Options) (s : String) (target : String) :
    Except Error (Option String) :=
  if Text.isAllBlank s then .ok none
  else
    match Json.ofText? s with
    | none => .error .notJson
    | some j => compileJson options j target

end FilterSql
