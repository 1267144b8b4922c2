/-!
# Operators of a filter

A rule compares by one of twenty operators (`Operator`), each with a tag that stands for it in
documents (`Operator.tag`, `Operator.ofTag?`) and an `Arity`, the kind of value that it compares
with.  A `Connective` joins the children of a group.
-/

namespace FilterSql

/-- How the children of a group are joined. -/
inductive Connective where
  | and
  | or
  deriving DecidableEq, Repr

namespace Connective

def all : List Connective := [.and, .or]

def keyword : Connective → String
  | .and => "AND"
  | .or => "OR"

/-- The connective with the given keyword, in upper or lower case of ASCII letters. -/
def ofKeyword? (s : String) : Option Connective :=
  all.find? fun c => s.toList.map Char.toUpper = c.keyword.toList

end Connective

/-- The kind of value that an operator compares with. -/
inductive Arity where
  | none
  | single
  | list
  | pair
  deriving DecidableEq, Repr

def Arity.text : Arity → String
  | .none => "no value"
  | .single => "a single value"
  | .list => "a list of values"
  | .pair => "a pair of values"

inductive Operator where
  | equal
  | notEqual
  | oneOf
  | notOneOf
  | beginsWith
  | notBeginsWith
  | contains
  | notContains
  | endsWith
  | notEndsWith
  | isEmpty
  | isNotEmpty
  | isNull
  | isNotNull
  | less
  | lessOrEqual
  | greater
  | greaterOrEqual
  | between
  | notBetween
  deriving DecidableEq, Repr

namespace Operator

/-- Every operator, in the order of the operator table. -/
def all : List Operator :=
  [.equal, .notEqual, .oneOf, .notOneOf, .beginsWith, .notBeginsWith, .contains, .notContains,
    .endsWith, .notEndsWith, .isEmpty, .isNotEmpty, .isNull, .isNotNull, .less, .lessOrEqual,
    .greater, .greaterOrEqual, .between, .notBetween]

/-- The name of the operator in documents. -/
def tag : Operator → String
  | .equal => "equal"
  | .notEqual => "not_equal"
  | .oneOf => "in"
  | .notOneOf => "not_in"
  | .beginsWith => "begins_with"
  | .notBeginsWith => "not_begins_with"
  | .contains => "contains"
  | .notContains => "not_contains"
  | .endsWith => "ends_with"
  | .notEndsWith => "not_ends_with"
  | .isEmpty => "is_empty"
  | .isNotEmpty => "is_not_empty"
  | .isNull => "is_null"
  | .isNotNull => "is_not_null"
  | .less => "less"
  | .lessOrEqual => "less_or_equal"
  | .greater => "greater"
  | .greaterOrEqual => "greater_or_equal"
  | .between => "between"
  | .notBetween => "not_between"

def arity : Operator → Arity
  | .isEmpty | .isNotEmpty | .isNull | .isNotNull => .none
  | .oneOf | .notOneOf => .list
  | .between | .notBetween => .pair
  | _ => .single

/-- The operator with the given tag. -/
def ofTag? (s : String) : Option Operator :=
  all.find? fun o => o.tag = s

/-! ### Tags name operators -/

theorem tag_injective {o p : Operator} (h : o.tag = p.tag) : o = p := by
  cases o <;> cases p <;> first | rfl | exact absurd h (by decide)

theorem tag_of_ofTag? {s : String} {o : Operator} (h : ofTag? s = some o) : o.tag = s := by
  simpa using List.find?_some h

@[simp] theorem ofTag?_tag (o : Operator) : ofTag? o.tag = some o := by
  cases o <;> decide

theorem ofTag?_eq_some_iff {s : String} {o : Operator} : ofTag? s = some o ↔ o.tag = s :=
  ⟨tag_of_ofTag?, fun h => h ▸ ofTag?_tag o⟩

end Operator

/-! ### Keywords -/

@[simp] theorem Connective.ofKeyword?_keyword (c : Connective) :
    Connective.ofKeyword? c.keyword = some c := by
  cases c <;> decide

theorem Connective.keyword_injective {c c' : Connective} (h : c.keyword = c'.keyword) : c = c' := by
  cases c <;> cases c' <;> first | rfl | exact absurd h (by decide)

end FilterSql
