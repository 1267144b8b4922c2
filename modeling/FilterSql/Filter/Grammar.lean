import FilterSql.Filter.Operator
import FilterSql.Json.Basic
import FilterSql.Text.Pieces

/-!
# The grammar of filter documents

`IsFilter` says which JSON values are filter documents, without reading them: objects with an array
of filter documents under `rules` and a connective under `condition`, and objects without `rules`
that name a known operator and a field and have a value that fits the operator
(`IsValueFor`).
-/

namespace FilterSql

/-- A string, a number or a truth value. -/
def Json.IsScalar (j : Json) : Prop :=
  (∃ s, j = .string s) ∨ (∃ n, j = .number n) ∨ ∃ b, j = .bool b

/-- The texts differ in the case of ASCII letters only. -/
def EqUpToCase (s t : String) : Prop :=
  s.toList.map Char.toLower = t.toList.map Char.toLower

/-- The member holds a value that an operator of the arity compares with. -/
def IsValueFor (arity : Arity) (value : Option Json) : Prop :=
  match arity with
  | .none => True
  | .single => ∃ j, value = some j ∧ (j.IsScalar ∨ ∃ x, j = .array [x] ∧ x.IsScalar)
  | .list =>
    ∃ j, value = some j ∧
      (j.IsScalar ∨ ∃ xs, xs ≠ [] ∧ j = .array xs ∧ ∀ x ∈ xs, x.IsScalar)
  | .pair =>
    ∃ j, value = some j ∧
      ((∃ x y, j = .array [x, y] ∧ x.IsScalar ∧ y.IsScalar) ∨
        ∃ s, j = .string s ∧ s.toList.count ',' = 1)

/-- The object names its field: under `field`, or under `id` when it has no `field`. -/
def HasField (j : Json) : Prop :=
  (∃ s, j.member? "field" = some (.string s)) ∨
    (j.member? "field" = none ∧ ∃ s, j.member? "id" = some (.string s))

/-- The declared type is left out, `null` or a string. -/
def HasType (j : Json) : Prop :=
  j.member? "type" = none ∨ j.member? "type" = some .null ∨
    ∃ s, j.member? "type" = some (.string s)

/-- The JSON value is a filter document. -/
inductive IsFilter : Json → Prop
  | group {j : Json} {items : List Json} {s : String}
      (rules : j.member? "rules" = some (.array items))
      (condition : j.member? "condition" = some (.string s))
      (connective : EqUpToCase s "and" ∨ EqUpToCase s "or")
      (children : ∀ item ∈ items, IsFilter item) : IsFilter j
  | rule {j : Json} {operator : Operator}
      (noRules : j.member? "rules" = none)
      (tag : j.member? "operator" = some (.string operator.tag))
      (field : HasField j)
      (type : HasType j)
      (value : IsValueFor operator.arity (j.member? "value")) : IsFilter j

end FilterSql
