import Mathlib.Data.List.Forall2
import FilterSql.Filter.Basic
import FilterSql.Filter.Grammar

/-!
# Documents that mean the same

`Json.Same` is equality of documents up to the order in which objects hold their members.
`Json.Similar` relates documents that agree in the members that matter: a group in `condition` (up
to case, where it is a connective) and in the meaning of its `rules`, a rule in `operator`, `type`
and, unless its operator has no value, in `value`.  Of the field only its presence matters.
`Filter.unnamed` leaves the names of the fields out of a filter.
-/

namespace FilterSql

/-- The documents are equal, but that objects may hold their members in another order.  Equal numbers
are the same datum: the two zeros differ. -/
inductive Json.Same : Json → Json → Prop
  | refl (j : Json) : Same j j
  | array {xs ys : List Json} (items : List.Forall₂ Same xs ys) : Same (.array xs) (.array ys)
  | object {members members' : List (String × Json)}
      (lookups : ∀ name, Option.Rel Same (Members.get? name members) (Members.get? name members')) :
      Same (.object members) (.object members')

/-- Both are absent, or both are there and the same. -/
abbrev SameMember (a b : Option Json) : Prop := Option.Rel Json.Same a b

/-- The conditions are the same, or spell the same connective. -/
def SameCondition (a b : Option Json) : Prop :=
  SameMember a b ∨ ∃ s t, a = some (.string s) ∧ b = some (.string t) ∧ EqUpToCase s t ∧
    (EqUpToCase s "and" ∨ EqUpToCase s "or")

/-- The object names its field. -/
def NamesField (j : Json) : Prop :=
  ∃ s, (j.member? "field").or (j.member? "id") = some (.string s)

/-- The object names an operator without a value. -/
def NamesValueless (j : Json) : Prop :=
  ∃ operator : Operator, j.member? "operator" = some (.string operator.tag) ∧
    operator.arity = .none

/-- The documents agree in all that matters. -/
inductive Json.Similar : Json → Json → Prop
  | same {j k : Json} (same : Same j k) : Similar j k
  | group {j k : Json} {xs ys : List Json}
      (rules : j.member? "rules" = some (.array xs)) (rules' : k.member? "rules" = some (.array ys))
      (condition : SameCondition (j.member? "condition") (k.member? "condition"))
      (items : List.Forall₂ Similar xs ys) : Similar j k
  | badGroup {j k r s : Json}
      (rules : j.member? "rules" = some r) (rules' : k.member? "rules" = some s)
      (noArray : ∀ items, r ≠ .array items) (same : Same r s)
      (condition : SameCondition (j.member? "condition") (k.member? "condition")) : Similar j k
  | rule {j k : Json} (noRules : j.member? "rules" = none) (noRules' : k.member? "rules" = none)
      (named : (j.member? "operator").isSome)
      (operator : SameMember (j.member? "operator") (k.member? "operator"))
      (type : SameMember (j.member? "type") (k.member? "type"))
      (field : NamesField j ↔ NamesField k)
      (value : NamesValueless j ∨ SameMember (j.member? "value") (k.member? "value")) : Similar j k

/-- The rule with the name of its field left out. -/
def Rule.unnamed (r : Rule) : Rule := { r with field := "" }

namespace Filter

mutual
/-- The filter with the names of all fields left out. -/
def unnamed : Filter → Filter
  | .rule r => .rule r.unnamed
  | .group connective children => .group connective (unnamedAll children)

/-- Several filters with the names of all fields left out. -/
def unnamedAll : List Filter → List Filter
  | [] => []
  | f :: fs => f.unnamed :: unnamedAll fs
end

theorem unnamedAll_eq_map (fs : List Filter) : unnamedAll fs = fs.map unnamed := by
  induction fs with
  | nil => rfl
  | cons f fs ih => rw [unnamedAll, ih, List.map_cons]

end Filter

end FilterSql
