import FilterSql.Filter.Basic

/-!
# Canonical filters

Reading a document shapes each value as its operator asks, so the filters that come out of documents
are canonical: `Value.Fits` is the shape that an operator asks for, `Rule.Canonical` adds that data
are finite and that a type which is kept by its name is not a known one.  `Filter.rules` lists the
rules of a filter from left to right, and `Filter.levels` counts nested groups.
-/

namespace FilterSql

/-- The value has the very shape that the arity asks for. -/
def Value.Fits (v : Value) : Arity → Prop
  | .none => v = .absent
  | .single => ∃ x, v = .single x
  | .list => ∃ xs, xs ≠ [] ∧ v = .list xs
  | .pair => ∃ low high, v = .pair low high

/-- The scalars of a value from left to right. -/
def Value.scalars : Value → List Scalar
  | .absent => []
  | .single x => [x]
  | .list xs => xs
  | .pair low high => [low, high]

/-- The scalar is not an infinite datum and not one that is no number. -/
def Scalar.IsFinite : Scalar → Prop
  | .float x => x.isFinite = true
  | _ => True

/-- A type that is kept by its name has none of the known names. -/
def FieldType.IsProper : FieldType → Prop
  | .other name => name ∉ FieldType.knownNames
  | _ => True

/-- The rule is one that a document can hold. -/
def Rule.Canonical (r : Rule) : Prop :=
  r.value.Fits r.operator.arity ∧ (∀ x ∈ r.value.scalars, x.IsFinite) ∧ r.type.IsProper

namespace Filter

mutual
/-- The rules of a filter from left to right. -/
def rules : Filter → List Rule
  | .rule r => [r]
  | .group _ children => rulesOfAll children

/-- The rules of several filters from left to right. -/
def rulesOfAll : List Filter → List Rule
  | [] => []
  | f :: fs => f.rules ++ rulesOfAll fs
end

mutual
/-- The greatest number of groups on a branch. -/
def levels : Filter → Nat
  | .rule _ => 0
  | .group _ children => levelsOfAll children + 1

/-- The greatest number of groups on a branch of several filters. -/
def levelsOfAll : List Filter → Nat
  | [] => 0
  | f :: fs => max f.levels (levelsOfAll fs)
end

/-- All rules are canonical; groups may be childless. -/
def Canonical (f : Filter) : Prop := ∀ r ∈ f.rules, r.Canonical

theorem rulesOfAll_eq_flatMap (fs : List Filter) : rulesOfAll fs = fs.flatMap rules := by
  induction fs with
  | nil => rfl
  | cons f fs ih => rw [rulesOfAll, ih, List.flatMap_cons]

theorem levelsOfAll_le_iff {fs : List Filter} {n : Nat} :
    levelsOfAll fs ≤ n ↔ ∀ f ∈ fs, f.levels ≤ n := by
  induction fs with
  | nil => simp [levelsOfAll]
  | cons f fs ih => rw [levelsOfAll, Nat.max_le, ih, List.forall_mem_cons]

/-- Induction over a filter, a group having the property when all its children have it. -/
theorem induction {motive : Filter → Prop} (rule : ∀ r, motive (.rule r))
    (group : ∀ connective children, (∀ f ∈ children, motive f) →
      motive (.group connective children)) (f : Filter) : motive f := by
  match f with
  | .rule r => exact rule r
  | .group connective children =>
    exact group connective children fun g _ => induction rule group g
termination_by sizeOf f
decreasing_by
  have := List.sizeOf_lt_of_mem ‹g ∈ children›
  simp only [Filter.group.sizeOf_spec]
  omega

/-- What holds of the rules of a group holds of the rules of all its children. -/
theorem forall_mem_rules_group_iff {P : Rule → Prop} {connective : Connective}
    {children : List Filter} :
    (∀ r ∈ rules (.group connective children), P r) ↔ ∀ f ∈ children, ∀ r ∈ f.rules, P r := by
  simp only [rules, rulesOfAll_eq_flatMap, List.mem_flatMap]
  constructor
  · intro h f hf r hr
    exact h r ⟨f, hf, hr⟩
  · rintro h r ⟨f, hf, hr⟩
    exact h f hf r hr

theorem canonical_group_iff {connective : Connective} {children : List Filter} :
    Canonical (.group connective children) ↔ ∀ f ∈ children, f.Canonical :=
  forall_mem_rules_group_iff

end Filter

end FilterSql
