import FilterSql.Filter.Located
import FilterSql.Proofs.Lists

/-!
# Outcomes and defects

What is checked part by part fails with the first thing that is wrong.  `Finds` ties an outcome to
the list of all that is wrong: the outcome is an error just when there is something, and then it is
the first.  The list of a whole is put together from the lists of its parts as the outcome is
(`Finds.bind`, `Finds.located`, `finds_eachAt`).  In the same way `AgreeBy` compares the outcomes of
two runs, which either fail alike or have results that a relation ties together.
-/

namespace FilterSql

/-- All items have outcomes exactly when the outcomes match the items one by one. -/
theorem eachAt_eq_ok_iff_forall₂ {α β : Type} {f : α → Except Error β} {i : Nat} {xs : List α}
    {ys : List β} : eachAt f i xs = .ok ys ↔ List.Forall₂ (fun x y => f x = .ok y) xs ys := by
  rw [eachAt_eq_ok_iff, map_eq_map_iff_forall₂]

/-! ### The first defect -/

/-- The outcome is an error just when there are defects, and then it is the first of them. -/
def Finds {α : Type} (outcome : Except Error α) (defects : List Error) : Prop :=
  ∀ e, outcome = .error e ↔ defects.head? = some e

section Finds

variable {α β : Type} {outcome : Except Error α} {defects : List Error}

theorem finds_ok (a : α) : Finds (.ok a) [] := by
  simp [Finds]

theorem finds_error (e : Error) (rest : List Error) :
    Finds (.error e : Except Error α) (e :: rest) := by
  simp [Finds]

theorem Finds.eq_nil {a : α} (h : Finds (.ok a) defects) : defects = [] := by
  cases defects with
  | nil => rfl
  | cons e rest => exact absurd ((h e).2 rfl) (by simp)

/-- There is an outcome just when there are no defects. -/
theorem Finds.exists_ok_iff (h : Finds outcome defects) : (∃ a, outcome = .ok a) ↔ defects = [] := by
  constructor
  · rintro ⟨a, rfl⟩
    exact h.eq_nil
  · rintro rfl
    cases outcome with
    | ok a => exact ⟨a, rfl⟩
    | error e => exact absurd ((h e).1 rfl) (by simp)

/-- What comes behind the first defect does not matter. -/
theorem Finds.append_of_error {e : Error} (h : Finds (.error e : Except Error α) defects)
    (more : List Error) : Finds (.error e : Except Error β) (defects ++ more) := by
  have he : defects.head? = some e := (h e).1 rfl
  intro e'
  rw [List.head?_append, he]
  simp

theorem Finds.bind {f : α → Except Error β} {more : List Error} (h : Finds outcome defects)
    (hf : ∀ a, outcome = .ok a → Finds (f a) more) : Finds (outcome >>= f) (defects ++ more) := by
  cases outcome with
  | error e => exact h.append_of_error more
  | ok a =>
    rw [h.eq_nil, List.nil_append]
    exact hf a rfl

theorem Finds.map (g : α → β) (h : Finds outcome defects) : Finds (outcome.map g) defects := by
  intro e
  rw [← h e]
  cases outcome <;> simp [Except.map]

theorem Finds.located (steps : Path) (h : Finds outcome defects) :
    Finds (located steps outcome) (defects.map (Error.within steps)) := by
  intro e
  rw [located_eq_error_iff, List.head?_map, Option.map_eq_some_iff]
  simp only [h _, eq_comm]

/-- Going through a list finds the defects of all items, each located at its index. -/
theorem finds_eachAt {f : α → Except Error β} {g : α → List Error} (i : Nat) {xs : List α}
    (h : ∀ x ∈ xs, Finds (f x) (g x)) :
    Finds (eachAt f i xs)
      ((xs.zipIdx i).flatMap fun x => (g x.1).map (Error.within [.index x.2])) := by
  induction xs generalizing i with
  | nil => exact finds_ok []
  | cons x xs ih =>
    obtain ⟨hx, hxs⟩ := List.forall_mem_cons.1 h
    rw [List.zipIdx_cons, List.flatMap_cons]
    exact (hx.located _).bind fun _ _ => (ih (i + 1) hxs).map _

/-- There are no located defects just when no item has a defect. -/
theorem flatMap_within_eq_nil_iff (steps : Nat → Path) {g : α → List Error} {i : Nat}
    {xs : List α} :
    ((xs.zipIdx i).flatMap fun x => (g x.1).map (Error.within (steps x.2))) = [] ↔
      ∀ x ∈ xs, g x = [] := by
  simp only [List.flatMap_eq_nil_iff, List.map_eq_nil_iff]
  rw [← List.forall_mem_map (f := Prod.fst) (P := fun x => g x = []), List.zipIdx_map_fst]

end Finds

/-! ### Two runs -/

/-- The outcomes are the same error, or results in the relation. -/
inductive AgreeBy {α β : Type} (R : α → β → Prop) : Except Error α → Except Error β → Prop
  | error (e : Error) : AgreeBy R (.error e) (.error e)
  | ok {a : α} {b : β} (h : R a b) : AgreeBy R (.ok a) (.ok b)

section AgreeBy

variable {α β α' β' : Type} {R : α → β → Prop} {S : α' → β' → Prop} {outcome : Except Error α}
  {outcome' : Except Error β}

theorem AgreeBy.refl {R : α → α → Prop} (h : ∀ a, R a a) (outcome : Except Error α) :
    AgreeBy R outcome outcome := by
  cases outcome with
  | error e => exact .error e
  | ok a => exact .ok (h a)

theorem AgreeBy.eq {outcome outcome' : Except Error α} (h : AgreeBy Eq outcome outcome') :
    outcome = outcome' := by
  cases h with
  | error e => rfl
  | ok h => rw [h]

theorem AgreeBy.bind {f : α → Except Error α'} {g : β → Except Error β'}
    (h : AgreeBy R outcome outcome')
    (hfg : ∀ a b, outcome = .ok a → outcome' = .ok b → R a b → AgreeBy S (f a) (g b)) :
    AgreeBy S (outcome >>= f) (outcome' >>= g) := by
  cases h with
  | error e => exact .error e
  | ok h => exact hfg _ _ rfl rfl h

/-- Two runs that start alike. -/
theorem AgreeBy.bind_same {f : α → Except Error α'} {g : α → Except Error β'}
    (h : ∀ a, outcome = .ok a → AgreeBy S (f a) (g a)) :
    AgreeBy S (outcome >>= f) (outcome >>= g) := by
  cases outcome with
  | error e => exact .error e
  | ok a => exact h a rfl

theorem AgreeBy.map {f : α → α'} {g : β → β'} (h : AgreeBy R outcome outcome')
    (hfg : ∀ a b, R a b → S (f a) (g b)) : AgreeBy S (outcome.map f) (outcome'.map g) := by
  cases h with
  | error e => exact .error e
  | ok h => exact .ok (hfg _ _ h)

theorem AgreeBy.located (steps : Path) (h : AgreeBy R outcome outcome') :
    AgreeBy R (located steps outcome) (located steps outcome') := by
  cases h with
  | error e => exact .error _
  | ok h => exact .ok h

/-- Two runs through lists agree when their items do, one by one. -/
theorem agreeBy_eachAt {f : α → Except Error α'} {g : β → Except Error β'} (i : Nat) {xs : List α}
    {ys : List β} (h : List.Forall₂ (fun x y => AgreeBy S (f x) (g y)) xs ys) :
    AgreeBy (List.Forall₂ S) (eachAt f i xs) (eachAt g i ys) := by
  induction h generalizing i with
  | nil => exact .ok .nil
  | cons hxy _ ih =>
    refine (hxy.located _).bind fun a b _ _ hab => ?_
    exact (ih (i + 1)).bind fun as bs _ _ habs => .ok (.cons hab habs)

end AgreeBy

end FilterSql
