import FilterSql.Filter.Canonical
import FilterSql.Filter.Error

/-!
# Parts of a filter

A part of a filter is named by the indices that lead to it from child to child.  `Filter.at?` follows
them, and `Filter.parts` lists all parts, a group before its children and children from left to
right.  `Path.ofIndices` is the path that errors show for a part.  The levels of a filter are the most
groups that lie on one branch (`Filter.levels_le_iff`).
-/

namespace FilterSql

namespace Filter

/-- The part that the indices lead to. -/
def at? : List Nat → Filter → Option Filter
  | [], f => some f
  | i :: place, .group _ children => children[i]?.bind (at? place)
  | _ :: _, .rule _ => none

mutual
/-- The parts with the indices that lead to them. -/
def parts : Filter → List (List Nat × Filter)
  | .rule r => [([], .rule r)]
  | .group connective children => ([], .group connective children) :: partsOfAll 0 children

/-- The parts of the children of a group, the first of which has index `i`. -/
def partsOfAll (i : Nat) : List Filter → List (List Nat × Filter)
  | [] => []
  | f :: fs => f.parts.map (fun part => (i :: part.1, part.2)) ++ partsOfAll (i + 1) fs
end

theorem partsOfAll_eq_flatMap (i : Nat) (fs : List Filter) :
    partsOfAll i fs = (fs.zipIdx i).flatMap fun child =>
      child.1.parts.map fun part => (child.2 :: part.1, part.2) := by
  induction fs generalizing i with
  | nil => rfl
  | cons f fs ih => rw [partsOfAll, ih, List.zipIdx_cons, List.flatMap_cons]

/-- Each part lies where its indices say. -/
theorem at?_of_mem_parts (f : Filter) : ∀ part ∈ f.parts, f.at? part.1 = some part.2 := by
  induction f using Filter.induction with
  | rule r =>
    intro part hp
    obtain rfl := List.mem_singleton.1 (by simpa only [parts] using hp)
    rfl
  | group connective children ih =>
    intro part hp
    rw [parts, List.mem_cons, partsOfAll_eq_flatMap, List.mem_flatMap] at hp
    rcases hp with rfl | ⟨⟨child, i⟩, hi, hp⟩
    · rfl
    · obtain ⟨below, hb, rfl⟩ := List.mem_map.1 hp
      rw [List.mem_zipIdx_iff_getElem?] at hi
      rw [at?, hi]
      exact ih child (List.mem_of_getElem? hi) below hb

/-- The rules among the parts are rules of the filter. -/
theorem mem_rules_of_mem_parts (f : Filter) :
    ∀ part ∈ f.parts, ∀ r, part.2 = .rule r → r ∈ f.rules := by
  induction f using Filter.induction with
  | rule r =>
    intro part hp r' hr
    obtain rfl := List.mem_singleton.1 (by simpa only [parts] using hp)
    obtain rfl := Filter.rule.inj hr
    simp [rules]
  | group connective children ih =>
    intro part hp r hr
    rw [parts, List.mem_cons, partsOfAll_eq_flatMap, List.mem_flatMap] at hp
    rcases hp with rfl | ⟨⟨child, i⟩, hi, hp⟩
    · exact absurd hr (by simp)
    · obtain ⟨below, hb, rfl⟩ := List.mem_map.1 hp
      have hchild := List.mem_of_getElem? (List.mem_zipIdx_iff_getElem?.1 hi)
      rw [rules, rulesOfAll_eq_flatMap]
      exact List.mem_flatMap.2 ⟨child, hchild, ih child hchild below hb r hr⟩

/-- A branch that ends with a group has this group and one group for each index. -/
theorem levels_le_iff (f : Filter) : ∀ n, f.levels ≤ n ↔ ∀ indices connective children,
    f.at? indices = some (.group connective children) → indices.length < n := by
  induction f using Filter.induction with
  | rule r =>
    refine fun n => ⟨fun _ indices connective children h => ?_, fun _ => Nat.zero_le n⟩
    cases indices <;> simp [at?] at h
  | group connective children ih =>
    intro n
    rw [levels]
    constructor
    · intro h indices connective' children' hat
      cases indices with
      | nil => exact Nat.zero_lt_of_lt h
      | cons i place =>
        obtain ⟨child, hi, hat⟩ := Option.bind_eq_some_iff.1 hat
        have hmem := List.mem_of_getElem? hi
        have hlevels : child.levels ≤ n - 1 :=
          levelsOfAll_le_iff.1 (Nat.le_sub_of_add_le h) child hmem
        have := (ih child hmem (n - 1)).1 hlevels place connective' children' hat
        rw [List.length_cons]
        omega
    · intro h
      have hpos : 0 < n := h [] connective children rfl
      have hchildren : levelsOfAll children ≤ n - 1 := by
        refine levelsOfAll_le_iff.2 fun child hmem => (ih child hmem (n - 1)).2 ?_
        intro place connective' children' hat
        obtain ⟨i, hi⟩ := List.mem_iff_getElem?.1 hmem
        have := h (i :: place) connective' children' (by rw [at?, hi]; exact hat)
        rw [List.length_cons] at this
        omega
      omega

end Filter

/-! ### Paths of parts -/

/-- The path of a part in the document of the filter. -/
def Path.ofIndices (place : List Nat) : Path :=
  place.flatMap fun i => [.key "rules", .index i]

@[simp] theorem Path.ofIndices_nil : Path.ofIndices [] = [] := rfl

theorem Path.ofIndices_cons (i : Nat) (place : List Nat) :
    Path.ofIndices (i :: place) = [.key "rules", .index i] ++ Path.ofIndices place := rfl

/-- A path goes through `rules` to each child. -/
theorem Path.length_ofIndices (place : List Nat) :
    (Path.ofIndices place).length = 2 * place.length := by
  induction place with
  | nil => rfl
  | cons i place ih =>
    rw [ofIndices_cons, List.length_append, ih, List.length_cons, List.length_cons,
      List.length_cons, List.length_nil]
    omega

theorem Path.text_ofIndices (place : List Nat) :
    (Path.ofIndices place).text
      = "filter" ++ String.join (place.map fun i => ".rules[" ++ i.repr ++ "]") := by
  rw [← String.toList_inj]
  simp [Path.text, Path.ofIndices, String.toList_join, List.map_flatMap, List.flatMap_assoc,
    List.flatMap_map, Step.text]

end FilterSql
