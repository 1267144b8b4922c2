import FilterSql.Filter.Payload

/-!
# Places in a document

`Json.at?` follows a path down a document.  `Payload.nodes` lists the objects that are read as groups
and rules, each with its path, a group before its children and children from left to right; its
recursion looks at `rules` alone and reads nothing.  `Reason.HoldsOf` is what each reason for a
malformed document says about the part it points at.
-/

namespace FilterSql

/-- The part that one step leads to. -/
def Json.step? : Step → Json → Option Json
  | .key name, j => j.member? name
  | .index i, .array items => items[i]?
  | .index _, _ => none

/-- The part that a path leads to. -/
def Json.at? : Path → Json → Option Json
  | [], j => some j
  | step :: path, j => (j.step? step).bind (Json.at? path)

theorem Json.at?_append (p q : Path) (j : Json) :
    j.at? (p ++ q) = (j.at? p).bind (Json.at? q) := by
  induction p generalizing j with
  | nil => rfl
  | cons step p ih =>
    rw [List.cons_append, at?, at?]
    cases j.step? step with
    | none => rfl
    | some k => exact ih k

theorem Json.depth_lt_of_step? {step : Step} {j k : Json} (h : j.step? step = some k) :
    k.depth < j.depth := by
  cases step with
  | key name => exact depth_member?_lt h
  | index i =>
    cases j with
    | array items =>
      rw [depth]
      exact Nat.lt_succ_of_le (depth_le_depthOfItems (List.mem_of_getElem? h))
    | _ => simp [step?] at h

/-- Every step of a path goes one level down. -/
theorem Json.length_add_depth_le_of_at? {p : Path} {j k : Json} (h : j.at? p = some k) :
    p.length + k.depth ≤ j.depth := by
  induction p generalizing j with
  | nil =>
    obtain rfl := Option.some.inj h
    simp
  | cons step p ih =>
    obtain ⟨next, hnext, h⟩ := Option.bind_eq_some_iff.1 h
    have := depth_lt_of_step? hnext
    have := ih h
    rw [List.length_cons]
    omega

namespace Payload

/-- What stands in the array under `rules`. -/
def items (j : Json) : List Json :=
  match j.member? "rules" with
  | some (.array items) => items
  | _ => []

theorem sizeOf_lt_of_mem_items {j item : Json} (h : item ∈ items j) : sizeOf item < sizeOf j := by
  unfold items at h
  split at h
  · rename_i xs hm
    have h₁ := Json.sizeOf_member?_lt hm
    have h₂ := List.sizeOf_lt_of_mem h
    simp only [Json.array.sizeOf_spec] at h₁
    omega
  · simp at h

/-- The objects that are read, each with its path, in document order. -/
def nodes (j : Json) : List (Path × Json) :=
  ([], j) :: (items j).attach.zipIdx.flatMap fun item =>
    (nodes item.1.1).map fun node => ([.key "rules", .index item.2] ++ node.1, node.2)
termination_by sizeOf j
decreasing_by exact sizeOf_lt_of_mem_items item.1.2

theorem nodes_eq (j : Json) :
    nodes j = ([], j) :: (items j).zipIdx.flatMap fun item =>
      (nodes item.1).map fun node => ([.key "rules", .index item.2] ++ node.1, node.2) := by
  have hattach : (items j).zipIdx = (items j).attach.zipIdx.map (Prod.map Subtype.val id) := by
    rw [← List.zipIdx_map, List.attach_map_subtype_val]
  rw [nodes, hattach, List.flatMap_map]
  rfl

/-- Induction over a document, down the arrays under `rules`. -/
theorem induction {motive : Json → Prop}
    (step : ∀ j, (∀ item ∈ items j, motive item) → motive j) (j : Json) : motive j :=
  step j fun item _ => induction step item
termination_by sizeOf j
decreasing_by exact sizeOf_lt_of_mem_items ‹_›

/-- Each object stands where its path says. -/
theorem at?_of_mem_nodes (j : Json) : ∀ node ∈ nodes j, j.at? node.1 = some node.2 := by
  induction j using induction with
  | step j ih =>
    intro node hn
    rw [nodes_eq, List.mem_cons, List.mem_flatMap] at hn
    rcases hn with rfl | ⟨⟨item, i⟩, hi, hn⟩
    · rfl
    · obtain ⟨below, hb, rfl⟩ := List.mem_map.1 hn
      rw [List.mem_zipIdx_iff_getElem?] at hi
      have hitem : j.at? [.key "rules", .index i] = some item := by
        unfold items at hi
        split at hi
        · rename_i xs hx
          simpa [Json.at?, Json.step?, hx] using hi
        · simp at hi
      rw [Json.at?_append, hitem]
      exact ih item (List.mem_of_getElem? hi) below hb

end Payload

/-- What the reason says of the part of a document that it is given for.  The reasons about a missing
member are given for the object. -/
def Reason.HoldsOf (j : Json) : Reason → Prop
  | .notAnObject => j.isObject = false
  | .neitherGroupNorRule =>
    j.isObject = true ∧ j.member? "rules" = none ∧ j.member? "operator" = none
  | .unknownCondition s => j = .string s ∧ Connective.ofKeyword? s = none
  | .conditionNotText => ∀ s, j ≠ .string s
  | .noCondition => (j.member? "rules").isSome ∧ j.member? "condition" = none
  | .rulesNotAnArray => ∀ items, j ≠ .array items
  | .operatorNotText => ∀ s, j ≠ .string s
  | .noField =>
    (j.member? "operator").isSome ∧ ∀ s, (j.member? "field").or (j.member? "id") ≠ some (.string s)
  | .typeNotText => j ≠ .null ∧ ∀ s, j ≠ .string s
  | .nullInList => j = .null
  | .notAScalar => (∃ items, j = .array items) ∨ ∃ members, j = .object members

end FilterSql
