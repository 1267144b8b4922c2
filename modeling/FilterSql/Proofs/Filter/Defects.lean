import FilterSql.Filter.Place
import FilterSql.Proofs.Outcomes

/-!
# Defects

`Payload.defects` lists what is wrong with one object, in the order in which its members are looked
at, and `Payload.allDefects` what is wrong with a document, node after node; neither stops anywhere.
Reading a document gives the first of its defects as error (`Payload.finds_ofJson`): each reader
finds the defects of its part (`Finds`), and readers are put together as the lists are.
-/

namespace FilterSql

/-! ### Defects of values -/

/-- What keeps an element from being a scalar. -/
def Json.scalarDefects : Json → List Error
  | .null => [.malformed [] .nullInList]
  | .array _ | .object _ => [.malformed [] .notAScalar]
  | _ => []

/-- What is wrong with the elements of an array, from left to right. -/
def Json.elementDefects (xs : List Json) : List Error :=
  xs.zipIdx.flatMap fun x => x.1.scalarDefects.map (Error.within [.index x.2])

namespace Value

variable (operator : Operator)

def singleDefects : Json → List Error
  | .array xs =>
    if xs.length = 1 then Json.elementDefects xs else [.valueArity operator (.list xs.length)]
  | j => j.scalarDefects

def listDefects : Json → List Error
  | .array xs => if xs = [] then [.valueArity operator .emptyList] else Json.elementDefects xs
  | j => j.scalarDefects

def pairDefects : Json → List Error
  | .array xs =>
    if xs.length = 2 then Json.elementDefects xs else [.valueArity operator (.list xs.length)]
  | .string s =>
    if s.toList.count ',' = 1 then []
    else [.valueArity operator (.commaSeparated (s.toList.count ',' + 1))]
  | _ => [.valueArity operator .single]

/-- What is wrong with the value of a rule with the operator. -/
def defects (value : Option Json) : List Error :=
  match operator.arity, value with
  | .none, _ => []
  | _, none | _, some .null => [.valueArity operator .nothing]
  | .single, some j => singleDefects operator j
  | .list, some j => listDefects operator j
  | .pair, some j => pairDefects operator j

end Value

/-! ### Defects of objects -/

namespace Payload

variable (j : Json)

def conditionDefects : List Error :=
  match j.member? "condition" with
  | some (.string s) =>
    if (Connective.ofKeyword? s).isSome then []
    else [.malformed [.key "condition"] (.unknownCondition s)]
  | some _ => [.malformed [.key "condition"] .conditionNotText]
  | none => [.malformed [] .noCondition]

def rulesDefects : List Error :=
  match j.member? "rules" with
  | some (.array _) => []
  | _ => [.malformed [.key "rules"] .rulesNotAnArray]

def operatorDefects : List Error :=
  match j.member? "operator" with
  | some (.string tag) =>
    if (Operator.ofTag? tag).isSome then [] else [.unsupportedOperator tag]
  | _ => [.malformed [.key "operator"] .operatorNotText]

def fieldDefects : List Error :=
  match (j.member? "field").or (j.member? "id") with
  | some (.string _) => []
  | _ => [.malformed [] .noField]

def typeDefects : List Error :=
  match j.member? "type" with
  | none | some .null | some (.string _) => []
  | some _ => [.malformed [.key "type"] .typeNotText]

/-- What is wrong with the value, if it is known what it is for. -/
def valueDefects : List Error :=
  match j.member? "operator" with
  | some (.string tag) =>
    (Operator.ofTag? tag).toList.flatMap fun operator =>
      (Value.defects operator (j.member? "value")).map (Error.within [.key "value"])
  | _ => []

/-- What is wrong with an object itself; the children of a group do not count. -/
def defects : List Error :=
  if j.isObject = false then [.malformed [] .notAnObject]
  else if (j.member? "rules").isSome then conditionDefects j ++ rulesDefects j
  else if (j.member? "operator").isSome then
    operatorDefects j ++ fieldDefects j ++ typeDefects j ++ valueDefects j
  else [.malformed [] .neitherGroupNorRule]

/-- What is wrong with a document, in the order of its nodes. -/
def allDefects : List Error :=
  (nodes j).flatMap fun node => (defects node.2).map (Error.within node.1)

/-- The nodes by their paths alone, each with what is wrong with it. -/
def marks : List (Path × List Error) := (nodes j).map fun node => (node.1, defects node.2)

theorem allDefects_eq_flatMap_marks :
    allDefects j = (marks j).flatMap fun mark => mark.2.map (Error.within mark.1) := by
  rw [allDefects, marks, List.flatMap_map]

end Payload

/-! ### Reading finds the first defect -/

theorem Scalar.finds_ofJson (j : Json) : Finds (Scalar.ofJson j) j.scalarDefects := by
  cases j with
  | null | array | object => exact finds_error _ []
  | bool | number | string => exact finds_ok _

theorem Scalar.finds_eachAt_ofJson (xs : List Json) :
    Finds (eachAt Scalar.ofJson 0 xs) (Json.elementDefects xs) :=
  finds_eachAt 0 fun x _ => Scalar.finds_ofJson x

namespace Value

variable (operator : Operator)

theorem finds_singleOfJson (j : Json) :
    Finds (singleOfJson operator j) (singleDefects operator j) := by
  have hscalar := (Scalar.finds_ofJson j).map single
  cases j with
  | array xs =>
    rcases xs with _ | ⟨x, _ | ⟨y, xs⟩⟩
    · exact finds_error _ []
    · have hx := ((Scalar.finds_ofJson x).located [.index 0]).map single
      simpa [singleDefects, Json.elementDefects, singleOfJson] using hx
    · exact finds_error _ []
  | _ => exact hscalar

theorem finds_listOfJson (j : Json) :
    Finds (listOfJson operator j) (listDefects operator j) := by
  have hscalar := (Scalar.finds_ofJson j).map fun x => list [x]
  cases j with
  | array xs =>
    cases xs with
    | nil => exact finds_error _ []
    | cons x xs => exact (Scalar.finds_eachAt_ofJson (x :: xs)).map list
  | string s => exact finds_ok _
  | _ => exact hscalar

theorem finds_pairOfJson (j : Json) :
    Finds (pairOfJson operator j) (pairDefects operator j) := by
  cases j with
  | array xs =>
    rcases xs with _ | ⟨x, _ | ⟨y, _ | ⟨z, xs⟩⟩⟩
    · exact finds_error _ []
    · exact finds_error _ []
    · have hx := (Scalar.finds_ofJson x).located [.index 0]
      have hy := (Scalar.finds_ofJson y).located [.index 1]
      have hxy := hx.bind fun low _ => hy.bind fun high _ => finds_ok (pair low high)
      have hd : pairDefects operator (.array [x, y]) = x.scalarDefects.map (Error.within [.index 0])
          ++ y.scalarDefects.map (Error.within [.index 1]) := by
        simp [pairDefects, Json.elementDefects]
      rw [List.append_nil] at hxy
      rw [hd]
      exact hxy
    · exact finds_error _ []
  | string s =>
    have hlength : ((Text.pieces ',' s).map Text.trim).length = s.toList.count ',' + 1 := by
      rw [List.length_map, Text.length_pieces]
    rw [pairOfJson, pairDefects]
    split
    · rename_i low high hparts
      have hcount : s.toList.count ',' = 1 := by
        rw [hparts] at hlength
        simpa using hlength.symm
      rw [if_pos hcount]
      exact finds_ok _
    · rename_i hparts
      have hcount : s.toList.count ',' ≠ 1 := by
        intro h
        rw [h, List.length_eq_two] at hlength
        obtain ⟨low, high, hp⟩ := hlength
        exact hparts low high hp
      rw [if_neg hcount, ← hlength]
      exact finds_error _ []
  | _ => exact finds_error _ []

theorem finds_ofJson (value : Option Json) :
    Finds (ofJson operator value) (defects operator value) := by
  unfold ofJson defects
  rcases value with _ | j
  · cases operator.arity with
    | none => exact finds_ok _
    | _ => exact finds_error _ []
  · cases operator.arity with
    | none => exact finds_ok _
    | single =>
      cases j with
      | null => exact finds_error _ []
      | _ => exact finds_singleOfJson operator _
    | list =>
      cases j with
      | null => exact finds_error _ []
      | _ => exact finds_listOfJson operator _
    | pair =>
      cases j with
      | null => exact finds_error _ []
      | _ => exact finds_pairOfJson operator _

end Value

namespace Payload

theorem finds_readOperator (j : Json) : Finds (readOperator j) (operatorDefects j) := by
  unfold readOperator operatorDefects
  rcases j.member? "operator" with _ | v
  · exact finds_error _ []
  · cases v with
    | string tag =>
      dsimp only
      cases Operator.ofTag? tag with
      | none => exact finds_error _ []
      | some operator => exact finds_ok operator
    | _ => exact finds_error _ []

theorem finds_readField (j : Json) : Finds (readField j) (fieldDefects j) := by
  unfold readField fieldDefects
  rcases (j.member? "field").or (j.member? "id") with _ | v
  · exact finds_error _ []
  · cases v with
    | string => exact finds_ok _
    | _ => exact finds_error _ []

theorem finds_readType (j : Json) : Finds (readType j) (typeDefects j) := by
  unfold readType typeDefects
  rcases j.member? "type" with _ | t
  · exact finds_ok _
  · cases t with
    | null | string => exact finds_ok _
    | _ => exact finds_error _ []

theorem finds_readConnective (j : Json) : Finds (readConnective j) (conditionDefects j) := by
  unfold readConnective conditionDefects
  rcases j.member? "condition" with _ | v
  · exact finds_error _ []
  · cases v with
    | string s =>
      dsimp only
      cases Connective.ofKeyword? s with
      | none => exact finds_error _ []
      | some connective => exact finds_ok connective
    | _ => exact finds_error _ []

theorem finds_readItems (j : Json) : Finds (readItems j) (rulesDefects j) := by
  unfold readItems rulesDefects
  rcases j.member? "rules" with _ | v
  · exact finds_error _ []
  · cases v with
    | array => exact finds_ok _
    | _ => exact finds_error _ []

theorem valueDefects_of_readOperator {j : Json} {operator : Operator}
    (h : readOperator j = .ok operator) :
    valueDefects j
      = (Value.defects operator (j.member? "value")).map (Error.within [.key "value"]) := by
  unfold readOperator at h
  split at h
  · rename_i tag htag
    split at h
    · rename_i operator' ho
      obtain rfl := Except.ok.inj h
      rw [valueDefects, htag]
      simp [ho]
    · exact absurd h (by simp)
  · exact absurd h (by simp)

theorem finds_readRule (j : Json) :
    Finds (readRule j)
      (operatorDefects j ++ (fieldDefects j ++ (typeDefects j ++ valueDefects j))) := by
  refine (finds_readOperator j).bind fun operator ho => ?_
  refine (finds_readField j).bind fun field _ => ?_
  refine (finds_readType j).bind fun type _ => ?_
  rw [valueDefects_of_readOperator ho]
  exact ((Value.finds_ofJson operator _).located _).map _

/-- The checks of one object find its own defects. -/
theorem finds_readNode (j : Json) : Finds (readNode j) (defects j) := by
  unfold readNode defects
  by_cases ho : j.isObject = false
  · rw [if_pos ho, if_pos ho]
    exact finds_error _ []
  rw [if_neg ho, if_neg ho]
  by_cases hr : (j.member? "rules").isSome
  · rw [if_pos hr, if_pos hr]
    exact (finds_readConnective j).bind fun c _ => (finds_readItems j).map (Node.group c)
  rw [if_neg hr, if_neg hr]
  by_cases ht : (j.member? "operator").isSome
  · rw [if_pos ht, if_pos ht, List.append_assoc, List.append_assoc]
    exact (finds_readRule j).map Node.rule
  · rw [if_neg ht, if_neg ht]
    exact finds_error _ []

theorem items_of_readNode_rule {j : Json} {r : Rule} (h : readNode j = .ok (.rule r)) :
    items j = [] := by
  unfold readNode at h
  split at h
  · exact absurd h (by simp)
  · split at h
    · cases hc : readConnective j with
      | error e => simp [hc, bind, Except.bind] at h
      | ok c => cases hi : readItems j <;> simp [hc, hi, bind, Except.bind, pure, Except.pure] at h
    · rename_i hrules
      rw [Bool.not_eq_true, Option.isSome_eq_false_iff, Option.isNone_iff_eq_none] at hrules
      rw [items, hrules]

theorem items_of_readNode_group {j : Json} {connective : Connective} {xs : List Json}
    (h : readNode j = .ok (.group connective xs)) : items j = xs := by
  rw [items, member?_rules_of_readItems (readItems_of_readNode h)]

theorem allDefects_eq (j : Json) :
    allDefects j = defects j ++ (items j).zipIdx.flatMap fun item =>
      (allDefects item.1).map (Error.within [.key "rules", .index item.2]) := by
  have hnode : ∀ item : Json × Nat,
      ((nodes item.1).map fun node =>
          (([.key "rules", .index item.2] : Path) ++ node.1, node.2)).flatMap
        (fun node => (defects node.2).map (Error.within node.1))
      = (allDefects item.1).map (Error.within [.key "rules", .index item.2]) := by
    intro item
    rw [allDefects, List.flatMap_map, List.map_flatMap]
    simp [Function.comp_def]
  rw [allDefects, nodes_eq, List.flatMap_cons, Error.map_within_nil, List.flatMap_assoc]
  simp only [hnode]

/-- The error of reading a document is the first of its defects. -/
theorem finds_ofJson (j : Json) : Finds (Filter.ofJson j) (allDefects j) := by
  induction j using Payload.induction with
  | step j ih =>
    have hnode := finds_readNode j
    rw [allDefects_eq]
    cases hn : readNode j with
    | error e =>
      rw [hn] at hnode
      rw [Filter.ofJson_of_error hn]
      exact hnode.append_of_error _
    | ok node =>
      rw [hn] at hnode
      rw [hnode.eq_nil, List.nil_append]
      cases node with
      | rule r =>
        rw [Filter.ofJson_of_rule hn, items_of_readNode_rule hn]
        exact finds_ok _
      | group connective xs =>
        have hxs := items_of_readNode_group hn
        rw [hxs] at ih
        have h := ((finds_eachAt 0 ih).located [.key "rules"]).map (Filter.group connective)
        rw [Filter.ofJson_of_group hn, hxs]
        simpa [List.map_flatMap, Function.comp_def] using h

end Payload

/-! ### Documents are already decoded -/

theorem Error.within_eq_notJson_iff {steps : Path} {e : Error} :
    e.within steps = .notJson ↔ e = .notJson := by
  cases e <;> simp [within]

theorem Error.notJson_notMem_map_within {steps : Path} {defects : List Error}
    (h : .notJson ∉ defects) : .notJson ∉ defects.map (Error.within steps) := by
  simpa [within_eq_notJson_iff] using h

theorem Json.notJson_notMem_scalarDefects (j : Json) : .notJson ∉ j.scalarDefects := by
  cases j <;> simp [scalarDefects]

theorem Json.notJson_notMem_elementDefects (xs : List Json) : .notJson ∉ elementDefects xs := by
  intro h
  obtain ⟨x, -, hx⟩ := List.mem_flatMap.1 h
  exact Error.notJson_notMem_map_within (notJson_notMem_scalarDefects x.1) hx

theorem Value.notJson_notMem_defects (operator : Operator) (value : Option Json) :
    .notJson ∉ defects operator value := by
  have hscalar := Json.notJson_notMem_scalarDefects
  have helement := Json.notJson_notMem_elementDefects
  unfold defects
  split
  · simp
  · simp
  · simp
  · unfold singleDefects
    split <;> (try split) <;> simp_all
  · unfold listDefects
    split <;> (try split) <;> simp_all
  · unfold pairDefects
    split <;> (try split) <;> simp_all

namespace Payload

theorem notJson_notMem_valueDefects (j : Json) : .notJson ∉ valueDefects j := by
  unfold valueDefects
  split
  · intro h
    obtain ⟨operator, -, ho⟩ := List.mem_flatMap.1 h
    exact Error.notJson_notMem_map_within (Value.notJson_notMem_defects operator _) ho
  · simp

theorem notJson_notMem_defects (j : Json) : .notJson ∉ defects j := by
  have hgroup : .notJson ∉ conditionDefects j ++ rulesDefects j := by
    unfold conditionDefects rulesDefects
    repeat' split
    all_goals simp
  have hrule : .notJson ∉ operatorDefects j ++ fieldDefects j ++ typeDefects j := by
    unfold operatorDefects fieldDefects typeDefects
    repeat' split
    all_goals simp
  unfold defects
  split
  · simp
  · split
    · exact hgroup
    · split
      · exact List.not_mem_append hrule (notJson_notMem_valueDefects j)
      · simp

/-- A document can be wrong in many ways, but not as a text that is none. -/
theorem ofJson_ne_notJson (j : Json) : Filter.ofJson j ≠ .error .notJson := by
  intro h
  have hmem := List.mem_of_mem_head? ((finds_ofJson j .notJson).1 h)
  obtain ⟨node, -, hn⟩ := List.mem_flatMap.1 hmem
  exact Error.notJson_notMem_map_within (notJson_notMem_defects node.2) hn

end Payload

end FilterSql
