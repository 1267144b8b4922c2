import FilterSql.Filter.Similar
import FilterSql.Proofs.Filter.Acceptance
import FilterSql.Proofs.Outcomes

/-!
# Reading similar documents

Similar documents are read to filters that are equal up to the names of fields, or both fail with the
same error (`Filter.agreeBy_ofJson`).  The checks of one object look at few members, and these agree
in similar documents (`Payload.SameNode`); the children of groups then follow by induction over the
document.
-/

namespace FilterSql

/-! ### The same documents -/

namespace Json.Same

variable {j k : Json}

theorem member? (h : Same j k) (name : String) :
    SameMember (j.member? name) (k.member? name) := by
  cases h with
  | refl =>
    cases j.member? name with
    | none => exact .none
    | some v => exact .some (.refl v)
  | array items => exact .none
  | object lookups => exact lookups name

theorem isObject (h : Same j k) : j.isObject = k.isObject := by
  cases h <;> rfl

theorem eq_null_iff (h : Same j k) : j = .null ↔ k = .null := by
  cases h <;> simp

theorem scalar (h : Same j k) : Scalar.ofJson j = Scalar.ofJson k := by
  cases h <;> rfl

/-- The same documents are arrays of the same items, or none of them is an array. -/
theorem items (h : Same j k) :
    (∃ xs ys, j = .array xs ∧ k = .array ys ∧ List.Forall₂ Same xs ys) ∨
      (∀ xs, j ≠ .array xs) ∧ ∀ ys, k ≠ .array ys := by
  cases h with
  | refl =>
    cases j with
    | array xs => exact .inl ⟨xs, xs, rfl, rfl, List.forall₂_same.2 fun x _ => .refl x⟩
    | _ => simp
  | array items => exact .inl ⟨_, _, rfl, rfl, items⟩
  | object lookups => simp

end Json.Same

theorem Json.ne_null_of_isObject {j : Json} (h : j.isObject = true) : j ≠ .null := by
  rintro rfl
  exact absurd h (by simp [isObject])

theorem Json.member?_of_isObject_eq_false {j : Json} (h : j.isObject = false) (name : String) :
    j.member? name = none := by
  cases j with
  | object members => exact absurd h (by simp [isObject])
  | _ => rfl

namespace SameMember

variable {a b c d : Option Json}

theorem or (h : SameMember a b) (h' : SameMember c d) : SameMember (a.or c) (b.or d) := by
  cases h with
  | none => exact h'
  | some h => exact .some h

theorem isSome (h : SameMember a b) : a.isSome = b.isSome := by
  cases h <;> rfl

/-- All that the same members may differ in lies inside arrays and objects. -/
theorem eq_or_compound (h : SameMember a b) :
    a = b ∨ (∃ xs ys, a = some (.array xs) ∧ b = some (.array ys) ∧ List.Forall₂ Json.Same xs ys) ∨
      ∃ members members', a = some (.object members) ∧ b = some (.object members') := by
  cases h with
  | none => exact .inl rfl
  | some h =>
    cases h with
    | refl => exact .inl rfl
    | array items => exact .inr (.inl ⟨_, _, rfl, rfl, items⟩)
    | object lookups => exact .inr (.inr ⟨_, _, rfl, rfl⟩)

theorem eq_string_iff (h : SameMember a b) (s : String) :
    a = some (.string s) ↔ b = some (.string s) := by
  rcases h.eq_or_compound with rfl | ⟨xs, ys, rfl, rfl, -⟩ | ⟨members, members', rfl, rfl⟩
  · rfl
  · simp
  · simp

end SameMember

/-! ### Values -/

namespace Value

variable {operator : Operator} {a b : Option Json} {xs ys : List Json}

theorem singleOfJson_array_congr (h : List.Forall₂ Json.Same xs ys) :
    singleOfJson operator (.array xs) = singleOfJson operator (.array ys) := by
  cases h with
  | nil => rfl
  | cons hx hrest =>
    cases hrest with
    | nil => simp only [singleOfJson, hx.scalar]
    | cons _ hrest => simp [singleOfJson, hrest.length_eq]

theorem listOfJson_array_congr (h : List.Forall₂ Json.Same xs ys) :
    listOfJson operator (.array xs) = listOfJson operator (.array ys) := by
  have hscalars : xs.map Scalar.ofJson = ys.map Scalar.ofJson :=
    map_eq_map_iff_forall₂.2 (h.imp fun _ _ hxy => hxy.scalar)
  have hread := eachAt_congr hscalars 0
  cases h with
  | nil => rfl
  | cons hx hrest => simp only [listOfJson, hread]

theorem pairOfJson_array_congr (h : List.Forall₂ Json.Same xs ys) :
    pairOfJson operator (.array xs) = pairOfJson operator (.array ys) := by
  rcases h with _ | ⟨hx, _ | ⟨hy, _ | ⟨hz, hrest⟩⟩⟩
  · rfl
  · rfl
  · simp only [pairOfJson, hx.scalar, hy.scalar]
  · simp [pairOfJson, hrest.length_eq]

/-- The same value is read from the same member. -/
theorem ofJson_congr (h : SameMember a b) : ofJson operator a = ofJson operator b := by
  rcases h.eq_or_compound with rfl | ⟨xs, ys, rfl, rfl, items⟩ | ⟨members, members', rfl, rfl⟩
  · rfl
  · cases harity : operator.arity with
    | none => simp [ofJson, harity]
    | single => simp [ofJson, harity, singleOfJson_array_congr items]
    | list => simp [ofJson, harity, listOfJson_array_congr items]
    | pair => simp [ofJson, harity, pairOfJson_array_congr items]
  · cases harity : operator.arity with
    | none => simp [ofJson, harity]
    | single => simp [ofJson, harity, singleOfJson, Scalar.ofJson]
    | list => simp [ofJson, harity, listOfJson, Scalar.ofJson]
    | pair => simp [ofJson, harity, pairOfJson]

end Value

/-! ### One object -/

namespace Payload

variable {j k : Json}

theorem readOperator_congr (h : SameMember (j.member? "operator") (k.member? "operator")) :
    readOperator j = readOperator k := by
  rcases h.eq_or_compound with h | ⟨xs, ys, hj, hk, -⟩ | ⟨members, members', hj, hk⟩
  · rw [readOperator, readOperator, h]
  · rw [readOperator, readOperator, hj, hk]
  · rw [readOperator, readOperator, hj, hk]

theorem readType_congr (h : SameMember (j.member? "type") (k.member? "type")) :
    readType j = readType k := by
  rcases h.eq_or_compound with h | ⟨xs, ys, hj, hk, -⟩ | ⟨members, members', hj, hk⟩
  · rw [readType, readType, h]
  · rw [readType, readType, hj, hk]
  · rw [readType, readType, hj, hk]

theorem readField_of_not_namesField (h : ¬ NamesField j) :
    readField j = .error (.malformed [] .noField) := by
  unfold readField
  split
  · exact absurd ⟨_, ‹_›⟩ h
  · rfl

theorem exists_readField (h : NamesField j) : ∃ name, readField j = .ok name := by
  obtain ⟨name, hname⟩ := h
  exact ⟨name, by rw [readField, hname]⟩

/-- Either both objects name a field, or it is missing in both. -/
theorem agreeBy_readField (h : NamesField j ↔ NamesField k) :
    AgreeBy (fun _ _ => True) (readField j) (readField k) := by
  by_cases hj : NamesField j
  · obtain ⟨name, hname⟩ := exists_readField hj
    obtain ⟨name', hname'⟩ := exists_readField (h.1 hj)
    rw [hname, hname']
    exact .ok trivial
  · rw [readField_of_not_namesField hj, readField_of_not_namesField (h.not.1 hj)]
    exact .error _

theorem readConnective_congr (h : SameCondition (j.member? "condition") (k.member? "condition")) :
    readConnective j = readConnective k := by
  rcases h with h | ⟨s, t, hj, hk, hst, hvalid⟩
  · rcases h.eq_or_compound with h | ⟨xs, ys, hj, hk, -⟩ | ⟨members, members', hj, hk⟩
    · rw [readConnective, readConnective, h]
    · rw [readConnective, readConnective, hj, hk]
    · rw [readConnective, readConnective, hj, hk]
  · obtain ⟨connective, hs⟩ :=
      Option.isSome_iff_exists.1 (Connective.isSome_ofKeyword?_iff.2 hvalid)
    have ht : Connective.ofKeyword? t = some connective := by
      rw [← hs, Connective.ofKeyword?, Connective.ofKeyword?, hst.map_toUpper]
    simp only [readConnective, hj, hk, hs, ht]

/-- The values are read alike, unless the operator has none and they are not read. -/
theorem readValue_congr {operator : Operator} (ho : readOperator j = .ok operator)
    (h : NamesValueless j ∨ SameMember (j.member? "value") (k.member? "value")) :
    Value.ofJson operator (j.member? "value") = Value.ofJson operator (k.member? "value") := by
  rcases h with ⟨operator', htag, harity⟩ | h
  · have hread := member?_of_readOperator ho
    obtain rfl : operator = operator' := Operator.tag_injective (by simpa [htag] using hread.symm)
    simp [Value.ofJson, harity]
  · exact Value.ofJson_congr h

/-- Rules that agree but for the names of their fields. -/
theorem agreeBy_readRule (operator : SameMember (j.member? "operator") (k.member? "operator"))
    (type : SameMember (j.member? "type") (k.member? "type")) (field : NamesField j ↔ NamesField k)
    (value : NamesValueless j ∨ SameMember (j.member? "value") (k.member? "value")) :
    AgreeBy (fun r s => r.unnamed = s.unnamed) (readRule j) (readRule k) := by
  unfold readRule
  rw [← readOperator_congr operator, ← readType_congr type]
  refine AgreeBy.bind_same fun o ho => ?_
  refine (agreeBy_readField field).bind fun name name' _ _ _ => ?_
  refine AgreeBy.bind_same fun t _ => ?_
  rw [← readValue_congr ho value]
  exact AgreeBy.bind_same fun v _ => .ok rfl

/-! ### Nodes -/

/-- The documents agree in what the checks of one object look at; the items of a group are similar. -/
inductive SameNode : Json → Json → Prop
  | noObject {j k : Json} (noObject : j.isObject = false) (noObject' : k.isObject = false)
      (null : j = .null ↔ k = .null) : SameNode j k
  | group {j k r s : Json} (rules : j.member? "rules" = some r) (rules' : k.member? "rules" = some s)
      (condition : SameCondition (j.member? "condition") (k.member? "condition"))
      (items : (∃ xs ys, r = .array xs ∧ s = .array ys ∧ List.Forall₂ Json.Similar xs ys) ∨
        (∀ xs, r ≠ .array xs) ∧ ∀ ys, s ≠ .array ys) : SameNode j k
  | rule {j k : Json} (isObject : j.isObject = true) (isObject' : k.isObject = true)
      (noRules : j.member? "rules" = none) (noRules' : k.member? "rules" = none)
      (operator : SameMember (j.member? "operator") (k.member? "operator"))
      (type : SameMember (j.member? "type") (k.member? "type")) (field : NamesField j ↔ NamesField k)
      (value : NamesValueless j ∨ SameMember (j.member? "value") (k.member? "value")) : SameNode j k

theorem sameNode_of_same (h : j.Same k) : SameNode j k := by
  have hrules := h.member? "rules"
  cases ho : j.isObject with
  | false => exact .noObject ho (h.isObject ▸ ho) h.eq_null_iff
  | true =>
    cases hj : j.member? "rules" with
    | none =>
      have hk : k.member? "rules" = none := by simpa [hj] using hrules.isSome.symm
      have hfield := (h.member? "field").or (h.member? "id")
      exact .rule ho (h.isObject ▸ ho) hj hk (h.member? "operator") (h.member? "type")
        (exists_congr hfield.eq_string_iff) (.inr (h.member? "value"))
    | some r =>
      obtain ⟨s, hk⟩ : ∃ s, k.member? "rules" = some s :=
        Option.isSome_iff_exists.1 (by rw [← hrules.isSome, hj, Option.isSome_some])
      rw [hj, hk] at hrules
      cases hrules with
      | some hrs =>
        refine .group hj hk (.inl (h.member? "condition")) (hrs.items.imp_left ?_)
        rintro ⟨xs, ys, rfl, rfl, hitems⟩
        exact ⟨xs, ys, rfl, rfl, hitems.imp fun _ _ => .same⟩

theorem sameNode_of_similar (h : j.Similar k) : SameNode j k := by
  cases h with
  | same same => exact sameNode_of_same same
  | group rules rules' condition items =>
    exact .group rules rules' condition (.inl ⟨_, _, rfl, rfl, items⟩)
  | badGroup rules rules' noArray same condition =>
    refine .group rules rules' condition (.inr (same.items.resolve_left ?_))
    rintro ⟨xs, -, hr, -⟩
    exact noArray xs hr
  | rule noRules noRules' named operator type field value =>
    obtain ⟨o, ho⟩ := Option.isSome_iff_exists.1 named
    obtain ⟨o', ho'⟩ := Option.isSome_iff_exists.1 (operator.isSome ▸ named)
    exact .rule (Json.isObject_of_member? ho) (Json.isObject_of_member? ho') noRules noRules' operator
      type field value

theorem isVacant_congr (h : SameNode j k) : isVacant j = isVacant k := by
  rw [Bool.eq_iff_iff, isVacant_iff, isVacant_iff]
  cases h with
  | noObject noObject noObject' null =>
    rw [Json.member?_of_isObject_eq_false noObject, Json.member?_of_isObject_eq_false noObject']
    simpa using null
  | group rules rules' condition items =>
    rw [or_iff_right (Json.ne_null_of_isObject (Json.isObject_of_member? rules)),
      or_iff_right (Json.ne_null_of_isObject (Json.isObject_of_member? rules')), rules, rules']
    rcases items with ⟨xs, ys, rfl, rfl, hitems⟩ | ⟨hr, hs⟩
    · cases hitems <;> simp
    · simp [hr, hs]
  | rule isObject isObject' noRules noRules' =>
    rw [or_iff_right (Json.ne_null_of_isObject isObject),
      or_iff_right (Json.ne_null_of_isObject isObject'), noRules, noRules']

/-- The objects pass the checks alike: rules up to the name of the field, groups with items to be read
next. -/
inductive AlikeNode : Node → Node → Prop
  | rule {r s : Rule} (unnamed : r.unnamed = s.unnamed) : AlikeNode (.rule r) (.rule s)
  | group (connective : Connective) {xs ys : List Json} (items : List.Forall₂ Json.Similar xs ys) :
    AlikeNode (.group connective xs) (.group connective ys)

theorem readNode_of_rules {r : Json} (h : j.member? "rules" = some r) :
    readNode j = readConnective j >>= fun c => (readItems j).map (.group c) := by
  rw [readNode, if_neg (by simp [Json.isObject_of_member? h]), if_pos (by simp [h])]
  rfl

theorem readNode_of_no_rules (ho : j.isObject = true) (h : j.member? "rules" = none) :
    readNode j = if (j.member? "operator").isSome then (readRule j).map .rule
      else .error (.malformed [] .neitherGroupNorRule) := by
  rw [readNode, if_neg (by simp [ho]), if_neg (by simp [h])]

theorem readItems_of_no_array {r : Json} (h : j.member? "rules" = some r)
    (hr : ∀ xs, r ≠ .array xs) :
    readItems j = .error (.malformed [.key "rules"] .rulesNotAnArray) := by
  rw [readItems, h]
  split
  · rename_i xs hxs
    exact absurd (Option.some.inj hxs) (hr xs)
  · rfl

/-- One step of reading: the checks of one object. -/
theorem agreeBy_readNode (h : SameNode j k) : AgreeBy AlikeNode (readNode j) (readNode k) := by
  cases h with
  | noObject noObject noObject' =>
    rw [readNode, readNode, if_pos noObject, if_pos noObject']
    exact .error _
  | group rules rules' condition items =>
    rw [readNode_of_rules rules, readNode_of_rules rules', ← readConnective_congr condition]
    refine AgreeBy.bind_same fun connective _ => ?_
    rcases items with ⟨xs, ys, rfl, rfl, hitems⟩ | ⟨hr, hs⟩
    · rw [readItems, readItems, rules, rules']
      exact .ok (.group connective hitems)
    · rw [readItems_of_no_array rules hr, readItems_of_no_array rules' hs]
      exact .error _
  | rule isObject isObject' noRules noRules' operator type field value =>
    rw [readNode_of_no_rules isObject noRules, readNode_of_no_rules isObject' noRules',
      ← operator.isSome]
    split
    · exact (agreeBy_readRule operator type field value).map fun _ _ => .rule
    · exact .error _

end Payload

/-! ### Whole documents -/

namespace Filter

open Payload

theorem unnamed_group_congr (connective : Connective) {fs gs : List Filter}
    (h : List.Forall₂ (fun f g => f.unnamed = g.unnamed) fs gs) :
    unnamed (.group connective fs) = unnamed (.group connective gs) := by
  rw [unnamed, unnamed, unnamedAll_eq_map, unnamedAll_eq_map, map_eq_map_iff_forall₂.2 h]

/-- Similar documents are read alike, up to the names of fields. -/
theorem agreeBy_ofJson (j : Json) :
    ∀ k, j.Similar k → AgreeBy (fun f g => f.unnamed = g.unnamed) (ofJson j) (ofJson k) := by
  induction j using Payload.induction with
  | step j ih =>
    intro k h
    have hnode := Payload.agreeBy_readNode (Payload.sameNode_of_similar h)
    generalize hj : readNode j = outcome at hnode
    generalize hk : readNode k = outcome' at hnode
    cases hnode with
    | error e =>
      rw [ofJson_of_error hj, ofJson_of_error hk]
      exact .error e
    | ok halike =>
      cases halike with
      | rule hunnamed =>
        rw [ofJson_of_rule hj, ofJson_of_rule hk]
        exact .ok (congrArg Filter.rule hunnamed)
      | @group connective xs ys hitems =>
        rw [items_of_readNode_group hj] at ih
        have hread := ((List.forall₂_and_left _ _).2 ⟨ih, hitems⟩).imp fun x y hxy => hxy.1 y hxy.2
        rw [ofJson_of_group hj, ofJson_of_group hk]
        exact ((agreeBy_eachAt 0 hread).located _).map fun _ _ => unnamed_group_congr connective

end Filter

end FilterSql
