import Mathlib
import FilterSql.Filter.Canonical
import FilterSql.Filter.Grammar
import FilterSql.Proofs.Filter.Defects

/-!
# Which documents are filters

A document is read just when it is a filter by the grammar, since a part has no defects just when
the grammar allows it (`Payload.allDefects_eq_nil_iff`).  What is read stands node by node for what
the document says (`Json.StandsFor`).
-/

namespace FilterSql

/-- The document says what the filter says: a group for each group and a rule for each rule, nested
in the same way and in the same order. -/
inductive Json.StandsFor : Json → Filter → Prop
  | group {j : Json} {items : List Json} {s : String} {connective : Connective}
      {children : List Filter}
      (rules : j.member? "rules" = some (.array items))
      (condition : j.member? "condition" = some (.string s))
      (keyword : EqUpToCase s connective.keyword)
      (nested : List.Forall₂ StandsFor items children) :
      StandsFor j (.group connective children)
  | rule {j : Json} {r : Rule}
      (noRules : j.member? "rules" = none)
      (tag : j.member? "operator" = some (.string r.operator.tag))
      (field : j.member? "field" = some (.string r.field) ∨
        j.member? "field" = none ∧ j.member? "id" = some (.string r.field))
      (type : (∃ s, j.member? "type" = some (.string s) ∧ r.type = .ofName s) ∨
        (j.member? "type" = none ∨ j.member? "type" = some .null) ∧ r.type = .string)
      (value : r.value.Fits r.operator.arity) : StandsFor j (.rule r)

/-! ### Keywords in any case -/

theorem EqUpToCase.map_toUpper {s t : String} (h : EqUpToCase s t) :
    s.toList.map Char.toUpper = t.toList.map Char.toUpper := by
  have hupper := congrArg (List.map Char.toUpper) h
  simpa [Function.comp_def] using hupper

theorem Connective.ofKeyword?_eq_some_iff {s : String} {connective : Connective} :
    Connective.ofKeyword? s = some connective ↔ EqUpToCase s connective.keyword := by
  constructor
  · intro h
    have hupper : s.toList.map Char.toUpper = connective.keyword.toList := by
      simpa using List.find?_some h
    have hlower := congrArg (List.map Char.toLower) hupper
    simpa [EqUpToCase, Function.comp_def] using hlower
  · intro h
    have hupper := h.map_toUpper
    cases connective with
    | and => simp [ofKeyword?, all, hupper, keyword]
    | or => simp [ofKeyword?, all, hupper, keyword]

theorem Connective.isSome_ofKeyword?_iff {s : String} :
    (Connective.ofKeyword? s).isSome = true ↔ EqUpToCase s "and" ∨ EqUpToCase s "or" := by
  have hand : EqUpToCase s "and" ↔ EqUpToCase s Connective.and.keyword := by
    simp [EqUpToCase, Connective.keyword]
  have hor : EqUpToCase s "or" ↔ EqUpToCase s Connective.or.keyword := by
    simp [EqUpToCase, Connective.keyword]
  rw [Option.isSome_iff_exists, hand, hor]
  simp only [Connective.ofKeyword?_eq_some_iff]
  constructor
  · rintro ⟨connective, h⟩
    cases connective
    · exact .inl h
    · exact .inr h
  · rintro (h | h)
    · exact ⟨_, h⟩
    · exact ⟨_, h⟩

/-! ### Values without defects -/

theorem Json.scalarDefects_eq_nil_iff {j : Json} : j.scalarDefects = [] ↔ j.IsScalar := by
  cases j <;> simp [scalarDefects, IsScalar]

theorem Json.elementDefects_eq_nil_iff {xs : List Json} :
    elementDefects xs = [] ↔ ∀ x ∈ xs, x.IsScalar := by
  rw [elementDefects, flatMap_within_eq_nil_iff fun i => [.index i]]
  simp only [scalarDefects_eq_nil_iff]

namespace Value

variable {operator : Operator}

theorem singleDefects_eq_nil_iff {j : Json} :
    singleDefects operator j = [] ↔ j.IsScalar ∨ ∃ x, j = .array [x] ∧ x.IsScalar := by
  cases j with
  | array xs =>
    rw [singleDefects]
    split
    · rename_i hlength
      obtain ⟨x, rfl⟩ := List.length_eq_one_iff.1 hlength
      simp [Json.elementDefects_eq_nil_iff, Json.IsScalar]
    · rename_i hlength
      have hne : ∀ x, xs ≠ [x] := fun x hx => hlength (by rw [hx]; rfl)
      simp [hne, Json.IsScalar]
  | _ => simp [singleDefects, Json.scalarDefects_eq_nil_iff]

theorem listDefects_eq_nil_iff {j : Json} :
    listDefects operator j = [] ↔
      j.IsScalar ∨ ∃ xs, xs ≠ [] ∧ j = .array xs ∧ ∀ x ∈ xs, x.IsScalar := by
  cases j with
  | array xs =>
    rw [listDefects]
    split
    · rename_i hnil
      simp [hnil, Json.IsScalar]
    · rename_i hne
      simp [hne, Json.elementDefects_eq_nil_iff, Json.IsScalar]
  | _ => simp [listDefects, Json.scalarDefects_eq_nil_iff]

theorem pairDefects_eq_nil_iff {j : Json} :
    pairDefects operator j = [] ↔
      (∃ x y, j = .array [x, y] ∧ x.IsScalar ∧ y.IsScalar) ∨
        ∃ s, j = .string s ∧ s.toList.count ',' = 1 := by
  cases j with
  | array xs =>
    rw [pairDefects]
    split
    · rename_i hlength
      obtain ⟨x, y, rfl⟩ := List.length_eq_two.1 hlength
      simp [Json.elementDefects_eq_nil_iff]
    · rename_i hlength
      have hne : ∀ x y, xs ≠ [x, y] := fun x y hx => hlength (by rw [hx]; rfl)
      simp [hne]
  | string s => simp [pairDefects]
  | _ => simp [pairDefects]

/-- The value of a rule has no defects just when the grammar allows it. -/
theorem defects_eq_nil_iff {value : Option Json} :
    defects operator value = [] ↔ IsValueFor operator.arity value := by
  rcases value with _ | j
  · cases harity : operator.arity <;> simp [defects, IsValueFor, harity]
  · cases harity : operator.arity with
    | none => simp [defects, IsValueFor, harity]
    | single =>
      cases j <;> simp [defects, IsValueFor, harity, singleDefects_eq_nil_iff, Json.IsScalar]
    | list =>
      cases j <;> simp [defects, IsValueFor, harity, listDefects_eq_nil_iff, Json.IsScalar]
    | pair =>
      cases j <;> simp [defects, IsValueFor, harity, pairDefects_eq_nil_iff]

end Value

/-! ### Objects without defects -/

theorem Json.isObject_of_member? {j v : Json} {name : String} (h : j.member? name = some v) :
    j.isObject = true := by
  cases j with
  | object members => rfl
  | _ => simp [member?] at h

namespace Payload

variable {j : Json}

theorem conditionDefects_eq_nil_iff :
    conditionDefects j = [] ↔ ∃ s, j.member? "condition" = some (.string s) ∧
      (EqUpToCase s "and" ∨ EqUpToCase s "or") := by
  unfold conditionDefects
  rcases j.member? "condition" with _ | v
  · simp
  · cases v with
    | string s => simp [← Connective.isSome_ofKeyword?_iff, Option.isSome_iff_ne_none]
    | _ => simp

theorem rulesDefects_eq_nil_iff :
    rulesDefects j = [] ↔ ∃ items, j.member? "rules" = some (.array items) := by
  unfold rulesDefects
  rcases j.member? "rules" with _ | v
  · simp
  · cases v <;> simp

theorem operatorDefects_eq_nil_iff :
    operatorDefects j = [] ↔
      ∃ operator : Operator, j.member? "operator" = some (.string operator.tag) := by
  unfold operatorDefects
  rcases j.member? "operator" with _ | v
  · simp
  · cases v with
    | string tag =>
      have htag : (∃ operator : Operator, tag = operator.tag) ↔
          (Operator.ofTag? tag).isSome = true := by
        rw [Option.isSome_iff_exists]
        exact exists_congr fun operator => by rw [Operator.ofTag?_eq_some_iff, eq_comm]
      simp [htag, Option.isSome_iff_ne_none]
    | _ => simp

theorem fieldDefects_eq_nil_iff : fieldDefects j = [] ↔ HasField j := by
  unfold fieldDefects HasField
  rcases j.member? "field" with _ | v
  · rcases j.member? "id" with _ | v
    · simp
    · cases v <;> simp
  · cases v <;> simp

theorem typeDefects_eq_nil_iff : typeDefects j = [] ↔ HasType j := by
  unfold typeDefects HasType
  rcases j.member? "type" with _ | v
  · simp
  · cases v <;> simp

theorem valueDefects_eq_nil_iff {operator : Operator}
    (h : j.member? "operator" = some (.string operator.tag)) :
    valueDefects j = [] ↔ IsValueFor operator.arity (j.member? "value") := by
  simp [valueDefects, h, Value.defects_eq_nil_iff]

/-- An object without defects is a filter if the objects under its `rules` are. -/
theorem isFilter_of_defects_eq_nil (hd : defects j = []) (hi : ∀ item ∈ items j, IsFilter item) :
    IsFilter j := by
  unfold defects at hd
  split at hd
  · simp at hd
  split at hd
  · obtain ⟨hc, hr⟩ := List.append_eq_nil_iff.1 hd
    obtain ⟨s, hs, hconnective⟩ := conditionDefects_eq_nil_iff.1 hc
    obtain ⟨xs, hxs⟩ := rulesDefects_eq_nil_iff.1 hr
    rw [items, hxs] at hi
    exact .group hxs hs hconnective hi
  rename_i hr
  split at hd
  · simp only [List.append_eq_nil_iff] at hd
    obtain ⟨⟨⟨ho, hf⟩, ht⟩, hv⟩ := hd
    obtain ⟨operator, htag⟩ := operatorDefects_eq_nil_iff.1 ho
    exact .rule (by simpa using hr) htag (fieldDefects_eq_nil_iff.1 hf)
      (typeDefects_eq_nil_iff.1 ht) ((valueDefects_eq_nil_iff htag).1 hv)
  · simp at hd

theorem defects_eq_nil_of_isFilter (h : IsFilter j) : defects j = [] := by
  unfold defects
  cases h with
  | group rules condition connective _ =>
    have hc := conditionDefects_eq_nil_iff.2 ⟨_, condition, connective⟩
    have hr := rulesDefects_eq_nil_iff.2 ⟨_, rules⟩
    simp [Json.isObject_of_member? rules, rules, hc, hr]
  | rule noRules tag field type value =>
    have ho := operatorDefects_eq_nil_iff.2 ⟨_, tag⟩
    have hf := fieldDefects_eq_nil_iff.2 field
    have ht := typeDefects_eq_nil_iff.2 type
    have hv := (valueDefects_eq_nil_iff tag).2 value
    simp [Json.isObject_of_member? tag, noRules, tag, ho, hf, ht, hv]

theorem isFilter_of_mem_items (h : IsFilter j) : ∀ item ∈ items j, IsFilter item := by
  cases h with
  | group rules _ _ children =>
    rw [items, rules]
    exact children
  | rule noRules _ _ _ _ => simp [items, noRules]

/-- A document has no defects just when it is a filter. -/
theorem allDefects_eq_nil_iff (j : Json) : allDefects j = [] ↔ IsFilter j := by
  induction j using Payload.induction with
  | step j ih =>
    rw [allDefects_eq, List.append_eq_nil_iff,
      flatMap_within_eq_nil_iff fun i => [.key "rules", .index i]]
    constructor
    · rintro ⟨hd, hi⟩
      exact isFilter_of_defects_eq_nil hd fun item hm => (ih item hm).1 (hi item hm)
    · intro h
      exact ⟨defects_eq_nil_of_isFilter h,
        fun item hm => (ih item hm).2 (isFilter_of_mem_items h item hm)⟩

end Payload

/-! ### What is read stands for the document -/

namespace Value

variable {operator : Operator} {v : Value}

theorem fits_of_singleOfJson {j : Json} (h : singleOfJson operator j = .ok v) :
    v.Fits .single := by
  unfold singleOfJson at h
  split at h
  · obtain ⟨x, -, rfl⟩ := Except.map_eq_ok_iff.1 h
    exact ⟨x, rfl⟩
  · exact absurd h (by simp)
  · obtain ⟨x, -, rfl⟩ := Except.map_eq_ok_iff.1 h
    exact ⟨x, rfl⟩

theorem fits_of_listOfJson {j : Json} (h : listOfJson operator j = .ok v) : v.Fits .list := by
  unfold listOfJson at h
  split at h
  · exact absurd h (by simp)
  · rename_i xs hne
    obtain ⟨ys, hys, rfl⟩ := Except.map_eq_ok_iff.1 h
    have hlength := congrArg List.length (eachAt_eq_ok_iff.1 hys)
    refine ⟨ys, ?_, rfl⟩
    rintro rfl
    exact hne (by simpa using hlength)
  · rename_i s
    obtain rfl := Except.ok.inj h
    refine ⟨_, ?_, rfl⟩
    unfold listed
    split <;> simp [Text.pieces_ne_nil]
  · obtain ⟨x, -, rfl⟩ := Except.map_eq_ok_iff.1 h
    exact ⟨[x], by simp, rfl⟩

theorem fits_of_pairOfJson {j : Json} (h : pairOfJson operator j = .ok v) : v.Fits .pair := by
  unfold pairOfJson at h
  split at h
  · obtain ⟨low, -, h⟩ := Except.bind_eq_ok_iff.1 h
    obtain ⟨high, -, h⟩ := Except.bind_eq_ok_iff.1 h
    exact ⟨low, high, (Except.ok.inj h).symm⟩
  · exact absurd h (by simp)
  · split at h
    · rename_i low high _
      exact ⟨_, _, (Except.ok.inj h).symm⟩
    · exact absurd h (by simp)
  · exact absurd h (by simp)

/-- A value that is read has the shape that its operator asks for. -/
theorem fits_of_ofJson {j : Option Json} (h : ofJson operator j = .ok v) :
    v.Fits operator.arity := by
  unfold ofJson at h
  split at h <;> rename_i harity
  · rw [harity]
    exact (Except.ok.inj h).symm
  · exact absurd h (by simp)
  · exact absurd h (by simp)
  · rw [harity]
    exact fits_of_singleOfJson h
  · rw [harity]
    exact fits_of_listOfJson h
  · rw [harity]
    exact fits_of_pairOfJson h

end Value

namespace Payload

variable {j : Json}

theorem member?_of_readOperator {operator : Operator} (h : readOperator j = .ok operator) :
    j.member? "operator" = some (.string operator.tag) := by
  unfold readOperator at h
  split at h
  · rename_i tag htag
    split at h
    · rename_i operator' ho
      obtain rfl := Except.ok.inj h
      rw [htag, Operator.tag_of_ofTag? ho]
    · exact absurd h (by simp)
  · exact absurd h (by simp)

theorem member?_of_readField {name : String} (h : readField j = .ok name) :
    j.member? "field" = some (.string name) ∨
      j.member? "field" = none ∧ j.member? "id" = some (.string name) := by
  unfold readField at h
  split at h
  · rename_i name' hname
    obtain rfl := Except.ok.inj h
    exact Option.or_eq_some_iff.1 hname
  · exact absurd h (by simp)

theorem member?_of_readType {type : FieldType} (h : readType j = .ok type) :
    (∃ s, j.member? "type" = some (.string s) ∧ type = .ofName s) ∨
      (j.member? "type" = none ∨ j.member? "type" = some .null) ∧ type = .string := by
  unfold readType at h
  split at h
  · rename_i s hs
    exact .inl ⟨s, hs, (Except.ok.inj h).symm⟩
  · rename_i hnone
    exact .inr ⟨.inl hnone, (Except.ok.inj h).symm⟩
  · rename_i hnull
    exact .inr ⟨.inr hnull, (Except.ok.inj h).symm⟩
  · exact absurd h (by simp)

theorem member?_of_readConnective {connective : Connective} (h : readConnective j = .ok connective) :
    ∃ s, j.member? "condition" = some (.string s) ∧ EqUpToCase s connective.keyword := by
  unfold readConnective at h
  split at h
  · rename_i s hs
    split at h
    · rename_i connective' hc
      obtain rfl := Except.ok.inj h
      exact ⟨s, hs, Connective.ofKeyword?_eq_some_iff.1 hc⟩
    · exact absurd h (by simp)
  · exact absurd h (by simp)
  · exact absurd h (by simp)

theorem readConnective_of_readNode {connective : Connective} {xs : List Json}
    (h : readNode j = .ok (.group connective xs)) : readConnective j = .ok connective := by
  unfold readNode at h
  split at h
  · exact absurd h (by simp)
  split at h
  · obtain ⟨connective', hc, h⟩ := Except.bind_eq_ok_iff.1 h
    obtain ⟨xs', -, h⟩ := Except.bind_eq_ok_iff.1 h
    rw [hc, (Node.group.inj (Except.ok.inj h)).1]
  split at h
  · obtain ⟨r, -, h⟩ := Except.map_eq_ok_iff.1 h
    exact Node.noConfusion h
  · exact absurd h (by simp)

theorem readRule_of_readNode {r : Rule} (h : readNode j = .ok (.rule r)) :
    j.member? "rules" = none ∧ readRule j = .ok r := by
  unfold readNode at h
  split at h
  · exact absurd h (by simp)
  split at h
  · obtain ⟨connective, -, h⟩ := Except.bind_eq_ok_iff.1 h
    obtain ⟨xs, -, h⟩ := Except.bind_eq_ok_iff.1 h
    exact Node.noConfusion (Except.ok.inj h)
  rename_i hrules
  split at h
  · obtain ⟨r', hr, h⟩ := Except.map_eq_ok_iff.1 h
    exact ⟨by simpa using hrules, Node.rule.inj h ▸ hr⟩
  · exact absurd h (by simp)

/-- A rule that is read stands for its object. -/
theorem standsFor_of_readNode {r : Rule} (h : readNode j = .ok (.rule r)) :
    j.StandsFor (.rule r) := by
  obtain ⟨hrules, hr⟩ := readRule_of_readNode h
  obtain ⟨operator, ho, hr⟩ := Except.bind_eq_ok_iff.1 hr
  obtain ⟨field, hf, hr⟩ := Except.bind_eq_ok_iff.1 hr
  obtain ⟨type, ht, hr⟩ := Except.bind_eq_ok_iff.1 hr
  obtain ⟨value, hv, hr⟩ := Except.bind_eq_ok_iff.1 hr
  obtain rfl := Except.ok.inj hr
  exact .rule hrules (member?_of_readOperator ho) (member?_of_readField hf)
    (member?_of_readType ht) (Value.fits_of_ofJson (located_eq_ok_iff.1 hv))

/-- Induction over what is read.  A rule has the property when its object passed the checks, and a
group when the documents under `rules` and its children have it one by one. -/
theorem read_induction {motive : Json → Filter → Prop}
    (rule : ∀ j r, readNode j = .ok (.rule r) → motive j (.rule r))
    (group : ∀ j connective xs children, readNode j = .ok (.group connective xs) →
      List.Forall₂ motive xs children → motive j (.group connective children))
    (j : Json) : ∀ f, Filter.ofJson j = .ok f → motive j f := by
  induction j using Payload.induction with
  | step j ih =>
    intro f h
    cases hn : readNode j with
    | error e =>
      rw [Filter.ofJson_of_error hn] at h
      exact absurd h (by simp)
    | ok node =>
      cases node with
      | rule r =>
        rw [Filter.ofJson_of_rule hn] at h
        obtain rfl := Except.ok.inj h
        exact rule j r hn
      | group connective xs =>
        rw [Filter.ofJson_of_group hn, Except.map_eq_ok_iff] at h
        obtain ⟨children, hc, rfl⟩ := h
        rw [items_of_readNode_group hn] at ih
        have hread := eachAt_eq_ok_iff_forall₂.1 (located_eq_ok_iff.1 hc)
        refine group j connective xs children hn ?_
        exact ((List.forall₂_and_left _ _).2 ⟨ih, hread⟩).imp fun item child hi => hi.1 child hi.2

/-- A filter that is read stands for its document. -/
theorem standsFor_of_ofJson (j : Json) : ∀ f, Filter.ofJson j = .ok f → j.StandsFor f := by
  refine read_induction (fun j r hn => standsFor_of_readNode hn) (fun j c xs children hn hchildren => ?_) j
  obtain ⟨s, hs, hkeyword⟩ := member?_of_readConnective (readConnective_of_readNode hn)
  exact .group (member?_rules_of_readItems (readItems_of_readNode hn)) hs hkeyword hchildren

end Payload

/-! ### Main result -/

namespace Filter

/-- Exactly the filter documents are read, and what is read stands for the document. -/
theorem exists_ofJson_iff (j : Json) :
    ((∃ f, ofJson j = .ok f) ↔ IsFilter j) ∧ ∀ f, ofJson j = .ok f → j.StandsFor f :=
  ⟨(Payload.finds_ofJson j).exists_ok_iff.trans (Payload.allDefects_eq_nil_iff j),
    Payload.standsFor_of_ofJson j⟩

/-- A connective in mixed case, a name under `id` and a pair that is written as one text. -/
theorem exists_ofJson_between :
    ∃ j f, ofJson j = .ok f ∧ j.StandsFor f ∧
      f = .group .or [.rule ⟨"a", .string, .between, .pair (.text "1") (.text "2")⟩] := by
  have h : ofJson (.object [("condition", .string "Or"), ("rules", .array [.object
        [("id", .string "a"), ("operator", .string "between"), ("value", .string "1, 2")]])])
      = .ok (.group .or [.rule ⟨"a", .string, .between, .pair (.text "1") (.text "2")⟩]) := by
    rw [ofJson_of_group rfl, eachAt, ofJson_of_rule rfl]
    rfl
  exact ⟨_, _, h, (exists_ofJson_iff _).2 _ h, rfl⟩

end Filter

end FilterSql
