import FilterSql.Filter.TreeJson
import FilterSql.Proofs.Filter.Acceptance

/-!
# Canonical filters

Every filter that is read is canonical (`Filter.canonical_of_ofJson`): its values have the shapes that
their operators ask for, its data are finite, and no type is kept by a name that is known.  And every
canonical filter is read back from the document that it is written as, so that documents hold the
canonical filters and no others (`Filter.ofJson_toPayload`).
-/

namespace FilterSql

/-! ### What is read is canonical -/

theorem Scalar.isFinite_ofNumber (n : Json.Number) : (Scalar.ofNumber n).IsFinite := by
  cases n with
  | integer value _ _ =>
    rw [Scalar.ofNumber]
    split <;> trivial
  | float value finite => exact finite

theorem Scalar.isFinite_of_ofJson {j : Json} {x : Scalar} (h : Scalar.ofJson j = .ok x) :
    x.IsFinite := by
  cases j with
  | number n => exact Except.ok.inj h ▸ isFinite_ofNumber n
  | string s | bool b => exact Except.ok.inj h ▸ trivial
  | null | array items | object members => exact absurd h (by simp [Scalar.ofJson])

theorem FieldType.isProper_ofName (s : String) : (FieldType.ofName s).IsProper := by
  cases h : FieldType.ofName s with
  | other name => exact not_mem_of_ofName h
  | _ => trivial

namespace Value

variable {operator : Operator} {v : Value}

theorem exists_ofJson_of_singleOfJson {j : Json} (h : singleOfJson operator j = .ok v) :
    ∀ x ∈ v.scalars, ∃ part, Scalar.ofJson part = .ok x := by
  unfold singleOfJson at h
  split at h
  · obtain ⟨x, hx, rfl⟩ := Except.map_eq_ok_iff.1 h
    simpa [scalars] using ⟨_, located_eq_ok_iff.1 hx⟩
  · exact absurd h (by simp)
  · obtain ⟨x, hx, rfl⟩ := Except.map_eq_ok_iff.1 h
    simpa [scalars] using ⟨_, hx⟩

theorem exists_ofJson_of_listOfJson {j : Json} (h : listOfJson operator j = .ok v) :
    ∀ x ∈ v.scalars, ∃ part, Scalar.ofJson part = .ok x := by
  unfold listOfJson at h
  split at h
  · exact absurd h (by simp)
  · rename_i parts _
    obtain ⟨xs, hxs, rfl⟩ := Except.map_eq_ok_iff.1 h
    intro x hx
    have hmem : .ok x ∈ parts.map Scalar.ofJson :=
      eachAt_eq_ok_iff.1 hxs ▸ List.mem_map_of_mem hx
    obtain ⟨part, -, hpart⟩ := List.mem_map.1 hmem
    exact ⟨part, hpart⟩
  · obtain rfl := Except.ok.inj h
    intro x hx
    obtain ⟨s, -, rfl⟩ := List.mem_map.1 hx
    exact ⟨.string s, rfl⟩
  · obtain ⟨x, hx, rfl⟩ := Except.map_eq_ok_iff.1 h
    simpa [scalars] using ⟨_, hx⟩

theorem exists_ofJson_of_pairOfJson {j : Json} (h : pairOfJson operator j = .ok v) :
    ∀ x ∈ v.scalars, ∃ part, Scalar.ofJson part = .ok x := by
  unfold pairOfJson at h
  split at h
  · obtain ⟨low, hlow, h⟩ := Except.bind_eq_ok_iff.1 h
    obtain ⟨high, hhigh, h⟩ := Except.bind_eq_ok_iff.1 h
    obtain rfl := Except.ok.inj h
    simpa [scalars] using ⟨⟨_, located_eq_ok_iff.1 hlow⟩, ⟨_, located_eq_ok_iff.1 hhigh⟩⟩
  · exact absurd h (by simp)
  · split at h
    · rename_i low high _
      obtain rfl := Except.ok.inj h
      simpa [scalars] using ⟨⟨.string low, rfl⟩, ⟨.string high, rfl⟩⟩
    · exact absurd h (by simp)
  · exact absurd h (by simp)

/-- Each scalar of a value that is read comes from a part of the document, or from a piece of a text
that could stand there. -/
theorem exists_ofJson_of_ofJson {j : Option Json} (h : ofJson operator j = .ok v) :
    ∀ x ∈ v.scalars, ∃ part, Scalar.ofJson part = .ok x := by
  unfold ofJson at h
  split at h
  · obtain rfl := Except.ok.inj h
    simp [scalars]
  · exact absurd h (by simp)
  · exact absurd h (by simp)
  · exact exists_ofJson_of_singleOfJson h
  · exact exists_ofJson_of_listOfJson h
  · exact exists_ofJson_of_pairOfJson h

end Value

theorem Payload.isProper_of_readType {j : Json} {type : FieldType} (h : readType j = .ok type) :
    type.IsProper := by
  rcases member?_of_readType h with ⟨s, -, rfl⟩ | ⟨-, rfl⟩
  · exact FieldType.isProper_ofName s
  · trivial

theorem Payload.canonical_of_readRule {j : Json} {r : Rule} (h : readRule j = .ok r) :
    r.Canonical := by
  obtain ⟨operator, -, h⟩ := Except.bind_eq_ok_iff.1 h
  obtain ⟨field, -, h⟩ := Except.bind_eq_ok_iff.1 h
  obtain ⟨type, htype, h⟩ := Except.bind_eq_ok_iff.1 h
  obtain ⟨value, hvalue, h⟩ := Except.bind_eq_ok_iff.1 h
  obtain rfl := Except.ok.inj h
  rw [located_eq_ok_iff] at hvalue
  refine ⟨Value.fits_of_ofJson hvalue, fun x hx => ?_, isProper_of_readType htype⟩
  obtain ⟨part, hpart⟩ := Value.exists_ofJson_of_ofJson hvalue x hx
  exact Scalar.isFinite_of_ofJson hpart

/-- Every filter that is read is canonical. -/
theorem Filter.canonical_of_ofJson {j : Json} {f : Filter} (h : ofJson j = .ok f) :
    f.Canonical := by
  refine Payload.read_induction (motive := fun _ f => f.Canonical) (fun j r hn => ?_)
    (fun j connective xs children _ hchildren => ?_) j f h
  · have hr := Payload.canonical_of_readRule (Payload.readRule_of_readNode hn).2
    simpa [Canonical, rules] using hr
  · have hboth := hchildren.flip.imp fun _ _ hc => And.intro hc trivial
    exact canonical_group_iff.2 ((List.forall₂_and_left _ _).1 hboth).1

/-! ### Canonical filters are read back -/

theorem Scalar.ofJson_toJson {x : Scalar} (h : x.IsFinite) : Scalar.ofJson x.toJson = .ok x := by
  cases x with
  | integer n =>
    have hn : n.toInt < 0x8000000000000000 := n.toInt_lt
    simp [toJson, Scalar.ofJson, ofNumber, hn]
  | float x =>
    have hx : x.isFinite = true := h
    simp [toJson, Scalar.ofJson, ofNumber, hx]
  | text s => rfl
  | boolean b => rfl

/-- The document of a scalar is neither `null` nor an array. -/
theorem Scalar.toJson_ne {x : Scalar} (h : x.IsFinite) :
    x.toJson ≠ .null ∧ ∀ parts, x.toJson ≠ .array parts := by
  have hread := ofJson_toJson h
  constructor
  · intro hnull
    rw [hnull] at hread
    exact absurd hread (by simp [Scalar.ofJson])
  · intro parts harray
    rw [harray] at hread
    exact absurd hread (by simp [Scalar.ofJson])

theorem Scalar.map_ofJson_toJson {xs : List Scalar} (h : ∀ x ∈ xs, x.IsFinite) :
    (xs.map toJson).map Scalar.ofJson = xs.map .ok := by
  rw [List.map_map]
  exact List.map_congr_left fun x hx => ofJson_toJson (h x hx)

namespace Value

variable {operator : Operator}

theorem singleOfJson_toJson {x : Scalar} (h : x.IsFinite) :
    singleOfJson operator x.toJson = .ok (.single x) := by
  have hx := Scalar.toJson_ne h
  unfold singleOfJson
  split
  · exact absurd ‹_› (hx.2 _)
  · exact absurd ‹_› (hx.2 _)
  · rw [Scalar.ofJson_toJson h]
    rfl

theorem listOfJson_toJson {xs : List Scalar} (hne : xs ≠ []) (h : ∀ x ∈ xs, x.IsFinite) :
    listOfJson operator (.array (xs.map Scalar.toJson)) = .ok (.list xs) := by
  have hread : eachAt Scalar.ofJson 0 (xs.map Scalar.toJson) = .ok xs :=
    eachAt_eq_ok_iff.2 (Scalar.map_ofJson_toJson h)
  obtain ⟨x, xs, rfl⟩ := List.exists_cons_of_ne_nil hne
  rw [List.map_cons, listOfJson, ← List.map_cons, hread]
  · rfl
  · simp

theorem pairOfJson_toJson {low high : Scalar} (hlow : low.IsFinite) (hhigh : high.IsFinite) :
    pairOfJson operator (.array [low.toJson, high.toJson]) = .ok (.pair low high) := by
  rw [pairOfJson, Scalar.ofJson_toJson hlow, Scalar.ofJson_toJson hhigh]
  rfl

/-- A value that has the shape of its operator is read back from its member. -/
theorem ofJson_payloadMembers {v : Value} (hfits : v.Fits operator.arity)
    (hfinite : ∀ x ∈ v.scalars, x.IsFinite) :
    ofJson operator (Json.Members.get? "value" v.payloadMembers) = .ok v := by
  cases harity : operator.arity with
  | none =>
    rw [harity] at hfits
    obtain rfl : v = .absent := hfits
    simp [ofJson, harity]
  | single =>
    rw [harity] at hfits
    obtain ⟨x, rfl⟩ := hfits
    have hx : x.IsFinite := hfinite x (by simp [scalars])
    simp [ofJson, harity, payloadMembers, Json.Members.get?, singleOfJson_toJson hx,
      (Scalar.toJson_ne hx).1]
  | list =>
    rw [harity] at hfits
    obtain ⟨xs, hne, rfl⟩ := hfits
    simp [ofJson, harity, payloadMembers, Json.Members.get?, listOfJson_toJson hne hfinite]
  | pair =>
    rw [harity] at hfits
    obtain ⟨low, high, rfl⟩ := hfits
    have hlow : low.IsFinite := hfinite low (by simp [scalars])
    have hhigh : high.IsFinite := hfinite high (by simp [scalars])
    simp [ofJson, harity, payloadMembers, Json.Members.get?, pairOfJson_toJson hlow hhigh]

end Value

theorem FieldType.ofName_name {t : FieldType} (h : t.IsProper) : ofName t.name = t := by
  cases t with
  | other name => exact ofName_of_not_mem h
  | _ => rfl

namespace Rule

/-! ### Members of the document of a rule -/

variable (r : Rule)

@[simp] theorem member?_rules_toPayload : r.toPayload.member? "rules" = none := by
  cases hv : r.value <;>
    simp [toPayload, Json.member?, Json.Members.get?, hv, Value.payloadMembers]

@[simp] theorem member?_operator_toPayload :
    r.toPayload.member? "operator" = some (.string r.operator.tag) := by
  simp [toPayload, Json.member?, Json.Members.get?]

@[simp] theorem member?_field_toPayload :
    r.toPayload.member? "field" = some (.string r.field) := by
  simp [toPayload, Json.member?, Json.Members.get?]

@[simp] theorem member?_type_toPayload :
    r.toPayload.member? "type" = some (.string r.type.name) := by
  simp [toPayload, Json.member?, Json.Members.get?]

@[simp] theorem member?_value_toPayload :
    r.toPayload.member? "value" = Json.Members.get? "value" r.value.payloadMembers := by
  simp [toPayload, Json.member?, Json.Members.get?]

end Rule

namespace Payload

theorem readRule_toPayload {r : Rule} (h : r.Canonical) : readRule r.toPayload = .ok r := by
  obtain ⟨hfits, hfinite, hproper⟩ := h
  have hvalue := Value.ofJson_payloadMembers hfits hfinite
  simp [readRule, readOperator, readField, readType, hvalue, FieldType.ofName_name hproper,
    bind, Except.bind, pure, Except.pure]

theorem readNode_rule_toPayload {r : Rule} (h : r.Canonical) :
    readNode r.toPayload = .ok (.rule r) := by
  have hobject : r.toPayload.isObject = true := rfl
  simp [readNode, hobject, readRule_toPayload h, Except.map]

theorem readNode_group_toPayload (connective : Connective) (children : List Filter) :
    readNode (Filter.toPayload (.group connective children))
      = .ok (.group connective (children.map Filter.toPayload)) := by
  simp [readNode, readConnective, readItems, Filter.toPayload, Filter.toPayloads_eq_map,
    Json.isObject, Json.member?, Json.Members.get?, bind, Except.bind, pure, Except.pure]

end Payload

namespace Filter

/-- A canonical filter is read back from its document. -/
theorem ofJson_toPayload_of_canonical (f : Filter) :
    f.Canonical → ofJson f.toPayload = .ok f := by
  induction f using Filter.induction with
  | rule r =>
    intro h
    have hr : r.Canonical := h r (by simp [rules])
    rw [toPayload, ofJson_of_rule (Payload.readNode_rule_toPayload hr)]
  | group connective children ih =>
    intro h
    rw [canonical_group_iff] at h
    have hread : eachAt ofJson 0 (children.map toPayload) = .ok children := by
      rw [eachAt_eq_ok_iff, List.map_map]
      exact List.map_congr_left fun f hf => ih f hf (h f hf)
    rw [ofJson_of_group (Payload.readNode_group_toPayload connective children), hread]
    rfl

/-! ### Main result -/

/-- The canonical filters are those that some document holds, and each is read back from its own
document just as it was. -/
theorem ofJson_toPayload (f : Filter) :
    (ofJson f.toPayload = .ok f ↔ f.Canonical) ∧ ((∃ j, ofJson j = .ok f) ↔ f.Canonical) := by
  have hwrite := ofJson_toPayload_of_canonical f
  refine ⟨⟨canonical_of_ofJson, hwrite⟩, ?_, fun h => ⟨_, hwrite h⟩⟩
  rintro ⟨j, hj⟩
  exact canonical_of_ofJson hj

/-- Scalars of all kinds, a text with a separator in it, and a group without children. -/
theorem ofJson_toPayload_nested :
    ∃ f, f = .group .or [.group .and [], .rule ⟨"a", .other "color", .oneOf,
        .list [.integer 1, .float ⟨0x8000000000000000⟩, .text "1;2", .boolean true]⟩,
      .rule ⟨"b", .double, .notBetween, .pair (.text "1") (.text "2,3")⟩] ∧
      f.Canonical ∧ ofJson f.toPayload = .ok f := by
  have hcanonical : Canonical (.group .or [.group .and [], .rule ⟨"a", .other "color", .oneOf,
        .list [.integer 1, .float ⟨0x8000000000000000⟩, .text "1;2", .boolean true]⟩,
      .rule ⟨"b", .double, .notBetween, .pair (.text "1") (.text "2,3")⟩]) := by
    have hzero : Binary64.isFinite ⟨0x8000000000000000⟩ = true := by decide
    simp [Canonical, rules, rulesOfAll, Rule.Canonical, Value.Fits, Operator.arity, Value.scalars,
      Scalar.IsFinite, hzero, FieldType.IsProper, FieldType.knownNames]
  exact ⟨_, rfl, hcanonical, (ofJson_toPayload _).1.2 hcanonical⟩

end Filter

end FilterSql
