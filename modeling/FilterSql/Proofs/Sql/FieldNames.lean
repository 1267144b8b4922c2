import FilterSql.Proofs.Filter.Similarity
import FilterSql.Proofs.Sql.Documents

/-!
# What reaches the text

Neither the names of fields nor what similar documents differ in has any influence on the outcome of
compiling (`compileJson_eq_of_similar`): similar documents are read alike up to the names of fields,
and these are not looked at when a filter is compiled (`Filter.toSql_unnamed`).
-/

namespace FilterSql

variable {options : Options} {target : String}

/-! ### Names of fields -/

theorem Predicate.ofFilter_unnamed (unknown : UnknownTypes) (f : Filter) :
    ofFilter unknown f.unnamed = ofFilter unknown f := by
  induction f using Filter.induction with
  | rule r => rfl
  | group connective children ih =>
    have hmap : (children.map Filter.unnamed).map (ofFilter unknown)
        = children.map (ofFilter unknown) := by
      rw [List.map_map]
      exact List.map_congr_left ih
    simp only [Filter.unnamed, ofFilter, Filter.unnamedAll_eq_map, List.isEmpty_map,
      ofFilters_eq_eachAt, eachAt_congr hmap 0]

theorem Predicate.ofRoot_unnamed (unknown : UnknownTypes) (f : Filter) :
    ofRoot unknown f.unnamed = ofRoot unknown f := by
  cases f with
  | rule r => rfl
  | group connective children => exact ofFilter_unnamed unknown (.group connective children)

theorem Filter.toSql_unnamed (f : Filter) :
    f.unnamed.toSql options target = f.toSql options target := by
  rw [toSql, toSql, Predicate.ofRoot_unnamed]

theorem Filter.toSql_congr {f g : Filter} (h : f.unnamed = g.unnamed) :
    f.toSql options target = g.toSql options target := by
  rw [← f.toSql_unnamed, h, g.toSql_unnamed]

/-! ### Main result -/

/-- Similar documents compile alike: to the same text, to nothing, or with the same error.  Filters
that differ in the names of fields compile alike as well. -/
theorem compileJson_eq_of_similar (options : Options) (target : String) :
    (∀ j k, j.Similar k → compileJson options j target = compileJson options k target) ∧
    ∀ f g : Filter, f.unnamed = g.unnamed → f.toSql options target = g.toSql options target := by
  refine ⟨fun j k h => ?_, fun f g => Filter.toSql_congr⟩
  have hvacant := Payload.isVacant_congr (Payload.sameNode_of_similar h)
  cases hj : Payload.isVacant j with
  | true => rw [compileJson_of_isVacant hj, compileJson_of_isVacant (hvacant ▸ hj)]
  | false =>
    rw [compileJson_of_not_isVacant hj, compileJson_of_not_isVacant (hvacant ▸ hj)]
    refine AgreeBy.eq ((Filter.agreeBy_ofJson j k h).bind fun f g _ _ hfg => ?_)
    rw [Filter.toSql_congr hfg]
    exact AgreeBy.refl (fun _ => rfl) _

/-- A connective in lower case, a further member, another field under `id`, and a value that is not
asked for. -/
theorem compileJson_eq_of_similar_isNull :
    ∃ j k : Json, j ≠ k ∧ j.Similar k ∧ compileJson {} j "t" = compileJson {} k "t" ∧
      compileJson {} k "t" = .ok (some " ( `t` IS NULL ) ") ∧
      Filter.toSql {} (.rule ⟨"b", .string, .isNull, .absent⟩) "t"
        = Filter.toSql {} (.rule ⟨"a", .string, .isNull, .absent⟩) "t" := by
  have hrule : Json.Similar
      (.object [("id", .string "b"), ("operator", .string "is_null"), ("value", .bool true)])
      (.object [("field", .string "a"), ("operator", .string "is_null")]) :=
    .rule rfl rfl rfl (.some (.refl _)) .none ⟨fun _ => ⟨_, rfl⟩, fun _ => ⟨_, rfl⟩⟩
      (.inl ⟨.isNull, rfl, rfl⟩)
  have hgroup : Json.Similar
      (.object [("condition", .string "and"), ("valid", .null), ("rules", .array [
        .object [("id", .string "b"), ("operator", .string "is_null"), ("value", .bool true)]])])
      (.object [("rules", .array [
        .object [("field", .string "a"), ("operator", .string "is_null")]]),
        ("condition", .string "AND")]) :=
    .group rfl rfl (.inr ⟨_, _, rfl, rfl, rfl, .inl rfl⟩) (.cons hrule .nil)
  obtain ⟨hjson, hfilter⟩ := compileJson_eq_of_similar {} "t"
  refine ⟨_, _, by simp, hgroup, hjson _ _ hgroup, ?_, hfilter _ _ rfl⟩
  rw [compileJson, Filter.ofJson_of_group rfl, eachAt, Filter.ofJson_of_rule rfl]
  rfl

end FilterSql
