import FilterSql.Command.Run
import FilterSql.Proofs.Sql.Documents

/-!
# Checking and compiling agree

A text is vacant when it is blank or holds a document with nothing to filter by (`Text.IsVacant`).
Exactly the vacant texts compile to nothing (`compileText_eq_ok_none_iff`).  Any other text is read as
checking reads it, and what is read is compiled (`compileText_of_not_isVacant`), so whatever is wrong
with the document comes before all that may be wrong with the filter.
-/

namespace FilterSql

/-- The text says that there is nothing to filter by. -/
def Text.IsVacant (s : String) : Prop :=
  (∀ c ∈ s.toList, isBlank c = true) ∨
    ∃ j, Json.ofText? s = some j ∧ (j = .null ∨ j.member? "rules" = some (.array []))

/-! ### Vacant texts -/

/-- A document that is read as a childless group is vacant. -/
theorem Payload.isVacant_of_ofJson {j : Json} {connective : Connective}
    (h : Filter.ofJson j = .ok (.group connective [])) : isVacant j = true := by
  cases standsFor_of_ofJson j _ h with
  | group rules _ _ nested =>
    rw [List.forall₂_nil_right_iff.1 nested] at rules
    exact isVacant_iff.2 (.inr rules)

section Texts

variable {options : Options} {target s : String}

theorem Text.isVacant_iff :
    IsVacant s ↔ isAllBlank s = true ∨ ∃ j, Json.ofText? s = some j ∧ Payload.isVacant j = true := by
  simp only [IsVacant, isAllBlank, List.all_eq_true, Payload.isVacant_iff]

theorem Text.not_isVacant_of_ofText? {j : Json} (hb : isAllBlank s = false)
    (hj : Json.ofText? s = some j) (hv : Payload.isVacant j = false) : ¬ IsVacant s := by
  simp [isVacant_iff, hb, hj, hv]

theorem compileText_of_isVacant (h : Text.IsVacant s) : compileText options s target = .ok none := by
  cases hb : Text.isAllBlank s with
  | true => exact compileText_of_isAllBlank hb
  | false =>
    obtain ⟨j, hj, hv⟩ := (Text.isVacant_iff.1 h).resolve_left (by simp [hb])
    rw [compileText_of_ofText? hb hj, compileJson_of_isVacant hv]

/-- A text that is not vacant is read, and what is read is compiled. -/
theorem compileText_of_not_isVacant (h : ¬ Text.IsVacant s) :
    compileText options s target
      = Filter.ofText? s >>= fun f => (f.toSql options target).map some := by
  rw [Text.isVacant_iff, not_or] at h
  obtain ⟨hb, hv⟩ := h
  rw [Bool.not_eq_true] at hb
  cases hj : Json.ofText? s with
  | none =>
    rw [compileText_eq_notJson_iff.2 ⟨hb, hj⟩, Filter.ofText?, hj]
    rfl
  | some j =>
    have hvacant : Payload.isVacant j = false :=
      Bool.eq_false_iff.2 fun hvacant => hv ⟨j, hj, hvacant⟩
    rw [compileText_of_ofText? hb hj, compileJson_of_not_isVacant hvacant, Filter.ofText?, hj]

/-- Exactly the vacant texts compile to nothing, since what is read from any other text is compiled
to a text or not at all. -/
theorem compileText_eq_ok_none_iff :
    compileText options s target = .ok none ↔ Text.IsVacant s := by
  refine ⟨fun h => ?_, compileText_of_isVacant⟩
  by_contra hv
  rw [compileText_of_not_isVacant hv] at h
  obtain ⟨f, -, hf⟩ := Except.bind_eq_ok_iff.1 h
  obtain ⟨sql, -, hsome⟩ := Except.map_eq_ok_iff.1 hf
  exact absurd hsome (by simp)

/-- What a text holds that is not vacant fails to compile on a group without children that lies below
the root, or on a type that is refused. -/
theorem Filter.toSql_error_of_ofText? {f : Filter} {e : Error} (hv : ¬ Text.IsVacant s)
    (h : ofText? s = .ok f) (he : f.toSql options target = .error e) :
    (∃ i place connective, f.at? (i :: place) = some (.group connective []) ∧
      e = .emptyGroup (Path.ofIndices (i :: place))) ∨
    (options.unknownTypes = .reject ∧ ∃ r ∈ f.rules, ∃ name, r.type = .other name ∧
      e = .unsupportedType name) := by
  obtain ⟨j, hj, hread⟩ := ofText?_eq_ok_iff.1 h
  refine (toSql_error_of_canonical (canonical_of_ofJson hread) he).imp_left ?_
  rintro ⟨indices, connective, hat, rfl⟩
  cases indices with
  | nil =>
    -- The root is no childless group, for its document would be vacant.
    obtain rfl := Option.some.inj hat
    exact absurd (Text.isVacant_iff.2 (.inr ⟨j, hj, Payload.isVacant_of_ofJson hread⟩)) hv
  | cons i place => exact ⟨i, place, connective, hat, rfl⟩

theorem checkCommand_of_ofText? {j : Json} (hj : Json.ofText? s = some j) :
    checkCommand (some s) = (Filter.ofJson j).mapError .filter := by
  rw [checkCommand, Filter.ofText?, hj]

end Texts

/-! ### Main result -/

/-- Just the vacant texts compile to nothing.  For any other text, a failure to check is the failure to
compile.  A text that checks compiles as the filter that was checked: to a text, or with an error
for a group without children below the root or for a type that is refused.  Hence a text that
compiles to a text checks. -/
theorem compileCommand_agrees (s target : String) (options : Options) :
    (compileCommand (some s) target options = .ok none ↔ Text.IsVacant s) ∧
    (¬ Text.IsVacant s →
      (∀ failure, checkCommand (some s) = .error failure →
        compileCommand (some s) target options = .error failure) ∧
      ∀ f, checkCommand (some s) = .ok f →
        (∃ sql, f.toSql options target = .ok sql ∧
          compileCommand (some s) target options = .ok (some sql)) ∨
        (∃ i place connective, f.at? (i :: place) = some (.group connective []) ∧
          compileCommand (some s) target options
            = .error (.filter (.emptyGroup (Path.ofIndices (i :: place))))) ∨
        (options.unknownTypes = .reject ∧ ∃ r ∈ f.rules, ∃ name, r.type = .other name ∧
          compileCommand (some s) target options = .error (.filter (.unsupportedType name)))) ∧
    ∀ sql, compileCommand (some s) target options = .ok (some sql) →
      ∃ f, checkCommand (some s) = .ok f ∧ f.toSql options target = .ok sql := by
  refine ⟨?_, fun hv => ⟨fun failure hcheck => ?_, fun f hcheck => ?_⟩, fun sql h => ?_⟩
  · rw [compileCommand, Except.mapError_eq_ok_iff, compileText_eq_ok_none_iff]
  · obtain ⟨e, he, rfl⟩ := Except.mapError_eq_error_iff.1 hcheck
    rw [compileCommand, compileText_of_not_isVacant hv, he]
    rfl
  · have hread : Filter.ofText? s = .ok f := Except.mapError_eq_ok_iff.1 hcheck
    have hcompile : compileCommand (some s) target options
        = ((f.toSql options target).map some).mapError .filter := by
      rw [compileCommand, compileText_of_not_isVacant hv, hread]
      rfl
    cases hsql : f.toSql options target with
    | ok sql => exact .inl ⟨sql, rfl, by rw [hcompile, hsql]; rfl⟩
    | error e =>
      rw [hcompile, hsql]
      rcases Filter.toSql_error_of_ofText? hv hread hsql with ⟨i, place, connective, hat, rfl⟩ |
        ⟨hreject, r, hr, name, htype, rfl⟩
      · exact .inr (.inl ⟨i, place, connective, hat, rfl⟩)
      · exact .inr (.inr ⟨hreject, r, hr, name, htype, rfl⟩)
  · obtain ⟨f, hread, hsql⟩ := exists_ofText?_of_compileText (Except.mapError_eq_ok_iff.1 h)
    exact ⟨f, Except.mapError_eq_ok_iff.2 hread, hsql⟩

/-- With an unknown operator behind a group without children the commands fail alike; without it only
compiling fails. -/
theorem compileCommand_agrees_childless :
    ∃ s s', compileCommand (some s) "t" {} = .error (.filter (.unsupportedOperator "no")) ∧
      checkCommand (some s') = .ok (.group .or [.group .and []]) ∧
      ∃ i place connective,
        Filter.at? (i :: place) (.group .or [.group .and []]) = some (.group connective []) ∧
        compileCommand (some s') "t" {}
          = .error (.filter (.emptyGroup (Path.ofIndices (i :: place)))) := by
  have hdecode : Json.ofText? "\x7b\"condition\":\"or\",\"rules\":[\x7b\"condition\":\"and\",\"rules\":[]\x7d,\x7b\"operator\":\"no\"\x7d]\x7d"
      = some (.object [("condition", .string "or"), ("rules", .array [
        .object [("condition", .string "and"), ("rules", .array [])],
        .object [("operator", .string "no")]])]) := rfl
  have hdecode' : Json.ofText? "\x7b\"condition\":\"or\",\"rules\":[\x7b\"condition\":\"and\",\"rules\":[]\x7d]\x7d"
      = some (.object [("condition", .string "or"), ("rules", .array [
        .object [("condition", .string "and"), ("rules", .array [])]])]) := rfl
  have hcheck := checkCommand_of_ofText? hdecode
  rw [Filter.ofJson_of_group rfl, eachAt, Filter.ofJson_of_group rfl, eachAt,
    eachAt, Filter.ofJson_of_error rfl] at hcheck
  have hcheck' := checkCommand_of_ofText? hdecode'
  rw [Filter.ofJson_of_group rfl, eachAt, Filter.ofJson_of_group rfl] at hcheck'
  obtain ⟨-, hagrees, -⟩ := compileCommand_agrees _ "t" {}
  obtain ⟨-, hagrees', -⟩ := compileCommand_agrees _ "t" {}
  have hfail := (hagrees (Text.not_isVacant_of_ofText? rfl hdecode rfl)).1 _ hcheck
  refine ⟨_, _, hfail, hcheck', ?_⟩
  rcases (hagrees' (Text.not_isVacant_of_ofText? rfl hdecode' rfl)).2 _ hcheck' with
    ⟨sql, hsql, -⟩ | ⟨i, place, connective, hat, h⟩ | ⟨hreject, -⟩
  · have hempty : Filter.toSql {} (.group .or [.group .and []]) "t"
        = .error (.emptyGroup [.key "rules", .index 0]) := rfl
    exact absurd (hempty.symm.trans hsql) (by simp)
  · exact ⟨i, place, connective, hat, h⟩
  · exact absurd hreject (by simp)

end FilterSql
