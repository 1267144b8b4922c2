import FilterSql.Proofs.Filter.Canonicity
import FilterSql.Proofs.Sql.FirstFault

/-!
# Compiling documents

A document with something to filter by compiles as the filter that is read from it does
(`compileJson_of_not_isVacant`), and a text as the document that it holds.  What is read is canonical,
so that compiling it only fails on a group without children or on a type that is refused
(`Filter.toSql_of_ofJson`).
-/

namespace FilterSql

/-! ### Documents and texts -/

section Documents

variable {options : Options} {target s : String} {j : Json}

theorem compileJson_of_isVacant (hv : Payload.isVacant j = true) :
    compileJson options j target = .ok none := by
  rw [compileJson, if_pos hv]

/-- A document with something to filter by is read, and what is read is compiled. -/
theorem compileJson_of_not_isVacant (hv : Payload.isVacant j = false) :
    compileJson options j target
      = Filter.ofJson j >>= fun f => (f.toSql options target).map some := by
  rw [compileJson, if_neg (by simp [hv])]
  rfl

theorem compileJson_ne_notJson : compileJson options j target ≠ .error .notJson := by
  intro h
  cases hv : Payload.isVacant j with
  | true =>
    rw [compileJson_of_isVacant hv] at h
    exact absurd h (by simp)
  | false =>
    rw [compileJson_of_not_isVacant hv] at h
    obtain hread | ⟨f, -, hcompile⟩ := Except.bind_eq_error_iff.1 h
    · exact Payload.ofJson_ne_notJson j hread
    · exact f.toSql_ne_notJson options target (Except.map_eq_error_iff.1 hcompile)

/-- What a document compiles to is the text of the filter that is read. -/
theorem exists_ofJson_of_compileJson {sql : String}
    (h : compileJson options j target = .ok (some sql)) :
    ∃ f, Filter.ofJson j = .ok f ∧ f.toSql options target = .ok sql := by
  cases hv : Payload.isVacant j with
  | true =>
    rw [compileJson_of_isVacant hv] at h
    exact absurd h (by simp)
  | false =>
    rw [compileJson_of_not_isVacant hv] at h
    obtain ⟨f, hread, hcompile⟩ := Except.bind_eq_ok_iff.1 h
    obtain ⟨sql', hsql, hsome⟩ := Except.map_eq_ok_iff.1 hcompile
    exact ⟨f, hread, Option.some.inj hsome ▸ hsql⟩

/-- A value that is no object is never compiled to a text. -/
theorem compileJson_ne_ok_some (ho : j.isObject = false) (sql : String) :
    compileJson options j target ≠ .ok (some sql) := by
  intro h
  have hnode : Payload.readNode j = .error (.malformed [] .notAnObject) := by
    rw [Payload.readNode, if_pos ho]
  obtain ⟨f, hread, -⟩ := exists_ofJson_of_compileJson h
  rw [Filter.ofJson_of_error hnode] at hread
  exact absurd hread (by simp)

theorem compileText_of_ofText? (hb : Text.isAllBlank s = false) (hj : Json.ofText? s = some j) :
    compileText options s target = compileJson options j target := by
  simp [compileText, hb, hj]

theorem compileText_of_isAllBlank (hb : Text.isAllBlank s = true) :
    compileText options s target = .ok none := by
  simp [compileText, hb]

theorem compileText_eq_notJson_iff :
    compileText options s target = .error .notJson ↔
      Text.isAllBlank s = false ∧ Json.ofText? s = none := by
  cases hb : Text.isAllBlank s with
  | true => simp [compileText_of_isAllBlank hb]
  | false =>
    cases hj : Json.ofText? s with
    | none => simp [compileText, hb, hj]
    | some j => simpa [compileText_of_ofText? hb hj] using compileJson_ne_notJson

/-- What a text compiles to is the text of the filter that is read. -/
theorem exists_ofText?_of_compileText {sql : String}
    (h : compileText options s target = .ok (some sql)) :
    ∃ f, Filter.ofText? s = .ok f ∧ f.toSql options target = .ok sql := by
  rw [compileText] at h
  split at h
  · exact absurd h (by simp)
  split at h
  · exact absurd h (by simp)
  rename_i j hj
  rw [Filter.ofText?, hj]
  exact exists_ofJson_of_compileJson h

end Documents

/-! ### Canonical filters -/

theorem Value.Fits.suits {v : Value} {arity : Arity} (h : v.Fits arity) : v.Suits arity := by
  cases arity with
  | none => trivial
  | single =>
    obtain ⟨x, rfl⟩ := h
    exact ⟨x, .inl rfl⟩
  | list =>
    obtain ⟨xs, hne, rfl⟩ := h
    exact .inr ⟨xs, hne, rfl⟩
  | pair =>
    obtain ⟨low, high, rfl⟩ := h
    exact ⟨low, high, .inl rfl⟩

namespace Filter

/-- A canonical filter only fails to compile on a group without children or on a refused type. -/
theorem toSql_error_of_canonical {f : Filter} (hf : f.Canonical) {options : Options}
    {target : String} {e : Error} (h : f.toSql options target = .error e) :
    (∃ indices connective, f.at? indices = some (.group connective []) ∧
      e = .emptyGroup (Path.ofIndices indices)) ∨
    (options.unknownTypes = .reject ∧ ∃ r ∈ f.rules, ∃ name, r.type = .other name ∧
      e = .unsupportedType name) := by
  obtain ⟨before, ⟨indices, part⟩, after, fault, hparts, -, hfault, rfl⟩ :=
    head?_allFaults_eq_some_iff.1 ((finds_toSql options f target e).1 h)
  have hmem : (indices, part) ∈ f.parts := by simp [hparts]
  have hat : f.at? indices = some part := at?_of_mem_parts f _ hmem
  have hrules : ∀ r, part = .rule r → r ∈ f.rules := mem_rules_of_mem_parts f _ hmem
  cases hfault with
  | childless connective => exact .inl ⟨indices, connective, hat, by simp [Error.within]⟩
  | type rejected other => exact .inr ⟨rejected, _, hrules _ rfl, _, other, rfl⟩
  | arity _ unsuited => exact absurd (hf _ (hrules _ rfl)).1.suits unsuited

/-! ### Main result -/

/-- A filter that was read is canonical, and so the value of no rule keeps it from compiling: if it
does not compile, that is for a group without children or for a type that is refused. -/
theorem toSql_of_ofJson {j : Json} {f : Filter} (h : ofJson j = .ok f) :
    f.Canonical ∧ ∀ options target e, f.toSql options target = .error e →
      (∃ indices connective, f.at? indices = some (.group connective []) ∧
        e = .emptyGroup (Path.ofIndices indices)) ∨
      (options.unknownTypes = .reject ∧ ∃ r ∈ f.rules, ∃ name, r.type = .other name ∧
        e = .unsupportedType name) := by
  have hf := canonical_of_ofJson h
  exact ⟨hf, fun options target e he => toSql_error_of_canonical hf he⟩

/-- A text that stands for a list, in a rule whose type is refused, behind a group without
children. -/
theorem toSql_of_ofJson_notOneOf :
    ∃ j f, ofJson j = .ok f ∧ f.Canonical ∧
      f = .group .and [.rule ⟨"a", .other "color", .notOneOf, .list [.text "1", .text "2"]⟩,
        .group .or []] ∧
      f.toSql ⟨{}, .reject⟩ "t" = .error (.unsupportedType "color") ∧
      ∃ indices connective, f.at? indices = some (.group connective []) ∧
        f.toSql {} "t" = .error (.emptyGroup (Path.ofIndices indices)) := by
  have h : ofJson (.object [("condition", .string "and"), ("rules", .array [
        .object [("id", .string "a"), ("type", .string "color"), ("operator", .string "not_in"),
          ("value", .string "1, 2")],
        .object [("condition", .string "OR"), ("rules", .array [])]])])
      = .ok (.group .and [.rule ⟨"a", .other "color", .notOneOf, .list [.text "1", .text "2"]⟩,
        .group .or []]) := by
    rw [ofJson_of_group rfl, eachAt, ofJson_of_rule rfl, eachAt, ofJson_of_group rfl]
    rfl
  obtain ⟨hcanonical, herror⟩ := toSql_of_ofJson h
  refine ⟨_, _, h, hcanonical, rfl, rfl, ?_⟩
  rcases herror {} "t" _ rfl with ⟨indices, connective, hat, he⟩ | ⟨hreject, -⟩
  · exact ⟨indices, connective, hat, congrArg Except.error he⟩
  · exact absurd hreject (by simp)

end Filter

end FilterSql
