import FilterSql.Filter.Parts
import FilterSql.Proofs.Outcomes
import FilterSql.Sql.Compile

/-!
# Which filters compile

A filter compiles when every group has a child, every value suits its operator and no type is
refused (`Filter.Compilable`).  Otherwise the error is that of the first part with a fault
(`Filter.HasFault`), in the order in which `Filter.parts` lists them.
-/

namespace FilterSql

/-! ### Faults -/

/-- The value is one that operators of the arity can compare with. -/
def Value.Suits (v : Value) : Arity → Prop
  | .none => True
  | .single => ∃ x, v = .single x ∨ v = .list [x]
  | .list => (∃ x, v = .single x) ∨ ∃ xs, xs ≠ [] ∧ v = .list xs
  | .pair => ∃ low high, v = .pair low high ∨ v = .list [low, high]

/-- The value is one that the words ask for. -/
def Value.Meets (v : Value) : String → Prop
  | "no value" => True
  | "a single value" => ∃ x, v = .single x ∨ v = .list [x]
  | "a list of values" => (∃ x, v = .single x) ∨ ∃ xs, xs ≠ [] ∧ v = .list xs
  | "a pair of values" => ∃ low high, v = .pair low high ∨ v = .list [low, high]
  | _ => False

/-- The words describe the value. -/
def Value.IsCalled (v : Value) (words : String) : Prop :=
  (v = .absent ∧ words = "no value") ∨ (∃ x, v = .single x ∧ words = "a single value") ∨
  (∃ xs, v = .list xs ∧ words = "a list of " ++ xs.length.repr ++ " value(s)") ∨
  ∃ low high, v = .pair low high ∧ words = "a pair of values"

/-- The type of the rule is one that is compiled. -/
def Rule.IsAccepted (unknown : UnknownTypes) (r : Rule) : Prop :=
  unknown = .reject → ∀ name, r.type ≠ .other name

namespace Filter

/-- Nothing is wrong with any part of the filter. -/
inductive Compilable (unknown : UnknownTypes) : Filter → Prop
  | group {connective : Connective} {children : List Filter} (nonempty : children ≠ [])
      (compilable : ∀ f ∈ children, Compilable unknown f) :
      Compilable unknown (.group connective children)
  | rule {r : Rule} (accepted : r.IsAccepted unknown) (suited : r.value.Suits r.operator.arity) :
      Compilable unknown (.rule r)

/-- What is wrong with a group or a rule itself; the type of a rule counts before its value. -/
inductive HasFault (unknown : UnknownTypes) : Filter → Error → Prop
  | childless (connective : Connective) : HasFault unknown (.group connective []) (.emptyGroup [])
  | type {r : Rule} {name : String} (rejected : unknown = .reject) (other : r.type = .other name) :
      HasFault unknown (.rule r) (.unsupportedType name)
  | arity {r : Rule} (accepted : r.IsAccepted unknown)
      (unsuited : ¬ r.value.Suits r.operator.arity) :
      HasFault unknown (.rule r) (.valueArity r.operator r.value.shape)

end Filter

/-! ### Values that do not suit -/

namespace Value

variable {v : Value}

theorem meets_text_iff {arity : Arity} : v.Meets arity.text ↔ v.Suits arity := by
  cases arity <;> rfl

theorem isCalled_shape (v : Value) : v.IsCalled v.shape.text := by
  cases v with
  | absent => exact .inl ⟨rfl, rfl⟩
  | single x => exact .inr (.inl ⟨x, rfl, rfl⟩)
  | list xs => exact .inr (.inr (.inl ⟨xs, rfl, rfl⟩))
  | pair low high => exact .inr (.inr (.inr ⟨low, high, rfl, rfl⟩))

theorem single?_eq_none_iff : v.single? = none ↔ ¬ v.Suits .single := by
  cases v with
  | list xs => rcases xs with _ | ⟨x, _ | ⟨y, xs⟩⟩ <;> simp [single?, Suits]
  | _ => simp [single?, Suits]

theorem list?_eq_none_iff : v.list? = none ↔ ¬ v.Suits .list := by
  cases v with
  | list xs => cases xs <;> simp [list?, Suits]
  | _ => simp [list?, Suits]

theorem pair?_eq_none_iff : v.pair? = none ↔ ¬ v.Suits .pair := by
  cases v with
  | list xs => rcases xs with _ | ⟨x, _ | ⟨y, _ | ⟨z, xs⟩⟩⟩ <;> simp [pair?, Suits]
  | _ => simp [pair?, Suits]

end Value

namespace Rule

variable {r : Rule} {e : Error}

theorem singleText_eq_error_iff :
    r.singleText = .error e ↔ ¬ r.value.Suits .single ∧ r.arityError = e := by
  rw [singleText, ← Value.single?_eq_none_iff]
  cases r.value.single? <;> simp

theorem listTexts_eq_error_iff :
    r.listTexts = .error e ↔ ¬ r.value.Suits .list ∧ r.arityError = e := by
  rw [listTexts, ← Value.list?_eq_none_iff]
  cases r.value.list? <;> simp

theorem pairTexts_eq_error_iff :
    r.pairTexts = .error e ↔ ¬ r.value.Suits .pair ∧ r.arityError = e := by
  rw [pairTexts, ← Value.pair?_eq_none_iff]
  cases r.value.pair? <;> simp

/-- A test fails just on a value that does not suit its operator. -/
theorem test_eq_error_iff :
    r.test = .error e ↔ ¬ r.value.Suits r.operator.arity ∧ r.arityError = e := by
  unfold test
  cases r.operator with
  | isEmpty | isNotEmpty | isNull | isNotNull => simp [Operator.arity, Value.Suits]
  | oneOf | notOneOf => exact Except.map_eq_error_iff.trans listTexts_eq_error_iff
  | between | notBetween => exact Except.map_eq_error_iff.trans pairTexts_eq_error_iff
  | _ => exact Except.map_eq_error_iff.trans singleText_eq_error_iff

theorem isAccepted_iff {unknown : UnknownTypes} :
    r.IsAccepted unknown ↔ ¬ (unknown = .reject ∧ r.type.isKnown = false) := by
  rw [IsAccepted, FieldType.isKnown_eq_false_iff]
  simp

theorem checkedTest_eq_error_iff {unknown : UnknownTypes} :
    r.checkedTest unknown = .error e ↔ Filter.HasFault unknown (.rule r) e := by
  unfold checkedTest
  split
  · rename_i h
    obtain ⟨hr, hk⟩ := h
    obtain ⟨name, hn⟩ := FieldType.isKnown_eq_false_iff.1 hk
    constructor
    · intro he
      obtain rfl := Except.error.inj he
      rw [hn]
      exact .type hr hn
    · intro he
      cases he with
      | type _ other => rw [other]; rfl
      | arity accepted _ => exact absurd hn (accepted hr name)
  · rename_i h
    have haccepted := isAccepted_iff.2 h
    rw [test_eq_error_iff]
    constructor
    · rintro ⟨hs, rfl⟩
      exact .arity haccepted hs
    · intro he
      cases he with
      | type rejected other => exact absurd other (haccepted rejected _)
      | arity _ unsuited => exact ⟨unsuited, rfl⟩

end Rule

/-! ### Compiling finds the first fault -/

namespace Filter

variable {unknown : UnknownTypes}

/-- The fault of a group or a rule itself, if it has one. -/
def faults (unknown : UnknownTypes) : Filter → List Error
  | .rule r =>
    match r.checkedTest unknown with
    | .ok _ => []
    | .error e => [e]
  | .group _ children => if children = [] then [.emptyGroup []] else []

/-- The faults of all parts, each with the path of its part. -/
def allFaults (unknown : UnknownTypes) (f : Filter) : List Error :=
  f.parts.flatMap fun part =>
    (part.2.faults unknown).map (Error.within (Path.ofIndices part.1))

theorem head?_faults_eq_some_iff {f : Filter} {e : Error} :
    (f.faults unknown).head? = some e ↔ f.HasFault unknown e := by
  cases f with
  | rule r =>
    rw [← Rule.checkedTest_eq_error_iff, faults]
    cases r.checkedTest unknown <;> simp
  | group connective children =>
    rw [faults]
    constructor
    · intro h
      split at h
      · rename_i hnil
        rw [hnil, ← Option.some.inj h]
        exact .childless connective
      · simp at h
    · intro h
      cases h with
      | childless => rfl

theorem faults_eq_nil_iff {f : Filter} : f.faults unknown = [] ↔ ∀ e, ¬ f.HasFault unknown e := by
  simp only [← head?_faults_eq_some_iff, ← List.head?_eq_none_iff, Option.eq_none_iff_forall_ne_some,
    ne_eq]

theorem allFaults_rule (r : Rule) : allFaults unknown (.rule r) = faults unknown (.rule r) := by
  simp [allFaults, parts]

theorem allFaults_group (connective : Connective) (children : List Filter) :
    allFaults unknown (.group connective children)
      = faults unknown (.group connective children) ++ children.zipIdx.flatMap fun child =>
          (allFaults unknown child.1).map (Error.within [.key "rules", .index child.2]) := by
  have hchild : ∀ child : Filter × Nat,
      (child.1.parts.map fun part => (child.2 :: part.1, part.2)).flatMap
        (fun part => (part.2.faults unknown).map (Error.within (Path.ofIndices part.1)))
      = (allFaults unknown child.1).map (Error.within [.key "rules", .index child.2]) := by
    intro child
    rw [allFaults, List.flatMap_map, List.map_flatMap]
    simp [Function.comp_def, Path.ofIndices_cons]
  rw [allFaults, parts, List.flatMap_cons, partsOfAll_eq_flatMap, List.flatMap_assoc]
  simp only [hchild, Path.ofIndices_nil, Error.map_within_nil]

theorem faults_rule_eq_nil_iff {r : Rule} :
    faults unknown (.rule r) = [] ↔ Compilable unknown (.rule r) := by
  rw [faults_eq_nil_iff]
  constructor
  · intro h
    have haccepted : r.IsAccepted unknown := fun hr name hn => h _ (.type hr hn)
    exact .rule haccepted (by_contra fun hs => h _ (.arity haccepted hs))
  · intro h e he
    cases h with
    | rule accepted suited =>
      cases he with
      | type rejected other => exact accepted rejected _ other
      | arity _ unsuited => exact unsuited suited

/-- No part has a fault just when the filter is compilable. -/
theorem allFaults_eq_nil_iff (f : Filter) : f.allFaults unknown = [] ↔ f.Compilable unknown := by
  induction f using Filter.induction with
  | rule r => rw [allFaults_rule, faults_rule_eq_nil_iff]
  | group connective children ih =>
    have hown : faults unknown (.group connective children) = [] ↔ children ≠ [] := by
      simp [faults]
    rw [allFaults_group, List.append_eq_nil_iff, hown,
      flatMap_within_eq_nil_iff fun i => [.key "rules", .index i]]
    constructor
    · rintro ⟨hne, hall⟩
      exact .group hne fun f hf => (ih f hf).1 (hall f hf)
    · rintro ⟨hne, hall⟩
      exact ⟨hne, fun f hf => (ih f hf).2 (hall f hf)⟩

/-- The first of all faults is that of the first part that has one. -/
theorem head?_allFaults_eq_some_iff {f : Filter} {e : Error} :
    (f.allFaults unknown).head? = some e ↔
      ∃ before part after fault, f.parts = before ++ part :: after ∧
        (∀ earlier ∈ before, ∀ e', ¬ earlier.2.HasFault unknown e') ∧
        part.2.HasFault unknown fault ∧ e = fault.within (Path.ofIndices part.1) := by
  rw [allFaults, List.head?_flatMap, List.findSome?_eq_some_iff]
  simp only [List.head?_map, Option.map_eq_some_iff, Option.map_eq_none_iff,
    List.head?_eq_none_iff, faults_eq_nil_iff, head?_faults_eq_some_iff]
  constructor
  · rintro ⟨before, part, after, hparts, ⟨fault, hfault, rfl⟩, hbefore⟩
    exact ⟨before, part, after, fault, hparts, hbefore, hfault, rfl⟩
  · rintro ⟨before, part, after, fault, hparts, hbefore, hfault, rfl⟩
    exact ⟨before, part, after, hparts, ⟨fault, hfault, rfl⟩, hbefore⟩

end Filter

namespace Predicate

variable {unknown : UnknownTypes}

theorem finds_checkedTest (r : Rule) :
    Finds (r.checkedTest unknown) (Filter.allFaults unknown (.rule r)) := by
  intro e
  rw [Filter.allFaults_rule, Filter.head?_faults_eq_some_iff, Rule.checkedTest_eq_error_iff]

/-- Going through a part of a filter finds its faults. -/
theorem finds_ofFilter (f : Filter) : Finds (ofFilter unknown f) (f.allFaults unknown) := by
  induction f using Filter.induction with
  | rule r =>
    rw [ofFilter]
    exact (finds_checkedTest r).map _
  | group connective children ih =>
    -- A group without children has that fault only; any other group has those of its children.
    rw [ofFilter, Filter.allFaults_group, Filter.faults]
    split
    · rename_i hnil
      rw [List.isEmpty_iff.1 hnil]
      exact finds_error _ _
    · rename_i hne
      have h := ((finds_eachAt 0 ih).located [.key "rules"]).map (Predicate.group connective)
      rw [ofFilters_eq_eachAt, if_neg (List.isEmpty_iff.not.1 hne), List.nil_append]
      simpa [List.map_flatMap, Function.comp_def] using h

theorem finds_ofRoot (f : Filter) : Finds (ofRoot unknown f) (f.allFaults unknown) := by
  cases f with
  | rule r => exact (finds_checkedTest r).map _
  | group connective children => exact finds_ofFilter _

end Predicate

/-! ### Main result -/

namespace Filter

theorem finds_toSql (options : Options) (f : Filter) (target : String) :
    Finds (f.toSql options target) (f.allFaults options.unknownTypes) :=
  (Predicate.finds_ofRoot f).map _

theorem exists_toSql_iff {options : Options} {f : Filter} {target : String} :
    (∃ sql, f.toSql options target = .ok sql) ↔ f.Compilable options.unknownTypes :=
  (finds_toSql options f target).exists_ok_iff.trans (allFaults_eq_nil_iff f)

/-- A filter is no text, let alone one that cannot be decoded. -/
theorem toSql_ne_notJson (options : Options) (f : Filter) (target : String) :
    f.toSql options target ≠ .error .notJson := by
  intro h
  obtain ⟨_, ⟨_, part⟩, _, fault, -, -, hfault, he⟩ :=
    head?_allFaults_eq_some_iff.1 ((finds_toSql options f target _).1 h)
  cases hfault <;> simp [Error.within] at he

/-- A filter compiles just when it is compilable.  Otherwise the error is that of the first part with
a fault, where a group without children is found at the path that the error shows, and an error about
a value says what its operator asks for and what the value is instead.  None of this depends on the
target and on the style. -/
theorem toSql_outcome (options : Options) (f : Filter) (target : String) :
    ((∃ sql, f.toSql options target = .ok sql) ↔ f.Compilable options.unknownTypes) ∧
    (∀ e, f.toSql options target = .error e ↔
      ∃ before part after fault, f.parts = before ++ part :: after ∧
        (∀ earlier ∈ before, ∀ e', ¬ earlier.2.HasFault options.unknownTypes e') ∧
        part.2.HasFault options.unknownTypes fault ∧
        e = fault.within (Path.ofIndices part.1)) ∧
    (∀ place, f.toSql options target = .error (.emptyGroup place) →
      ∃ indices connective, f.at? indices = some (.group connective []) ∧
        place = Path.ofIndices indices ∧
        place.text = "filter" ++ String.join (indices.map fun i => ".rules[" ++ i.repr ++ "]")) ∧
    (∀ operator found, f.toSql options target = .error (.valueArity operator found) →
      ∃ r ∈ f.rules, r.operator = operator ∧ r.value.IsCalled found.text ∧
        ∃ expected, (∀ v : Value, v.Meets expected ↔ v.Suits operator.arity) ∧
          ¬ r.value.Meets expected ∧
          (Error.valueArity operator found).message = "operator '" ++ operator.tag
            ++ "' expects " ++ expected ++ ", got " ++ found.text) ∧
    ∀ options' target', options'.unknownTypes = options.unknownTypes →
      ((∃ sql, f.toSql options target = .ok sql) ↔ ∃ sql, f.toSql options' target' = .ok sql) ∧
      ∀ e, f.toSql options target = .error e ↔ f.toSql options' target' = .error e := by
  have hfinds := finds_toSql options f target
  refine ⟨hfinds.exists_ok_iff.trans (allFaults_eq_nil_iff f),
    fun e => (hfinds e).trans head?_allFaults_eq_some_iff, fun place h => ?_,
    fun operator found h => ?_, fun options' target' ho => ?_⟩
  · obtain ⟨before, ⟨indices, part⟩, after, fault, hparts, -, hfault, hplace⟩ :=
      head?_allFaults_eq_some_iff.1 ((hfinds _).1 h)
    have hat : f.at? indices = some part :=
      at?_of_mem_parts f (indices, part) (by simp [hparts])
    cases hfault with
    | childless connective =>
      have hp : place = Path.ofIndices indices := by
        simpa [Error.within] using hplace
      exact ⟨indices, connective, hat, hp, hp ▸ Path.text_ofIndices indices⟩
    | type => simp [Error.within] at hplace
    | arity => simp [Error.within] at hplace
  · obtain ⟨before, ⟨indices, part⟩, after, fault, hparts, -, hfault, herror⟩ :=
      head?_allFaults_eq_some_iff.1 ((hfinds _).1 h)
    cases hfault with
    | childless => simp [Error.within] at herror
    | type => simp [Error.within] at herror
    | arity accepted unsuited =>
      rename_i r
      obtain ⟨rfl, rfl⟩ : operator = r.operator ∧ found = r.value.shape := by
        simpa [Error.within] using herror
      have hr : r ∈ f.rules := mem_rules_of_mem_parts f (indices, .rule r) (by simp [hparts]) r rfl
      exact ⟨r, hr, rfl, r.value.isCalled_shape, r.operator.arity.text,
        fun v => Value.meets_text_iff, fun h => unsuited (Value.meets_text_iff.1 h), rfl⟩
  · have hfinds' := finds_toSql options' f target'
    rw [ho] at hfinds'
    exact ⟨hfinds.exists_ok_iff.trans hfinds'.exists_ok_iff.symm,
      fun e => (hfinds e).trans (hfinds' e).symm⟩

/-- A group without children in front of a rule whose type is refused, in either dialect. -/
theorem toSql_outcome_childless :
    ∃ f : Filter, f.toSql ⟨{}, .reject⟩ "t" = .error (.emptyGroup [.key "rules", .index 1]) ∧
      f.toSql ⟨⟨.ansi, .verbatim⟩, .reject⟩ "p.t"
        = .error (.emptyGroup [.key "rules", .index 1]) ∧
      (∃ indices connective, f.at? indices = some (.group connective []) ∧
        [.key "rules", .index 1] = Path.ofIndices indices) := by
  have houtcome := toSql_outcome ⟨{}, .reject⟩ (.group .and [.rule ⟨"a", .string, .isNull, .absent⟩,
    .group .or [], .rule ⟨"b", .other "color", .isNull, .absent⟩]) "t"
  obtain ⟨-, -, hplace, -, hsame⟩ := houtcome
  obtain ⟨indices, connective, hat, hp, -⟩ := hplace [.key "rules", .index 1] rfl
  exact ⟨_, rfl, ((hsame ⟨⟨.ansi, .verbatim⟩, .reject⟩ "p.t" rfl).2 _).1 rfl,
    indices, connective, hat, hp⟩

/-- Three values where a range needs two. -/
example : (Error.valueArity .between (Value.list [.text "1", .text "5", .text "9"]).shape).message
    = "operator 'between' expects a pair of values, got a list of 3 value(s)" := by
  decide +kernel

end Filter

end FilterSql
