import FilterSql.Proofs.Sql.Documents
import FilterSql.Proofs.Sql.Outline

/-!
# Values before they are shaped

Reading a rule shapes its value as the operator asks (`Value.ofJson_of_copies`), and compiling asks
for the same shapes.  So a rule that has its value just as it stands in the document
(`Rule.Copies`) compiles like the rule that is read there, and where one of the two is refused so is
the other (`Filter.toSql_of_copies`).  The refusals differ in one name: reading calls a list without
elements empty, compiling counts its elements.
-/

namespace FilterSql

/-! ### Copied values -/

/-- The value is what stands in the member, in no other shape: nothing, one scalar, or a list. -/
inductive Value.Copies : Value → Option Json → Prop
  | missing : Copies .absent none
  | null : Copies .absent (some .null)
  | single {j : Json} {x : Scalar} (scalar : Scalar.ofJson j = .ok x) : Copies (.single x) (some j)
  | list {items : List Json} {xs : List Scalar}
      (scalars : items.map Scalar.ofJson = xs.map .ok) : Copies (.list xs) (some (.array items))

/-- The object stands for a rule that has the value of the object as it is. -/
structure Rule.Copies (r : Rule) (j : Json) : Prop where
  noRules : j.member? "rules" = none
  tag : j.member? "operator" = some (.string r.operator.tag)
  field : Payload.readField j = .ok r.field
  type : Payload.readType j = .ok r.type
  value : r.value.Copies (j.member? "value")

/-- Only an array without elements is copied to a list without elements. -/
theorem Value.Copies.eq_list_nil_iff {v : Value} {member : Option Json} (h : v.Copies member) :
    v = .list [] ↔ member = some (.array []) := by
  cases h with
  | missing | null => simp
  | @single j x scalar => cases j <;> simp_all [Scalar.ofJson]
  | @list items xs scalars =>
    have hlength : items.length = xs.length := by simpa using congrArg List.length scalars
    simp [← List.length_eq_zero_iff, hlength]

namespace Value

/-! ### Shaping -/

/-- The value in the shape that the arity asks for, if it has one. -/
def shaped? (v : Value) : Arity → Option Value
  | .none => some .absent
  | .single => v.single?.map .single
  | .list => v.list?.map .list
  | .pair => v.pair?.map fun p => .pair p.1 p.2

/-- What reading calls a value that it refuses. -/
def refusal (v : Value) (arity : Arity) : Shape :=
  if arity = .list ∧ v = .list [] then .emptyList else v.shape

variable {v w : Value} {arity : Arity}

theorem shaped?_eq_none_iff : v.shaped? arity = none ↔ ¬ v.Suits arity := by
  cases arity with
  | none => simp [shaped?, Suits]
  | single => rw [shaped?, Option.map_eq_none_iff, single?_eq_none_iff]
  | list => rw [shaped?, Option.map_eq_none_iff, list?_eq_none_iff]
  | pair => rw [shaped?, Option.map_eq_none_iff, pair?_eq_none_iff]

theorem fits_of_shaped? (h : v.shaped? arity = some w) : w.Fits arity := by
  cases arity with
  | none => exact (Option.some.inj h).symm
  | single =>
    obtain ⟨x, -, rfl⟩ := Option.map_eq_some_iff.1 h
    exact ⟨x, rfl⟩
  | list =>
    obtain ⟨xs, hxs, rfl⟩ := Option.map_eq_some_iff.1 h
    exact ⟨xs, ne_nil_of_list? hxs, rfl⟩
  | pair =>
    obtain ⟨p, -, rfl⟩ := Option.map_eq_some_iff.1 h
    exact ⟨p.1, p.2, rfl⟩

/-- Shaping keeps the scalars, unless the operator has no use for them. -/
theorem scalars_of_shaped? (h : v.shaped? arity = some w) :
    arity = .none ∨ w.scalars = v.scalars := by
  cases arity with
  | none => exact .inl rfl
  | single =>
    obtain ⟨x, hx, rfl⟩ := Option.map_eq_some_iff.1 h
    exact .inr (scalars_of_single? hx).symm
  | list =>
    obtain ⟨xs, hxs, rfl⟩ := Option.map_eq_some_iff.1 h
    exact .inr (scalars_of_list? hxs).symm
  | pair =>
    obtain ⟨p, hp, rfl⟩ := Option.map_eq_some_iff.1 h
    exact .inr (scalars_of_pair? hp).symm

/-! ### Reading shapes a copied value -/

variable {operator : Operator}

/-- The outcome of reading a value that is shaped or refused. -/
def shapedOrRefused (operator : Operator) (v : Value) : Except Error Value :=
  (v.shaped? operator.arity).elim (.error (.valueArity operator (v.refusal operator.arity))) .ok

theorem ofJson_of_scalar {j : Json} {x : Scalar} (hx : Scalar.ofJson j = .ok x)
    (hs : ∀ s, j = .string s → operator.arity = .none ∨ operator.arity = .single) :
    ofJson operator (some j) = shapedOrRefused operator (.single x) := by
  cases j with
  | null | array items | object members => exact absurd hx (by simp [Scalar.ofJson])
  | string s =>
    obtain rfl := Except.ok.inj hx
    rcases hs s rfl with harity | harity <;>
      simp [ofJson, harity, singleOfJson, Scalar.ofJson, Except.map, shapedOrRefused, shaped?, single?]
  | bool b | number n =>
    obtain rfl := Except.ok.inj hx
    cases harity : operator.arity <;>
      simp [ofJson, harity, singleOfJson, listOfJson, pairOfJson, Scalar.ofJson, Except.map,
        shapedOrRefused, shaped?, single?, list?, pair?, refusal, shape]

theorem ofJson_of_scalars {items : List Json} {xs : List Scalar}
    (h : items.map Scalar.ofJson = xs.map .ok) :
    ofJson operator (some (.array items)) = shapedOrRefused operator (.list xs) := by
  have hitems := map_eq_map_iff_forall₂.1 h
  cases harity : operator.arity with
  | none => simp [ofJson, shapedOrRefused, shaped?, harity]
  | single =>
    rcases hitems with _ | ⟨ha, _ | ⟨hb, hrest⟩⟩
    · simp [ofJson, harity, singleOfJson, shapedOrRefused, shaped?, single?, refusal, shape]
    · simp [ofJson, harity, singleOfJson, ha, located_ok, Except.map, shapedOrRefused, shaped?,
        single?]
    · simp [ofJson, harity, singleOfJson, hrest.length_eq, shapedOrRefused, shaped?, single?, refusal,
        shape]
  | list =>
    have heach : eachAt Scalar.ofJson 0 items = .ok xs := eachAt_eq_ok_iff.2 h
    rcases hitems with _ | ⟨ha, hrest⟩
    · simp [ofJson, harity, listOfJson, shapedOrRefused, shaped?, list?, refusal]
    · simp [ofJson, harity, listOfJson, heach, Except.map, shapedOrRefused, shaped?, list?]
  | pair =>
    rcases hitems with _ | ⟨ha, _ | ⟨hb, _ | ⟨hc, hrest⟩⟩⟩
    · simp [ofJson, harity, pairOfJson, shapedOrRefused, shaped?, pair?, refusal, shape]
    · simp [ofJson, harity, pairOfJson, shapedOrRefused, shaped?, pair?, refusal, shape]
    · simp [ofJson, harity, pairOfJson, ha, hb, bind, Except.bind, pure, Except.pure,
        shapedOrRefused, shaped?, pair?]
    · simp [ofJson, harity, pairOfJson, hrest.length_eq, shapedOrRefused, shaped?, pair?, refusal,
        shape]

/-- A value is read as the shape of its copy.  Texts are left out where they could stand for a list or
a pair. -/
theorem ofJson_of_copies {v : Value} {member : Option Json} (h : v.Copies member)
    (hs : ∀ s, member = some (.string s) → operator.arity = .none ∨ operator.arity = .single) :
    ofJson operator member = shapedOrRefused operator v := by
  cases h with
  | missing | null =>
    cases harity : operator.arity <;>
      simp [ofJson, shapedOrRefused, shaped?, harity, single?, list?, pair?, refusal, shape]
  | single scalar => exact ofJson_of_scalar scalar fun s hj => hs s (congrArg some hj)
  | list scalars => exact ofJson_of_scalars scalars

end Value

/-! ### Compiling shapes it too -/

namespace Rule

variable {r : Rule} {w : Value}

/-- Only the scalars of a value matter, and only to an operator that compares with some. -/
theorem outline_of_scalars (h : r.operator.arity = .none ∨ w.scalars = r.value.scalars) :
    outline { r with value := w } = r.outline := by
  unfold outline firstText secondText
  rcases h with harity | hscalars
  · cases ho : r.operator <;> simp_all [Operator.arity]
  · have htexts : texts { r with value := w } = r.texts := by rw [texts, texts, hscalars]
    rw [htexts]

end Rule

namespace Filter

variable {r : Rule} {style : Style} {target : String}

/-- A lone rule whose value suits its operator is the text of its outline. -/
theorem toSql_of_suits (h : r.value.Suits r.operator.arity) :
    (rule r).toSql ⟨style, .passThrough⟩ target
      = .ok ((rule r).rootOutline.against style target) := by
  have hcompilable : Compilable .passThrough (rule r) := .rule nofun h
  obtain ⟨sql, hsql⟩ := (@exists_toSql_iff ⟨style, .passThrough⟩ _ target).2 hcompilable
  rw [hsql, (toSql_eq_ok hsql).1]

theorem toSql_of_not_suits (h : ¬ r.value.Suits r.operator.arity) :
    (rule r).toSql ⟨style, .passThrough⟩ target
      = .error (.valueArity r.operator r.value.shape) := by
  have htest : r.checkedTest .passThrough = .error (.valueArity r.operator r.value.shape) :=
    Rule.checkedTest_eq_error_iff.2 (.arity nofun h)
  rw [toSql, Predicate.ofRoot, htest]
  rfl

end Filter

namespace Payload

variable {r : Rule} {j : Json}

/-- Reading an object that has the right members depends on the value alone. -/
theorem readRule_of_copies (h : r.Copies j) :
    readRule j = (located [.key "value"] (Value.ofJson r.operator (j.member? "value"))).map
      fun w => { r with value := w } := by
  have htag : readOperator j = .ok r.operator := by simp [readOperator, h.tag]
  rw [readRule, htag, h.field, h.type]
  show (located [.key "value"] (Value.ofJson r.operator (j.member? "value")) >>= fun w => pure _) = _
  cases Value.ofJson r.operator (j.member? "value") <;> rfl

theorem readNode_of_copies (h : r.Copies j) : readNode j = (readRule j).map .rule := by
  have hobject : j.isObject = true := Json.isObject_of_member? h.tag
  simp [readNode, hobject, h.noRules, h.tag]

end Payload

namespace Filter

variable {r : Rule} {j : Json}

/-- The object of a rule is read as the rule with its value shaped, or its value is refused. -/
theorem ofJson_of_copies (h : r.Copies j)
    (hs : ∀ s, j.member? "value" = some (.string s) →
      r.operator.arity = .none ∨ r.operator.arity = .single) :
    ofJson j = (Value.shapedOrRefused r.operator r.value).map fun w => rule { r with value := w } := by
  have hread := Payload.readNode_of_copies h
  rw [Payload.readRule_of_copies h, Value.ofJson_of_copies h.value hs, Value.shapedOrRefused] at hread
  rw [Value.shapedOrRefused]
  cases hw : r.value.shaped? r.operator.arity with
  | none => rw [hw] at hread; exact ofJson_of_error hread
  | some w => rw [hw] at hread; exact ofJson_of_rule hread

/-! ### Main result -/

/-- A rule is compiled with the value that stands in its object just as it is compiled after being
read: both give the same text when the value suits the operator, and otherwise both are refused for
the same operator.  The value is called the same, but that reading calls a list without elements
empty where a list is asked for. -/
theorem toSql_of_copies (h : r.Copies j)
    (hs : ∀ s, j.member? "value" = some (.string s) →
      r.operator.arity = .none ∨ r.operator.arity = .single) (style : Style) (target : String) :
    (r.value.Suits r.operator.arity → ∃ sql,
      (ofJson j >>= fun f => f.toSql ⟨style, .passThrough⟩ target) = .ok sql ∧
      (rule r).toSql ⟨style, .passThrough⟩ target = .ok sql) ∧
    (¬ r.value.Suits r.operator.arity → ∃ found,
      (ofJson j >>= fun f => f.toSql ⟨style, .passThrough⟩ target)
        = .error (.valueArity r.operator found) ∧
      (rule r).toSql ⟨style, .passThrough⟩ target
        = .error (.valueArity r.operator r.value.shape) ∧
      (¬ (r.operator.arity = .list ∧ j.member? "value" = some (.array [])) →
        found = r.value.shape) ∧
      (r.operator.arity = .list ∧ j.member? "value" = some (.array []) →
        found.text = "an empty list" ∧ r.value.shape.text = "a list of 0 value(s)")) := by
  rw [ofJson_of_copies h hs, Value.shapedOrRefused]
  constructor
  · intro hsuits
    have hsome : r.value.shaped? r.operator.arity ≠ none := fun hnone =>
      Value.shaped?_eq_none_iff.1 hnone hsuits
    obtain ⟨w, hw⟩ := Option.ne_none_iff_exists'.1 hsome
    have houtline : Rule.outline { r with value := w } = r.outline :=
      Rule.outline_of_scalars (Value.scalars_of_shaped? hw)
    have hread : (rule { r with value := w }).toSql ⟨style, .passThrough⟩ target
        = .ok ((rule { r with value := w }).rootOutline.against style target) :=
      toSql_of_suits (Value.fits_of_shaped? hw).suits
    rw [rootOutline, houtline] at hread
    rw [hw]
    exact ⟨_, hread, toSql_of_suits hsuits⟩
  · intro hsuits
    rw [Value.shaped?_eq_none_iff.2 hsuits]
    refine ⟨_, rfl, toSql_of_not_suits hsuits, fun hother => ?_, fun hempty => ?_⟩
    · rw [← h.value.eq_list_nil_iff] at hother
      rw [Value.refusal, if_neg hother]
    · rw [← h.value.eq_list_nil_iff] at hempty
      rw [Value.refusal, if_pos hempty, hempty.2]
      exact ⟨rfl, rfl⟩

/-- A text with a separator in an array that is asked for as a list, and an array without elements. -/
theorem toSql_of_copies_list :
    ∃ r j r' j', Rule.Copies r j ∧ Rule.Copies r' j' ∧
      r.value = .list [.integer 5, .text "b;c"] ∧ r'.value = .list [] ∧
      (ofJson j >>= fun f => f.toSql {} "t") = .ok " ( `t` IN ('5','b;c') ) " ∧
      ∃ found, (ofJson j' >>= fun f => f.toSql {} "t") = .error (.valueArity .notOneOf found) ∧
        found.text = "an empty list" := by
  have h : Rule.Copies ⟨"a", .other "color", .oneOf, .list [.integer 5, .text "b;c"]⟩
      (.object [("id", .string "a"), ("type", .string "color"), ("operator", .string "in"),
        ("value", .array [.number (.integer 5 (by decide) (by decide)), .string "b;c"])]) :=
    ⟨rfl, rfl, rfl, rfl, .list rfl⟩
  have h' : Rule.Copies ⟨"a", .string, .notOneOf, .list []⟩
      (.object [("field", .string "a"), ("operator", .string "not_in"), ("value", .array [])]) :=
    ⟨rfl, rfl, rfl, rfl, .list rfl⟩
  obtain ⟨sql, hread, hsql⟩ := (toSql_of_copies h nofun {} "t").1 (.inr ⟨_, by simp, rfl⟩)
  obtain rfl := Except.ok.inj hsql
  obtain ⟨found, hfound, -, -, htext⟩ :=
    (toSql_of_copies h' nofun {} "t").2 (by simp [Operator.arity, Value.Suits])
  exact ⟨_, _, _, _, h, h', rfl, rfl, hread, found, hfound, (htext ⟨rfl, rfl⟩).1⟩

end Filter

end FilterSql
