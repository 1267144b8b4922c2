import FilterSql.Proofs.Sql.FirstFault
import FilterSql.Proofs.Sql.Grouping

/-!
# Complements

A column that is there passes a test or fails it (`Test.holds`), so a lone rule is never unknown
(`Filter.ofSql?_rule`).  Eight operators are named for the negation of another one
(`Operator.negated?`).  Six of them are its complement, and so is `notOneOf` with one text.  With
several texts `notOneOf` asks that the column differ from one of them, not from all, and
`notBetween` asks for a column that is both below the first text and above the second
(`Rule.Negates`).
-/

namespace FilterSql

/-! ### Tests of a column that is there -/

namespace Test

/-- The test lets a column with the given text through. -/
def holds (m : Collation) (text : String) : Test → Bool
  | .compare comparison s => m.compares text comparison s
  | .oneOf texts => texts.any (m.same text)
  | .notOneOf texts => texts.any fun s => !m.same text s
  | .like pattern => m.like text pattern
  | .notLike pattern => !m.like text pattern
  | .isEmpty => m.same text ""
  | .isNotEmpty => !m.same text ""
  | .isNull => false
  | .isNotNull => true
  | .between low high => m.before low text && m.before text high
  | .notBetween low high => m.before text low && m.before high text

end Test

variable {m : Collation} {text : String} {parts : List String}

theorem Disjunction.truth_differs (s : String) (texts : List String) :
    (differs (.column parts) s texts).toCondition.truth m (some text)
      = Truth.ofBool ((s :: texts).any fun s => !m.same text s) := by
  induction texts generalizing s with
  | nil =>
    simp [differs, toCondition, Conjunction.toCondition, Condition.truth, Operand.text?,
      Truth.ofTexts, Collation.compares]
  | cons next texts ih =>
    rw [List.any_cons, ← Truth.ofBool_or, ← ih next]
    rfl

theorem Test.truth_reading {t : Test} (ht : t.IsProper) :
    (t.reading (.column parts)).toCondition.truth m (some text)
      = Truth.ofBool (t.holds m text) := by
  cases t with
  | oneOf texts =>
    show Truth.any ((texts.map Operand.literal).map _) = _
    rw [List.map_map]
    exact Truth.any_map_ofBool (m.same text) texts
  | notOneOf texts =>
    obtain ⟨s, texts, rfl⟩ := List.exists_cons_of_ne_nil ht
    exact Disjunction.truth_differs s texts
  | notLike pattern => exact Truth.not_ofBool _
  | isEmpty => exact (Truth.ofBool_or _ false).trans (by rw [Bool.or_false]; rfl)
  | isNotEmpty => exact (Truth.ofBool_and _ true).trans (by rw [Bool.and_true]; rfl)
  | between low high => exact Truth.ofBool_and _ _
  | notBetween low high => exact Truth.ofBool_and _ _
  | _ => rfl

/-! ### Texts that need no escaping -/

namespace Test

/-- The texts of a test that are written as literals. -/
def literals : Test → List String
  | .compare _ text => [text]
  | .oneOf texts => texts
  | .notOneOf texts => texts
  | .like pattern => [pattern]
  | .notLike pattern => [pattern]
  | .between low high => [low, high]
  | .notBetween low high => [low, high]
  | _ => []

/-- A test is written alike in two styles that write its literals alike. -/
theorem toSql_congr {style style' : Style} {column : String} {t : Test}
    (h : ∀ s ∈ t.literals, style.literal s = style'.literal s) :
    t.toSql style column = t.toSql style' column := by
  cases t with
  | oneOf texts =>
    have hmap : texts.map style.literal = texts.map style'.literal := List.map_congr_left h
    rw [toSql, toSql, hmap]
  | notOneOf texts =>
    have hmap : texts.map (fun s => column ++ " != " ++ style.literal s)
        = texts.map fun s => column ++ " != " ++ style'.literal s :=
      List.map_congr_left fun s hs => congrArg (column ++ " != " ++ ·) (h s hs)
    rw [toSql, toSql, hmap]
  | _ => simp_all [toSql, literals]

end Test

namespace Filter

theorem outline_isProper_of_toSql {options : Options} {r : Rule} {target sql : String}
    (h : (rule r).toSql options target = .ok sql) : r.outline.IsProper := by
  obtain ⟨-, hp⟩ := toSql_eq_ok h
  cases hp with
  | group _ proper =>
    cases proper _ List.mem_cons_self with
    | test ht => exact ht

/-- A lone rule that compiles means a condition.  A column that is there passes it when it passes
the test, and fails it otherwise. -/
theorem ofSql?_rule {escaping : Escaping} {unknown : UnknownTypes} {r : Rule} {target sql : String}
    (hs : ∀ s ∈ r.outline.literals, Style.Protects ⟨.mysql, escaping⟩ s)
    (h : (rule r).toSql ⟨⟨.mysql, escaping⟩, unknown⟩ target = .ok sql) :
    ∃ c, Condition.ofSql? .mysql sql = some c ∧
      ∀ m text, c.truth m (some text) = Truth.ofBool (r.outline.holds m text) := by
  have htest := outline_isProper_of_toSql h
  obtain ⟨rfl, hp⟩ := toSql_eq_ok h
  have hsame : (rule r).rootOutline.against ⟨.mysql, escaping⟩ target
      = (rule r).rootOutline.against ⟨.mysql, .doubled⟩ target := by
    simp only [rootOutline, Predicate.against, Predicate.toSql, Predicate.toSqls]
    rw [Test.toSql_congr fun s hm => (hs s hm).literal_eq]
  rw [hsame]
  exact ⟨_, Predicate.ofSql?_against rfl target hp fun _ => rfl, fun m text =>
    Test.truth_reading htest⟩

end Filter

/-! ### Operators that negate -/

/-- The operator that an operator is named for the negation of. -/
def Operator.negated? : Operator → Option Operator
  | .notEqual => some .equal
  | .notOneOf => some .oneOf
  | .notBeginsWith => some .beginsWith
  | .notContains => some .contains
  | .notEndsWith => some .endsWith
  | .isNotEmpty => some .isEmpty
  | .isNotNull => some .isNull
  | .notBetween => some .between
  | _ => none

theorem Operator.arity_of_negated? {o o' : Operator} (h : o.negated? = some o') :
    o'.arity = o.arity := by
  cases o <;> simp only [negated?, Option.some.injEq, reduceCtorEq] at h <;> subst h <;> rfl

theorem Rule.literals_outline_negated {r : Rule} {o : Operator}
    (ho : r.operator.negated? = some o) :
    (outline { r with operator := o }).literals = r.outline.literals := by
  unfold outline
  cases hop : r.operator <;>
    simp only [hop, Operator.negated?, Option.some.injEq, reduceCtorEq] at ho <;> subst ho <;> rfl

/-- No text comes before one that comes before it. -/
def Collation.IsAsymmetric (m : Collation) : Prop :=
  ∀ a b, m.before a b = true → m.before b a = false

/-- How the truth of a rule that negates compares with its truth under the negated operator, for a
column with the given text. -/
structure Rule.Negates (m : Collation) (text : String) (r : Rule) (own positive : Truth) :
    Prop where
  known : own ≠ .unknown ∧ positive ≠ .unknown
  complement : r.operator ≠ .notBetween →
    ¬ (r.operator = .notOneOf ∧ 2 ≤ r.texts.length) → (own = .yes ↔ positive = .no)
  excluded : r.operator = .notOneOf →
    (own = .yes ↔ ∃ s ∈ r.texts, m.same text s = false) ∧
    (positive = .no ↔ ∀ s ∈ r.texts, m.same text s = false) ∧
    (positive = .no → own = .yes)
  range : r.operator = .notBetween →
    (own = .yes ↔ m.before text r.firstText = true ∧ m.before r.secondText text = true) ∧
    (positive = .no ↔ ¬ (m.before r.firstText text = true ∧ m.before text r.secondText = true)) ∧
    (m.IsAsymmetric → own = .yes → positive = .no)

namespace Rule

variable {r : Rule} {o : Operator}

theorem outline_notOneOf (h : r.operator = .notOneOf) : r.outline = .notOneOf r.texts := by
  rw [outline, h]

theorem outline_notBetween (h : r.operator = .notBetween) :
    r.outline = .notBetween r.firstText r.secondText := by
  rw [outline, h]

/-- A rule that negates holds just when the negated one does not, but for ranges and several
texts. -/
theorem holds_eq_not (ho : r.operator.negated? = some o) (hp : r.outline.IsProper)
    (hb : r.operator ≠ .notBetween) (hs : ¬ (r.operator = .notOneOf ∧ 2 ≤ r.texts.length)) :
    r.outline.holds m text = !(outline { r with operator := o }).holds m text := by
  by_cases hn : r.operator = .notOneOf
  · -- Without a second text, differing from one of them is differing from all.
    rw [outline_notOneOf hn] at hp ⊢
    obtain ⟨s, hone⟩ : ∃ s, r.texts = [s] := by
      apply List.length_eq_one_iff.1
      have hpos := List.length_pos_of_ne_nil hp
      have hlt : ¬ 2 ≤ r.texts.length := fun h => hs ⟨hn, h⟩
      omega
    obtain rfl : .oneOf = o := by simpa [hn, Operator.negated?] using ho
    show r.texts.any _ = !r.texts.any _
    simp [hone]
  · unfold outline
    cases hop : r.operator <;>
      simp only [hop, Operator.negated?, Option.some.injEq, reduceCtorEq, not_true_eq_false,
        ne_eq] at ho hb hn <;>
      subst ho <;> rfl

theorem negates (ho : r.operator.negated? = some o) (hp : r.outline.IsProper) :
    r.Negates m text (Truth.ofBool (r.outline.holds m text))
      (Truth.ofBool ((outline { r with operator := o }).holds m text)) where
  known := ⟨Truth.ofBool_ne_unknown _, Truth.ofBool_ne_unknown _⟩
  complement hb hs := by
    rw [Truth.ofBool_eq_yes_iff, Truth.ofBool_eq_no_iff, holds_eq_not ho hp hb hs,
      Bool.not_eq_true']
  excluded h := by
    obtain rfl : .oneOf = o := by simpa [h, Operator.negated?] using ho
    rw [outline_notOneOf h] at hp ⊢
    have hown : (Test.notOneOf r.texts).holds m text = true ↔
        ∃ s ∈ r.texts, m.same text s = false := by
      simp [Test.holds]
    have hpositive : (outline { r with operator := .oneOf }).holds m text = false ↔
        ∀ s ∈ r.texts, m.same text s = false := by
      show r.texts.any (m.same text) = false ↔ _
      simp
    rw [Truth.ofBool_eq_yes_iff, Truth.ofBool_eq_no_iff, hown, hpositive]
    refine ⟨Iff.rfl, Iff.rfl, fun hall => ?_⟩
    obtain ⟨s, hs⟩ := List.exists_mem_of_ne_nil _ hp
    exact ⟨s, hs, hall s hs⟩
  range h := by
    obtain rfl : .between = o := by simpa [h, Operator.negated?] using ho
    rw [outline_notBetween h]
    have hown : (Test.notBetween r.firstText r.secondText).holds m text = true ↔
        m.before text r.firstText = true ∧ m.before r.secondText text = true := by
      simp [Test.holds]
    have hpositive : (outline { r with operator := .between }).holds m text = false ↔
        ¬ (m.before r.firstText text = true ∧ m.before text r.secondText = true) := by
      show (m.before r.firstText text && m.before text r.secondText) = false ↔ _
      simp
    rw [Truth.ofBool_eq_yes_iff, Truth.ofBool_eq_no_iff, hown, hpositive]
    refine ⟨Iff.rfl, Iff.rfl, fun hm hout hin => ?_⟩
    exact absurd hin.1 (by simp [hm _ _ hout.1])

end Rule

namespace Filter

/-- A value that suits an operator suits the one it negates. -/
theorem exists_toSql_negated {options : Options} {r : Rule} {o : Operator} {target sql : String}
    (ho : r.operator.negated? = some o) (h : (rule r).toSql options target = .ok sql) :
    ∃ sql', (rule { r with operator := o }).toSql options target = .ok sql' := by
  apply exists_toSql_iff.2
  cases exists_toSql_iff.1 ⟨sql, h⟩ with
  | rule accepted suited =>
    refine .rule accepted ?_
    rw [Operator.arity_of_negated? ho]
    exact suited

/-! ### Main result -/

/-- A rule that negates and its negated rule compile alike, and each means a condition.  How the two
conditions compare for a column that is there depends on the operator: see `Rule.Negates`. -/
theorem negates_toSql {escaping : Escaping} {unknown : UnknownTypes} {r : Rule} {o : Operator}
    {target sql : String} (ho : r.operator.negated? = some o)
    (hs : ∀ s ∈ r.outline.literals, Style.Protects ⟨.mysql, escaping⟩ s)
    (h : (rule r).toSql ⟨⟨.mysql, escaping⟩, unknown⟩ target = .ok sql) :
    ∃ sql' c c',
      (rule { r with operator := o }).toSql ⟨⟨.mysql, escaping⟩, unknown⟩ target = .ok sql' ∧
      Condition.ofSql? .mysql sql = some c ∧ Condition.ofSql? .mysql sql' = some c' ∧
      ∀ m text, r.Negates m text (c.truth m (some text)) (c'.truth m (some text)) := by
  obtain ⟨sql', h'⟩ := exists_toSql_negated ho h
  obtain ⟨c, hc, htruth⟩ := ofSql?_rule hs h
  rw [← Rule.literals_outline_negated ho] at hs
  obtain ⟨c', hc', htruth'⟩ := ofSql?_rule hs h'
  refine ⟨sql', c, c', h', hc, hc', fun m text => ?_⟩
  rw [htruth, htruth']
  exact Rule.negates ho (outline_isProper_of_toSql h)

/-- Columns that contain a text with a quote, and the others. -/
theorem negates_toSql_contains :
    ∃ c c', Condition.ofSql? .mysql " ( `t` NOT LIKE '%it''s%' ) " = some c ∧
      Condition.ofSql? .mysql " ( `t` LIKE '%it''s%' ) " = some c' ∧
      ∀ m text, c.truth m (some text) = .yes ↔ c'.truth m (some text) = .no := by
  obtain ⟨sql', c, c', hsql', hc, hc', hnegates⟩ := @negates_toSql .doubled .passThrough
    ⟨"a", .string, .notContains, .single (.text "it's")⟩ .contains "t" _ rfl
    (fun s _ => Style.protects_of_doubled rfl s) rfl
  obtain rfl := Except.ok.inj hsql'
  exact ⟨c, c', hc, hc', fun m text => (hnegates m text).complement nofun nofun⟩

/-- A column that is one of two excluded texts passes both rules, a bound of a range fails both, and
a quote that is left as it is can make both rules say something else. -/
theorem negates_toSql_ne :
    (∃ r c c', r = (⟨"a", .string, .notOneOf, .list [.text "a", .text "b"]⟩ : Rule) ∧
      (rule r).toSql {} "t" = .ok " ( `t` != 'a' || `t` != 'b' ) " ∧
      Condition.ofSql? .mysql " ( `t` != 'a' || `t` != 'b' ) " = some c ∧
      (rule { r with operator := .oneOf }).toSql {} "t" = .ok " ( `t` IN ('a','b') ) " ∧
      Condition.ofSql? .mysql " ( `t` IN ('a','b') ) " = some c' ∧
      c.truth .exact (some "a") = .yes ∧ c'.truth .exact (some "a") = .yes) ∧
    (∃ r c c', r = (⟨"a", .string, .notBetween, .pair (.text "b") (.text "d")⟩ : Rule) ∧
      (rule r).toSql {} "t" = .ok " ( (`t` < 'b') AND (`t` > 'd') ) " ∧
      Condition.ofSql? .mysql " ( (`t` < 'b') AND (`t` > 'd') ) " = some c ∧
      (rule { r with operator := .between }).toSql {} "t"
        = .ok " ( (`t` > 'b') AND (`t` < 'd') ) " ∧
      Condition.ofSql? .mysql " ( (`t` > 'b') AND (`t` < 'd') ) " = some c' ∧
      c.truth .exact (some "b") = .no ∧ c'.truth .exact (some "b") = .no) ∧
    ∃ r c c', r = (⟨"a", .string, .notEqual, .single (.text "x' OR 'x' = 'x")⟩ : Rule) ∧
      (rule r).toSql ⟨⟨.mysql, .verbatim⟩, .passThrough⟩ "t"
        = .ok " ( `t` <> 'x' OR 'x' = 'x' ) " ∧
      Condition.ofSql? .mysql " ( `t` <> 'x' OR 'x' = 'x' ) " = some c ∧
      (rule { r with operator := .equal }).toSql ⟨⟨.mysql, .verbatim⟩, .passThrough⟩ "t"
        = .ok " ( `t` = 'x' OR 'x' = 'x' ) " ∧
      Condition.ofSql? .mysql " ( `t` = 'x' OR 'x' = 'x' ) " = some c' ∧
      c.truth .exact (some "a") = .yes ∧ c'.truth .exact (some "a") = .yes := by
  refine ⟨⟨_, .or (.compare (.column ["t"]) .notEqual (.literal "a"))
      (.compare (.column ["t"]) .notEqual (.literal "b")),
      .oneOf (.column ["t"]) [.literal "a", .literal "b"], rfl, rfl, by decide +kernel, rfl,
      by decide +kernel, by decide +kernel, by decide +kernel⟩,
    ⟨_, .and (.compare (.column ["t"]) .less (.literal "b"))
      (.compare (.column ["t"]) .greater (.literal "d")),
      .and (.compare (.column ["t"]) .greater (.literal "b"))
      (.compare (.column ["t"]) .less (.literal "d")), rfl, rfl, by decide +kernel, rfl,
      by decide +kernel, by decide +kernel, by decide +kernel⟩,
    ⟨_, .or (.compare (.column ["t"]) .notEqual (.literal "x"))
      (.compare (.literal "x") .equal (.literal "x")),
      .or (.compare (.column ["t"]) .equal (.literal "x"))
      (.compare (.literal "x") .equal (.literal "x")), rfl, rfl, by decide +kernel, rfl,
      by decide +kernel, by decide +kernel, by decide +kernel⟩⟩

end Filter

end FilterSql
