import FilterSql.Proofs.Decimal.Shortest
import FilterSql.Proofs.Sql.Layout

/-!
# Numbers as literals

A number keeps its plain text on the way into a literal: a minus sign if there is one, digits, and
digits behind a point if there are any (`Text.IsDecimal`).  Whole numbers that fit into a signed word,
those that do not, and binary data are kept as different scalars, but each of them has such a text
(`Scalar.isDecimal_plain_ofNumber`).  Nothing in it is a comma or special to a dialect, so declared
types and escapings leave it as it is (`Scalar.literal_ofNumber`).
-/

namespace FilterSql

/-! ### Plain decimals -/

/-- An optional minus sign, digits, and optionally a point with digits behind it. -/
def Text.IsDecimal (s : String) : Prop :=
  ∃ sign whole fraction, s.toList = sign ++ whole ++ fraction ∧
    (sign = [] ∨ sign = ['-']) ∧
    (whole ≠ [] ∧ ∀ c ∈ whole, c.isDigit = true) ∧
    (fraction = [] ∨
      ∃ digits, fraction = '.' :: digits ∧ digits ≠ [] ∧ ∀ c ∈ digits, c.isDigit = true)

theorem Text.IsDecimal.char_cases {s : String} (h : IsDecimal s) {c : Char} (hc : c ∈ s.toList) :
    c.isDigit = true ∨ c = '-' ∨ c = '.' := by
  obtain ⟨sign, whole, fraction, hs, hsign, ⟨-, hwhole⟩, hfraction⟩ := h
  rw [hs, List.mem_append, List.mem_append] at hc
  rcases hc with (hc | hc) | hc
  · rcases hsign with rfl | rfl
    · simp at hc
    · exact .inr (.inl (by simpa using hc))
  · exact .inl (hwhole c hc)
  · rcases hfraction with rfl | ⟨digits, rfl, -, hdigits⟩
    · simp at hc
    · rcases List.mem_cons.1 hc with rfl | hc
      · exact .inr (.inr rfl)
      · exact .inl (hdigits c hc)

theorem Text.IsDecimal.not_mem {s : String} (h : IsDecimal s) {c : Char} (hdigit : c.isDigit = false)
    (hminus : c ≠ '-') (hpoint : c ≠ '.') : c ∉ s.toList := by
  intro hc
  rcases h.char_cases hc with h | h | h
  · exact Bool.false_ne_true (hdigit.symm.trans h)
  · exact hminus h
  · exact hpoint h

/-- Whole numbers have no fraction. -/
theorem Text.isDecimal_repr (n : Int) : IsDecimal n.repr := by
  have hdigits : ∀ m : Nat, m.repr.toList ≠ [] ∧ ∀ c ∈ m.repr.toList, c.isDigit = true := by
    intro m
    rw [Nat.repr_eq_ofList_toDigits, String.toList_ofList]
    exact ⟨Nat.toDigits_ne_nil,
      fun c hc => Nat.isDigit_of_mem_toDigits (by decide) (by decide) hc⟩
  cases n with
  | ofNat m => exact ⟨[], m.repr.toList, [], by simp [Int.repr], .inl rfl, hdigits m, .inl rfl⟩
  | negSucc m =>
    exact ⟨['-'], (m + 1).repr.toList, [], by simp [Int.repr], .inr rfl, hdigits (m + 1), .inl rfl⟩

namespace Binary64

variable {x : Binary64}

theorem isNaN_of_isFinite (h : x.isFinite = true) : x.isNaN = false := by
  rw [isFinite, exponentField, decide_eq_true_eq] at h
  rw [isNaN, decide_eq_false_iff_not]
  omega

theorem plain_of_isFinite (h : x.isFinite = true) :
    x.plain = x.signText ++ (shortest .upward x).positional := by
  rw [plain, isNaN_of_isFinite h, h]
  rfl

theorem isDecimal_plain (h : x.isFinite = true) : Text.IsDecimal x.plain := by
  let d := shortest .upward x
  refine ⟨x.signText.toList, d.wholePart,
    if d.fractionPart = [] then [] else '.' :: d.fractionPart, ?_, ?_, ?_, ?_⟩
  · rw [plain_of_isFinite h, String.toList_append, Decimal.positional, String.toList_ofList,
      List.append_assoc]
  · cases hx : x.isNegative <;> simp [signText, hx]
  · exact ⟨d.wholePart_ne_nil, fun _ => Decimal.isDigit_of_mem_wholePart⟩
  · by_cases hf : d.fractionPart = []
    · exact .inl (if_pos hf)
    · exact .inr ⟨d.fractionPart, if_neg hf, hf, fun _ => Decimal.isDigit_of_mem_fractionPart⟩

end Binary64

/-! ### Numbers as scalars -/

namespace Scalar

/-- On both sides of the greatest signed word a whole number has its own digits. -/
theorem plain_ofNumber_integer {value : Int} (least : -0x8000000000000000 ≤ value)
    (greatest : value < 0x10000000000000000) :
    (ofNumber (.integer value least greatest)).plain = value.repr := by
  rw [ofNumber]
  split
  · next h => rw [plain, Int64.toInt_ofInt_of_le (by simpa using least) (by simpa using h)]
  · rfl

theorem isDecimal_plain_ofNumber (n : Json.Number) : Text.IsDecimal (ofNumber n).plain := by
  cases n with
  | integer value least greatest =>
    rw [plain_ofNumber_integer]
    exact Text.isDecimal_repr value
  | float value finite => exact Binary64.isDecimal_plain finite

end Scalar

/-! ### Numbers in the value of a rule -/

/-- The number is the value, or a member of the array that is the value. -/
def Json.Number.StandsIn (n : Json.Number) (value : Json) : Prop :=
  value = .number n ∨ ∃ items, value = .array items ∧ .number n ∈ items

namespace Value

variable {operator : Operator} {v : Value}

/-- The elements of an array that is accepted are the scalars of the value. -/
theorem map_ofJson_of_ofJson_array {items : List Json}
    (h : ofJson operator (some (.array items)) = .ok v) (harity : operator.arity ≠ .none) :
    items.map Scalar.ofJson = v.scalars.map .ok := by
  cases ha : operator.arity with
  | none => exact absurd ha harity
  | single =>
    simp only [ofJson, ha, singleOfJson] at h
    split at h
    · obtain ⟨x, hx, rfl⟩ := Except.map_eq_ok_iff.1 h
      simp_all [scalars, located_eq_ok_iff]
    · exact absurd h (by simp)
    · simp_all
  | list =>
    simp only [ofJson, ha, listOfJson] at h
    split at h
    · exact absurd h (by simp)
    · obtain ⟨xs, hxs, rfl⟩ := Except.map_eq_ok_iff.1 h
      simp_all [scalars, eachAt_eq_ok_iff]
    · simp_all
    · simp_all
  | pair =>
    simp only [ofJson, ha, pairOfJson] at h
    split at h
    · obtain ⟨low, hlow, h⟩ := Except.bind_eq_ok_iff.1 h
      obtain ⟨high, hhigh, h⟩ := Except.bind_eq_ok_iff.1 h
      obtain rfl := Except.ok.inj h
      simp_all [scalars, located_eq_ok_iff]
    · exact absurd h (by simp)
    · simp_all
    · simp_all

/-- An operator that compares with something compares with a number that is accepted. -/
theorem ofNumber_mem_scalars {n : Json.Number} {value : Json} (hn : n.StandsIn value)
    (h : ofJson operator (some value) = .ok v) (harity : operator.arity ≠ .none) :
    Scalar.ofNumber n ∈ v.scalars := by
  rcases hn with rfl | ⟨items, rfl, hmem⟩
  · cases ha : operator.arity with
    | none => exact absurd ha harity
    | single | list =>
      simp only [ofJson, ha, singleOfJson, listOfJson, Scalar.ofJson, Except.map] at h
      obtain rfl := Except.ok.inj h
      simp [scalars]
    | pair => simp [ofJson, ha, pairOfJson] at h
  · have hscalar : .ok (Scalar.ofNumber n) ∈ items.map Scalar.ofJson :=
      List.mem_map_of_mem (f := Scalar.ofJson) hmem
    rw [map_ofJson_of_ofJson_array h harity] at hscalar
    obtain ⟨x, hx, hxn⟩ := List.mem_map.1 hscalar
    exact Except.ok.inj hxn ▸ hx

end Value

/-! ### Decimals as literals -/

theorem Dialect.not_mem_special_of_isDecimal {s : String} (h : Text.IsDecimal s) (d : Dialect) :
    ∀ c ∈ s.toList, c ∉ d.special := by
  intro c hc hspecial
  rcases mem_special_iff.1 hspecial with rfl | ⟨-, rfl⟩
  · exact h.not_mem rfl (by decide) (by decide) hc
  · exact h.not_mem rfl (by decide) (by decide) hc

/-! ### Literals in the text of a filter -/

/-- The text stands between quotes in the other one, as a token of it where literals are escaped. -/
def Style.HoldsLiteral (style : Style) (sql s : String) : Prop :=
  (∃ before after, sql = before ++ "'" ++ s ++ "'" ++ after) ∧
  (style.escaping = .doubled →
    ∃ tokens, Token.scan style.dialect sql = some tokens ∧ .literal s ∈ tokens)

/-- The literal that an operator makes of a text; a percent sign stands for anything. -/
def Operator.pattern (o : Operator) (s : String) : String :=
  match o with
  | .beginsWith | .notBeginsWith => s ++ "%"
  | .contains | .notContains => "%" ++ s ++ "%"
  | .endsWith | .notEndsWith => "%" ++ s
  | _ => s

theorem Operator.mem_pattern {o : Operator} {s : String} {c : Char} (h : c ∈ (o.pattern s).toList) :
    c ∈ s.toList ∨ c = '%' := by
  have hpercent : "%".toList = ['%'] := rfl
  unfold pattern at h
  split at h
  case h_7 => exact .inl h
  all_goals
    simp only [String.toList_append, hpercent, List.mem_append, List.mem_singleton] at h
    tauto

theorem Rule.mem_lexemes_outline {r : Rule} {s : String} (column : List Lexeme)
    (suited : r.value.Suits r.operator.arity) (harity : r.operator.arity ≠ .none)
    (hs : s ∈ r.texts) : some (.literal (r.operator.pattern s)) ∈ r.outline.lexemes column := by
  unfold outline
  cases ho : r.operator with
  | isEmpty | isNotEmpty | isNull | isNotNull => exact absurd (congrArg Operator.arity ho) harity
  | oneOf =>
    have hlist : some (.literal s) ∈ [some Token.comma].intercalate
        (r.texts.map fun text => [some (.literal text)]) :=
      mem_intercalate_of_mem (List.mem_map_of_mem hs) (List.mem_singleton.2 rfl)
    simp [Test.lexemes, Operator.pattern, Lexeme.inParentheses, hlist]
  | notOneOf =>
    refine mem_intercalate_of_mem (List.mem_map_of_mem hs) ?_
    simp [Test.compared, Operator.pattern]
  | between | notBetween =>
    rw [ho] at suited
    rw [texts_of_suits_pair suited, List.mem_pair] at hs
    rcases hs with rfl | rfl <;>
      simp [Test.lexemes, Test.compared, Operator.pattern, Lexeme.inParentheses]
  | _ =>
    rw [ho] at suited
    rw [texts_of_suits_single suited, List.mem_singleton] at hs
    simp [Test.lexemes, Test.compared, Operator.pattern, hs]

namespace Filter

variable {unknown : UnknownTypes} {r : Rule} {s : String} {column : List Lexeme}

theorem mem_lexemes_outline (harity : r.operator.arity ≠ .none) (hs : s ∈ r.texts) (f : Filter) :
    f.Compilable unknown → r ∈ f.rules →
      some (.literal (r.operator.pattern s)) ∈ f.outline.lexemes column := by
  induction f using Filter.induction with
  | rule r' =>
    intro h hr
    obtain rfl := List.mem_singleton.1 (by simpa only [rules] using hr)
    cases h with
    | rule _ suited => exact Rule.mem_lexemes_outline column suited harity hs
  | group connective children ih =>
    intro h hr
    rw [rules, rulesOfAll_eq_flatMap, List.mem_flatMap] at hr
    obtain ⟨child, hchild, hr⟩ := hr
    cases h with
    | group _ compilable =>
      have hmem := ih child hchild (compilable child hchild) hr
      rw [outline, Predicate.lexemes, Predicate.lexemesOfAll_eq_map, outlines_eq_map, List.map_map,
        Lexeme.enclosed]
      refine List.mem_append_left _ (List.mem_append_right _ ?_)
      exact mem_intercalate_of_mem (List.mem_map.2 ⟨child, hchild, rfl⟩) hmem

theorem mem_lexemes_rootOutline (harity : r.operator.arity ≠ .none) (hs : s ∈ r.texts) {f : Filter}
    (h : f.Compilable unknown) (hr : r ∈ f.rules) :
    some (.literal (r.operator.pattern s)) ∈ f.rootOutline.lexemes column := by
  have hmem : some (.literal (r.operator.pattern s)) ∈ f.outline.lexemes column :=
    mem_lexemes_outline harity hs f h hr
  cases f with
  | rule r' =>
    rw [rootOutline, Predicate.lexemes, Predicate.lexemesOfAll_eq_map, Lexeme.enclosed]
    refine List.mem_append_left _ (List.mem_append_right _ ?_)
    exact mem_intercalate_of_mem (List.mem_map_of_mem (List.mem_singleton.2 rfl)) hmem
  | group connective children => exact hmem

/-- The texts of the rules stand in the text of a filter, each in the literal of its operator. -/
theorem holdsLiteral_of_toSql {options : Options} {f : Filter} {target sql : String}
    (h : f.toSql options target = .ok sql) (hr : r ∈ f.rules) (harity : r.operator.arity ≠ .none)
    (hs : s ∈ r.texts) (hplain : ∀ c ∈ s.toList, c ∉ options.dialect.special) :
    options.toStyle.HoldsLiteral sql (r.operator.pattern s) := by
  have hmem : some (.literal (r.operator.pattern s))
      ∈ f.rootOutline.lexemes (Lexeme.ofName target) :=
    mem_lexemes_rootOutline harity hs (exists_toSql_iff.1 ⟨sql, h⟩) hr
  obtain ⟨rfl, -⟩ := toSql_eq_ok h
  refine ⟨?_, fun he => ⟨_, Predicate.scan_against he target _, ?_⟩⟩
  · have hescape : options.dialect.escape options.escaping (r.operator.pattern s)
        = r.operator.pattern s := by
      refine Dialect.escape_of_forall_not_mem (fun c hc => ?_) _
      rcases Operator.mem_pattern hc with hc | rfl
      · exact hplain c hc
      · simp [Dialect.mem_special_iff]
    obtain ⟨before, after, hsplit⟩ := List.append_of_mem hmem
    refine ⟨String.ofList (before.flatMap (Lexeme.text options.toStyle)),
      String.ofList (after.flatMap (Lexeme.text options.toStyle)), ?_⟩
    rw [← String.toList_inj, Predicate.toList_against, hsplit]
    simp [Lexeme.text, Token.text, Style.literal, hescape]
  · rw [← Predicate.reduceOption_lexemes, List.reduceOption_mem_iff]
    exact hmem

end Filter

/-! ### Main result -/

/-- A number is accepted as a scalar, and one plain decimal is its text whatever type is declared,
among the texts of every rule with the number in its value too.  As a literal it stands between quotes
as it is, however literals are written, and so in the text of every filter with such a rule.  A whole
number has exactly its own digits.  Any other number has the shortest digits that read back as its
datum. -/
theorem Scalar.literal_ofNumber (n : Json.Number) :
    ∃ x s, Scalar.ofJson (.number n) = .ok x ∧ (∀ type, x.literalText type = s) ∧
      (∀ operator value v, n.StandsIn value → Value.ofJson operator (some value) = .ok v →
        operator.arity ≠ .none → ∀ field type, s ∈ Rule.texts ⟨field, type, operator, v⟩) ∧
      (∀ style : Style, style.dialect.escape style.escaping s = s ∧
        style.literal s = "'" ++ s ++ "'") ∧
      (∀ (options : Options) (f : Filter) (target sql : String) (r : Rule) (value : Json),
        f.toSql options target = .ok sql → r ∈ f.rules → r.operator.arity ≠ .none →
        n.StandsIn value → Value.ofJson r.operator (some value) = .ok r.value →
        options.toStyle.HoldsLiteral sql (r.operator.pattern s)) ∧
      Text.IsDecimal s ∧ (∀ c ∈ ['e', 'E', ',', '\x27', '"', '\\'], c ∉ s.toList) ∧
      (∀ value least greatest, n = .integer value least greatest → s = value.repr) ∧
      (∀ value finite, n = .float value finite → s = value.plain ∧
        ∃ d cs, s.toList = value.signText.toList ++ cs ∧ d.IsSpelledBy cs ∧ value.IsShortest d) := by
  have hdecimal := isDecimal_plain_ofNumber n
  have htext : ∀ type, (ofNumber n).literalText type = (ofNumber n).plain :=
    literalText_of_not_mem (hdecimal.not_mem rfl (by decide) (by decide))
  have htexts : ∀ operator value v, n.StandsIn value → Value.ofJson operator (some value) = .ok v →
      operator.arity ≠ .none →
      ∀ field type, (ofNumber n).plain ∈ Rule.texts ⟨field, type, operator, v⟩ :=
    fun operator value v hn hv harity field type =>
      List.mem_map.2 ⟨ofNumber n, Value.ofNumber_mem_scalars hn hv harity, htext type⟩
  have hspecial := fun d : Dialect => d.not_mem_special_of_isDecimal hdecimal
  refine ⟨ofNumber n, (ofNumber n).plain, rfl, htext, htexts, fun style => ?_, ?_, hdecimal, ?_,
    ?_, ?_⟩
  · have hescape : style.dialect.escape style.escaping (ofNumber n).plain = (ofNumber n).plain :=
      Dialect.escape_of_forall_not_mem (hspecial style.dialect) _
    exact ⟨hescape, by rw [Style.literal, hescape]⟩
  · intro options f target sql r value hsql hr harity hn hv
    exact Filter.holdsLiteral_of_toSql hsql hr harity (htexts _ _ _ hn hv harity r.field r.type)
      (hspecial options.dialect)
  · intro c hc
    simp only [List.mem_cons, List.not_mem_nil, or_false] at hc
    rcases hc with rfl | rfl | rfl | rfl | rfl | rfl <;>
      exact hdecimal.not_mem rfl (by decide) (by decide)
  · rintro value least greatest rfl
    exact plain_ofNumber_integer least greatest
  · rintro value finite rfl
    refine ⟨rfl, Binary64.shortest .upward value, _, ?_, Decimal.isSpelledBy_positional _,
      Binary64.isShortest_shortest finite⟩
    rw [← String.toList_append, ← Binary64.plain_of_isFinite finite]
    rfl

/-- The datum nearest to a tenth, looked for at the front of a column. -/
theorem Scalar.literal_ofNumber_tenth :
    ∃ x, Scalar.ofJson (.number (.float ⟨0x3FB999999999999A⟩ (by decide))) = .ok x ∧
      (∀ type, x.literalText type = "0.1") ∧
      (∃ sql, (Filter.rule ⟨"a", .double, .beginsWith, .single x⟩).toSql {} "t" = .ok sql ∧
        Style.HoldsLiteral {} sql "0.1%") ∧
      ∃ d : Decimal, d.IsSpelledBy "0.1".toList ∧
        Binary64.IsShortest ⟨0x3FB999999999999A⟩ d := by
  have hplain : Binary64.plain ⟨0x3FB999999999999A⟩ = "0.1" := by decide +kernel
  have hsign : Binary64.signText ⟨0x3FB999999999999A⟩ = "" := by decide +kernel
  obtain ⟨x, s, hx, htext, -, -, hsql, -, -, -, hfloat⟩ :=
    literal_ofNumber (.float ⟨0x3FB999999999999A⟩ (by decide))
  obtain ⟨rfl, d, cs, hcs, hspelled, hshortest⟩ := hfloat _ _ rfl
  obtain rfl := Except.ok.inj hx
  rw [hplain] at htext hsql hcs
  rw [hsign] at hcs
  have hcompilable : ∀ x, Filter.Compilable .passThrough
      (.rule ⟨"a", .double, .beginsWith, .single x⟩) :=
    fun x => .rule (fun h => absurd h (by decide)) ⟨x, .inl rfl⟩
  have hrule : ∀ n, Value.ofJson .beginsWith (some (.number n)) = .ok (.single (ofNumber n)) :=
    fun _ => rfl
  obtain ⟨sql, hok⟩ := (@Filter.exists_toSql_iff {} _ "t").2 (hcompilable _)
  refine ⟨_, rfl, htext, ⟨sql, hok, ?_⟩, d, ?_, hshortest⟩
  · have hpattern : Operator.pattern .beginsWith "0.1" = "0.1%" := by decide +kernel
    have hholds := hsql {} _ "t" sql ⟨"a", .double, .beginsWith, .single _⟩ _ hok
      (List.mem_singleton.2 rfl) (by decide) (.inl rfl) (hrule _)
    rwa [hpattern] at hholds
  · rw [hcs]
    exact hspelled

/-- The first whole number that is no signed word. -/
example : (Scalar.ofNumber (.integer 9223372036854775808 (by decide) (by decide))).plain
    = "9223372036854775808" := by
  decide +kernel

end FilterSql
