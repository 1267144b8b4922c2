import FilterSql.Proofs.Sql.Grouping

/-!
# The text in both dialects

A filter has the same tokens in both dialects, and these are read alike but for double bars.  Where
double bars join texts, a rule that excludes two texts or more compares a comparison: the reader
stops in front of the second sign (`Predicate.stops_tokens`), no matter how deep the rule lies, and
the whole text means nothing.  Every other filter means the same in both dialects
(`Filter.ofSql?_dialects`).
-/

namespace FilterSql

open Condition

/-! ### Readers that stop in front of a sign -/

/-- The reader failed, or it stopped in front of a sign. -/
def StopsAtSign (outcome : Option (Condition × List Token)) : Prop :=
  ∀ c rest, outcome = some (c, rest) → ∃ s more, rest = .sign s :: more

theorem stopsAtSign_none : StopsAtSign none := nofun

theorem stopsAtSign_some (c : Condition) (s : String) (more : List Token) :
    StopsAtSign (some (c, .sign s :: more)) := by
  rintro _ _ ⟨⟩
  exact ⟨s, more, rfl⟩

/-- What is done to the condition does not change where the reader stopped. -/
theorem StopsAtSign.bind {outcome : Option (Condition × List Token)} (h : StopsAtSign outcome)
    {next : Condition × List Token → Option (Condition × List Token)}
    (hnext : ∀ c s more, StopsAtSign (next (c, .sign s :: more))) :
    StopsAtSign (outcome.bind next) := by
  cases outcome with
  | none => exact stopsAtSign_none
  | some r =>
    obtain ⟨c, rest⟩ := r
    obtain ⟨s, more, rfl⟩ := h c rest rfl
    exact hnext c s more

/-- The reader stops in front of a sign or fails on the tokens, whatever follows them. -/
def Stops (read : Nat → List Token → Option (Condition × List Token)) (steps : Nat)
    (ts : List Token) : Prop :=
  ∀ rest fuel, 3 * ts.length + steps ≤ fuel → StopsAtSign (read fuel (ts ++ rest))

variable {d : Dialect} {ts us : List Token}

theorem Stops.append {read : Nat → List Token → Option (Condition × List Token)} {steps : Nat}
    (h : Stops read steps ts) (us : List Token) : Stops read steps (ts ++ us) := by
  intro rest fuel hf
  rw [List.length_append] at hf
  rw [List.append_assoc]
  exact h _ fuel (by omega)

theorem Stops.conjunction (h : Stops (readPrimary d) 0 ts) : Stops (readConjunction d) 1 ts := by
  intro rest fuel hf
  obtain ⟨fuel, rfl⟩ := Nat.exists_eq_add_one.2 (show 0 < fuel by omega)
  rw [readConjunction]
  exact (h rest fuel (by omega)).bind stopsAtSign_some

theorem Stops.disjunction (h : Stops (readConjunction d) 1 ts) :
    Stops (readDisjunction d) 2 ts := by
  intro rest fuel hf
  obtain ⟨fuel, rfl⟩ := Nat.exists_eq_add_one.2 (show 0 < fuel by omega)
  rw [readDisjunction]
  exact (h rest fuel (by omega)).bind stopsAtSign_some

/-! ### What stands in front of a stop is read -/

theorem Conjunction.Reads.stops {p : Conjunction} (hp : p.Reads d ts)
    (h : Stops (Condition.readConjunction d) 1 us) :
    Stops (Condition.readConjunction d) 1 (ts ++ .word "AND" :: us) := by
  induction hp with
  | one hc =>
    intro rest fuel hf
    rw [List.length_append, List.length_cons] at hf
    obtain ⟨fuel, rfl⟩ := Nat.exists_eq_add_one.2 (show 0 < fuel by omega)
    rw [List.append_assoc, List.cons_append, Condition.readConjunction,
      hc _ fuel (by simp [EndsOperand]) (by omega)]
    exact (h rest fuel (by omega)).bind fun _ => stopsAtSign_some _
  | and hc _ ih =>
    intro rest fuel hf
    rw [List.append_assoc, List.length_append, List.cons_append, List.length_cons] at hf
    obtain ⟨fuel, rfl⟩ := Nat.exists_eq_add_one.2 (show 0 < fuel by omega)
    rw [List.append_assoc, List.append_assoc, List.cons_append, ← List.append_assoc,
      Condition.readConjunction, hc _ fuel (by simp [EndsOperand]) (by omega)]
    exact (ih rest fuel (by omega)).bind fun _ => stopsAtSign_some _

/-- A connective does not help: the reader reads on up to the stop. -/
theorem Disjunction.Reads.stops {s : Disjunction} (hs : s.Reads d ts) (c : Connective)
    (h : Stops (readPrimary d) 0 us) :
    Stops (Condition.readDisjunction d) 2 (ts ++ .word c.keyword :: us) := by
  induction hs with
  | one hp =>
    cases c with
    | and => exact (hp.stops h.conjunction).disjunction
    | or =>
      intro rest fuel hf
      rw [List.length_append, List.length_cons] at hf
      obtain ⟨fuel, rfl⟩ := Nat.exists_eq_add_one.2 (show 0 < fuel by omega)
      have hjoins : d.JoinsConditions (.word Connective.or.keyword) := .inl rfl
      rw [List.append_assoc, List.cons_append, Condition.readDisjunction,
        hp.readConjunction _ fuel (hjoins.endsConjunction _) (by omega)]
      exact (h.conjunction.disjunction rest fuel (by omega)).bind fun _ => stopsAtSign_some _
  | or hp hj _ ih =>
    intro rest fuel hf
    rw [List.append_assoc, List.length_append, List.cons_append, List.length_cons] at hf
    obtain ⟨fuel, rfl⟩ := Nat.exists_eq_add_one.2 (show 0 < fuel by omega)
    rw [List.append_assoc, List.append_assoc, List.cons_append, ← List.append_assoc,
      Condition.readDisjunction, hp.readConjunction _ fuel (hj.endsConjunction _) (by omega)]
    have hrest := ih rest fuel (by omega)
    rcases hj with rfl | ⟨rfl, hd⟩
    · exact hrest.bind fun _ => stopsAtSign_some _
    · simp only [Option.bind_eq_bind, Option.bind_some, hd]
      exact hrest.bind fun _ _ _ => stopsAtSign_some _ _ _

/-! ### Double bars that join texts -/

theorem readOperand_bars (hd : d.barsJoinTexts = true) (text : String) (fuel : Nat) :
    readOperand d (fuel + 1) (.literal text :: .bars :: ts)
      = (readOperand d fuel ts).bind fun r => some (.joined (.literal text) r.1, r.2) := by
  rw [readOperand]
  simp only [readTerm, Option.bind_eq_bind, Option.bind_some, hd, if_true]
  rfl

/-- The second of two comparisons compares the first one, which the reader does not accept. -/
theorem Test.stops_tokens (hd : d.barsJoinTexts = true) (name : String) {t : Test}
    (h : t.HasBars) : Stops (readPrimary d) 0 (t.tokens (Token.ofName name)) := by
  cases t with
  | notOneOf texts =>
    rcases texts with _ | ⟨text, _ | ⟨next, texts⟩⟩
    · exact absurd h (Nat.not_succ_le_zero 1)
    · exact absurd h (Nat.not_succ_le_self 1)
    · intro rest fuel hf
      rw [tokens, List.map_cons, List.map_cons, List.intercalate_cons_cons,
        intercalate_cons_eq_append_flatMap] at hf ⊢
      simp only [List.length_append, List.length_cons, List.append_assoc, List.cons_append,
        List.nil_append] at hf ⊢
      obtain ⟨fuel, rfl⟩ := Nat.exists_eq_add_of_le' (show 3 ≤ fuel by omega)
      have hcolumn : ∀ more, readOperand d (fuel + 1) (Token.ofName name ++ .sign "!=" :: more)
          = some (.column (Text.pieces '.' name), .sign "!=" :: more) := fun more =>
        readOperand_ofName name (by simp) (by simp [EndsOperand]) (Nat.succ_pos _)
      rw [readPrimary_ofName (by simp) (by simp [EndsOperand]) (by omega)]
      simp [readRelation, Comparison.ofSign?, readOperand_bars hd, hcolumn, stopsAtSign_some]
  | _ => exact absurd h id

theorem Predicate.stops_tokens (hd : d.barsJoinTexts = true) (name : String) {p : Predicate}
    (hp : p.Proper) (h : p.HasBars) : Stops (readPrimary d) 0 (p.tokens (Token.ofName name)) := by
  induction hp with
  | test ht =>
    cases h with
    | test hbars => exact Test.stops_tokens hd name hbars
  | @group connective children hne hproper ih =>
    cases h with
    | group hmem hbars =>
      obtain ⟨before, q, after, rfl, hq, hbefore⟩ := exists_first_of_mem hmem hbars
      have hstop := ih q (by simp) hq
      have hbody : Stops (readDisjunction d) 2 ([Token.word connective.keyword].intercalate
          ((before ++ q :: after).map (tokens (Token.ofName name)))) := by
        rw [List.map_append, List.map_cons]
        cases before with
        | nil =>
          rw [List.map_nil, List.nil_append, intercalate_cons_eq_append_flatMap]
          exact (hstop.append _).conjunction.disjunction
        | cons p ps =>
          have hread : ∀ y ∈ p :: ps, (y.reading (.column (Text.pieces '.' name))).Reads d
              (y.tokens (Token.ofName name)) := fun y hy =>
            y.reads_reading name (hproper y (List.mem_append_left _ hy)) fun hbars =>
              absurd hbars (hbefore y hy)
          rw [List.map_cons, intercalate_cons_append_cons, ← List.map_cons]
          exact (Disjunction.Reads.joined hread).stops connective (hstop.append _)
      intro rest fuel hf
      rw [tokens, tokensOfAll_eq_map] at hf ⊢
      simp only [List.cons_append, List.length_cons, List.length_append, List.length_nil] at hf
      obtain ⟨fuel, rfl⟩ := Nat.exists_eq_add_one.2 (show 0 < fuel by omega)
      rw [List.cons_append, List.cons_append, List.append_assoc, readPrimary]
      exact (hbody _ fuel (by omega)).bind fun _ _ _ => stopsAtSign_none

theorem Predicate.hasBars_test_iff {t : Test} : HasBars (.test t) ↔ t.HasBars :=
  ⟨fun | .test bars => bars, .test⟩

theorem Predicate.hasBars_group_iff {connective : Connective} {children : List Predicate} :
    HasBars (.group connective children) ↔ ∃ p ∈ children, p.HasBars :=
  ⟨fun | .group child bars => ⟨_, child, bars⟩, fun ⟨_, child, bars⟩ => .group child bars⟩

/-- A text in which double bars join texts means nothing. -/
theorem Predicate.ofSql?_against_of_hasBars {style : Style} (he : style.escaping = .doubled)
    (hd : style.dialect.barsJoinTexts = true) (target : String) {p : Predicate} (hp : p.Proper)
    (h : p.HasBars) : Condition.ofSql? style.dialect (p.against style target) = none := by
  have hstops := (p.stops_tokens hd target hp h).conjunction.disjunction
  rw [ofSql?, p.scan_against he target, Option.bind_some, ofTokens?]
  split
  · rename_i c hread
    have hstop := hstops [] (3 * (p.tokens (Token.ofName target)).length + 3) (by omega)
    rw [List.append_nil] at hstop
    obtain ⟨s, more, hrest⟩ := hstop c [] hread
    exact absurd hrest (by simp)
  · rfl

/-! ### Filters -/

namespace Filter

/-- Some rule excludes two texts or more. -/
def ExcludesSeveral (f : Filter) : Prop :=
  ∃ r ∈ f.rules, r.operator = .notOneOf ∧ 2 ≤ r.value.scalars.length

end Filter

theorem Rule.hasBars_outline_iff (r : Rule) :
    r.outline.HasBars ↔ r.operator = .notOneOf ∧ 2 ≤ r.value.scalars.length := by
  unfold outline
  cases ho : r.operator <;> simp [Test.HasBars, texts]

namespace Filter

theorem excludesSeveral_rule_iff {r : Rule} :
    ExcludesSeveral (.rule r) ↔ r.operator = .notOneOf ∧ 2 ≤ r.value.scalars.length := by
  simp [ExcludesSeveral, rules]

theorem excludesSeveral_group_iff {connective : Connective} {children : List Filter} :
    ExcludesSeveral (.group connective children) ↔ ∃ f ∈ children, f.ExcludesSeveral := by
  simp only [ExcludesSeveral, rules, rulesOfAll_eq_flatMap, List.mem_flatMap]
  constructor
  · rintro ⟨r, ⟨f, hf, hr⟩, hr'⟩
    exact ⟨f, hf, r, hr, hr'⟩
  · rintro ⟨f, hf, r, hr, hr'⟩
    exact ⟨r, ⟨f, hf, hr⟩, hr'⟩

theorem hasBars_outline_iff (f : Filter) : f.outline.HasBars ↔ f.ExcludesSeveral := by
  induction f using Filter.induction with
  | rule r =>
    rw [outline, Predicate.hasBars_test_iff, r.hasBars_outline_iff, excludesSeveral_rule_iff]
  | group connective children ih =>
    rw [outline, outlines_eq_map, Predicate.hasBars_group_iff, excludesSeveral_group_iff]
    simp only [List.mem_map, exists_exists_and_eq_and]
    exact exists_congr fun f => and_congr_right (ih f)

theorem hasBars_rootOutline_iff (f : Filter) : f.rootOutline.HasBars ↔ f.ExcludesSeveral := by
  rw [← hasBars_outline_iff]
  cases f with
  | rule r => simp [rootOutline, outline, Predicate.hasBars_group_iff]
  | group connective children => rfl

/-- Whether a filter compiles does not depend on how it is written. -/
theorem toSql_eq_ok_of_toSql {unknown : UnknownTypes} {style : Style} {f : Filter}
    {target sql : String} (h : f.toSql ⟨style, unknown⟩ target = .ok sql) (style' : Style) :
    f.toSql ⟨style', unknown⟩ target = .ok (f.rootOutline.against style' target) := by
  obtain ⟨p, hp, -⟩ := Except.map_eq_ok_iff.1 h
  obtain ⟨rfl, -⟩ := Predicate.eq_rootOutline_of_ofRoot hp
  exact Except.map_eq_ok_iff.2 ⟨_, hp, rfl⟩

/-! ### Main result -/

/-- A filter that compiles has a text in each dialect.  Where double bars join conditions the text
always means a condition; where they join texts it means the same condition, unless some rule
excludes several texts: then it means nothing. -/
theorem ofSql?_dialects {unknown : UnknownTypes} {dialect : Dialect} {f : Filter}
    {target text : String} (h : f.toSql ⟨⟨dialect, .doubled⟩, unknown⟩ target = .ok text) :
    ∃ sql sql' c, f.toSql ⟨⟨.mysql, .doubled⟩, unknown⟩ target = .ok sql ∧
      f.toSql ⟨⟨.ansi, .doubled⟩, unknown⟩ target = .ok sql' ∧
      Condition.ofSql? .mysql sql = some c ∧
      (¬ f.ExcludesSeveral → Condition.ofSql? .ansi sql' = some c) ∧
      (f.ExcludesSeveral → Condition.ofSql? .ansi sql' = none) := by
  obtain ⟨-, hp⟩ := toSql_eq_ok h
  rw [← hasBars_rootOutline_iff]
  refine ⟨_, _, _, toSql_eq_ok_of_toSql h ⟨.mysql, .doubled⟩,
    toSql_eq_ok_of_toSql h ⟨.ansi, .doubled⟩,
    Predicate.ofSql?_against rfl target hp fun _ => rfl, fun hno => ?_, fun hbars => ?_⟩
  · exact Predicate.ofSql?_against rfl target hp fun hbars => absurd hbars hno
  · exact Predicate.ofSql?_against_of_hasBars rfl rfl target hp hbars

/-- One excluded text with a quote and a backslash: written differently and read alike. -/
theorem ofSql?_dialects_quotes :
    ∃ c, Condition.ofSql? .mysql " ( `t` != 'it''s\\\\' OR (`t` = '') OR (`t` IS NULL) ) " = some c ∧
      Condition.ofSql? .ansi " ( \"t\" != 'it''s\\' OR (\"t\" = '') OR (\"t\" IS NULL) ) "
        = some c := by
  obtain ⟨sql, sql', c, hsql, hsql', hc, hsame, -⟩ := @ofSql?_dialects .passThrough .ansi
    (.group .or [.rule ⟨"a", .string, .notOneOf, .list [.text "it's\\"]⟩,
      .rule ⟨"b", .string, .isEmpty, .absent⟩]) "t" _ rfl
  have hno : ¬ ExcludesSeveral (.group .or
      [.rule ⟨"a", .string, .notOneOf, .list [.text "it's\\"]⟩,
        .rule ⟨"b", .string, .isEmpty, .absent⟩]) := by
    simp [excludesSeveral_group_iff, excludesSeveral_rule_iff, Value.scalars]
  obtain rfl := Except.ok.inj hsql
  obtain rfl := Except.ok.inj hsql'
  exact ⟨c, hc, hsame hno⟩

/-- Two excluded texts mean a disjunction in one dialect and nothing in the other. -/
theorem ofSql?_ansi_eq_none :
    ∃ f, f = rule ⟨"a", .string, .notOneOf, .list [.text "a", .text "b"]⟩ ∧
      f.toSql ⟨⟨.mysql, .doubled⟩, .passThrough⟩ "t" = .ok " ( `t` != 'a' || `t` != 'b' ) " ∧
      f.toSql ⟨⟨.ansi, .doubled⟩, .passThrough⟩ "t"
        = .ok " ( \"t\" != 'a' || \"t\" != 'b' ) " ∧
      Condition.ofSql? .mysql " ( `t` != 'a' || `t` != 'b' ) "
        = some (.or (.compare (.column ["t"]) .notEqual (.literal "a"))
          (.compare (.column ["t"]) .notEqual (.literal "b"))) ∧
      Condition.ofSql? .ansi " ( \"t\" != 'a' || \"t\" != 'b' ) " = none :=
  ⟨_, rfl, rfl, rfl, by decide +kernel, by decide +kernel⟩

end Filter

end FilterSql
