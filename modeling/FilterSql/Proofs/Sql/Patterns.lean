import FilterSql.Proofs.Sql.Complements

/-!
# Patterns

A pattern operator looks for its text at the start of the column, anywhere in it or at its end
(`Spot`), by a pattern that has the text as it is beside percent signs.  So a text of plain
characters is looked for literally, and any other is not (`Filter.like_toSql`): the pattern matches
its own `Like.sample`, which is too short for the text or differs from it.  A backslash at the end
of the whole pattern stands for itself, too.
-/

namespace FilterSql

/-! ### What matches -/

namespace Like

theorem parts_percent (cs : List Char) : parts ('%' :: cs) = .run :: parts cs := by
  simp [parts]

theorem parts_underscore (cs : List Char) : parts ('_' :: cs) = .one :: parts cs := by
  simp [parts]

theorem parts_backslash (c : Char) (cs : List Char) :
    parts ('\\' :: c :: cs) = .char c :: parts cs := by
  simp [parts]

theorem matchesParts_run_iff {ps : List Part} {text : List Char} :
    matchesParts (.run :: ps) text = true ↔
      ∃ rest, rest <:+ text ∧ matchesParts ps rest = true := by
  simp only [matchesParts, List.any_eq_true, mem_suffixes_iff]

/-- A run at the end takes whatever is left. -/
theorem matchesParts_run (text : List Char) : matchesParts [.run] text = true :=
  matchesParts_run_iff.2 ⟨[], List.nil_suffix, rfl⟩

theorem matchesParts_plain_percent_iff {plain text : List Char}
    (h : ∀ c ∈ plain, isPlain c = true) :
    matchesParts (parts (plain ++ ['%'])) text = true ↔ plain <+: text := by
  rw [matchesParts_plain_append h]
  constructor
  · rintro ⟨rest, rfl, -⟩
    exact List.prefix_append plain rest
  · rintro ⟨rest, rfl⟩
    exact ⟨rest, rfl, matchesParts_run rest⟩

theorem matchesParts_plain_iff {plain text : List Char} (h : ∀ c ∈ plain, isPlain c = true) :
    matchesParts (parts plain) text = true ↔ text = plain := by
  have happend := matchesParts_plain_append h [] text
  rw [List.append_nil] at happend
  rw [happend]
  simp [parts, matchesParts]

/-- A backslash at the end of a pattern stands for itself. -/
theorem matchesParts_plain_backslash_iff {plain text : List Char}
    (h : ∀ c ∈ plain, isPlain c = true) :
    matchesParts (parts (plain ++ ['\\'])) text = true ↔ text = plain ++ ['\\'] := by
  have hlast : ∀ rest, matchesParts (parts ['\\']) rest = true ↔ rest = ['\\'] := by
    intro rest
    show matchesParts [.char '\\'] rest = true ↔ _
    cases rest with
    | nil => simp [matchesParts]
    | cons d rest => simp [matchesParts, @eq_comm _ d]
  rw [matchesParts_plain_append h]
  simp [hlast]

/-! ### What matches although it should not -/

/-- A short text that the parts match: runs are empty, and any one character is an x. -/
def sample : List Part → List Char
  | [] => []
  | .run :: ps => sample ps
  | .one :: ps => 'x' :: sample ps
  | .char c :: ps => c :: sample ps

theorem matchesParts_sample (ps : List Part) : matchesParts ps (sample ps) = true := by
  induction ps with
  | nil => rfl
  | cons p ps ih =>
    cases p with
    | run => exact matchesParts_run_iff.2 ⟨_, List.suffix_rfl, ih⟩
    | one => exact ih
    | char c => simpa [sample, matchesParts] using ih

/-- What may stand behind the text in a pattern. -/
def IsEnding (ending : List Char) : Prop := ending = [] ∨ ending = ['%']

/-- A character that no other clause takes is plain, or it is a backslash at the end. -/
theorem isPlain_or_last {c : Char} {cs : List Char} (h₁ : c = '%' → False) (h₂ : c = '_' → False)
    (h₃ : ∀ d ds, c = '\\' → cs = d :: ds → False) :
    isPlain c = true ∨ c = '\\' ∧ cs = [] := by
  by_cases hc : c = '\\'
  · cases cs with
    | nil => exact .inr ⟨hc, rfl⟩
    | cons d ds => exact (h₃ d ds hc rfl).elim
  · left
    simp only [isPlain, Bool.and_eq_true, bne_iff_ne, ne_eq]
    exact ⟨⟨h₁, h₂⟩, hc⟩

theorem sample_backslash {ending : List Char} (he : IsEnding ending) :
    sample (parts ('\\' :: ending)) = if ending = [] then ['\\'] else ['%'] := by
  rcases he with rfl | rfl <;> rfl

theorem length_sample_le {ending : List Char} (he : IsEnding ending) (cs : List Char) :
    (sample (parts (cs ++ ending))).length ≤ cs.length := by
  induction cs using parts.induct with
  | case1 => rcases he with rfl | rfl <;> exact Nat.le_refl 0
  | case2 rest ih =>
    rw [List.cons_append, parts_percent, sample, List.length_cons]
    omega
  | case3 rest ih =>
    rw [List.cons_append, parts_underscore, sample, List.length_cons, List.length_cons]
    omega
  | case4 c rest ih =>
    rw [List.cons_append, List.cons_append, parts_backslash, sample]
    simp only [List.length_cons]
    omega
  | case5 c rest h₁ h₂ h₃ ih =>
    rcases isPlain_or_last h₁ h₂ h₃ with hc | ⟨rfl, rfl⟩
    · rw [List.cons_append, parts_cons_of_isPlain hc, sample, List.length_cons, List.length_cons]
      omega
    · rw [List.cons_append, List.nil_append, sample_backslash he]
      split <;> exact Nat.le_refl 1

/-- The characters are plain, but for a backslash at the very end of the pattern. -/
def IsLiteral (ending cs : List Char) : Prop :=
  (∀ c ∈ cs, isPlain c = true) ∨
    ending = [] ∧ ∃ plain, (∀ c ∈ plain, isPlain c = true) ∧ cs = plain ++ ['\\']

theorem IsLiteral.cons {ending cs : List Char} {c : Char} (hc : isPlain c = true)
    (h : IsLiteral ending cs) : IsLiteral ending (c :: cs) := by
  rcases h with h | ⟨he, plain, hplain, rfl⟩
  · exact .inl (List.forall_mem_cons.2 ⟨hc, h⟩)
  · exact .inr ⟨he, c :: plain, List.forall_mem_cons.2 ⟨hc, hplain⟩, rfl⟩

/-- Only a literal text is its own sample: percent signs and escapes are lost, and an underscore
becomes another character. -/
theorem isLiteral_of_sample_eq {ending : List Char} (he : IsEnding ending) {cs : List Char}
    (h : sample (parts (cs ++ ending)) = cs) : IsLiteral ending cs := by
  induction cs using parts.induct with
  | case1 => exact .inl (List.forall_mem_nil _)
  | case2 rest ih =>
    -- Without the percent sign the sample is too short.
    have hle := length_sample_le he rest
    rw [List.cons_append, parts_percent, sample] at h
    rw [h, List.length_cons] at hle
    omega
  | case3 rest ih =>
    rw [List.cons_append, parts_underscore, sample] at h
    exact absurd (List.cons.inj h).1 (by decide)
  | case4 c rest ih =>
    -- So it is without the backslash, which only escapes the next character.
    have hle := length_sample_le he rest
    rw [List.cons_append, List.cons_append, parts_backslash, sample] at h
    rw [(List.cons.inj h).2, List.length_cons] at hle
    omega
  | case5 c rest h₁ h₂ h₃ ih =>
    rcases isPlain_or_last h₁ h₂ h₃ with hc | ⟨rfl, rfl⟩
    · rw [List.cons_append, parts_cons_of_isPlain hc, sample] at h
      exact (ih (List.cons.inj h).2).cons hc
    · rw [List.cons_append, List.nil_append, sample_backslash he] at h
      rcases he with rfl | rfl
      · exact .inr ⟨rfl, [], List.forall_mem_nil _, rfl⟩
      · exact absurd h (by decide)

end Like

/-! ### Where a pattern looks -/

/-- Where in a column a text is looked for. -/
inductive Spot where
  | start
  | anywhere
  | finish
  deriving DecidableEq, Repr

namespace Spot

/-- The operator that looks for a text there. -/
def operator : Spot → Operator
  | .start => .beginsWith
  | .anywhere => .contains
  | .finish => .endsWith

/-- The operator that looks whether the text is not there. -/
def negation : Spot → Operator
  | .start => .notBeginsWith
  | .anywhere => .notContains
  | .finish => .notEndsWith

/-- What stands behind the text in the pattern. -/
def ending : Spot → List Char
  | .finish => []
  | _ => ['%']

def pattern (spot : Spot) (s : String) : String :=
  match spot with
  | .start => s ++ "%"
  | .anywhere => "%" ++ s ++ "%"
  | .finish => "%" ++ s

/-- The text stands there in the column. -/
def Holds (spot : Spot) (s column : String) : Prop :=
  match spot with
  | .start => s.toList <+: column.toList
  | .anywhere => s.toList <:+: column.toList
  | .finish => s.toList <:+ column.toList

/-- Every character of the text stands for itself in the pattern. -/
def TakesLiterally (spot : Spot) (s : String) : Prop :=
  Like.IsLiteral spot.ending s.toList

variable {spot : Spot} {s : String}

theorem isEnding_ending (spot : Spot) : Like.IsEnding spot.ending := by
  cases spot <;> simp [ending, Like.IsEnding]

theorem toList_pattern_start (s : String) :
    (pattern .start s).toList = s.toList ++ ending .start := by
  simp [pattern, ending]

/-- The other two patterns start with a run. -/
theorem toList_pattern (h : spot ≠ .start) (s : String) :
    (spot.pattern s).toList = '%' :: (s.toList ++ spot.ending) := by
  cases spot with
  | start => exact absurd rfl h
  | anywhere => simp [pattern, ending]
  | finish => simp [pattern, ending]

theorem matches_pattern_iff_exists (h : spot ≠ .start) (column : String) :
    Like.matches (spot.pattern s) column = true ↔ ∃ rest, rest <:+ column.toList ∧
      Like.matchesParts (Like.parts (s.toList ++ spot.ending)) rest = true := by
  rw [Like.matches, toList_pattern h, Like.parts_percent, Like.matchesParts_run_iff]

/-- A text that is taken literally is found just where it stands. -/
theorem matches_pattern_iff (h : spot.TakesLiterally s) (column : String) :
    Like.matches (spot.pattern s) column = true ↔ spot.Holds s column := by
  cases spot with
  | start =>
    obtain hplain | ⟨hending, -⟩ := h
    · rw [Like.matches, toList_pattern_start]
      exact Like.matchesParts_plain_percent_iff hplain
    · exact absurd hending (List.cons_ne_nil _ _)
  | anywhere =>
    obtain hplain | ⟨hending, -⟩ := h
    · rw [matches_pattern_iff_exists (by decide), Holds, List.infix_iff_prefix_suffix]
      apply exists_congr
      intro rest
      rw [and_comm]
      exact and_congr_left fun _ => Like.matchesParts_plain_percent_iff hplain
    · exact absurd hending (List.cons_ne_nil _ _)
  | finish =>
    rw [matches_pattern_iff_exists (by decide), Holds, ending, List.append_nil]
    have honly : ∀ rest, Like.matchesParts (Like.parts s.toList) rest = true ↔ rest = s.toList := by
      intro rest
      obtain hplain | ⟨-, plain, hplain, hs⟩ := h
      · exact Like.matchesParts_plain_iff hplain
      · rw [hs]
        exact Like.matchesParts_plain_backslash_iff hplain
    simp only [honly, exists_eq_right]

/-- A text that is found just where it stands is taken literally: it stands in the sample of its
pattern, which is not longer. -/
theorem takesLiterally_of_matches
    (h : ∀ column, Like.matches (spot.pattern s) column = true → spot.Holds s column) :
    spot.TakesLiterally s := by
  have hsample := Like.matchesParts_sample (Like.parts (s.toList ++ spot.ending))
  have hlength := Like.length_sample_le spot.isEnding_ending s.toList
  apply Like.isLiteral_of_sample_eq spot.isEnding_ending
  generalize Like.sample (Like.parts (s.toList ++ spot.ending)) = sample at hsample hlength ⊢
  have hcolumn : (String.ofList sample).toList = sample := String.toList_ofList
  have hholds : spot.Holds s (String.ofList sample) := by
    apply h
    by_cases hspot : spot = .start
    · subst hspot
      rw [Like.matches, toList_pattern_start, hcolumn]
      exact hsample
    · exact (matches_pattern_iff_exists hspot _).2 ⟨sample, ⟨[], hcolumn.symm⟩, hsample⟩
  have hwithin : s.toList <:+: sample := by
    cases spot with
    | start => exact List.IsPrefix.isInfix (hcolumn ▸ hholds)
    | anywhere => exact hcolumn ▸ hholds
    | finish => exact List.IsSuffix.isInfix (hcolumn ▸ hholds)
  exact (hwithin.eq_of_length_le hlength).symm

theorem takesLiterally_iff_forall :
    spot.TakesLiterally s ↔
      ∀ column, Like.matches (spot.pattern s) column = true ↔ spot.Holds s column :=
  ⟨matches_pattern_iff, fun h => takesLiterally_of_matches fun column => (h column).1⟩

theorem outline_operator (spot : Spot) (r : Rule) :
    Rule.outline { r with operator := spot.operator } = .like (spot.pattern r.firstText) := by
  cases spot <;> rfl

theorem outline_negation (spot : Spot) (r : Rule) :
    Rule.outline { r with operator := spot.negation } = .notLike (spot.pattern r.firstText) := by
  cases spot <;> rfl

theorem arity_operator (spot : Spot) : spot.operator.arity = .single := by
  cases spot <;> rfl

theorem arity_negation (spot : Spot) : spot.negation.arity = .single := by
  cases spot <;> rfl

end Spot

/-! ### Main result -/

namespace Filter

/-- A lone rule with one value compiles, and for a column that is there its condition has the truth
of its test. -/
theorem exists_toSql_of_single {unknown : UnknownTypes} {r : Rule} {x : Scalar}
    (ha : r.IsAccepted unknown) (hv : r.value.single? = some x) (target : String) {o : Operator}
    (ho : o.arity = .single) :
    ∃ sql c,
      (rule { r with operator := o }).toSql ⟨⟨.mysql, .doubled⟩, unknown⟩ target = .ok sql ∧
      Condition.ofSql? .mysql sql = some c ∧ ∀ m text, c.truth m (some text)
        = Truth.ofBool ((Rule.outline { r with operator := o }).holds m text) := by
  have hsuits : r.value.Suits .single := by
    by_contra hnot
    simp [Value.single?_eq_none_iff.2 hnot] at hv
  have hcompilable : Compilable unknown (rule { r with operator := o }) :=
    .rule ha (by rw [ho]; exact hsuits)
  obtain ⟨sql, h⟩ :=
    (@exists_toSql_iff ⟨⟨.mysql, .doubled⟩, unknown⟩ _ target).2 hcompilable
  obtain ⟨c, hc, htruth⟩ := ofSql?_rule (fun s _ => Style.protects_of_doubled rfl s) h
  exact ⟨sql, c, h, hc, htruth⟩

/-- A pattern operator and its negation are complements of one another, by the pattern that has the
text as it is.  The operator finds the text just in the columns where it stands if and only if every
character of the text stands for itself in the pattern. -/
theorem like_toSql {unknown : UnknownTypes} {r : Rule} {x : Scalar} (ha : r.IsAccepted unknown)
    (hv : r.value.single? = some x) (spot : Spot) (target : String) :
    ∃ sql sql' c c',
      (rule { r with operator := spot.operator }).toSql ⟨⟨.mysql, .doubled⟩, unknown⟩ target
        = .ok sql ∧
      (rule { r with operator := spot.negation }).toSql ⟨⟨.mysql, .doubled⟩, unknown⟩ target
        = .ok sql' ∧
      Condition.ofSql? .mysql sql = some c ∧ Condition.ofSql? .mysql sql' = some c' ∧
      (∀ column, c.truth .exact (some column)
          = .ofBool (Like.matches (spot.pattern (x.literalText r.type)) column) ∧
        c'.truth .exact (some column) = (c.truth .exact (some column)).not) ∧
      (spot.TakesLiterally (x.literalText r.type) ↔ ∀ column,
        c.truth .exact (some column) = .yes ↔ spot.Holds (x.literalText r.type) column) := by
  have htext : r.firstText = x.literalText r.type := by
    simp [Rule.firstText, Rule.texts, Value.scalars_of_single? hv]
  obtain ⟨sql, c, hsql, hc, htruth⟩ := exists_toSql_of_single ha hv target spot.arity_operator
  obtain ⟨sql', c', hsql', hc', htruth'⟩ := exists_toSql_of_single ha hv target spot.arity_negation
  have hown : ∀ column, c.truth .exact (some column)
      = .ofBool (Like.matches (spot.pattern (x.literalText r.type)) column) := by
    intro column
    rw [htruth, spot.outline_operator, htext]
    rfl
  refine ⟨sql, sql', c, c', hsql, hsql', hc, hc', fun column => ⟨hown column, ?_⟩, ?_⟩
  · rw [hown, htruth', spot.outline_negation, htext, Truth.not_ofBool]
    rfl
  · rw [Spot.takesLiterally_iff_forall]
    simp only [hown, Truth.ofBool_eq_yes_iff]

/-- A quote in front of a backslash at the end of the text: both are looked for literally. -/
theorem like_toSql_backslash :
    ∃ c, Condition.ofSql? .mysql " ( `t` LIKE '%it''s\\\\' ) " = some c ∧
      ∀ column, c.truth .exact (some column) = .yes ↔ "it's\\".toList <:+ column.toList := by
  obtain ⟨sql, sql', c, c', hsql, -, hc, -, -, hliteral⟩ :=
    @like_toSql .passThrough ⟨"a", .string, .equal, .single (.text "it's\\")⟩ (.text "it's\\")
      nofun rfl .finish "t"
  obtain rfl := Except.ok.inj hsql
  have hplain : ∀ d ∈ ['i', 't', '\x27', 's'], Like.isPlain d = true := by simp [Like.isPlain]
  exact ⟨c, hc, hliteral.1 (.inr ⟨rfl, _, hplain, rfl⟩)⟩

/-- An underscore finds any character, a percent sign any run of them, and a backslash is lost in
front of another character. -/
theorem like_toSql_ne :
    (∃ r c, r = (⟨"a", .string, .contains, .single (.text "a_b")⟩ : Rule) ∧
      (rule r).toSql {} "t" = .ok " ( `t` LIKE '%a_b%' ) " ∧
      Condition.ofSql? .mysql " ( `t` LIKE '%a_b%' ) " = some c ∧
      c.truth .exact (some "axb") = .yes ∧ ¬ "a_b".toList <:+: "axb".toList) ∧
    (∃ r c, r = (⟨"a", .string, .beginsWith, .single (.text "50%")⟩ : Rule) ∧
      (rule r).toSql {} "t" = .ok " ( `t` LIKE '50%%' ) " ∧
      Condition.ofSql? .mysql " ( `t` LIKE '50%%' ) " = some c ∧
      c.truth .exact (some "500") = .yes ∧ ¬ "50%".toList <+: "500".toList) ∧
    ∃ r c, r = (⟨"a", .string, .endsWith, .single (.text "a\\b")⟩ : Rule) ∧
      (rule r).toSql {} "t" = .ok " ( `t` LIKE '%a\\\\b' ) " ∧
      Condition.ofSql? .mysql " ( `t` LIKE '%a\\\\b' ) " = some c ∧
      c.truth .exact (some "ab") = .yes ∧ ¬ "a\\b".toList <:+ "ab".toList := by
  refine ⟨⟨_, .like (.column ["t"]) (.literal "%a_b%"), rfl, rfl, by decide +kernel,
      by decide +kernel, by decide⟩,
    ⟨_, .like (.column ["t"]) (.literal "50%%"), rfl, rfl, by decide +kernel,
      by decide +kernel, by decide⟩,
    ⟨_, .like (.column ["t"]) (.literal "%a\\b"), rfl, rfl, by decide +kernel,
      by decide +kernel, by decide⟩⟩

end Filter

end FilterSql
