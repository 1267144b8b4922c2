import FilterSql.Proofs.Sql.Lexeme
import FilterSql.Proofs.Sql.Outline
import FilterSql.Sql.Template

/-!
# The layout of predicates

`Predicate.lexemes` lists the lexemes of a predicate's text, blanks included.  It stands between the
text and the tokens: the text is the texts of the lexemes (`Predicate.toList_toSql`), the tokens are
the lexemes without the blanks (`Predicate.reduceOption_lexemes`), and the lexemes stand apart
(`Predicate.readable_lexemes`), so that the text is cut into them (`Predicate.lexes_against`).  No
text of a filter and no target changes which tokens there are (`Filter.scan_toSql`).
-/

namespace FilterSql

/-! ### Lexemes of predicates -/

/-- The lexemes of a name. -/
def Lexeme.ofName (name : String) : List Lexeme := (Token.ofName name).map some

/-- A column, a sign and a literal with blanks between them. -/
def Test.compared (column : List Lexeme) (sign text : String) : List Lexeme :=
  column ++ [none, some (.sign sign), none, some (.literal text)]

/-- The words, each behind a blank. -/
def Lexeme.ofWords (words : List String) : List Lexeme :=
  words.flatMap fun word => [none, some (.word word)]

/-- The lexemes between parentheses. -/
def Lexeme.inParentheses (body : List Lexeme) : List Lexeme :=
  some .opening :: body ++ [some .closing]

/-- The lexemes of a test of the column. -/
def Test.lexemes (column : List Lexeme) : Test → List Lexeme
  | .compare comparison text => compared column comparison.sign text
  | .oneOf texts =>
    column ++ Lexeme.ofWords ["IN"] ++ none :: Lexeme.inParentheses
      ([some .comma].intercalate (texts.map fun text => [some (.literal text)]))
  | .notOneOf texts =>
    [none, some .bars, none].intercalate (texts.map (compared column "!="))
  | .like pattern => column ++ Lexeme.ofWords ["LIKE"] ++ [none, some (.literal pattern)]
  | .notLike pattern => column ++ Lexeme.ofWords ["NOT", "LIKE"] ++ [none, some (.literal pattern)]
  | .isEmpty =>
    Lexeme.inParentheses (compared column "=" "") ++ Lexeme.ofWords ["OR"] ++
      none :: Lexeme.inParentheses (column ++ Lexeme.ofWords ["IS", "NULL"])
  | .isNotEmpty =>
    Lexeme.inParentheses (compared column "<>" "") ++ Lexeme.ofWords ["AND"] ++
      none :: Lexeme.inParentheses (column ++ Lexeme.ofWords ["IS", "NOT", "NULL"])
  | .isNull => column ++ Lexeme.ofWords ["IS", "NULL"]
  | .isNotNull => column ++ Lexeme.ofWords ["IS", "NOT", "NULL"]
  | .between low high =>
    Lexeme.inParentheses (compared column ">" low) ++ Lexeme.ofWords ["AND"] ++
      none :: Lexeme.inParentheses (compared column "<" high)
  | .notBetween low high =>
    Lexeme.inParentheses (compared column "<" low) ++ Lexeme.ofWords ["AND"] ++
      none :: Lexeme.inParentheses (compared column ">" high)

/-- The lexemes between two children of a group. -/
def Connective.lexemes (connective : Connective) : List Lexeme :=
  [none, some (.word connective.keyword), none]

/-- The lexemes of a group around its children. -/
def Lexeme.enclosed (body : List Lexeme) : List Lexeme :=
  [none, some .opening, none] ++ body ++ [none, some .closing, none]

namespace Predicate

mutual
/-- The lexemes of a predicate about the column. -/
def lexemes (column : List Lexeme) : Predicate → List Lexeme
  | .test t => t.lexemes column
  | .group connective children =>
    Lexeme.enclosed (connective.lexemes.intercalate (lexemesOfAll column children))

/-- The lexemes of each of several predicates. -/
def lexemesOfAll (column : List Lexeme) : List Predicate → List (List Lexeme)
  | [] => []
  | p :: ps => p.lexemes column :: lexemesOfAll column ps
end

theorem lexemesOfAll_eq_map (column : List Lexeme) (ps : List Predicate) :
    lexemesOfAll column ps = ps.map (lexemes column) := by
  induction ps with
  | nil => rfl
  | cons p ps ih => rw [lexemesOfAll, ih, List.map_cons]

/-- Induction over a predicate, a group having the property when all its children have it. -/
theorem induction {motive : Predicate → Prop} (test : ∀ t, motive (.test t))
    (group : ∀ connective children, (∀ p ∈ children, motive p) →
      motive (.group connective children)) (p : Predicate) : motive p := by
  match p with
  | .test t => exact test t
  | .group connective children =>
    exact group connective children fun q _ => induction test group q
termination_by sizeOf p
decreasing_by
  have := List.sizeOf_lt_of_mem ‹q ∈ children›
  simp only [Predicate.group.sizeOf_spec]
  omega

end Predicate

/-! ### The text is the texts of the lexemes -/

section Text

variable {style : Style} {column : String} {lexemes : List Lexeme}

theorem Lexeme.flatMap_text_ofName (style : Style) (name : String) :
    (Lexeme.ofName name).flatMap (Lexeme.text style)
      = (style.dialect.quoteName name).toList := by
  rw [Lexeme.ofName, Token.ofName, Dialect.quoteName, Text.toList_joined, List.flatMap_map,
    flatMap_intercalate]
  simp [Lexeme.text, Token.text, Function.comp_def]

theorem Style.literal_empty (style : Style) : style.literal "" = "''" := by
  unfold Style.literal Dialect.escape
  cases style.escaping
  · cases style.dialect <;> rfl
  · rfl

theorem Test.toList_toSql (hc : column.toList = lexemes.flatMap (Lexeme.text style)) (t : Test) :
    (t.toSql style column).toList = (t.lexemes lexemes).flatMap (Lexeme.text style) := by
  cases t with
  | oneOf texts =>
    simp [toSql, Test.lexemes, Lexeme.ofWords, Lexeme.inParentheses, hc, Lexeme.text, Token.text,
      Text.toList_joined, flatMap_intercalate, Function.comp_def]
  | notOneOf texts =>
    simp [toSql, Test.lexemes, compared, hc, Lexeme.text, Token.text,
      Text.toList_joined, flatMap_intercalate, Function.comp_def]
  | _ =>
    simp [toSql, Test.lexemes, compared, Lexeme.ofWords, Lexeme.inParentheses, hc, Lexeme.text,
      Token.text, Style.literal_empty]

theorem Predicate.toList_toSql (hc : column.toList = lexemes.flatMap (Lexeme.text style))
    (p : Predicate) :
    (p.toSql style column).toList = (p.lexemes lexemes).flatMap (Lexeme.text style) := by
  induction p using Predicate.induction with
  | test t => rw [toSql, Predicate.lexemes, Test.toList_toSql hc]
  | group connective children ih =>
    have hs : (toSqls style column children).map String.toList
        = (lexemesOfAll lexemes children).map fun ls => ls.flatMap (Lexeme.text style) := by
      rw [toSqls_eq_map, lexemesOfAll_eq_map, List.map_map, List.map_map]
      exact List.map_congr_left ih
    rw [toSql, Predicate.lexemes]
    simp [enclosed, Connective.separator, Connective.lexemes, Lexeme.enclosed, Text.toList_joined,
      flatMap_intercalate, hs, Lexeme.text, Token.text]

theorem Predicate.toList_against (style : Style) (target : String) (p : Predicate) :
    (p.against style target).toList
      = (p.lexemes (Lexeme.ofName target)).flatMap (Lexeme.text style) :=
  toList_toSql (Lexeme.flatMap_text_ofName style target).symm p

end Text

/-! ### The tokens are the lexemes without the blanks -/

section Tokens

variable (column : List Token)

@[simp] theorem Lexeme.reduceOption_map_some (ts : List Token) : (ts.map some).reduceOption = ts := by
  rw [List.reduceOption, List.filterMap_map]
  simp

theorem Test.reduceOption_lexemes (t : Test) :
    (t.lexemes (column.map some)).reduceOption = t.tokens column := by
  cases t with
  | oneOf texts =>
    simp [Test.lexemes, Test.tokens, Lexeme.ofWords, Lexeme.inParentheses,
      List.reduceOption_append, reduceOption_intercalate, Function.comp_def]
  | notOneOf texts =>
    simp [Test.lexemes, Test.tokens, compared, List.reduceOption_append,
      reduceOption_intercalate, Function.comp_def]
  | _ =>
    simp [Test.lexemes, Test.tokens, compared, Lexeme.ofWords, Lexeme.inParentheses,
      List.reduceOption_append]

theorem Predicate.reduceOption_lexemes (p : Predicate) :
    (p.lexemes (column.map some)).reduceOption = p.tokens column := by
  induction p using Predicate.induction with
  | test t => rw [Predicate.lexemes, Predicate.tokens, Test.reduceOption_lexemes]
  | group connective children ih =>
    have hs : (lexemesOfAll (column.map some) children).map List.reduceOption
        = tokensOfAll column children := by
      rw [lexemesOfAll_eq_map, tokensOfAll_eq_map, List.map_map]
      exact List.map_congr_left ih
    simp [Predicate.lexemes, Predicate.tokens, Lexeme.enclosed, Connective.lexemes,
      List.reduceOption_append, reduceOption_intercalate, hs]

end Tokens

/-! ### The lexemes stand apart -/

namespace Lexeme

/-- Proper lexemes that stand apart. -/
def Readable (ls : List Lexeme) : Prop := (∀ l ∈ ls, l.IsProper) ∧ ls.IsChain Apart

variable {l m : Lexeme} {ls ms : List Lexeme}

theorem isProper_of_kind_eq_mark (hm : m.kind = .mark) : m.IsProper := by
  rcases m with _ | t
  · trivial
  · cases t <;> trivial

@[simp] theorem readable_nil : Readable [] := by
  simp [Readable]

@[simp] theorem readable_singleton : Readable [l] ↔ l.IsProper := by
  simp [Readable]

/-- A blank or a token of fixed characters parts what stands around it. -/
theorem readable_append_mark (hm : m.kind = .mark) (ls ms : List Lexeme) :
    Readable (ls ++ m :: ms) ↔ Readable ls ∧ Readable ms := by
  have hright : ∀ x ∈ ms.head?, Apart m x := fun _ _ => Or.inl hm
  have hleft : ∀ x ∈ ls.getLast?, ∀ y ∈ (m :: ms).head?, Apart x y := by
    intro x _ y hy
    rw [← Option.some.inj hy, Apart, hm]
    exact em _
  have hproper := isProper_of_kind_eq_mark hm
  rw [Readable, Readable, Readable, List.isChain_append, List.isChain_cons,
    List.forall_mem_append, List.forall_mem_cons]
  tauto

theorem readable_mark_cons (hm : m.kind = .mark) : Readable (m :: ms) ↔ Readable ms :=
  (readable_append_mark hm [] ms).trans (by simp)

theorem readable_cons_mark (hm : m.kind = .mark) :
    Readable (l :: m :: ms) ↔ l.IsProper ∧ Readable ms :=
  (readable_append_mark hm [l] ms).trans (by simp)

@[simp] theorem readable_append_blank :
    Readable (ls ++ none :: ms) ↔ Readable ls ∧ Readable ms :=
  readable_append_mark rfl ls ms

@[simp] theorem readable_blank_cons : Readable (none :: ms) ↔ Readable ms :=
  readable_mark_cons rfl

@[simp] theorem readable_cons_blank : Readable (l :: none :: ms) ↔ l.IsProper ∧ Readable ms :=
  readable_cons_mark rfl

@[simp] theorem readable_opening_cons : Readable (some .opening :: ms) ↔ Readable ms :=
  readable_mark_cons rfl

@[simp] theorem readable_append_closing :
    Readable (ls ++ some .closing :: ms) ↔ Readable ls ∧ Readable ms :=
  readable_append_mark rfl ls ms

@[simp] theorem readable_cons_closing :
    Readable (l :: some .closing :: ms) ↔ l.IsProper ∧ Readable ms :=
  readable_cons_mark rfl

theorem readable_intercalate {sep : List Lexeme} {parts : List (List Lexeme)}
    (hsep : ∀ as bs, Readable as → Readable bs → Readable (as ++ sep ++ bs))
    (hparts : ∀ part ∈ parts, Readable part) : Readable (sep.intercalate parts) :=
  intercalate_of_forall readable_nil hsep hparts

theorem readable_ofName (name : String) : Readable (Lexeme.ofName name) := by
  rw [Lexeme.ofName, Token.ofName, List.map_eq_flatMap, flatMap_intercalate]
  refine readable_intercalate (fun as bs has hbs => ?_) ?_
  · rw [List.append_assoc]
    exact (readable_append_mark rfl as bs).2 ⟨has, hbs⟩
  · simp [IsProper, Token.IsProper]

end Lexeme

open Lexeme

theorem Comparison.isProper_sign (comparison : Comparison) :
    Lexeme.IsProper (some (.sign comparison.sign)) := by
  cases comparison <;> exact ⟨by decide, List.all_eq_true.1 (by decide)⟩

theorem Connective.isProper_keyword (connective : Connective) :
    Lexeme.IsProper (some (.word connective.keyword)) := by
  cases connective <;> exact ⟨by decide, List.all_eq_true.1 (by decide)⟩

theorem Test.readable_lexemes {column : List Lexeme} (hc : Readable column) (t : Test) :
    Readable (t.lexemes column) := by
  have hsign : ∀ c ∈ ['=', '<', '>', '!'], Token.isSignChar c = true :=
    List.all_eq_true.1 (by decide)
  cases t with
  | compare comparison text =>
    simpa [Test.lexemes, compared, hc, Lexeme.IsProper, Token.IsProper] using comparison.isProper_sign
  | oneOf texts =>
    have hcomma : Readable ([some .comma].intercalate
        (texts.map fun text => [some (.literal text)])) := by
      refine readable_intercalate (fun as bs has hbs => ?_) ?_
      · rw [List.append_assoc]
        exact (readable_append_mark rfl as bs).2 ⟨has, hbs⟩
      · simp [Lexeme.IsProper, Token.IsProper]
    simp [Test.lexemes, Lexeme.ofWords, Lexeme.inParentheses, hc, hcomma, Lexeme.IsProper, Token.IsProper]
  | notOneOf texts =>
    refine readable_intercalate (fun as bs has hbs => ?_) ?_
    · simp [has, hbs, Lexeme.IsProper, Token.IsProper]
    · simp [compared, hc, Lexeme.IsProper, Token.IsProper, hsign]
  | _ =>
    simp [Test.lexemes, compared, Lexeme.ofWords, Lexeme.inParentheses, hc, Lexeme.IsProper,
      Token.IsProper, hsign]

theorem Predicate.readable_lexemes {column : List Lexeme} (hc : Readable column) (p : Predicate) :
    Readable (p.lexemes column) := by
  induction p using Predicate.induction with
  | test t =>
    rw [Predicate.lexemes]
    exact t.readable_lexemes hc
  | group connective children ih =>
    have hbody : Readable (connective.lexemes.intercalate (lexemesOfAll column children)) := by
      refine readable_intercalate (fun as bs has hbs => ?_) ?_
      · simpa [Connective.lexemes, has, hbs] using connective.isProper_keyword
      · simpa [lexemesOfAll_eq_map] using ih
    simp [Predicate.lexemes, Lexeme.enclosed, hbody, Lexeme.IsProper, Token.IsProper]

/-! ### Cutting the text of a predicate -/

namespace Predicate

variable {style : Style}

/-- The text of a predicate is cut into its lexemes. -/
theorem lexes_against (he : style.escaping = .doubled) (target : String) (p : Predicate) :
    Lexes style.dialect (p.against style target).toList (p.lexemes (Lexeme.ofName target)) := by
  rw [against, toList_toSql (Lexeme.flatMap_text_ofName style target).symm]
  obtain ⟨hproper, hchain⟩ := p.readable_lexemes (readable_ofName target)
  exact lexes_texts he hproper hchain

/-- The text of a predicate has the tokens of the predicate. -/
theorem scan_against (he : style.escaping = .doubled) (target : String) (p : Predicate) :
    Token.scan style.dialect (p.against style target) = some (p.tokens (Token.ofName target)) := by
  rw [(p.lexes_against he target).scan, Lexeme.ofName, reduceOption_lexemes]

end Predicate

/-- The text of a filter that compiles has the tokens of the outline, each literal and each part of
the target one token with just its own characters. -/
theorem Filter.scan_toSql {options : Options} (he : options.escaping = .doubled) {f : Filter}
    {target sql : String} (h : f.toSql options target = .ok sql) :
    Token.scan options.dialect sql = some (f.rootOutline.tokens (Token.ofName target)) := by
  obtain ⟨rfl, -⟩ := Filter.toSql_eq_ok h
  exact Predicate.scan_against he target _

/-- A backslash before the closing quote, quotes in texts and in the target, a comment in a text. -/
theorem Filter.scan_toSql_quotes :
    Token.scan .mysql
        " ( `p`.`t``` = 'it''s\\\\' AND  ( `p`.`t``` LIKE '%4.5'' --' OR `p`.`t``` IS NULL )  ) "
      = some [.opening, .name "p", .point, .name "t`", .sign "=", .literal "it's\\", .word "AND",
          .opening, .name "p", .point, .name "t`", .word "LIKE", .literal "%4.5' --", .word "OR",
          .name "p", .point, .name "t`", .word "IS", .word "NULL", .closing, .closing] :=
  @Filter.scan_toSql {} rfl
    (.group .and [.rule ⟨"a", .string, .equal, .single (.text "it's\\")⟩,
      .group .or [.rule ⟨"b", .double, .endsWith, .list [.text "4,5' --"]⟩,
        .rule ⟨"c", .string, .isNull, .absent⟩]]) "p.t`" _ rfl

end FilterSql
