import Mathlib.Data.Set.List
import FilterSql.Proofs.Sql.ClauseRun
import FilterSql.Proofs.Sql.Grouping
import FilterSql.Proofs.Sql.Nesting

/-!
# Conjuncts

A compiled filter is a `Fragment`: a group between parentheses of its own, about one column.  Joined
by AND, fragments keep their tokens (`Fragment.scan_joined`) and their meanings
(`Fragment.ofSql?_joined`), because an AND joins what stands right beside it and each fragment is
one condition.  So a clause that was filled with filters only means the conjunction of them
(`WhereClause.ofSql?_text_run`).
-/

namespace FilterSql

/-- The text stands between blanks and parentheses, and with the last token, not before, all
parentheses are closed. -/
structure Dialect.IsConjunct (d : Dialect) (sql : String) : Prop where
  framed : ∃ text, sql = " (" ++ text ++ ") "
  matched : ∃ body, Token.scan d sql = some (.opening :: body ++ [.closing]) ∧ Token.Balanced body
  nested : ∃ tokens before, Token.scan d sql = some tokens ∧
    Token.depths 0 tokens = before ++ [0] ∧ ∀ n ∈ before, 0 < n

/-- One condition or more with AND between them. -/
def Condition.all : Condition → List Condition → Condition
  | c, [] => c
  | c, next :: rest => .and c (all next rest)

/-- Conditions that each bind tighter than AND are read as their conjunction. -/
theorem Connective.exists_joined_and (c : Condition) (cs : List Condition) :
    ∃ p, Connective.and.joined (.one (.one c)) (cs.map fun c => .one (.one c)) = .one p ∧
      p.toCondition = .all c cs := by
  induction cs generalizing c with
  | nil => exact ⟨.one c, rfl, rfl⟩
  | cons next cs ih =>
    obtain ⟨p, hp, hc⟩ := ih next
    refine ⟨.and c p, ?_, by rw [Conjunction.toCondition, hc, Condition.all]⟩
    rw [List.map_cons, joined, hp]
    rfl

/-! ### Fragments -/

/-- A group and the name of the column that it is about. -/
structure Fragment where
  target : String
  connective : Connective
  children : List Predicate
  proper : (Predicate.group connective children).Proper

namespace Fragment

def predicate (x : Fragment) : Predicate := .group x.connective x.children

def text (style : Style) (x : Fragment) : String := x.predicate.against style x.target

def lexemes (x : Fragment) : List Lexeme := x.predicate.lexemes (Lexeme.ofName x.target)

def tokens (x : Fragment) : List Token := x.predicate.tokens (Token.ofName x.target)

/-- What the text of the fragment means by itself. -/
def condition (x : Fragment) : Condition :=
  (x.predicate.reading (.column (Text.pieces '.' x.target))).toCondition

variable {style : Style} (x : Fragment) (xs : List Fragment)

/-- What a filter is compiled to is the text of a fragment. -/
theorem exists_text_eq {options : Options} {f : Filter} {target sql : String}
    (h : f.toSql options target = .ok sql) : ∃ x : Fragment, x.text options.toStyle = sql := by
  obtain ⟨rfl, hproper⟩ := Filter.toSql_eq_ok h
  cases f with
  | rule r => exact ⟨⟨target, _, _, hproper⟩, rfl⟩
  | group connective children =>
    exact ⟨⟨target, connective, Filter.outlines children, hproper⟩, rfl⟩

theorem scan_text (he : style.escaping = .doubled) :
    Token.scan style.dialect (x.text style) = some x.tokens :=
  Predicate.scan_against he x.target x.predicate

theorem ofSql?_text (hd : style.dialect.barsJoinTexts = false) (he : style.escaping = .doubled) :
    Condition.ofSql? style.dialect (x.text style) = some x.condition :=
  Predicate.ofSql?_against he x.target x.proper fun _ => hd

/-- A fragment is closed in itself. -/
theorem isConjunct (he : style.escaping = .doubled) : style.dialect.IsConjunct (x.text style) := by
  have hscan := x.scan_text he
  have hbody : Token.Balanced ([.word x.connective.keyword].intercalate
      (x.children.map (Predicate.tokens (Token.ofName x.target)))) :=
    (Token.balanced_of_step_eq_zero (by simp [Token.step])).intercalate_map fun p _ =>
      p.balanced_tokens (Token.nested_ofName x.target)
  rw [tokens, predicate, Predicate.tokens, Predicate.tokensOfAll_eq_map] at hscan
  obtain ⟨before, hdepths, hbefore⟩ := hbody.depths_enclosed
  refine ⟨?_, ⟨_, hscan, hbody⟩, ⟨_, before, hscan, hdepths, hbefore⟩⟩
  refine ⟨" " ++ Text.joined x.connective.separator (Predicate.toSqls style
    (style.dialect.quoteName x.target) x.children) ++ " ", ?_⟩
  rw [text, predicate, Predicate.against, Predicate.toSql, enclosed]
  simp [← String.toList_inj]

/-! ### Fragments joined by AND -/

theorem lexes_joined (he : style.escaping = .doubled) :
    Lexes style.dialect (Text.joined " AND " (xs.map (text style))).toList
      (Connective.and.lexemes.intercalate (xs.map lexemes)) := by
  have htext : (Text.joined " AND " (xs.map (text style))).toList
      = (Connective.and.lexemes.intercalate (xs.map lexemes)).flatMap (Lexeme.text style) := by
    have hseparator : " AND ".toList = Connective.and.lexemes.flatMap (Lexeme.text style) := rfl
    have hx : ∀ x : Fragment, (x.text style).toList = x.lexemes.flatMap (Lexeme.text style) :=
      fun x => Predicate.toList_against style x.target x.predicate
    rw [Text.toList_joined, flatMap_intercalate, ← hseparator, List.map_map, List.map_map]
    simp only [Function.comp_def, hx]
  have hreadable : Lexeme.Readable (Connective.and.lexemes.intercalate (xs.map lexemes)) := by
    refine Lexeme.readable_intercalate (fun as bs has hbs => ?_)
      (List.forall_mem_map.2 fun x _ => x.predicate.readable_lexemes (Lexeme.readable_ofName _))
    simpa [Connective.lexemes, has, hbs] using Connective.and.isProper_keyword
  rw [htext]
  exact Lexeme.lexes_texts he hreadable.1 hreadable.2

/-- Nothing of one fragment gets into another. -/
theorem scan_joined (he : style.escaping = .doubled) :
    Token.scan style.dialect (Text.joined " AND " (xs.map (text style)))
      = some ([.word "AND"].intercalate (xs.map tokens)) := by
  have htokens : ∀ x : Fragment, x.lexemes.reduceOption = x.tokens :=
    fun x => x.predicate.reduceOption_lexemes (Token.ofName x.target)
  have hseparator : Connective.and.lexemes.reduceOption = [.word "AND"] := rfl
  rw [(lexes_joined xs he).scan, reduceOption_intercalate, hseparator, List.map_map]
  simp only [Function.comp_def, htokens]

/-- A fragment is one condition that binds tighter than AND. -/
theorem reading_predicate :
    x.predicate.reading (.column (Text.pieces '.' x.target)) = .one (.one x.condition) := by
  rw [condition, predicate, Predicate.reading]
  split <;> rfl

/-- Fragments joined by AND mean the conjunction of what they mean. -/
theorem ofSql?_joined (hd : style.dialect.barsJoinTexts = false)
    (he : style.escaping = .doubled) :
    Condition.ofSql? style.dialect (Text.joined " AND " ((x :: xs).map (text style)))
      = some (.all x.condition (xs.map condition)) := by
  -- An AND takes no disjunction apart, since every fragment is a single condition.
  have hreads : ∀ y ∈ x :: xs, (Disjunction.one (.one y.condition)).Reads style.dialect y.tokens := by
    intro y _
    rw [← reading_predicate]
    exact Predicate.reads_reading y.target y.proper fun _ => hd
  obtain ⟨p, hp, hall⟩ := Connective.exists_joined_and x.condition (xs.map condition)
  have hjoined := (Disjunction.Reads.joined (c := .and) hreads).ofTokens?
  rw [List.map_map] at hp
  rw [Condition.ofSql?, scan_joined (x :: xs) he, Option.bind_some, ← hall]
  exact hjoined.trans (congrArg (fun s => some s.toCondition) hp)

end Fragment

/-! ### Clauses of filters -/

namespace WhereClause

/-- The change asks for a filter that is compiled in the style. -/
def Change.IsFilter (style : Style) (c : Change) : Prop :=
  ∃ payload target unknown, c = .filter payload target ⟨style, unknown⟩

/-- What a filter adds is the text of a fragment. -/
theorem Change.IsFilter.exists_text_eq {style : Style} {c : Change} (h : c.IsFilter style)
    {sql : String} (hc : c.condition? = some sql) : ∃ x : Fragment, x.text style = sql := by
  obtain ⟨payload, target, unknown, rfl⟩ := h
  obtain ⟨s, -, hs⟩ := Option.bind_eq_some_iff.1 hc
  obtain ⟨f, -, hf⟩ := exists_ofText?_of_compileText (Except.eq_ok_of_toOption_join hs)
  exact Fragment.exists_text_eq hf

/-- A clause that was filled with filters only consists of fragments. -/
theorem exists_conditions_eq {style : Style} {changes : List Change}
    (h : ∀ c ∈ changes, c.IsFilter style) :
    ∃ xs : List Fragment, (run {} changes).conditions = xs.map (Fragment.text style) := by
  have hmem : (run {} changes).conditions ∈ Set.range (List.map (Fragment.text style)) := by
    rw [Set.range_list_map, conditions_run]
    intro sql hsql
    obtain ⟨c, hc, hcondition⟩ := List.mem_filterMap.1 hsql
    exact Change.IsFilter.exists_text_eq (h c hc) hcondition
  obtain ⟨xs, hxs⟩ := hmem
  exact ⟨xs, hxs.symm⟩

/-! ### Main result -/

/-- What a filter is compiled to is closed in itself.  So a clause that was filled with filters only
has the tokens of its conditions with AND between them, and is read as the conjunction of what the
conditions mean by themselves, in order. -/
theorem ofSql?_text_run :
    (∀ (options : Options) (f : Filter) (target sql : String), options.escaping = .doubled →
      f.toSql options target = .ok sql → options.dialect.IsConjunct sql) ∧
    ∀ changes : List Change, (∀ c ∈ changes, c.IsFilter ⟨.mysql, .doubled⟩) →
      (run {} changes).conditions ≠ [] →
      ∃ tokens : List (List Token), ∃ c cs,
        List.Forall₂ (fun sql ts => Dialect.IsConjunct .mysql sql ∧ Token.scan .mysql sql = some ts)
          (run {} changes).conditions tokens ∧
        List.Forall₂ (fun sql c => Condition.ofSql? .mysql sql = some c)
          (run {} changes).conditions (c :: cs) ∧
        Token.scan .mysql (run {} changes).text = some ([.word "AND"].intercalate tokens) ∧
        Condition.ofSql? .mysql (run {} changes).text = some (.all c cs) := by
  refine ⟨fun options f target sql he h => ?_, fun changes hchanges hne => ?_⟩
  · obtain ⟨x, rfl⟩ := Fragment.exists_text_eq h
    exact x.isConjunct he
  · have he : (⟨.mysql, .doubled⟩ : Style).escaping = .doubled := rfl
    obtain ⟨xs, hxs⟩ := exists_conditions_eq hchanges
    rw [text, hxs]
    rw [hxs, ne_eq, List.map_eq_nil_iff] at hne
    obtain ⟨x, xs, rfl⟩ := List.exists_cons_of_ne_nil hne
    refine ⟨(x :: xs).map Fragment.tokens, x.condition, xs.map Fragment.condition, ?_, ?_,
      Fragment.scan_joined (x :: xs) he, Fragment.ofSql?_joined x xs rfl he⟩
    · simp only [List.forall₂_map_left_iff, List.forall₂_map_right_iff, List.forall₂_same]
      exact fun y _ => ⟨y.isConjunct he, y.scan_text he⟩
    · rw [← List.map_cons, List.forall₂_map_left_iff, List.forall₂_map_right_iff, List.forall₂_same]
      exact fun y _ => y.ofSql?_text rfl he

/-- A disjunction beside another filter, with a payload in between that adds nothing. -/
theorem ofSql?_text_run_isEmpty :
    ∃ changes, (run {} changes).conditions
        = [" ( (`t` = '') OR (`t` IS NULL) ) ", " ( `u` IS NULL ) "] ∧
      Dialect.IsConjunct .mysql " ( (`t` = '') OR (`t` IS NULL) ) " ∧
      ∃ c c', Condition.ofSql? .mysql " ( (`t` = '') OR (`t` IS NULL) ) " = some c ∧
        Condition.ofSql? .mysql " ( `u` IS NULL ) " = some c' ∧
        Condition.ofSql? .mysql (run {} changes).text = some (.and c c') := by
  obtain ⟨first, hfirst⟩ :
      ∃ s, compileText {} s "t" = .ok (some " ( (`t` = '') OR (`t` IS NULL) ) ") := by
    have hdecode : Json.ofText? "\x7b\"id\":\"a\",\"operator\":\"is_empty\"\x7d"
        = some (.object [("id", .string "a"), ("operator", .string "is_empty")]) := rfl
    refine ⟨_, (compileText_of_ofText? rfl hdecode).trans ?_⟩
    rw [compileJson, Filter.ofJson_of_rule rfl]
    rfl
  obtain ⟨second, hsecond⟩ : ∃ s, compileText {} s "u" = .ok (some " ( `u` IS NULL ) ") := by
    have hdecode : Json.ofText? "\x7b\"id\":\"b\",\"operator\":\"is_null\"\x7d"
        = some (.object [("id", .string "b"), ("operator", .string "is_null")]) := rfl
    refine ⟨_, (compileText_of_ofText? rfl hdecode).trans ?_⟩
    rw [compileJson, Filter.ofJson_of_rule rfl]
    rfl
  have hconditions : (run {} [.filter (some first) "t" {}, .filter none "t" {},
      .filter (some second) "u" {}]).conditions
        = [" ( (`t` = '') OR (`t` IS NULL) ) ", " ( `u` IS NULL ) "] := by
    rw [conditions_run]
    simp [List.filterMap_cons, Change.condition?, hfirst, hsecond, Except.toOption]
  obtain ⟨hconjunct, hclause⟩ := ofSql?_text_run
  obtain ⟨tokens, c, cs, -, hmeanings, -, htext⟩ := hclause
    [.filter (some first) "t" {}, .filter none "t" {}, .filter (some second) "u" {}]
    (by simp [Change.IsFilter]) (by rw [hconditions]; simp)
  rw [hconditions] at hmeanings
  obtain ⟨hc, hrest⟩ := List.forall₂_cons.1 hmeanings
  obtain ⟨c', rfl⟩ := List.length_eq_one_iff.1 hrest.length_eq.symm
  exact ⟨_, hconditions, hconjunct {} (.rule ⟨"a", .string, .isEmpty, .absent⟩) "t" _ rfl rfl,
    c, c', hc, (List.forall₂_cons.1 hrest).1, htext⟩

end WhereClause

end FilterSql
