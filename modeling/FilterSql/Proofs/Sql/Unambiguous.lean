import FilterSql.Proofs.Sql.Layout

/-!
# Texts of predicates are unambiguous

The text of a group with one child does not show its connective.  `Predicate.skeleton` forgets just
that: it makes every such group an AND.

Two proper predicates have one text only if they have one column and one skeleton.  The lexemes of a
predicate are a code in which no predicate goes on where another could end
(`Predicate.lexemes_inj`): what follows a predicate is a blank and then no double bar
(`Lexeme.Follows`), a name or a parenthesis starts a test and a blank starts a group.  The blanks
matter here, since the tokens alone do not tell a range from two groups.
-/

namespace FilterSql

/-! ### Skeletons -/

/-- The connective of a group, forgotten where there is one child. -/
def Connective.shown (connective : Connective) : List Predicate → Connective
  | [_] => .and
  | _ => connective

namespace Predicate

mutual
/-- The predicate without the connectives that its text does not show. -/
def skeleton : Predicate → Predicate
  | .test t => .test t
  | .group connective children => .group (connective.shown children) (skeletons children)

/-- The skeletons of several predicates. -/
def skeletons : List Predicate → List Predicate
  | [] => []
  | p :: ps => p.skeleton :: skeletons ps
end

theorem skeletons_eq_map (ps : List Predicate) : skeletons ps = ps.map skeleton := by
  induction ps with
  | nil => rfl
  | cons p ps ih => rw [skeletons, ih, List.map_cons]

end Predicate

open Lexeme

/-! ### Columns and what follows a predicate -/

/-- The lexemes start with a name and have no blank. -/
def Lexeme.IsColumn (column : List Lexeme) : Prop :=
  none ∉ column ∧ ∃ part rest, column = some (.name part) :: rest

/-- The lexemes start with one blank and then neither a blank nor double bars. -/
def Lexeme.Follows (rest : List Lexeme) : Prop :=
  ∃ t rest', rest = none :: some t :: rest' ∧ t ≠ .bars

theorem Lexeme.isColumn_ofName (name : String) : IsColumn (Lexeme.ofName name) := by
  obtain ⟨part, ts, hn⟩ := Token.exists_ofName_eq_cons name
  exact ⟨by simp [Lexeme.ofName], part, ts.map some, by rw [Lexeme.ofName, hn, List.map_cons]⟩

theorem Lexeme.follows_lexemes (connective : Connective) (rest : List Lexeme) :
    Follows (connective.lexemes ++ rest) :=
  ⟨_, _, rfl, by simp⟩

theorem Lexeme.follows_closing (rest : List Lexeme) :
    Follows ([none, some .closing, none] ++ rest) :=
  ⟨_, _, rfl, by simp⟩

/-! ### Tests -/

namespace Test

/-- What stands in front of the first column of a test. -/
def front : Test → List Lexeme
  | .isEmpty | .isNotEmpty | .between _ _ | .notBetween _ _ => [some .opening]
  | _ => []

/-- A column, a sign and a literal behind double bars. -/
def clause (column : List Lexeme) (text : String) : List Lexeme :=
  [none, some .bars, none] ++ compared column "!=" text

/-- What stands behind the first column of a test and a blank. -/
def behind (column : List Lexeme) : Test → List Lexeme
  | .compare comparison text => [some (.sign comparison.sign), none, some (.literal text)]
  | .oneOf texts =>
    some (.word "IN") :: none :: some .opening ::
      [some .comma].intercalate (texts.map fun text => [some (.literal text)]) ++ [some .closing]
  | .notOneOf texts =>
    some (.sign "!=") :: none :: some (.literal (texts.headD "")) ::
      texts.tail.flatMap (clause column)
  | .like pattern => [some (.word "LIKE"), none, some (.literal pattern)]
  | .notLike pattern =>
    [some (.word "NOT"), none, some (.word "LIKE"), none, some (.literal pattern)]
  | .isEmpty =>
    [some (.sign "="), none, some (.literal ""), some .closing] ++ Lexeme.ofWords ["OR"] ++
      none :: Lexeme.inParentheses (column ++ Lexeme.ofWords ["IS", "NULL"])
  | .isNotEmpty =>
    [some (.sign "<>"), none, some (.literal ""), some .closing] ++ Lexeme.ofWords ["AND"] ++
      none :: Lexeme.inParentheses (column ++ Lexeme.ofWords ["IS", "NOT", "NULL"])
  | .isNull => [some (.word "IS"), none, some (.word "NULL")]
  | .isNotNull => [some (.word "IS"), none, some (.word "NOT"), none, some (.word "NULL")]
  | .between low high =>
    [some (.sign ">"), none, some (.literal low), some .closing] ++ Lexeme.ofWords ["AND"] ++
      none :: Lexeme.inParentheses (compared column "<" high)
  | .notBetween low high =>
    [some (.sign "<"), none, some (.literal low), some .closing] ++ Lexeme.ofWords ["AND"] ++
      none :: Lexeme.inParentheses (compared column ">" high)

theorem lexemes_eq_front_append {t : Test} (ht : t.IsProper) (column : List Lexeme) :
    t.lexemes column = t.front ++ (column ++ none :: t.behind column) := by
  cases t with
  | notOneOf texts =>
    obtain ⟨text, texts, rfl⟩ := List.exists_cons_of_ne_nil ht
    rw [lexemes, List.map_cons, intercalate_cons_eq_append_flatMap, List.flatMap_map]
    have hclause : clause column = fun a => [none, some .bars, none] ++ compared column "!=" a := rfl
    simp [front, behind, compared, hclause]
  | _ => simp [lexemes, front, behind, compared, Lexeme.ofWords, Lexeme.inParentheses]

/-! Lists of texts are told apart by what stands behind them. -/

theorem literals_inj {texts texts' : List String} (hne : texts ≠ []) (hne' : texts' ≠ [])
    {rest rest' : List Lexeme}
    (h : [some .comma].intercalate (texts.map fun text => [some (.literal text)]) ++
        some .closing :: rest =
      [some .comma].intercalate (texts'.map fun text => [some (.literal text)]) ++
        some .closing :: rest') : texts = texts' ∧ rest = rest' := by
  obtain ⟨text, texts, rfl⟩ := List.exists_cons_of_ne_nil hne
  obtain ⟨text', texts', rfl⟩ := List.exists_cons_of_ne_nil hne'
  rw [List.map_cons, List.map_cons, intercalate_cons_eq_append_flatMap,
    intercalate_cons_eq_append_flatMap, List.flatMap_map, List.flatMap_map, List.append_assoc,
    List.append_assoc, List.singleton_append, List.singleton_append, List.cons.injEq] at h
  obtain ⟨htext, h⟩ := h
  obtain ⟨hmap, hr⟩ := separated_inj (G := fun _ => True) (k := id) (fun _ => trivial)
    trivial trivial (by simp) (by simp) (by simp) h
  simp_all

theorem clauses_inj {column rest rest' : List Lexeme} (hr : Follows rest) (hr' : Follows rest')
    {texts texts' : List String}
    (h : texts.flatMap (clause column) ++ rest = texts'.flatMap (clause column) ++ rest') :
    texts = texts' ∧ rest = rest' := by
  have hend : ∀ {r : List Lexeme}, Follows r → ∀ s, r ≠ [none, some .bars, none] ++ s := by
    rintro r ⟨t, r', rfl, ht⟩ s hs
    simp only [List.cons_append, List.cons.injEq, Option.some.injEq] at hs
    exact ht hs.2.1
  obtain ⟨hmap, hrest⟩ := separated_inj (G := fun _ => True) (k := id) (fun _ => trivial)
    trivial trivial (hend hr) (hend hr') (by simp [compared]) h
  exact ⟨by simpa using hmap, hrest⟩

end Test

theorem Comparison.sign_injective {c c' : Comparison} (h : c.sign = c'.sign) : c = c' := by
  cases c <;> cases c' <;> first | rfl | exact absurd h (by decide)

theorem Comparison.sign_ne (c : Comparison) : c.sign ≠ "!=" := by
  cases c <;> decide

namespace Test

variable {column column' rest rest' : List Lexeme} {t u : Test}

theorem behind_inj (ht : t.IsProper) (hu : u.IsProper) (hr : Follows rest) (hr' : Follows rest')
    (hf : t.front = u.front) (h : t.behind column ++ rest = u.behind column ++ rest') :
    t = u ∧ rest = rest' := by
  cases t <;> cases u <;> simp only [front, List.cons_ne_nil, reduceCtorEq] at hf <;>
    simp [behind, compared, Lexeme.ofWords, Lexeme.inParentheses, Comparison.sign_ne] at h ⊢
  case compare.compare => exact ⟨⟨Comparison.sign_injective h.1, h.2.1⟩, h.2.2⟩
  case oneOf.oneOf => exact literals_inj ht hu h
  case notOneOf.compare => exact Comparison.sign_ne _ h.1.symm
  case notOneOf.notOneOf texts texts' =>
    obtain ⟨text, texts, rfl⟩ := List.exists_cons_of_ne_nil ht
    obtain ⟨text', texts', rfl⟩ := List.exists_cons_of_ne_nil hu
    obtain ⟨htexts, hrest⟩ := clauses_inj hr hr' h.2
    simp_all
  case between.between | notBetween.notBetween => exact ⟨⟨h.1, h.2.1⟩, h.2.2⟩
  all_goals exact h

theorem front_eq (t : Test) : t.front = [] ∨ t.front = [some .opening] := by
  cases t <;> simp [front]

/-- A test starts with a name or a parenthesis, and the column in front ends at the first blank. -/
theorem front_append_inj (hc : IsColumn column) (hc' : IsColumn column')
    (h : t.front ++ (column ++ none :: rest) = u.front ++ (column' ++ none :: rest')) :
    t.front = u.front ∧ column = column' ∧ rest = rest' := by
  obtain ⟨hblank, part, parts, rfl⟩ := hc
  obtain ⟨hblank', part', parts', rfl⟩ := hc'
  have hfront : t.front = u.front := by
    rcases t.front_eq with ht | ht <;> rcases u.front_eq with hu | hu <;> simp [ht, hu] at h ⊢
  rw [hfront, List.append_cancel_left_eq] at h
  exact ⟨hfront, append_cons_inj_of_not_mem hblank hblank' h⟩

/-- No test goes on where another could end. -/
theorem lexemes_inj (ht : t.IsProper) (hu : u.IsProper) (hc : IsColumn column)
    (hc' : IsColumn column') (hr : Follows rest) (hr' : Follows rest')
    (h : t.lexemes column ++ rest = u.lexemes column' ++ rest') :
    t = u ∧ column = column' ∧ rest = rest' := by
  rw [lexemes_eq_front_append ht, lexemes_eq_front_append hu] at h
  obtain ⟨hf, rfl, hb⟩ := front_append_inj hc hc' (by simpa using h)
  obtain ⟨rfl, hrest⟩ := behind_inj ht hu hr hr' hf hb
  exact ⟨rfl, rfl, hrest⟩

end Test

/-! ### Predicates -/

/-- Whether the connective shows depends on the number of children only. -/
theorem Connective.shown_congr (c : Connective) {ps qs : List Predicate}
    (h : ps.length = qs.length) : c.shown ps = c.shown qs := by
  rcases ps with _ | ⟨p, _ | ⟨p', ps⟩⟩ <;> rcases qs with _ | ⟨q, _ | ⟨q', qs⟩⟩ <;>
    first | rfl | simp at h

theorem Test.exists_lexemes_eq_cons {column : List Lexeme} (hc : IsColumn column) {t : Test}
    (ht : t.IsProper) : ∃ token ls, t.lexemes column = some token :: ls := by
  obtain ⟨-, part, parts, rfl⟩ := hc
  rw [lexemes_eq_front_append ht]
  rcases t.front_eq with hf | hf
  · exact ⟨_, _, by rw [hf]; rfl⟩
  · exact ⟨_, _, by rw [hf]; rfl⟩

namespace Predicate

variable {column column' rest rest' : List Lexeme}

/-- The lexemes behind the first child of a group. -/
def siblings (column : List Lexeme) (connective : Connective) (ps : List Predicate) : List Lexeme :=
  ps.flatMap fun p => connective.lexemes ++ p.lexemes column

theorem lexemes_group_cons (column : List Lexeme) (connective : Connective) (p : Predicate)
    (ps : List Predicate) :
    (group connective (p :: ps)).lexemes column
      = [none, some .opening, none]
        ++ (p.lexemes column ++ (siblings column connective ps ++ [none, some .closing, none])) := by
  rw [lexemes, lexemesOfAll, lexemesOfAll_eq_map, intercalate_cons_eq_append_flatMap,
    List.flatMap_map, Lexeme.enclosed, siblings]
  simp

theorem follows_siblings (connective : Connective) (ps : List Predicate) :
    Follows (siblings column connective ps ++ ([none, some .closing, none] ++ rest)) := by
  cases ps with
  | nil => exact follows_closing rest
  | cons p ps =>
    rw [siblings, List.flatMap_cons, List.append_assoc, List.append_assoc]
    exact follows_lexemes connective _

theorem siblings_inj {connective connective' : Connective} {ps qs : List Predicate}
    (hitem : ∀ p ∈ ps, ∀ q ∈ qs, ∀ s s', Follows s → Follows s' →
      p.lexemes column ++ s = q.lexemes column ++ s' → p.skeleton = q.skeleton ∧ s = s')
    (h : siblings column connective ps ++ ([none, some .closing, none] ++ rest)
      = siblings column connective' qs ++ ([none, some .closing, none] ++ rest')) :
    (ps = [] ∨ connective = connective') ∧ ps.map skeleton = qs.map skeleton ∧ rest = rest' := by
  have hend : ∀ (c : Connective) r s, [none, some .closing, none] ++ r ≠ c.lexemes ++ s := by
    simp [Connective.lexemes]
  have hconnective : (ps = [] ∧ qs = []) ∨ connective = connective' := by
    cases ps <;> cases qs <;> simp [siblings, Connective.lexemes] at h ⊢
    exact Connective.keyword_injective h.1
  rcases hconnective with ⟨rfl, rfl⟩ | rfl
  · simpa [siblings] using h
  · obtain ⟨hmap, hrest⟩ := separated_inj (k := skeleton) (follows_lexemes connective)
      (follows_closing rest) (follows_closing rest') (hend _ _) (hend _ _) hitem h
    exact ⟨.inr rfl, hmap, List.append_cancel_left hrest⟩

/-- No predicate goes on where another could end. -/
theorem lexemes_inj {p q : Predicate} (hp : p.Proper) (hq : q.Proper) (hc : IsColumn column)
    (hc' : IsColumn column') (hr : Follows rest) (hr' : Follows rest')
    (h : p.lexemes column ++ rest = q.lexemes column' ++ rest') :
    p.skeleton = q.skeleton ∧ column = column' ∧ rest = rest' := by
  induction hp generalizing q column' rest rest' with
  | test ht =>
    cases hq with
    | test hu =>
      obtain ⟨rfl, hcolumn, hrest⟩ := Test.lexemes_inj ht hu hc hc' hr hr' h
      exact ⟨rfl, hcolumn, hrest⟩
    | group _ _ =>
      obtain ⟨token, ls, hl⟩ := Test.exists_lexemes_eq_cons hc ht
      simp [lexemes, hl, Lexeme.enclosed] at h
  | @group connective ps hne _ ih =>
    cases hq with
    | test hu =>
      obtain ⟨token, ls, hl⟩ := Test.exists_lexemes_eq_cons hc' hu
      simp [lexemes, hl, Lexeme.enclosed] at h
    | @group connective' qs hne' hqs =>
      obtain ⟨p, ps, rfl⟩ := List.exists_cons_of_ne_nil hne
      obtain ⟨q, qs, rfl⟩ := List.exists_cons_of_ne_nil hne'
      simp only [lexemes_group_cons, List.append_assoc] at h
      have h := List.append_cancel_left h
      -- The first children come first; they also tell that the columns are one.
      obtain ⟨hfirst, rfl, h⟩ := ih p List.mem_cons_self (hqs q List.mem_cons_self) hc'
        (follows_siblings _ _) (follows_siblings _ _) h
      obtain ⟨hconnective, hmap, rfl⟩ := siblings_inj (fun x hx y hy s s' hs hs' hxy => by
        obtain ⟨hskeleton, -, hrest⟩ := ih x (List.mem_cons_of_mem _ hx)
          (hqs y (List.mem_cons_of_mem _ hy)) hc' hs hs' hxy
        exact ⟨hskeleton, hrest⟩) h
      have hlength : (p :: ps).length = (q :: qs).length := by
        simpa using congrArg List.length hmap
      refine ⟨?_, rfl, rfl⟩
      rw [skeleton, skeleton, skeletons, skeletons, skeletons_eq_map, skeletons_eq_map, hfirst,
        hmap]
      rcases hconnective with rfl | rfl
      · obtain rfl : qs = [] := by simpa using hlength.symm
        rfl
      · rw [connective.shown_congr hlength]

end Predicate

/-! ### Texts -/

/-- The part of a name that a lexeme is. -/
def Lexeme.part? : Lexeme → Option String
  | some (.name part) => some part
  | _ => none

theorem Lexeme.filterMap_part_ofName (name : String) :
    (Lexeme.ofName name).filterMap part? = Text.pieces '.' name := by
  rw [List.filterMap_eq_flatMap_toList, Lexeme.ofName, Token.ofName, List.flatMap_map,
    flatMap_intercalate]
  simp [part?, Function.comp_def, nil_intercalate, ← List.flatMap_def]

theorem Lexeme.ofName_injective {s t : String} (h : Lexeme.ofName s = Lexeme.ofName t) : s = t := by
  have hpieces : Text.pieces '.' s = Text.pieces '.' t := by
    rw [← filterMap_part_ofName s, h, filterMap_part_ofName]
  rw [← Text.joined_pieces '.' s, hpieces, Text.joined_pieces]

namespace Predicate

variable {style : Style}

theorem toSql_skeleton (style : Style) (column : String) (p : Predicate) :
    p.skeleton.toSql style column = p.toSql style column := by
  induction p using Predicate.induction with
  | test t => rw [skeleton]
  | group connective children ih =>
    have hs : (children.map skeleton).map (toSql style column)
        = children.map (toSql style column) := by
      rw [List.map_map]
      exact List.map_congr_left ih
    rw [skeleton, toSql, toSql, skeletons_eq_map, toSqls_eq_map, toSqls_eq_map, hs]
    rcases children with _ | ⟨p, _ | ⟨q, ps⟩⟩
    · rfl
    · rfl
    · rfl

/-- Two proper predicates have one text exactly when column and skeleton are the same. -/
theorem against_eq_iff (he : style.escaping = .doubled) {p q : Predicate} (hp : p.Proper)
    (hq : q.Proper) {s t : String} :
    p.against style s = q.against style t ↔ s = t ∧ p.skeleton = q.skeleton := by
  constructor
  · intro h
    have hl := q.lexes_against he t
    rw [← h] at hl
    have hpq := (p.lexes_against he s).unique hl
    obtain ⟨hskeleton, hname, -⟩ := lexemes_inj hp hq (isColumn_ofName s) (isColumn_ofName t)
      (follows_closing []) (follows_closing []) (congrArg (· ++ _) hpq)
    exact ⟨Lexeme.ofName_injective hname, hskeleton⟩
  · rintro ⟨rfl, h⟩
    rw [against, ← toSql_skeleton, h, toSql_skeleton, against]

end Predicate

/-- Two filters that compile have one text exactly when the targets are the same and so are the
skeletons of the filters. -/
theorem Filter.toSql_inj_iff {style : Style} (he : style.escaping = .doubled)
    {u v : UnknownTypes} {f g : Filter} {s t a b : String}
    (ha : f.toSql ⟨style, u⟩ s = .ok a) (hb : g.toSql ⟨style, v⟩ t = .ok b) :
    a = b ↔ s = t ∧ f.rootOutline.skeleton = g.rootOutline.skeleton := by
  obtain ⟨rfl, hf⟩ := Filter.toSql_eq_ok ha
  obtain ⟨rfl, hg⟩ := Filter.toSql_eq_ok hb
  exact Predicate.against_eq_iff he hf hg

/-- A range and two groups have the same tokens, but not the same text. -/
theorem Filter.exists_scan_eq_of_ne :
    ∃ f g a b, Filter.toSql {} f "t" = .ok a ∧ Filter.toSql {} g "t" = .ok b ∧
      Token.scan .mysql a = Token.scan .mysql b ∧ a ≠ b := by
  have ha : Filter.toSql {} (.rule ⟨"n", .date, .between, .pair (.text "1") (.text "9")⟩) "t"
      = .ok " ( (`t` > '1') AND (`t` < '9') ) " := rfl
  have hb : Filter.toSql {} (.group .and
      [.group .and [.rule ⟨"n", .date, .greater, .single (.text "1")⟩],
        .group .and [.rule ⟨"n", .date, .less, .single (.text "9")⟩]]) "t"
      = .ok " (  ( `t` > '1' )  AND  ( `t` < '9' )  ) " := rfl
  refine ⟨_, _, _, _, ha, hb, by decide +kernel, fun h => ?_⟩
  obtain ⟨-, hskeleton⟩ := (Filter.toSql_inj_iff rfl ha hb).1 h
  simp [rootOutline, outline, outlines, Predicate.skeleton, Predicate.skeletons] at hskeleton

end FilterSql
