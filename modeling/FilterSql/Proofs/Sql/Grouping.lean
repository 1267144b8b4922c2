import FilterSql.Proofs.Sql.Layout
import FilterSql.Proofs.Sql.TestReading
import FilterSql.Sql.Like

/-!
# Grouping

What a filter means is the AND or OR of what its parts mean; what its text means is up to the reader,
who takes AND before OR.  The two can differ, since a test has no parentheses around it: an AND takes
just one half of a test that is a disjunction.  The text never lets less through than the filter
(`Predicate.le_truth_reading`), and the two agree where no such test has a sibling in an AND
(`Predicate.truth_reading`).
-/

namespace FilterSql

/-! ### The order of truth values -/

namespace Truth

/-- The place in the order no, unknown, yes. -/
def rank : Truth → Nat
  | no => 0
  | unknown => 1
  | yes => 2

instance : LE Truth := ⟨fun a b => a.rank ≤ b.rank⟩

theorem le_iff {a b : Truth} : a ≤ b ↔ a.rank ≤ b.rank := Iff.rfl

theorem le_of_eq {a b : Truth} (h : a = b) : a ≤ b := h ▸ Nat.le_refl a.rank

@[simp] theorem rank_and (a b : Truth) : (a.and b).rank = min a.rank b.rank := by
  cases a <;> cases b <;> rfl

@[simp] theorem rank_or (a b : Truth) : (a.or b).rank = max a.rank b.rank := by
  cases a <;> cases b <;> rfl

end Truth

/-- The truth of a group from the truth of its children. -/
def Connective.truth : Connective → List Truth → Truth
  | .and => Truth.all
  | .or => Truth.any

theorem Connective.truth_singleton (c : Connective) (a : Truth) : c.truth [a] = a := by
  cases c
  · exact a.and_yes
  · exact a.or_no

/-! ### What a filter means -/

namespace Predicate

mutual
/-- The truth of a predicate from the truth of its tests. -/
def truth (own : Test → Truth) : Predicate → Truth
  | .test t => own t
  | .group connective children => connective.truth (truths own children)

/-- The truth of each of several predicates. -/
def truths (own : Test → Truth) : List Predicate → List Truth
  | [] => []
  | p :: ps => p.truth own :: truths own ps
end

theorem truths_eq_map (own : Test → Truth) (ps : List Predicate) :
    truths own ps = ps.map (truth own) := by
  induction ps with
  | nil => rfl
  | cons p ps ih => rw [truths, ih, List.map_cons]

end Predicate

/-- The truth of the text of a test, read on its own, when the column has the value. -/
def Test.truthAlone (style : Style) (target : String) (m : Collation) (value : Option String)
    (t : Test) : Truth :=
  match Condition.ofSql? style.dialect (t.toSql style (style.dialect.quoteName target)) with
  | some c => c.truth m value
  | none => .unknown

/-- The truth of a filter: a rule has the truth of its own text. -/
def Filter.truth (style : Style) (target : String) (m : Collation) (value : Option String)
    (f : Filter) : Truth :=
  f.outline.truth (Test.truthAlone style target m value)

/-! ### What a text means -/

/-- What becomes of two readings with the connective between their tokens. -/
def Connective.join : Connective → Disjunction → Disjunction → Disjunction
  | .and => Disjunction.abut
  | .or => Disjunction.append

/-- What becomes of several readings with the connective between their tokens. -/
def Connective.joined (c : Connective) (s : Disjunction) : List Disjunction → Disjunction
  | [] => s
  | t :: ts => c.join s (joined c t ts)

namespace Predicate

mutual
/-- What the text of a predicate is read as.  There is no such text of a group without children. -/
def reading (column : Operand) : Predicate → Disjunction
  | .test t => t.reading column
  | .group connective children =>
    match readings column children with
    | [] => .one (.one (.oneOf column []))
    | s :: ss => .one (.one (connective.joined s ss).toCondition)

/-- The readings of several predicates. -/
def readings (column : Operand) : List Predicate → List Disjunction
  | [] => []
  | p :: ps => p.reading column :: readings column ps
end

theorem readings_eq_map (column : Operand) (ps : List Predicate) :
    readings column ps = ps.map (reading column) := by
  induction ps with
  | nil => rfl
  | cons p ps ih => rw [readings, ih, List.map_cons]

theorem reading_group_cons (column : Operand) (connective : Connective) (p : Predicate)
    (ps : List Predicate) :
    (group connective (p :: ps)).reading column =
      .one (.one (connective.joined (p.reading column) (ps.map (reading column))).toCondition) := by
  rw [reading, readings_eq_map]
  rfl

end Predicate

/-- The text of some test in the predicate has double bars. -/
inductive Predicate.HasBars : Predicate → Prop
  | test {t : Test} (bars : t.HasBars) : HasBars (.test t)
  | group {connective : Connective} {children : List Predicate} {p : Predicate}
      (child : p ∈ children) (bars : HasBars p) : HasBars (.group connective children)

section Reads

variable {d : Dialect}

theorem Disjunction.Reads.join {c : Connective} {s t : Disjunction} {ts us : List Token}
    (hs : s.Reads d ts) (ht : t.Reads d us) :
    (c.join s t).Reads d (ts ++ .word c.keyword :: us) := by
  cases c with
  | and => exact hs.abut ht
  | or => exact hs.append (.inl rfl) ht

theorem Disjunction.Reads.joined {α : Type} {c : Connective} {f : α → List Token}
    {g : α → Disjunction} {x : α} {xs : List α} (h : ∀ y ∈ x :: xs, (g y).Reads d (f y)) :
    (c.joined (g x) (xs.map g)).Reads d
      ([Token.word c.keyword].intercalate ((x :: xs).map f)) := by
  induction xs generalizing x with
  | nil =>
    rw [List.map_singleton, List.intercalate_singleton]
    exact h x List.mem_cons_self
  | cons y ys ih =>
    obtain ⟨hx, hrest⟩ := List.forall_mem_cons.1 h
    have hys := ih hrest
    rw [List.map_cons] at hys
    rw [List.map_cons, List.map_cons, List.intercalate_cons_cons, List.append_assoc,
      List.singleton_append]
    exact hx.join hys

/-- A predicate is read as its reading, double bars being an OR where there are any. -/
theorem Predicate.reads_reading (name : String) {p : Predicate} (hp : p.Proper)
    (hd : p.HasBars → d.barsJoinTexts = false) :
    (p.reading (.column (Text.pieces '.' name))).Reads d (p.tokens (Token.ofName name)) := by
  induction hp with
  | test ht =>
    rw [reading, tokens]
    exact Test.reads_reading name ht fun hbars => hd (.test hbars)
  | @group connective children hne _ ih =>
    have hread := fun q hq => ih q hq fun hbars => hd (.group hq hbars)
    obtain ⟨p, ps, rfl⟩ := List.exists_cons_of_ne_nil hne
    rw [reading_group_cons, tokens, tokensOfAll_eq_map]
    exact .one (.one (Disjunction.Reads.joined hread).enclosed)

end Reads

/-! ### How the two compare -/

section Truth

variable {m : Collation} {value : Option String}

theorem Conjunction.truth_append (p q : Conjunction) :
    (p.append q).toCondition.truth m value
      = (p.toCondition.truth m value).and (q.toCondition.truth m value) := by
  induction p with
  | one c => rfl
  | and c p ih =>
    show (c.truth m value).and ((p.append q).toCondition.truth m value) = _
    rw [ih, ← Truth.and_assoc]
    rfl

namespace Disjunction

theorem truth_append (s t : Disjunction) :
    (s.append t).toCondition.truth m value
      = (s.toCondition.truth m value).or (t.toCondition.truth m value) := by
  induction s with
  | one p => rfl
  | or p s ih =>
    show (p.toCondition.truth m value).or ((s.append t).toCondition.truth m value) = _
    rw [ih, ← Truth.or_assoc]
    rfl

/-- An AND without parentheses around its sides lets at least as much through as one with them. -/
theorem and_le_truth_abut (s t : Disjunction) :
    (s.toCondition.truth m value).and (t.toCondition.truth m value)
      ≤ (s.abut t).toCondition.truth m value := by
  induction s with
  | one p =>
    cases t with
    | one q => exact Truth.le_of_eq (Conjunction.truth_append p q).symm
    | or q t =>
      have happend := congrArg Truth.rank (@Conjunction.truth_append m value p q)
      simp only [abut, toCondition, Condition.truth, Truth.le_iff, Truth.rank_and, Truth.rank_or]
        at happend ⊢
      omega
  | or p s ih =>
    simp only [abut, toCondition, Condition.truth, Truth.le_iff, Truth.rank_and, Truth.rank_or]
      at ih ⊢
    omega

end Disjunction

namespace Connective

/-- The truth of two parts under the connective. -/
def pair : Connective → Truth → Truth → Truth
  | .and => Truth.and
  | .or => Truth.or

theorem truth_cons_cons (c : Connective) (a b : Truth) (as : List Truth) :
    c.truth (a :: b :: as) = c.pair a (c.truth (b :: as)) := by
  cases c <;> rfl

theorem pair_le_pair (c : Connective) {a a' b b' : Truth} (ha : a ≤ a') (hb : b ≤ b') :
    c.pair a b ≤ c.pair a' b' := by
  rw [Truth.le_iff] at ha hb
  cases c <;> simp only [pair, Truth.le_iff, Truth.rank_and, Truth.rank_or] <;> omega

theorem pair_le_truth_join (c : Connective) (s t : Disjunction) :
    c.pair (s.toCondition.truth m value) (t.toCondition.truth m value)
      ≤ (c.join s t).toCondition.truth m value := by
  cases c with
  | and => exact s.and_le_truth_abut t
  | or => exact Truth.le_of_eq (s.truth_append t).symm

variable {α : Type} {f : α → Truth} {g : α → Disjunction} {x : α} {xs : List α}

theorem truth_le_truth_joined (c : Connective)
    (h : ∀ y ∈ x :: xs, f y ≤ (g y).toCondition.truth m value) :
    c.truth ((x :: xs).map f) ≤ (c.joined (g x) (xs.map g)).toCondition.truth m value := by
  induction xs generalizing x with
  | nil =>
    rw [List.map_singleton, truth_singleton]
    exact h x List.mem_cons_self
  | cons y ys ih =>
    obtain ⟨hx, hrest⟩ := List.forall_mem_cons.1 h
    have hys := ih hrest
    rw [List.map_cons] at hys
    rw [List.map_cons, List.map_cons, truth_cons_cons]
    exact Nat.le_trans (pair_le_pair c hx hys) (pair_le_truth_join c _ _)

theorem truth_joined_or (h : ∀ y ∈ x :: xs, f y = (g y).toCondition.truth m value) :
    (joined .or (g x) (xs.map g)).toCondition.truth m value = truth .or ((x :: xs).map f) := by
  induction xs generalizing x with
  | nil =>
    rw [List.map_singleton, truth_singleton]
    exact (h x List.mem_cons_self).symm
  | cons y ys ih =>
    obtain ⟨hx, hrest⟩ := List.forall_mem_cons.1 h
    have hys := ih hrest
    rw [List.map_cons] at hys
    rw [List.map_cons, List.map_cons, List.map_cons, truth_cons_cons, ← hys, hx]
    exact Disjunction.truth_append _ _

/-- Conjunctions stay one conjunction with an AND between them. -/
theorem truth_joined_and (h : ∀ y ∈ x :: xs, f y = (g y).toCondition.truth m value)
    (hone : ∀ y ∈ x :: xs, ∃ p, g y = .one p) :
    ∃ p, joined .and (g x) (xs.map g) = .one p ∧
      p.toCondition.truth m value = truth .and ((x :: xs).map f) := by
  induction xs generalizing x with
  | nil =>
    obtain ⟨p, hp⟩ := hone x List.mem_cons_self
    have hx := h x List.mem_cons_self
    rw [hp] at hx
    exact ⟨p, hp, by rw [List.map_singleton, truth_singleton, hx]; rfl⟩
  | cons y ys ih =>
    obtain ⟨hx, hrest⟩ := List.forall_mem_cons.1 h
    obtain ⟨⟨p, hp⟩, honeRest⟩ := List.forall_mem_cons.1 hone
    obtain ⟨q, hq, hys⟩ := ih hrest honeRest
    refine ⟨p.append q, ?_, ?_⟩
    · show (g x).abut (joined .and (g y) (ys.map g)) = _
      rw [hp, hq]
      rfl
    · rw [List.map_cons] at hys
      rw [List.map_cons, List.map_cons, truth_cons_cons, ← hys, hx, hp]
      exact Conjunction.truth_append p q

end Connective

namespace Predicate

variable {column : Operand} {own : Test → Truth}

/-- The text lets at least as much through as the predicate. -/
theorem le_truth_reading {p : Predicate} (hp : p.Proper)
    (hown : ∀ t : Test, t.IsProper → own t = (t.reading column).toCondition.truth m value) :
    p.truth own ≤ (p.reading column).toCondition.truth m value := by
  induction hp with
  | test ht =>
    rw [truth, reading]
    exact Truth.le_of_eq (hown _ ht)
  | @group connective children hne _ ih =>
    obtain ⟨p, ps, rfl⟩ := List.exists_cons_of_ne_nil hne
    rw [reading_group_cons, truth, truths_eq_map]
    exact connective.truth_le_truth_joined ih

end Predicate

end Truth

/-! ### Where the two agree -/

/-- No test that is a disjunction has a sibling in an AND. -/
inductive Predicate.Separate : Predicate → Prop
  | test (t : Test) : Separate (.test t)
  | group {connective : Connective} {children : List Predicate}
      (separate : ∀ p ∈ children, Separate p)
      (alone : connective = .and → 1 < children.length →
        ∀ t, .test t ∈ children → ¬ t.IsAlternation) :
      Separate (.group connective children)

namespace Predicate

variable {m : Collation} {value : Option String} {column : Operand} {own : Test → Truth}

theorem exists_reading_eq_one {p : Predicate} (h : ∀ t, p = .test t → ¬ t.IsAlternation) :
    ∃ q, p.reading column = .one q := by
  cases p with
  | test t =>
    rw [reading]
    exact Test.exists_reading_eq_one (h t rfl)
  | group connective children =>
    cases children with
    | nil => exact ⟨_, rfl⟩
    | cons p ps => exact ⟨_, reading_group_cons column connective p ps⟩

/-- The text has the truth of the predicate where every disjunction stands apart. -/
theorem truth_reading {p : Predicate} (hp : p.Proper) (hs : p.Separate)
    (hown : ∀ t : Test, t.IsProper → own t = (t.reading column).toCondition.truth m value) :
    (p.reading column).toCondition.truth m value = p.truth own := by
  induction hp with
  | test ht =>
    rw [truth, reading]
    exact (hown _ ht).symm
  | @group connective children hne _ ih =>
    cases hs with
    | group separate alone =>
      obtain ⟨p, ps, rfl⟩ := List.exists_cons_of_ne_nil hne
      have heq : ∀ q ∈ p :: ps, q.truth own = (q.reading column).toCondition.truth m value :=
        fun q hq => (ih q hq (separate q hq)).symm
      rw [reading_group_cons, truth, truths_eq_map]
      show (connective.joined (p.reading column) (ps.map (reading column))).toCondition.truth m
        value = connective.truth ((p :: ps).map (truth own))
      rcases ps with _ | ⟨q, ps⟩
      · rw [List.map_singleton, Connective.truth_singleton]
        exact (heq p List.mem_cons_self).symm
      · cases connective with
        | or => exact Connective.truth_joined_or heq
        | and =>
          obtain ⟨c, hc, htruth⟩ := Connective.truth_joined_and heq fun x hx =>
            exists_reading_eq_one fun t ht => alone rfl (by simp) t (ht ▸ hx)
          rw [hc]
          exact htruth

end Predicate

/-! ### Filters and their texts -/

section Texts

variable {style : Style} {m : Collation} {value : Option String} {target : String}

/-- The text of a predicate is read as the predicate's reading. -/
theorem Predicate.ofSql?_against (he : style.escaping = .doubled) (target : String) {p : Predicate}
    (hp : p.Proper) (hd : p.HasBars → style.dialect.barsJoinTexts = false) :
    Condition.ofSql? style.dialect (p.against style target)
      = some (p.reading (.column (Text.pieces '.' target))).toCondition := by
  rw [Condition.ofSql?, p.scan_against he target, Option.bind_some]
  exact (p.reads_reading target hp hd).ofTokens?

theorem Test.truthAlone_eq_truth_reading (hd : style.dialect.barsJoinTexts = false)
    (he : style.escaping = .doubled) {t : Test} (ht : t.IsProper) :
    t.truthAlone style target m value
      = (t.reading (.column (Text.pieces '.' target))).toCondition.truth m value := by
  have h := Predicate.ofSql?_against he target (.test ht) fun _ => hd
  rw [Predicate.against, Predicate.toSql, Predicate.reading] at h
  rw [Test.truthAlone, h]

namespace Filter

theorem truth_rootOutline (own : Test → Truth) (f : Filter) :
    f.rootOutline.truth own = f.outline.truth own := by
  cases f with
  | rule r => exact Truth.and_yes (own r.outline)
  | group connective children => rfl

theorem separate_rootOutline {f : Filter} (h : f.outline.Separate) : f.rootOutline.Separate := by
  cases f with
  | rule r => exact .group (by simpa [outline] using h) (by simp)
  | group connective children => exact h

/-- The rule in front of a test for an absent column, in an AND. -/
def besideNull (r : Rule) : Filter :=
  .group .and [.rule r, .rule ⟨"", .string, .isNull, .absent⟩]

theorem truth_besideNull (own : Test → Truth) (r : Rule) :
    (besideNull r).outline.truth own = (own r.outline).and ((own .isNull).and .yes) := rfl

theorem reading_besideNull (column : Operand) (r : Rule) :
    ((besideNull r).rootOutline.reading column).toCondition
      = ((r.outline.reading column).abut (Test.isNull.reading column)).toCondition := rfl

theorem toSql_besideNull {unknown : UnknownTypes} {r : Rule} {t : Test}
    (h : r.checkedTest unknown = .ok t) :
    (besideNull r).toSql ⟨style, unknown⟩ target
      = .ok ((besideNull r).rootOutline.against style target) := by
  have hnull : Predicate.ofFilter unknown (.rule ⟨"", .string, .isNull, .absent⟩)
      = .ok (.test .isNull) := by
    cases unknown <;> rfl
  have hp : Predicate.ofFilter unknown (besideNull r)
      = .ok (.group .and [.test t, .test .isNull]) := by
    refine Predicate.ofFilter_group_eq_ok_iff.2 ⟨by simp, _, .cons ?_ (.cons hnull .nil), rfl⟩
    rw [Predicate.ofFilter, h]
    rfl
  have hsql : (besideNull r).toSql ⟨style, unknown⟩ target
      = .ok (Predicate.against style target (.group .and [.test t, .test .isNull])) := by
    show (Predicate.ofFilter unknown (besideNull r)).map _ = _
    rw [hp]
    rfl
  obtain ⟨hroot, -⟩ := toSql_eq_ok hsql
  rw [hsql, hroot]

end Filter

/-- Texts that are compared as they are. -/
def Collation.exact : Collation where
  same a b := a = b
  before a b := a < b
  like text pattern := Like.matches pattern text

/-- The first half of a disjunction without parentheses can hold for a column that is there. -/
theorem Test.exists_first_yes {t : Test} (h : t.IsAlternation) (parts : List String) :
    ∃ c s text, t.reading (.column parts) = .or (.one c) s ∧
      c.truth .exact (some text) = .yes := by
  cases t with
  | isEmpty => exact ⟨_, _, "", rfl, rfl⟩
  | notOneOf texts =>
    rcases texts with _ | ⟨text, _ | ⟨next, texts⟩⟩
    · exact absurd h (Nat.not_succ_le_zero 1)
    · exact absurd h (Nat.not_succ_le_self 1)
    · have hne : text ++ "x" ≠ text := fun he => by
        have hlength := congrArg String.length he
        have hx : "x".length = 1 := rfl
        rw [String.length_append, hx] at hlength
        omega
      refine ⟨_, _, text ++ "x", rfl, ?_⟩
      simp [Condition.truth, Operand.text?, Truth.ofTexts, Collation.compares, Collation.exact, hne,
        Truth.ofBool]
  | _ => exact absurd h id

namespace Filter

/-- The text of a filter lets at least as much through as the filter, and just as much where every
disjunction stands apart. -/
theorem truth_against (hd : style.dialect.barsJoinTexts = false) (he : style.escaping = .doubled)
    {f : Filter} (hp : f.rootOutline.Proper) :
    ∃ c, Condition.ofSql? style.dialect (f.rootOutline.against style target) = some c ∧
      ∀ m value, f.truth style target m value ≤ c.truth m value ∧
        (f.outline.Separate → c.truth m value = f.truth style target m value) := by
  refine ⟨_, Predicate.ofSql?_against he target hp fun _ => hd, fun m value => ?_⟩
  rw [Filter.truth, ← truth_rootOutline]
  have hown := fun t (ht : Test.IsProper t) => @Test.truthAlone_eq_truth_reading style m value
    target hd he t ht
  exact ⟨Predicate.le_truth_reading hp hown,
    fun hs => Predicate.truth_reading hp (separate_rootOutline hs) hown⟩

/-- A rule that is a disjunction is misread in front of another in an AND. -/
theorem exists_truth_ne (hd : style.dialect.barsJoinTexts = false) (he : style.escaping = .doubled)
    {r : Rule} (h : r.outline.IsAlternation) {c : Condition}
    (hp : (besideNull r).rootOutline.Proper)
    (hc : Condition.ofSql? style.dialect ((besideNull r).rootOutline.against style target)
      = some c) :
    ∃ m value, c.truth m value ≠ (besideNull r).truth style target m value := by
  obtain ⟨first, rest, text, hr, hyes⟩ := r.outline.exists_first_yes h (Text.pieces '.' target)
  rw [Predicate.ofSql?_against he target hp fun _ => hd, Option.some.injEq] at hc
  refine ⟨.exact, some text, ?_⟩
  have htext : c.truth .exact (some text) = .yes := by
    rw [← hc, reading_besideNull, hr]
    show (first.truth .exact (some text)).or _ = .yes
    rw [hyes]
    rfl
  have hfilter : (besideNull r).truth style target .exact (some text) = .no := by
    have hnull : Test.isNull.truthAlone style target .exact (some text) = .no :=
      Test.truthAlone_eq_truth_reading hd he trivial
    rw [Filter.truth, truth_besideNull, hnull]
    cases r.outline.truthAlone style target .exact (some text) <;> rfl
  rw [htext, hfilter]
  exact Truth.noConfusion

end Filter

end Texts

/-! ### Main results -/

namespace Filter

/-- The text of a filter has the grouping of the filter, but for rules that are disjunctions and have
a sibling in an AND: a rule keeps its meaning in front of another just when it is no disjunction. -/
theorem truth_toSql (unknown : UnknownTypes) (target : String) :
    (∀ f sql, Filter.toSql ⟨⟨.mysql, .doubled⟩, unknown⟩ f target = .ok sql →
      ∃ c, Condition.ofSql? .mysql sql = some c ∧
        ∀ m value, f.truth ⟨.mysql, .doubled⟩ target m value ≤ c.truth m value ∧
          (f.outline.Separate → c.truth m value = f.truth ⟨.mysql, .doubled⟩ target m value)) ∧
    ∀ r t, Rule.checkedTest unknown r = .ok t →
      ∃ sql c, (besideNull r).toSql ⟨⟨.mysql, .doubled⟩, unknown⟩ target = .ok sql ∧
        Condition.ofSql? .mysql sql = some c ∧
        (t.IsAlternation ↔
          ∃ m value, c.truth m value ≠ (besideNull r).truth ⟨.mysql, .doubled⟩ target m value) := by
  refine ⟨fun f sql h => ?_, fun r t h => ?_⟩
  · obtain ⟨rfl, hp⟩ := toSql_eq_ok h
    exact truth_against rfl rfl hp
  · have hsql := @toSql_besideNull ⟨.mysql, .doubled⟩ target unknown r t h
    obtain ⟨-, hp⟩ := toSql_eq_ok hsql
    obtain ⟨rfl, -⟩ := Rule.eq_outline_of_checkedTest h
    obtain ⟨c, hc, htruth⟩ := @truth_against ⟨.mysql, .doubled⟩ target rfl rfl _ hp
    refine ⟨_, c, hsql, hc, fun ht => exists_truth_ne rfl rfl ht hp hc, ?_⟩
    rintro ⟨m, value, hne⟩
    by_contra ht
    have hseparate : (besideNull r).outline.Separate := by
      refine .group ?_ fun _ _ t hm => ?_
      · simpa [outlines, outline] using ⟨.test _, .test _⟩
      · rcases List.mem_pair.1 hm with h | h
        · obtain rfl := Predicate.test.inj h
          exact ht
        · obtain rfl := Predicate.test.inj h
          exact id
    exact hne ((htruth m value).2 hseparate)

/-- An OR keeps the grouping. -/
theorem truth_toSql_or :
    ∃ c, Condition.ofSql? .mysql " ( `t` = 'a' OR (`t` = '') OR (`t` IS NULL) ) " = some c ∧
      ∀ m value, c.truth m value
        = Filter.truth {} "t" m value (.group .or [.rule ⟨"a", .string, .equal, .single (.text "a")⟩,
            .rule ⟨"b", .string, .isEmpty, .absent⟩]) := by
  obtain ⟨c, hc, htruth⟩ := (truth_toSql .passThrough "t").1
    (.group .or [.rule ⟨"a", .string, .equal, .single (.text "a")⟩,
      .rule ⟨"b", .string, .isEmpty, .absent⟩])
    " ( `t` = 'a' OR (`t` = '') OR (`t` IS NULL) ) " rfl
  refine ⟨c, hc, fun m value => (htruth m value).2 (.group (fun p hp => ?_) (by simp))⟩
  rcases List.mem_pair.1 hp with rfl | rfl
  · exact .test _
  · exact .test _

/-- An AND does not: an absent column is let through that the filter knows nothing of. -/
theorem truth_toSql_and_ne :
    ∃ f c, Filter.toSql {} f "t" = .ok " ( `t` = 'a' AND (`t` = '') OR (`t` IS NULL) ) " ∧
      Condition.ofSql? .mysql " ( `t` = 'a' AND (`t` = '') OR (`t` IS NULL) ) " = some c ∧
      c.truth .exact none = .yes ∧ f.truth {} "t" .exact none = .unknown :=
  ⟨.group .and [.rule ⟨"a", .string, .equal, .single (.text "a")⟩,
      .rule ⟨"b", .string, .isEmpty, .absent⟩],
    .or (.and (.compare (.column ["t"]) .equal (.literal "a"))
      (.compare (.column ["t"]) .equal (.literal ""))) (.isNull (.column ["t"])),
    rfl, by decide +kernel, rfl, by decide +kernel⟩

end Filter

end FilterSql
