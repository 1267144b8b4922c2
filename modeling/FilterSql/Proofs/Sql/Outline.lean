import FilterSql.Filter.Canonical
import FilterSql.Proofs.Lists
import FilterSql.Proofs.Sql.FirstFault

/-!
# Outlines

The outline of a filter is the predicate that it stands for, made node by node and without any
check.  A filter that compiles has the text of its outline (`Filter.toSql_eq_ok`), and its outline is
proper: every group has a child and every list of texts a member (`Predicate.Proper`).
-/

namespace FilterSql

/-! ### Outlines of rules and filters -/

namespace Rule

/-- The texts of the scalars of the value, from left to right. -/
def texts (r : Rule) : List String := r.value.scalars.map (Scalar.literalText r.type)

/-- The first text of the value. -/
def firstText (r : Rule) : String := r.texts.headD ""

/-- The second text of the value. -/
def secondText (r : Rule) : String := r.texts.getD 1 ""

/-- The test that a rule stands for, its value being taken to fit the operator. -/
def outline (r : Rule) : Test :=
  match r.operator with
  | .equal => .compare .equal r.firstText
  | .notEqual => .compare .notEqual r.firstText
  | .oneOf => .oneOf r.texts
  | .notOneOf => .notOneOf r.texts
  | .beginsWith => .like (r.firstText ++ "%")
  | .notBeginsWith => .notLike (r.firstText ++ "%")
  | .contains => .like ("%" ++ r.firstText ++ "%")
  | .notContains => .notLike ("%" ++ r.firstText ++ "%")
  | .endsWith => .like ("%" ++ r.firstText)
  | .notEndsWith => .notLike ("%" ++ r.firstText)
  | .isEmpty => .isEmpty
  | .isNotEmpty => .isNotEmpty
  | .isNull => .isNull
  | .isNotNull => .isNotNull
  | .less => .compare .less r.firstText
  | .lessOrEqual => .compare .lessOrEqual r.firstText
  | .greater => .compare .greater r.firstText
  | .greaterOrEqual => .compare .greaterOrEqual r.firstText
  | .between => .between r.firstText r.secondText
  | .notBetween => .notBetween r.firstText r.secondText

end Rule

namespace Filter

mutual
/-- The predicate that a part of a filter stands for. -/
def outline : Filter → Predicate
  | .rule r => .test r.outline
  | .group connective children => .group connective (outlines children)

/-- The outlines of several filters. -/
def outlines : List Filter → List Predicate
  | [] => []
  | f :: fs => f.outline :: outlines fs
end

theorem outlines_eq_map (fs : List Filter) : outlines fs = fs.map outline := by
  induction fs with
  | nil => rfl
  | cons f fs ih => rw [outlines, ih, List.map_cons]

/-- The predicate that a whole filter stands for: a lone rule is a group with one child. -/
def rootOutline : Filter → Predicate
  | .rule r => .group .and [.test r.outline]
  | f => f.outline

end Filter

/-! ### Proper predicates -/

/-- A list of texts that the test goes through has a member. -/
def Test.IsProper : Test → Prop
  | .oneOf texts => texts ≠ []
  | .notOneOf texts => texts ≠ []
  | _ => True

/-- Every group has a child and every test is proper. -/
inductive Predicate.Proper : Predicate → Prop
  | test {t : Test} (proper : t.IsProper) : Proper (.test t)
  | group {connective : Connective} {children : List Predicate} (nonempty : children ≠ [])
      (proper : ∀ p ∈ children, Proper p) : Proper (.group connective children)

/-! ### What the checks of a rule let through -/

theorem Value.scalars_of_single? {v : Value} {x : Scalar} (h : v.single? = some x) :
    v.scalars = [x] := by
  unfold Value.single? at h
  split at h <;> simp_all [Value.scalars]

theorem Value.scalars_of_list? {v : Value} {xs : List Scalar} (h : v.list? = some xs) :
    v.scalars = xs := by
  unfold Value.list? at h
  split at h <;> simp_all [Value.scalars]

theorem Value.scalars_of_pair? {v : Value} {low high : Scalar} (h : v.pair? = some (low, high)) :
    v.scalars = [low, high] := by
  unfold Value.pair? at h
  split at h <;> simp_all [Value.scalars]

namespace Rule

variable {r : Rule}

theorem singleText_eq_firstText {s : String} (h : r.singleText = .ok s) : r.firstText = s := by
  unfold singleText at h
  split at h
  · rename_i x hx
    simpa [firstText, texts, Value.scalars_of_single? hx] using h
  · exact absurd h (by simp)

theorem listTexts_eq_texts {ts : List String} (h : r.listTexts = .ok ts) :
    r.texts = ts ∧ ts ≠ [] := by
  unfold listTexts at h
  split at h
  · rename_i xs hx
    have hne := Value.ne_nil_of_list? hx
    obtain rfl := Except.ok.inj h
    exact ⟨by rw [texts, Value.scalars_of_list? hx], by simpa using hne⟩
  · exact absurd h (by simp)

theorem pairTexts_eq_texts {low high : String} (h : r.pairTexts = .ok (low, high)) :
    r.firstText = low ∧ r.secondText = high := by
  unfold pairTexts at h
  split at h
  · rename_i x y hxy
    simpa [firstText, secondText, texts, Value.scalars_of_pair? hxy] using h
  · exact absurd h (by simp)

theorem texts_of_suits_single (h : r.value.Suits .single) : r.texts = [r.firstText] := by
  obtain ⟨x, hx | hx⟩ := h <;> simp [texts, firstText, Value.scalars, hx]

theorem texts_of_suits_pair (h : r.value.Suits .pair) : r.texts = [r.firstText, r.secondText] := by
  obtain ⟨low, high, hv | hv⟩ := h <;> simp [texts, firstText, secondText, Value.scalars, hv]

end Rule

/-- A rule is only accepted as its outline. -/
theorem Rule.eq_outline_of_test {r : Rule} {t : Test} (h : r.test = .ok t) :
    t = r.outline ∧ t.IsProper := by
  unfold Rule.test at h
  unfold Rule.outline
  cases ho : r.operator <;> simp only [ho, Except.map_eq_ok_iff, Except.ok.injEq] at h ⊢
  case isEmpty | isNotEmpty | isNull | isNotNull => exact ⟨h.symm, h ▸ trivial⟩
  case oneOf | notOneOf =>
    obtain ⟨ts, hts, rfl⟩ := h
    obtain ⟨rfl, hne⟩ := Rule.listTexts_eq_texts hts
    exact ⟨rfl, hne⟩
  case between | notBetween =>
    obtain ⟨⟨low, high⟩, hp, rfl⟩ := h
    obtain ⟨rfl, rfl⟩ := Rule.pairTexts_eq_texts hp
    exact ⟨rfl, trivial⟩
  all_goals
    obtain ⟨s, hs, rfl⟩ := h
    obtain rfl := Rule.singleText_eq_firstText hs
    exact ⟨rfl, trivial⟩

theorem Rule.eq_outline_of_checkedTest {unknown : UnknownTypes} {r : Rule} {t : Test}
    (h : r.checkedTest unknown = .ok t) : t = r.outline ∧ t.IsProper := by
  unfold Rule.checkedTest at h
  split at h
  · exact absurd h (by simp)
  · exact Rule.eq_outline_of_test h

/-! ### What compiling lets through -/

namespace Predicate

variable {unknown : UnknownTypes}

theorem ofFilter_group_eq_ok_iff {connective : Connective} {children : List Filter}
    {p : Predicate} :
    ofFilter unknown (.group connective children) = .ok p ↔
      children ≠ [] ∧ ∃ ps, List.Forall₂ (fun f q => ofFilter unknown f = .ok q) children ps ∧
        .group connective ps = p := by
  rw [ofFilter]
  split
  · rename_i he
    simp [List.isEmpty_iff.1 he]
  · rename_i he
    rw [Except.map_eq_ok_iff]
    simp only [located_eq_ok_iff, ofFilters_eq_eachAt, eachAt_eq_ok_iff_forall₂, ne_eq,
      List.isEmpty_iff.not.1 he, not_false_eq_true, true_and]

/-- A part of a filter is only accepted as its outline. -/
theorem eq_outline_of_ofFilter (f : Filter) :
    ∀ p, ofFilter unknown f = .ok p → p = f.outline ∧ p.Proper := by
  induction f using Filter.induction with
  | rule r =>
    intro p h
    rw [ofFilter, Except.map_eq_ok_iff] at h
    obtain ⟨t, ht, rfl⟩ := h
    obtain ⟨rfl, hp⟩ := Rule.eq_outline_of_checkedTest ht
    exact ⟨by rw [Filter.outline], .test hp⟩
  | group connective children ih =>
    intro p h
    obtain ⟨hne, ps, hps, rfl⟩ := ofFilter_group_eq_ok_iff.1 h
    obtain ⟨rfl, hp⟩ := eq_map_of_forall₂ hps ih
    exact ⟨by rw [Filter.outline, Filter.outlines_eq_map], .group (by simpa using hne) hp⟩

/-- A whole filter is only accepted as its outline. -/
theorem eq_rootOutline_of_ofRoot {f : Filter} {p : Predicate} (h : ofRoot unknown f = .ok p) :
    p = f.rootOutline ∧ p.Proper := by
  cases f with
  | rule r =>
    obtain ⟨t, ht, rfl⟩ := Except.map_eq_ok_iff.1 h
    obtain ⟨rfl, hp⟩ := Rule.eq_outline_of_checkedTest ht
    exact ⟨rfl, .group (by simp) (by simpa using .test hp)⟩
  | group connective children => exact eq_outline_of_ofFilter _ p h

end Predicate

/-- The text of a filter is the text of its outline. -/
theorem Filter.toSql_eq_ok {options : Options} {f : Filter} {target sql : String}
    (h : f.toSql options target = .ok sql) :
    sql = f.rootOutline.against options.toStyle target ∧ f.rootOutline.Proper := by
  obtain ⟨p, hp, rfl⟩ := Except.map_eq_ok_iff.1 h
  obtain ⟨rfl, hproper⟩ := Predicate.eq_rootOutline_of_ofRoot hp
  exact ⟨rfl, hproper⟩

end FilterSql
