import FilterSql.Proofs.Filter.Canonicity
import FilterSql.Proofs.Filter.Similarity

/-!
# Trees show filters

The JSON tree of a filter shows all of it: filters with the same tree are equal, as long as their data
are finite (`Filter.same_toJson_iff`).  Nothing but look-ups in objects is compared, so the order of
members does not matter.  Nodes and kinds of values are told by the names of members, types that are
not known by an object in the place of a name, and kinds of scalars by the kind of the JSON value.
-/

namespace FilterSql

/-! ### The same parts -/

section Same

open Json

theorem Json.Same.eq_of_string {s t : String} (h : Same (.string s) (.string t)) : s = t := by
  cases h
  rfl

theorem Json.Same.forall₂_of_array {xs ys : List Json} (h : Same (.array xs) (.array ys)) :
    List.Forall₂ Same xs ys := by
  cases h with
  | refl => exact List.forall₂_same.2 fun x _ => .refl x
  | array items => exact items

variable {a b : Json}

@[simp] theorem sameMember_some_iff : SameMember (some a) (some b) ↔ a.Same b :=
  ⟨fun h => by cases h; assumption, .some⟩

@[simp] theorem not_sameMember_none_some : ¬ SameMember none (some b) := nofun

@[simp] theorem not_sameMember_some_none : ¬ SameMember (some a) none := nofun

/-- Items with the same trees are equal when each tree stands for one item. -/
theorem eq_of_forall₂_same {α : Type} {tree : α → Json} {xs ys : List α}
    (hinj : ∀ x ∈ xs, ∀ y ∈ ys, (tree x).Same (tree y) → x = y)
    (h : List.Forall₂ Same (xs.map tree) (ys.map tree)) : xs = ys := by
  rw [List.forall₂_map_left_iff, List.forall₂_map_right_iff] at h
  induction h with
  | nil => rfl
  | cons hxy _ ih =>
    have hhead := hinj _ List.mem_cons_self _ List.mem_cons_self hxy
    have htail := ih fun x hx y hy =>
      hinj x (List.mem_cons_of_mem _ hx) y (List.mem_cons_of_mem _ hy)
    rw [hhead, htail]

end Same

/-! ### Parts of rules -/

theorem Scalar.eq_of_same_toJson {x y : Scalar} (hx : x.IsFinite) (hy : y.IsFinite)
    (h : x.toJson.Same y.toJson) : x = y := by
  have hread := h.scalar
  rw [ofJson_toJson hx, ofJson_toJson hy] at hread
  exact Except.ok.inj hread

theorem Scalar.eq_of_same_array {xs ys : List Scalar} (hxs : ∀ x ∈ xs, x.IsFinite)
    (hys : ∀ y ∈ ys, y.IsFinite)
    (h : (Json.array (xs.map toJson)).Same (.array (ys.map toJson))) : xs = ys :=
  eq_of_forall₂_same (fun x hx y hy => eq_of_same_toJson (hxs x hx) (hys y hy)) h.forall₂_of_array

/-- The scalars of the value are finite. -/
def Value.IsFinite (v : Value) : Prop := ∀ x ∈ v.scalars, x.IsFinite

/-- The kind of a value is told by the name of a member, an absent value by having none. -/
theorem Value.eq_of_same_toJson {v w : Value} (hv : v.IsFinite) (hw : w.IsFinite)
    (h : v.toJson.Same w.toJson) : v = w := by
  have hsingle := h.member? "scalar"
  have hlist := h.member? "list"
  have hpair := h.member? "pair"
  cases v <;> cases w <;>
    simp [toJson, Json.member?, Json.Members.get?] at hsingle hlist hpair
  case absent.absent => rfl
  case single.single x y =>
    have hx : x.IsFinite := hv x List.mem_cons_self
    have hy : y.IsFinite := hw y List.mem_cons_self
    rw [Scalar.eq_of_same_toJson hx hy hsingle]
  case list.list xs ys =>
    obtain rfl : xs = ys := Scalar.eq_of_same_array hv hw hlist
    rfl
  case pair.pair low high low' high' =>
    obtain ⟨rfl, rfl⟩ : low = low' ∧ high = high' := by
      simpa using @Scalar.eq_of_same_array [low, high] [low', high'] hv hw hpair
    rfl

theorem FieldType.toJson_of_isKnown {t : FieldType} (h : t.isKnown = true) :
    t.toJson = .string t.name := by
  cases t with
  | other name => exact absurd h (by simp [isKnown])
  | _ => rfl

/-- A type that is not known is told by being an object, whatever its name is. -/
theorem FieldType.eq_of_same_toJson {t u : FieldType} (h : t.toJson.Same u.toJson) : t = u := by
  have hother := h.member? "other"
  cases ht : t.isKnown <;> cases hu : u.isKnown
  case false.false =>
    obtain ⟨name, rfl⟩ := isKnown_eq_false_iff.1 ht
    obtain ⟨name', rfl⟩ := isKnown_eq_false_iff.1 hu
    rw [(sameMember_some_iff.1 hother).eq_of_string]
  case false.true =>
    obtain ⟨name, rfl⟩ := isKnown_eq_false_iff.1 ht
    rw [toJson_of_isKnown hu] at hother
    exact absurd hother not_sameMember_some_none
  case true.false =>
    obtain ⟨name, rfl⟩ := isKnown_eq_false_iff.1 hu
    rw [toJson_of_isKnown ht] at hother
    exact absurd hother not_sameMember_none_some
  case true.true =>
    rw [toJson_of_isKnown ht, toJson_of_isKnown hu] at h
    rw [← ofName_name_of_isKnown ht, h.eq_of_string, ofName_name_of_isKnown hu]

theorem Rule.eq_of_same_toJson {r s : Rule} (hr : r.value.IsFinite) (hs : s.value.IsFinite)
    (h : r.toJson.Same s.toJson) : r = s := by
  have hfield := (sameMember_some_iff.1 (h.member? "field")).eq_of_string
  have hoperator := (sameMember_some_iff.1 (h.member? "operator")).eq_of_string
  have htype := FieldType.eq_of_same_toJson (sameMember_some_iff.1 (h.member? "type_tag"))
  have hvalue := Value.eq_of_same_toJson hr hs (sameMember_some_iff.1 (h.member? "value"))
  cases r
  cases s
  cases Operator.tag_injective hoperator
  cases hfield
  cases htype
  cases hvalue
  rfl

/-! ### Main result -/

namespace Filter

/-- All data in the values of the rules are finite. -/
def IsFinite (f : Filter) : Prop := ∀ r ∈ f.rules, r.value.IsFinite

theorem isFinite_rule_iff {r : Rule} : IsFinite (.rule r) ↔ r.value.IsFinite := by
  simp [IsFinite, rules]

theorem isFinite_group_iff {connective : Connective} {children : List Filter} :
    IsFinite (.group connective children) ↔ ∀ f ∈ children, f.IsFinite :=
  forall_mem_rules_group_iff

theorem eq_of_same_toJson {f g : Filter} (hf : f.IsFinite) (hg : g.IsFinite)
    (h : f.toJson.Same g.toJson) : f = g := by
  induction f using Filter.induction generalizing g with
  | rule r =>
    have hrule := h.member? "rule"
    cases g with
    | rule s =>
      rw [isFinite_rule_iff] at hf hg
      rw [Rule.eq_of_same_toJson hf hg (sameMember_some_iff.1 hrule)]
    | group connective children => exact absurd hrule not_sameMember_some_none
  | group connective children ih =>
    have hgroup := h.member? "group"
    cases g with
    | rule s => exact absurd hgroup not_sameMember_some_none
    | group connective' children' =>
      rw [isFinite_group_iff] at hf hg
      have hbody := sameMember_some_iff.1 hgroup
      have hkeyword := (sameMember_some_iff.1 (hbody.member? "condition")).eq_of_string
      have hitems := (sameMember_some_iff.1 (hbody.member? "children")).forall₂_of_array
      rw [toJsons_eq_map, toJsons_eq_map] at hitems
      have hchildren := eq_of_forall₂_same
        (fun f hmem g hmem' => ih f hmem (hf f hmem) (hg g hmem')) hitems
      rw [Connective.keyword_injective hkeyword, hchildren]

/-- Filters with finite data are equal when their trees are, whatever the order of members. -/
theorem same_toJson_iff {f g : Filter} (hf : f.IsFinite) (hg : g.IsFinite) :
    f.toJson.Same g.toJson ↔ f = g := by
  refine ⟨eq_of_same_toJson hf hg, ?_⟩
  rintro rfl
  exact .refl _

/-- Data that are not finite have one tree in common. -/
example : (Scalar.float ⟨0x7FF0000000000000⟩).toJson = (Scalar.float ⟨0x7FF8000000000000⟩).toJson :=
  rfl

/-- A known type is not another one of the same name, a single datum is not a list of one whole
number, and the two are told apart below a group. -/
theorem not_same_toJson_double :
    ∃ f g, f = group .or [.group .and [], .rule ⟨"a", .double, .oneOf,
        .single (.float ⟨0x4045000000000000⟩)⟩] ∧
      g = group .or [.group .and [], .rule ⟨"a", .other "double", .oneOf,
        .list [.integer 42]⟩] ∧
      f.IsFinite ∧ g.IsFinite ∧ ¬ f.toJson.Same g.toJson := by
  have hdatum : Binary64.isFinite ⟨0x4045000000000000⟩ = true := by decide
  have hf : IsFinite (.group .or [.group .and [], .rule ⟨"a", .double, .oneOf,
      .single (.float ⟨0x4045000000000000⟩)⟩]) := by
    simp [isFinite_group_iff, isFinite_rule_iff, Value.IsFinite, Value.scalars, Scalar.IsFinite,
      hdatum]
  have hg : IsFinite (.group .or [.group .and [], .rule ⟨"a", .other "double", .oneOf,
      .list [.integer 42]⟩]) := by
    simp [isFinite_group_iff, isFinite_rule_iff, Value.IsFinite, Value.scalars, Scalar.IsFinite]
  exact ⟨_, _, rfl, rfl, hf, hg, (same_toJson_iff hf hg).not.2 (by simp)⟩

end Filter

end FilterSql
