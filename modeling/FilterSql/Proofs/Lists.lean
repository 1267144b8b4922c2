import Mathlib.Data.List.Forall2
import Mathlib.Data.List.ReduceOption

/-!
# Facts about lists

Where a list splits into two (`append_cons_inj_of_not_mem`, `takeWhile_append_of_head`), and what
becomes of parts with a separator between them (`intercalate_of_forall`, `flatMap_intercalate`,
`separated_inj`).
-/

namespace FilterSql

/-! ### Splitting -/

/-- Lists that end at the first place of an element. -/
theorem append_cons_inj_of_not_mem {α : Type} {a : α} {xs ys rest rest' : List α} (hx : a ∉ xs)
    (hy : a ∉ ys) (h : xs ++ a :: rest = ys ++ a :: rest') : xs = ys ∧ rest = rest' := by
  induction xs generalizing ys with
  | nil =>
    cases ys with
    | nil => exact ⟨rfl, (List.cons.inj h).2⟩
    | cons y ys => exact absurd List.mem_cons_self ((List.cons.inj h).1 ▸ hy)
  | cons x xs ih =>
    cases ys with
    | nil => exact absurd List.mem_cons_self ((List.cons.inj h).1 ▸ hx)
    | cons y ys =>
      rw [List.cons_append, List.cons_append, List.cons.injEq] at h
      obtain ⟨rfl, h⟩ := h
      obtain ⟨rfl, hr⟩ := ih (fun hm => hx (List.mem_cons_of_mem _ hm))
        (fun hm => hy (List.mem_cons_of_mem _ hm)) h
      exact ⟨rfl, hr⟩

theorem takeWhile_append_of_head {p : Char → Bool} {word rest : List Char}
    (hw : ∀ c ∈ word, p c = true) (hr : ∀ c ∈ rest.head?, p c = false) :
    (word ++ rest).takeWhile p = word ∧ (word ++ rest).dropWhile p = rest := by
  rw [List.takeWhile_append_of_pos hw, List.dropWhile_append_of_pos hw]
  cases rest with
  | nil => simp
  | cons c rest =>
    have hc : p c = false := hr c rfl
    simp [hc]

/-- A member with a property has a first one before it, or is the first itself. -/
theorem exists_first_of_mem {α : Type} {P : α → Prop} {xs : List α} {x : α} (hx : x ∈ xs)
    (h : P x) : ∃ before y after, xs = before ++ y :: after ∧ P y ∧ ∀ z ∈ before, ¬ P z := by
  classical
  have hsome : (xs.find? fun z => decide (P z)).isSome :=
    List.find?_isSome.2 ⟨x, hx, decide_eq_true h⟩
  obtain ⟨y, hy⟩ := Option.isSome_iff_exists.1 hsome
  obtain ⟨hp, before, after, hxs, hbefore⟩ := List.find?_eq_some_iff_append.1 hy
  exact ⟨before, y, after, hxs, of_decide_eq_true hp, fun z hz => by simpa using hbefore z hz⟩

/-- Outcomes that are images of their items, and have a property, item by item. -/
theorem eq_map_of_forall₂ {α β : Type} {R : α → β → Prop} {g : α → β} {P : β → Prop}
    {xs : List α} {ys : List β} (h : List.Forall₂ R xs ys)
    (hg : ∀ x ∈ xs, ∀ y, R x y → y = g x ∧ P y) : ys = xs.map g ∧ ∀ y ∈ ys, P y := by
  induction h with
  | nil => simp
  | cons hxy _ ih =>
    obtain ⟨rfl, hp⟩ := hg _ List.mem_cons_self _ hxy
    obtain ⟨rfl, hps⟩ := ih fun x hx => hg x (List.mem_cons_of_mem _ hx)
    exact ⟨rfl, List.forall_mem_cons.2 ⟨hp, hps⟩⟩

/-- Images are equal when they are item by item. -/
theorem map_eq_map_iff_forall₂ {α β γ : Type} {f : α → γ} {g : β → γ} {xs : List α} {ys : List β} :
    xs.map f = ys.map g ↔ List.Forall₂ (fun x y => f x = g y) xs ys := by
  rw [← List.forall₂_eq_eq_eq, List.forall₂_map_left_iff, List.forall₂_map_right_iff]

/-- What is related to a member of a list stands at the same index. -/
theorem exists_getElem?_of_forall₂ {α β : Type} {R : α → β → Prop} {xs : List α} {ys : List β}
    (h : List.Forall₂ R xs ys) {i : Nat} {y : β} (hy : ys[i]? = some y) :
    ∃ x, xs[i]? = some x ∧ R x y := by
  obtain ⟨hlt, rfl⟩ := List.getElem?_eq_some_iff.1 hy
  have hlt' : i < xs.length := h.length_eq ▸ hlt
  exact ⟨xs[i], List.getElem?_eq_getElem hlt', h.get hlt' hlt⟩

/-! ### Separators -/

theorem intercalate_cons_eq_append_flatMap {α : Type} (sep part : List α) (parts : List (List α)) :
    sep.intercalate (part :: parts) = part ++ parts.flatMap (sep ++ ·) := by
  induction parts generalizing part with
  | nil => simp
  | cons next parts ih =>
    rw [List.intercalate_cons_cons, ih, List.flatMap_cons]
    simp

theorem intercalate_cons_append_cons {α : Type} (sep part next : List α)
    (parts rest : List (List α)) :
    sep.intercalate (part :: parts ++ next :: rest)
      = sep.intercalate (part :: parts) ++ (sep ++ (next ++ rest.flatMap (sep ++ ·))) := by
  rw [List.cons_append, intercalate_cons_eq_append_flatMap, intercalate_cons_eq_append_flatMap]
  simp

/-- What holds of all parts holds of the parts with separators between them. -/
theorem intercalate_of_forall {α : Type} {P : List α → Prop} {sep : List α} {parts : List (List α)}
    (hnil : P []) (hsep : ∀ xs ys, P xs → P ys → P (xs ++ sep ++ ys))
    (hparts : ∀ part ∈ parts, P part) : P (sep.intercalate parts) := by
  induction parts with
  | nil => exact hnil
  | cons part parts ih =>
    obtain ⟨hpart, hrest⟩ := List.forall_mem_cons.1 hparts
    cases parts with
    | nil => simpa using hpart
    | cons next parts =>
      rw [List.intercalate_cons_cons]
      exact hsep _ _ hpart (ih hrest)

/-- What is in a part is in the whole. -/
theorem mem_intercalate_of_mem {α : Type} {sep part : List α} {parts : List (List α)} {a : α}
    (hpart : part ∈ parts) (ha : a ∈ part) : a ∈ sep.intercalate parts := by
  cases parts with
  | nil => exact absurd hpart List.not_mem_nil
  | cons first parts =>
    rw [intercalate_cons_eq_append_flatMap, List.mem_append, List.mem_flatMap]
    rcases List.mem_cons.1 hpart with rfl | hpart
    · exact .inl ha
    · exact .inr ⟨part, hpart, List.mem_append_right _ ha⟩

theorem nil_intercalate {α : Type} (parts : List (List α)) :
    [].intercalate parts = parts.flatten := by
  cases parts with
  | nil => rfl
  | cons part parts => rw [intercalate_cons_eq_append_flatMap, List.flatten_cons]; simp [List.flatMap]

theorem flatMap_intercalate {α β : Type} (f : α → List β) (sep : List α) (parts : List (List α)) :
    (sep.intercalate parts).flatMap f
      = (sep.flatMap f).intercalate (parts.map fun part => part.flatMap f) := by
  induction parts with
  | nil => rfl
  | cons part parts ih =>
    cases parts with
    | nil => simp
    | cons next parts =>
      rw [List.intercalate_cons_cons, List.map_cons, List.map_cons, List.intercalate_cons_cons,
        ← List.map_cons, ← ih, List.flatMap_append, List.flatMap_append]

/-- Separators that add nothing do not matter. -/
theorem flatMap_intercalate_of_eq_nil {α β : Type} {f : α → List β} {sep : List α}
    (h : sep.flatMap f = []) (parts : List (List α)) :
    (sep.intercalate parts).flatMap f = parts.flatMap fun part => part.flatMap f := by
  rw [flatMap_intercalate, h, nil_intercalate]
  rfl

theorem reduceOption_intercalate {α : Type} (sep : List (Option α)) (parts : List (List (Option α))) :
    (sep.intercalate parts).reduceOption
      = sep.reduceOption.intercalate (parts.map List.reduceOption) := by
  have hf : (List.reduceOption : List (Option α) → List α) = fun part => part.flatMap Option.toList :=
    funext fun part => by rw [List.reduceOption, List.filterMap_eq_flatMap_toList]; rfl
  rw [hf]
  exact flatMap_intercalate Option.toList sep parts

/-- Items behind separators are told apart when the items are and what follows is no separator. -/
theorem separated_inj {α β γ : Type} {G : List γ → Prop} {sep : List γ} {f : α → List γ}
    {k : α → β} {xs ys : List α} {rest rest' : List γ}
    (hsep : ∀ s, G (sep ++ s)) (hrest : G rest) (hrest' : G rest')
    (hend : ∀ s, rest ≠ sep ++ s) (hend' : ∀ s, rest' ≠ sep ++ s)
    (hitem : ∀ x ∈ xs, ∀ y ∈ ys, ∀ s s', G s → G s' → f x ++ s = f y ++ s' →
      k x = k y ∧ s = s')
    (h : xs.flatMap (fun x => sep ++ f x) ++ rest = ys.flatMap (fun y => sep ++ f y) ++ rest') :
    xs.map k = ys.map k ∧ rest = rest' := by
  have hgood : ∀ zs : List α, ∀ r, G r → G (zs.flatMap (fun z => sep ++ f z) ++ r) := by
    intro zs r hr
    cases zs with
    | nil => exact hr
    | cons z zs => simpa using hsep _
  induction xs generalizing ys with
  | nil =>
    cases ys with
    | nil => exact ⟨rfl, h⟩
    | cons y ys => exact absurd (by simpa using h) (hend _)
  | cons x xs ih =>
    cases ys with
    | nil => exact absurd (by simpa using h.symm) (hend' _)
    | cons y ys =>
      simp only [List.flatMap_cons, List.append_assoc, List.append_cancel_left_eq] at h
      obtain ⟨hxy, hs⟩ := hitem x List.mem_cons_self y List.mem_cons_self _ _
        (hgood xs rest hrest) (hgood ys rest' hrest') h
      obtain ⟨hmap, hr⟩ := ih (fun a ha b hb => hitem a (List.mem_cons_of_mem _ ha) b
        (List.mem_cons_of_mem _ hb)) hs
      exact ⟨by rw [List.map_cons, List.map_cons, hxy, hmap], hr⟩

end FilterSql
