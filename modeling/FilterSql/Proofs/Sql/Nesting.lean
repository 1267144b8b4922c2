import FilterSql.Proofs.Sql.Layout

/-!
# Nesting

`Token.Balanced` tokens close no parenthesis that they have not opened, and leave none open; between
parentheses of their own the nesting ends with the last token only (`Token.Balanced.depths_enclosed`).
`Token.Nested n` tokens are made by opening and closing parentheses at most `n` deep.  The tokens of
every predicate are made so, one deeper than its groups at most (`Predicate.nested_tokens`), and are
balanced for that reason (`Predicate.balanced_tokens`).
-/

namespace FilterSql

namespace Token

/-! ### Depths -/

/-- How many more parentheses the tokens open than they close. -/
def gain : List Token → Int
  | [] => 0
  | t :: ts => t.step + gain ts

theorem gain_append (ts us : List Token) : gain (ts ++ us) = gain ts + gain us := by
  induction ts with
  | nil => simp [gain]
  | cons t ts ih => simp [gain, ih, Int.add_assoc]

theorem depths_append (start : Int) (ts us : List Token) :
    depths start (ts ++ us) = depths start ts ++ depths (start + gain ts) us := by
  induction ts generalizing start with
  | nil => simp [depths, gain]
  | cons t ts ih => simp [depths, gain, ih, Int.add_assoc]

/-- More open parentheses before are as many more after each token. -/
theorem depths_eq_map (start : Int) (ts : List Token) :
    depths start ts = (depths 0 ts).map (start + ·) := by
  induction ts generalizing start with
  | nil => rfl
  | cons t ts ih =>
    rw [depths, depths, ih (start + t.step), ih (0 + t.step)]
    simp [Function.comp_def, Int.add_assoc]

/-! ### Balanced tokens -/

/-- No parenthesis is closed that is not open, and none is left open. -/
structure Balanced (ts : List Token) : Prop where
  nonneg : ∀ n ∈ depths 0 ts, 0 ≤ n
  gain_eq_zero : gain ts = 0

variable {ts us : List Token}

/-- Tokens that are no parentheses are balanced. -/
theorem balanced_of_step_eq_zero (h : ∀ t ∈ ts, t.step = 0) : Balanced ts := by
  induction ts with
  | nil => exact ⟨by simp [depths], rfl⟩
  | cons t ts ih =>
    obtain ⟨ht, hts⟩ := List.forall_mem_cons.1 h
    obtain ⟨hnonneg, hgain⟩ := ih hts
    refine ⟨?_, by rw [gain, ht, hgain]; rfl⟩
    rw [depths, ht]
    exact List.forall_mem_cons.2 ⟨Int.le_refl 0, hnonneg⟩

theorem Balanced.append (ht : Balanced ts) (hu : Balanced us) : Balanced (ts ++ us) where
  nonneg := by
    rw [depths_append, ht.gain_eq_zero]
    exact List.forall_mem_append.2 ⟨ht.nonneg, hu.nonneg⟩
  gain_eq_zero := by rw [gain_append, ht.gain_eq_zero, hu.gain_eq_zero]; rfl

/-- The opening parenthesis lifts every depth of balanced tokens by one. -/
theorem Balanced.depths_enclosed_eq (h : Balanced ts) :
    depths 0 (.opening :: ts ++ [.closing]) = 1 :: (depths 0 ts).map (1 + ·) ++ [0] := by
  simp [depths, depths_append, h.gain_eq_zero, step, depths_eq_map 1 ts]

/-- Between parentheses of their own, balanced tokens have one more open, up to the last. -/
theorem Balanced.depths_enclosed (h : Balanced ts) :
    ∃ before, depths 0 (.opening :: ts ++ [.closing]) = before ++ [0] ∧ ∀ n ∈ before, 0 < n := by
  refine ⟨_, h.depths_enclosed_eq, List.forall_mem_cons.2 ⟨Int.one_pos, fun n hn => ?_⟩⟩
  obtain ⟨m, hm, rfl⟩ := List.mem_map.1 hn
  have := h.nonneg m hm
  omega

theorem Balanced.enclosed (h : Balanced ts) : Balanced (.opening :: ts ++ [.closing]) where
  nonneg := by
    obtain ⟨before, hbefore, hpos⟩ := h.depths_enclosed
    rw [hbefore]
    exact List.forall_mem_append.2 ⟨fun n hn => Int.le_of_lt (hpos n hn), by simp⟩
  gain_eq_zero := by simp [gain, gain_append, h.gain_eq_zero, step]

theorem Balanced.intercalate_map {α : Type} {sep : List Token} {f : α → List Token} {xs : List α}
    (hsep : Balanced sep) (h : ∀ x ∈ xs, Balanced (f x)) :
    Balanced (sep.intercalate (xs.map f)) :=
  intercalate_of_forall (balanced_of_step_eq_zero (by simp))
    (fun _ _ hxs hys => (hxs.append hsep).append hys) (List.forall_mem_map.2 h)

/-! ### Depth of nesting -/

/-- Tokens in which no more than `n` parentheses are open at a time: they are no parentheses, or such
tokens side by side, or tokens that are nested less between parentheses of their own. -/
inductive Nested : Nat → List Token → Prop
  | flat {n : Nat} {ts : List Token} (free : ∀ t ∈ ts, t.step = 0) : Nested n ts
  | append {n : Nat} {ts us : List Token} (left : Nested n ts) (right : Nested n us) :
      Nested n (ts ++ us)
  | enclosed {n : Nat} {ts : List Token} (body : Nested n ts) :
      Nested (n + 1) (.opening :: ts ++ [.closing])

namespace Nested

variable {m n : Nat}

theorem mono (h : Nested m ts) (hle : m ≤ n) : Nested n ts := by
  induction h generalizing n with
  | flat ht => exact .flat ht
  | append _ _ ihl ihr => exact .append (ihl hle) (ihr hle)
  | enclosed _ ih =>
    obtain ⟨k, rfl⟩ := Nat.exists_eq_add_of_lt hle
    exact .enclosed (ih (Nat.le_add_right _ k))

theorem balanced (h : Nested n ts) : Balanced ts := by
  induction h with
  | flat ht => exact balanced_of_step_eq_zero ht
  | append _ _ ihl ihr => exact ihl.append ihr
  | enclosed _ ih => exact ih.enclosed

theorem depths_le (h : Nested n ts) : ∀ d ∈ depths 0 ts, d ≤ n := by
  induction h with
  | @flat n ts ht =>
    induction ts with
    | nil => simp [depths]
    | cons t ts ih =>
      obtain ⟨hstep, hts⟩ := List.forall_mem_cons.1 ht
      rw [depths, hstep]
      exact List.forall_mem_cons.2 ⟨Int.natCast_nonneg n, ih hts⟩
  | append hl _ ihl ihr =>
    rw [depths_append, hl.balanced.gain_eq_zero]
    exact List.forall_mem_append.2 ⟨ihl, ihr⟩
  | @enclosed n ts hbody ih =>
    intro d hd
    rw [hbody.balanced.depths_enclosed_eq, List.mem_append, List.mem_cons, List.mem_map,
      List.mem_singleton] at hd
    rcases hd with (rfl | ⟨k, hk, rfl⟩) | rfl
    · omega
    · have := ih k hk
      omega
    · omega

theorem intercalate_map {α : Type} {sep : List Token} {f : α → List Token} {xs : List α}
    (hsep : Nested n sep) (h : ∀ x ∈ xs, Nested n (f x)) :
    Nested n (sep.intercalate (xs.map f)) :=
  intercalate_of_forall (.flat (by simp))
    (fun _ _ hxs hys => (hxs.append hsep).append hys) (List.forall_mem_map.2 h)

/-- Two parts between parentheses of their own with a word between them. -/
theorem bothEnclosed (ht : Nested n ts) (hu : Nested n us) (letters : String) :
    Nested (n + 1)
      (.opening :: ts ++ [.closing, .word letters, .opening] ++ us ++ [.closing]) := by
  have hword : Nested (n + 1) [.word letters] := .flat (by simp [step])
  simpa using (ht.enclosed.append hword).append hu.enclosed

end Nested

end Token

open Token

/-! ### Tokens of predicates -/

theorem Token.nested_ofName (name : String) : Nested 0 (ofName name) :=
  .intercalate_map (.flat (by simp [step])) fun _ _ => .flat (by simp [step])

/-- A test has parentheses, but none within parentheses. -/
theorem Test.nested_tokens {column : List Token} (hc : Nested 0 column) (t : Test) :
    Nested 1 (t.tokens column) := by
  have hcompared : ∀ sign text, Nested 0 (column ++ [.sign sign, .literal text]) := fun _ _ =>
    hc.append (.flat (by simp [step]))
  have hwords : ∀ words : List String, Nested 0 (column ++ words.map .word) := fun _ =>
    hc.append (.flat (by simp [step]))
  have hmono : ∀ {ts}, Nested 0 ts → Nested 1 ts := fun h => h.mono (Nat.zero_le 1)
  cases t with
  | compare comparison text => exact hmono (hcompared _ text)
  | oneOf texts =>
    have hmembers : Nested 0 ([.comma].intercalate (texts.map fun text => [.literal text])) :=
      .intercalate_map (.flat (by simp [step])) fun _ _ => .flat (by simp [step])
    simpa [tokens] using (hmono (hwords ["IN"])).append hmembers.enclosed
  | notOneOf texts =>
    exact hmono (.intercalate_map (.flat (by simp [step])) fun text _ => hcompared "!=" text)
  | like pattern | notLike pattern => exact hmono (hc.append (.flat (by simp [step])))
  | isEmpty =>
    simpa [tokens] using (hcompared "=" "").bothEnclosed (hwords ["IS", "NULL"]) "OR"
  | isNotEmpty =>
    simpa [tokens] using (hcompared "<>" "").bothEnclosed (hwords ["IS", "NOT", "NULL"]) "AND"
  | isNull => exact hmono (hwords ["IS", "NULL"])
  | isNotNull => exact hmono (hwords ["IS", "NOT", "NULL"])
  | between low high =>
    simpa [tokens] using (hcompared ">" low).bothEnclosed (hcompared "<" high) "AND"
  | notBetween low high =>
    simpa [tokens] using (hcompared "<" low).bothEnclosed (hcompared ">" high) "AND"

namespace Predicate

mutual
/-- The greatest number of groups on a branch. -/
def levels : Predicate → Nat
  | .test _ => 0
  | .group _ children => levelsOfAll children + 1

/-- The greatest number of groups on a branch of several predicates. -/
def levelsOfAll : List Predicate → Nat
  | [] => 0
  | p :: ps => max p.levels (levelsOfAll ps)
end

theorem levels_le_levelsOfAll {p : Predicate} {ps : List Predicate} (h : p ∈ ps) :
    p.levels ≤ levelsOfAll ps := by
  induction ps with
  | nil => simp at h
  | cons q ps ih =>
    rw [levelsOfAll]
    rcases List.mem_cons.1 h with rfl | h
    · exact Nat.le_max_left _ _
    · exact Nat.le_trans (ih h) (Nat.le_max_right _ _)

/-- Every group of a branch has its parentheses, and the test at the end of it may have more. -/
theorem nested_tokens {column : List Token} (hc : Nested 0 column) (p : Predicate) :
    Nested (p.levels + 1) (p.tokens column) := by
  induction p using Predicate.induction with
  | test t =>
    rw [tokens]
    exact t.nested_tokens hc
  | group connective children ih =>
    rw [tokens, tokensOfAll_eq_map]
    have hkeyword : Nested (levelsOfAll children + 1) [.word connective.keyword] :=
      .flat (by simp [step])
    exact (hkeyword.intercalate_map fun p hp =>
      (ih p hp).mono (Nat.succ_le_succ (levels_le_levelsOfAll hp))).enclosed

/-- No test and no text in it leaves a parenthesis open or closes one of a group. -/
theorem balanced_tokens {column : List Token} (hc : Nested 0 column) (p : Predicate) :
    Balanced (p.tokens column) :=
  (p.nested_tokens hc).balanced

end Predicate

end FilterSql
