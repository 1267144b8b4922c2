import FilterSql.Filter.Place
import FilterSql.Proofs.Lists

/-!
# What messages say

The steps of a filter document have texts that do not run into each other, so that the text of a
path tells the path (`Path.text_injective`).

The text of a reason says something of the part of a document that it is shown for (`Reason.Says`), and
each reason that holds of a part has a text that says so (`Reason.HoldsOf.says_text`).  The message about a
malformed document names the path, then the reason, and it tells both: no other known path and no other
reason have the same message (`Error.message_malformed_inj`).
-/

namespace FilterSql

/-! ### Texts of paths -/

/-- A step into a part of a filter document. -/
def Step.IsKnown : Step → Prop
  | .key name => name ∈ ["rules", "condition", "operator", "type", "value"]
  | .index _ => True

/-- A path to a part of a filter document. -/
def Path.IsKnown (p : Path) : Prop := ∀ step ∈ p, step.IsKnown

theorem bracket_not_mem_toDigits (i : Nat) : ']' ∉ Nat.toDigits 10 i := by
  intro h
  have hd := Nat.isDigit_of_mem_toDigits (by decide) (by decide) h
  exact absurd hd (by decide)

/-- A known step is told from what follows it. -/
theorem Step.text_append_inj {s t : Step} (hs : s.IsKnown) (ht : t.IsKnown) {rest rest' : List Char}
    (h : s.text.toList ++ rest = t.text.toList ++ rest') : s = t ∧ rest = rest' := by
  cases s with
  | key name =>
    cases t with
    | key name' =>
      -- No two of the names start with the same letter.
      simp only [IsKnown, List.mem_cons, List.not_mem_nil, or_false] at hs ht
      rcases hs with rfl | rfl | rfl | rfl | rfl <;> rcases ht with rfl | rfl | rfl | rfl | rfl <;>
        simp_all [text]
    | index j => simp [text] at h
  | index i =>
    cases t with
    | key name' => simp [text] at h
    | index j =>
      have hij : Nat.toDigits 10 i ++ ']' :: rest = Nat.toDigits 10 j ++ ']' :: rest' := by
        simpa [text] using h
      obtain ⟨hdigits, hrest⟩ := append_cons_inj_of_not_mem (bracket_not_mem_toDigits i)
        (bracket_not_mem_toDigits j) hij
      have hnat := congrArg (Nat.ofDigitChars 10 · 0) hdigits
      simp only [Nat.ofDigitChars_ten_toDigits] at hnat
      exact ⟨congrArg Step.index hnat, hrest⟩

theorem Path.toList_text (p : Path) :
    p.text.toList = "filter".toList ++ p.flatMap fun step => step.text.toList := by
  rw [text, String.toList_append, String.toList_join, List.flatMap_map]

/-- The text of a path tells the path. -/
theorem Path.text_injective {p q : Path} (hp : p.IsKnown) (hq : q.IsKnown) (h : p.text = q.text) :
    p = q := by
  have hsteps : (p.flatMap fun step => step.text.toList)
      = q.flatMap fun step => step.text.toList := by
    have hlist := congrArg String.toList h
    rw [toList_text, toList_text] at hlist
    exact List.append_cancel_left hlist
  have hne : ∀ s : Step, s.text.toList ≠ [] := by
    intro s
    cases s <;> simp [Step.text]
  clear h
  induction p generalizing q with
  | nil =>
    cases q with
    | nil => rfl
    | cons t q => simp [hne] at hsteps
  | cons s p ih =>
    cases q with
    | nil => simp [hne] at hsteps
    | cons t q =>
      rw [List.flatMap_cons, List.flatMap_cons] at hsteps
      obtain ⟨hs, hps⟩ := List.forall_mem_cons.1 hp
      obtain ⟨ht, hqs⟩ := List.forall_mem_cons.1 hq
      obtain ⟨rfl, hrest⟩ := Step.text_append_inj hs ht hsteps
      rw [ih hps hqs hrest]

/-! ### Texts of reasons -/

namespace Reason

/-- What a text says of the part of a document that it is shown for.  Of an unknown condition it is the
part itself that stands between the quotes. -/
def Says (j : Json) : String → Prop
  | "expected an object" => j.isObject = false
  | "expected a group (with 'rules') or a rule (with 'operator')" =>
    j.isObject = true ∧ j.member? "rules" = none ∧ j.member? "operator" = none
  | "expected \"AND\" or \"OR\"" => ∀ s, j ≠ .string s
  | "group without 'condition'" => (j.member? "rules").isSome ∧ j.member? "condition" = none
  | "expected an array" => ∀ items, j ≠ .array items
  | "expected an operator name" => ∀ s, j ≠ .string s
  | "rule without 'field'" =>
    (j.member? "operator").isSome ∧ ∀ s, (j.member? "field").or (j.member? "id") ≠ some (.string s)
  | "expected a type name" => j ≠ .null ∧ ∀ s, j ≠ .string s
  | "null inside a value list" => j = .null
  | "expected a scalar value" => (∃ items, j = .array items) ∨ ∃ members, j = .object members
  | text => ∃ s, text = "unknown condition '" ++ s ++ "'" ∧ j = .string s ∧
      Connective.ofKeyword? s = none

/-- No other text of a reason starts like that of an unknown condition. -/
theorem unknownCondition_text_ne {s text : String} (h : text.toList.head? ≠ some 'u') :
    (unknownCondition s).text ≠ text := by
  rintro rfl
  have hhead : ("unknown condition '" ++ s ++ "'").toList.head? = some 'u' := by simp
  exact h hhead

/-- The text of a reason says what the reason is. -/
theorem HoldsOf.says_text {j : Json} {reason : Reason} (h : reason.HoldsOf j) :
    Says j reason.text := by
  cases reason with
  | unknownCondition s =>
    unfold Says
    split
    case h_11 => exact ⟨s, rfl, h⟩
    all_goals exact absurd ‹_› (unknownCondition_text_ne (by decide))
  | _ => exact h

theorem text_injective {reason other : Reason} (h : reason.text = other.text) : reason = other := by
  cases reason <;> cases other
  case unknownCondition.unknownCondition s t =>
    have hs : s.toList = t.toList := by
      have htext : "unknown condition '" ++ s ++ "'" = "unknown condition '" ++ t ++ "'" := h
      simpa using congrArg String.toList htext
    rw [String.toList_inj.1 hs]
  all_goals first
    | rfl
    | exact absurd h (by decide)
    | exact absurd h (unknownCondition_text_ne (by decide))
    | exact absurd h.symm (unknownCondition_text_ne (by decide))

end Reason

/-! ### Messages about places -/

theorem Step.colon_not_mem_text {step : Step} (h : step.IsKnown) : ':' ∉ step.text.toList := by
  cases step with
  | key name =>
    simp only [IsKnown, List.mem_cons, List.not_mem_nil, or_false] at h
    rcases h with rfl | rfl | rfl | rfl | rfl <;> simp [text]
  | index i =>
    have hdigits : ':' ∉ Nat.toDigits 10 i := fun hc =>
      absurd (Nat.isDigit_of_mem_toDigits (by decide) (by decide) hc) (by decide)
    simpa [text] using hdigits

theorem Path.colon_not_mem_text {p : Path} (h : p.IsKnown) : ':' ∉ p.text.toList := by
  rw [toList_text, List.mem_append, List.mem_flatMap]
  rintro (hc | ⟨step, hstep, hc⟩)
  · exact absurd hc (by decide)
  · exact Step.colon_not_mem_text (h step hstep) hc

/-- The message about a malformed document tells the path and the reason. -/
theorem Error.message_malformed_inj {p q : Path} {reason other : Reason} (hp : p.IsKnown)
    (hq : q.IsKnown) (h : (malformed p reason).message = (malformed q other).message) :
    p = q ∧ reason = other := by
  have hlist : p.text.toList ++ ':' :: ' ' :: reason.text.toList
      = q.text.toList ++ ':' :: ' ' :: other.text.toList := by
    have htext : "malformed filter at " ++ p.text ++ ": " ++ reason.text
        = "malformed filter at " ++ q.text ++ ": " ++ other.text := h
    simpa using congrArg String.toList htext
  obtain ⟨hpath, hreason⟩ := append_cons_inj_of_not_mem (Path.colon_not_mem_text hp)
    (Path.colon_not_mem_text hq) hlist
  exact ⟨Path.text_injective hp hq (String.toList_inj.1 hpath),
    Reason.text_injective (String.toList_inj.1 (List.cons.inj hreason).2)⟩

end FilterSql
