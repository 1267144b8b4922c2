/-!
# LIKE patterns

`Like.matches` decides whether a text matches a pattern: a percent sign stands for any run of
characters, an underscore for any one character, a backslash makes the next character stand for
itself, and every other character stands for itself.  Plain characters in front of a pattern match
themselves (`matchesParts_plain_append`).
-/

namespace FilterSql.Like

/-- What one or two characters of a pattern stand for. -/
inductive Part where
  /-- Any run of characters, the empty one included. -/
  | run
  /-- Any one character. -/
  | one
  | char (c : Char)
  deriving DecidableEq, Repr

/-- The parts of a pattern; a backslash at the end stands for itself. -/
def parts : List Char → List Part
  | [] => []
  | '%' :: rest => .run :: parts rest
  | '_' :: rest => .one :: parts rest
  | '\\' :: c :: rest => .char c :: parts rest
  | c :: rest => .char c :: parts rest

/-- What is left of a text behind each of its starts, the text itself included. -/
def suffixes : List Char → List (List Char)
  | [] => [[]]
  | c :: cs => (c :: cs) :: suffixes cs

/-- The whole text is what the parts stand for. -/
def matchesParts : List Part → List Char → Bool
  | [], text => text.isEmpty
  | .run :: rest, text => (suffixes text).any (matchesParts rest)
  | .one :: rest, _ :: text => matchesParts rest text
  | .one :: _, [] => false
  | .char c :: rest, d :: text => decide (c = d) && matchesParts rest text
  | .char _ :: _, [] => false

/-- The text matches the pattern. -/
def «matches» (pattern text : String) : Bool :=
  matchesParts (parts pattern.toList) text.toList

/-- The character stands for itself in a pattern. -/
def isPlain (c : Char) : Bool :=
  c != '%' && c != '_' && c != '\\'

/-! ### Plain characters -/

theorem parts_cons_of_isPlain {c : Char} (h : isPlain c = true) (rest : List Char) :
    parts (c :: rest) = .char c :: parts rest := by
  simp only [isPlain, Bool.and_eq_true, bne_iff_ne, ne_eq] at h
  obtain ⟨⟨h₁, h₂⟩, h₃⟩ := h
  simp [parts, h₃]

theorem mem_suffixes_iff {s text : List Char} : s ∈ suffixes text ↔ s <:+ text := by
  induction text with
  | nil => simp [suffixes]
  | cons c cs ih => rw [suffixes, List.mem_cons, ih, List.suffix_cons_iff]

/-- Plain characters in front of a pattern have to stand in front of the text. -/
theorem matchesParts_plain_append {plain : List Char} (h : ∀ c ∈ plain, isPlain c = true)
    (pattern text : List Char) :
    matchesParts (parts (plain ++ pattern)) text = true ↔
      ∃ rest, text = plain ++ rest ∧ matchesParts (parts pattern) rest = true := by
  induction plain generalizing text with
  | nil => simp
  | cons c plain ih =>
    have hc := h c List.mem_cons_self
    have ih := ih fun d hd => h d (List.mem_cons_of_mem _ hd)
    rw [List.cons_append, parts_cons_of_isPlain hc]
    cases text with
    | nil => simp [matchesParts]
    | cons d text =>
      simp only [matchesParts, Bool.and_eq_true, decide_eq_true_eq, ih, List.cons_append,
        List.cons.injEq]
      constructor
      · rintro ⟨rfl, rest, rfl, hr⟩
        exact ⟨rest, ⟨rfl, rfl⟩, hr⟩
      · rintro ⟨rest, ⟨rfl, rfl⟩, hr⟩
        exact ⟨rfl, rest, rfl, hr⟩

end FilterSql.Like
