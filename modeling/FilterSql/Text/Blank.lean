/-!
# Blank characters

`Text.isBlank` holds of the characters with the Unicode property `White_Space`; `Text.blankRanges`
is the table.  `Text.trim` drops them from both ends of a string, `Text.isAllBlank` says that a
string holds nothing else.  The lemmas say that a trimmed text neither starts nor ends with a blank
(`isTrimmed_trim`).
-/

namespace FilterSql.Text

/-- The ranges of code points, ends included, of the property `White_Space`. -/
def blankRanges : List (Nat × Nat) :=
  [(0x9, 0xD), (0x20, 0x20), (0x85, 0x85), (0xA0, 0xA0), (0x1680, 0x1680), (0x2000, 0x200A),
    (0x2028, 0x2029), (0x202F, 0x202F), (0x205F, 0x205F), (0x3000, 0x3000)]

/-- The character has the property `White_Space`. -/
def isBlank (c : Char) : Bool :=
  blankRanges.any fun r => decide (r.1 ≤ c.toNat) && decide (c.toNat ≤ r.2)

/-- The characters between the first and the last that are not blank. -/
def trimChars (cs : List Char) : List Char :=
  ((cs.dropWhile isBlank).reverse.dropWhile isBlank).reverse

/-- The text without the blanks at its two ends. -/
def trim (s : String) : String :=
  String.ofList (trimChars s.toList)

/-- Every character of the text is blank; the empty text counts. -/
def isAllBlank (s : String) : Bool :=
  s.toList.all isBlank

/-- A text that is not all blank holds a character that is not. -/
theorem isAllBlank_eq_false_iff {s : String} :
    isAllBlank s = false ↔ ∃ c ∈ s.toList, isBlank c = false := by
  simp [isAllBlank, List.all_eq_false]

/-! ### What trimming leaves -/

theorem toList_trim (s : String) : (trim s).toList = trimChars s.toList := by
  simp [trim]

/-- A trimmed text does not end with a blank. -/
theorem isBlank_getLast_trimChars {cs : List Char} {c : Char}
    (h : (trimChars cs).getLast? = some c) : isBlank c = false := by
  have hd := List.head?_dropWhile_not isBlank (cs.dropWhile isBlank).reverse
  rw [trimChars, List.getLast?_reverse] at h
  rwa [h] at hd

/-- What is left is a front part of the text without its first blanks. -/
theorem trimChars_isFront (cs : List Char) : trimChars cs <+: cs.dropWhile isBlank := by
  rw [trimChars, ← List.reverse_suffix, List.reverse_reverse]
  exact List.dropWhile_suffix _

/-- Trimming adds no character. -/
theorem mem_of_mem_trimChars {cs : List Char} {c : Char} (h : c ∈ trimChars cs) : c ∈ cs :=
  (List.dropWhile_suffix _).mem ((trimChars_isFront cs).mem h)

/-- A trimmed text does not start with a blank. -/
theorem isBlank_head_trimChars {cs : List Char} {c : Char}
    (h : (trimChars cs).head? = some c) : isBlank c = false := by
  have hd := List.head?_dropWhile_not isBlank cs
  obtain ⟨rest, hrest⟩ := trimChars_isFront cs
  rw [← hrest, List.head?_append, h] at hd
  exact hd

/-- The text neither starts nor ends with a blank. -/
def IsTrimmed (s : String) : Prop :=
  (∀ c ∈ s.toList.head?, isBlank c = false) ∧ ∀ c ∈ s.toList.getLast?, isBlank c = false

theorem isTrimmed_trim (s : String) : IsTrimmed (trim s) := by
  rw [IsTrimmed, toList_trim]
  exact ⟨fun _ h => isBlank_head_trimChars h, fun _ h => isBlank_getLast_trimChars h⟩

end FilterSql.Text
