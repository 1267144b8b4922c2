/-!
# Pieces of a text

`Text.pieces sep s` are the parts of `s` between the occurrences of the character `sep`, empty
parts included, and `Text.joined` puts a text between the members of a list.  The two undo each
other: `joined_pieces` always, `pieces_joined` for parts without the separator.
-/

namespace FilterSql.Text

/-- The parts of the text between the occurrences of `sep`; there is always at least one. -/
def pieces (sep : Char) (s : String) : List String :=
  (s.toList.splitOn sep).map String.ofList

/-- The members of the list with `sep` between every two of them. -/
def joined (sep : String) (parts : List String) : String :=
  sep.intercalate parts

/-- The text holds the character. -/
def holds (c : Char) (s : String) : Bool :=
  s.toList.contains c

/-- Every occurrence of one character replaced by another. -/
def exchange (old new : Char) (s : String) : String :=
  String.ofList (s.toList.map fun c => if c = old then new else c)

/-! ### Joining and cutting -/

theorem toList_joined (sep : String) (parts : List String) :
    (joined sep parts).toList = sep.toList.intercalate (parts.map String.toList) :=
  String.toList_intercalate

/-- A single text is the same whatever it is joined by. -/
theorem joined_singleton (sep s : String) : joined sep [s] = s := by
  rw [← String.toList_inj, toList_joined]
  simp

theorem map_toList_pieces (sep : Char) (s : String) :
    (pieces sep s).map String.toList = s.toList.splitOn sep := by
  simp [pieces]

theorem pieces_ne_nil (sep : Char) (s : String) : pieces sep s ≠ [] := by
  simp [pieces, List.splitOn_ne_nil]

theorem joined_pieces (sep : Char) (s : String) :
    joined (String.singleton sep) (pieces sep s) = s := by
  rw [← String.toList_inj, toList_joined, map_toList_pieces]
  simp [List.intercalate_splitOn]

theorem pieces_joined {sep : Char} {parts : List String} (hne : parts ≠ [])
    (h : ∀ p ∈ parts, sep ∉ p.toList) :
    pieces sep (joined (String.singleton sep) parts) = parts := by
  have h' : ∀ l ∈ parts.map String.toList, sep ∉ l := by simpa using h
  rw [pieces, toList_joined]
  simp only [String.toList_singleton]
  rw [List.splitOn_intercalate sep h' (by simpa using hne)]
  simp

theorem length_pieces (sep : Char) (s : String) :
    (pieces sep s).length = s.toList.count sep + 1 := by
  rw [pieces, List.length_map]
  induction s.toList with
  | nil => rfl
  | cons c cs ih =>
    rw [List.splitOn_cons_eq_if_modifyHead, List.count_cons]
    by_cases h : (c == sep) = true
    · rw [if_pos h, if_pos h, List.length_cons, ih]
    · rw [if_neg h, if_neg h, List.length_modifyHead, ih]

/-- No piece holds the separator. -/
theorem not_mem_of_mem_pieces {sep : Char} {s p : String} (h : p ∈ pieces sep s) :
    sep ∉ p.toList := by
  have hlists : ∀ cs : List Char, ∀ l ∈ cs.splitOn sep, sep ∉ l := by
    intro cs
    induction cs with
    | nil => simp
    | cons c cs ih =>
      obtain ⟨l, ls, hl⟩ := List.exists_cons_of_ne_nil (List.splitOn_ne_nil sep cs)
      rw [hl] at ih
      rw [List.splitOn_cons_eq_if_modifyHead, hl]
      by_cases hc : (c == sep) = true
      · simpa [hc] using ih
      · have hne : sep ≠ c := fun h => hc (by simp [h])
        simpa [hc, hne] using ih
  obtain ⟨l, hl, rfl⟩ := List.mem_map.1 h
  simpa using hlists s.toList l hl

/-- A character of a joined text stands in a part, or it is the separator of two parts. -/
theorem mem_joined_iff {sep c : Char} {parts : List String} :
    c ∈ (joined (String.singleton sep) parts).toList ↔
      (c = sep ∧ 2 ≤ parts.length) ∨ ∃ p ∈ parts, c ∈ p.toList := by
  rw [toList_joined, String.toList_singleton]
  induction parts with
  | nil => simp
  | cons p parts ih =>
    cases parts with
    | nil => simp
    | cons q parts =>
      rw [List.map_cons, List.map_cons, List.intercalate_cons_cons, ← List.map_cons]
      have hlength : 2 ≤ parts.length + 1 + 1 := by omega
      simp only [List.mem_append, ih, List.length_cons, List.mem_cons,
        exists_eq_or_imp, hlength, and_true]
      grind

theorem toList_exchange (old new : Char) (s : String) :
    (exchange old new s).toList = s.toList.map fun c => if c = old then new else c := by
  simp [exchange]

theorem exchange_eq_self {old new : Char} {s : String} (h : old ∉ s.toList) :
    exchange old new s = s := by
  rw [← String.toList_inj, toList_exchange]
  refine (List.map_congr_left fun c hc => ?_).trans (List.map_id _)
  have hne : c ≠ old := fun heq => h (heq ▸ hc)
  exact if_neg hne

/-! Exchanging keeps the places of all characters. -/

theorem getElem?_exchange (old new : Char) (s : String) (i : Nat) :
    (exchange old new s).toList[i]? = s.toList[i]?.map fun c => if c = old then new else c := by
  rw [toList_exchange, List.getElem?_map]

theorem length_exchange (old new : Char) (s : String) : (exchange old new s).length = s.length := by
  rw [← String.length_toList, toList_exchange, List.length_map, String.length_toList]

/-- The character that was exchanged is gone. -/
theorem not_mem_exchange {old new : Char} (h : old ≠ new) (s : String) :
    old ∉ (exchange old new s).toList := by
  rw [toList_exchange, List.mem_map]
  rintro ⟨c, -, hc⟩
  by_cases ho : c = old
  · exact h (by rw [← hc, if_pos ho])
  · exact ho (by rw [← hc, if_neg ho])

end FilterSql.Text
