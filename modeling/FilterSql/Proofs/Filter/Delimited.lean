import FilterSql.Proofs.Filter.Canonicity

/-!
# Texts that stand for lists and pairs

Where a list or a pair is asked for, a text may stand for the array of its parts.  This file says
which texts are read like which arrays, and which parts a text has: semicolons part the elements of
`oneOf`, and nothing is trimmed; `notOneOf` trims its elements, and takes commas where the text has
no semicolon; the two texts of a range are trimmed and have one comma between them
(`Value.ofJson_delimited`).
-/

namespace FilterSql

open Text

namespace Value

variable {operator : Operator}

/-- The text and the array of the parts are both read as the value. -/
def ReadsAlike (operator : Operator) (s : String) (parts : List String) (v : Value) : Prop :=
  ofJson operator (some (.string s)) = .ok v ∧
    ofJson operator (some (.array (parts.map .string))) = .ok v

/-! ### Lists -/

theorem ofJson_string_of_list (h : operator.arity = .list) (s : String) :
    ofJson operator (some (.string s)) = .ok (.list ((listed operator s).map .text)) := by
  simp [ofJson, h, listOfJson]

theorem ofJson_texts_of_list (h : operator.arity = .list) {parts : List String}
    (hne : parts ≠ []) :
    ofJson operator (some (.array (parts.map .string))) = .ok (.list (parts.map .text)) := by
  have hread := @listOfJson_toJson operator (parts.map .text) (by simpa using hne)
    (by simp [Scalar.IsFinite])
  have hmap : (parts.map Scalar.text).map Scalar.toJson = parts.map .string := by
    rw [List.map_map]
    rfl
  rw [hmap] at hread
  simpa [ofJson, h] using hread

/-- A text is read like the array of the parts that it is listed as. -/
theorem readsAlike_of_listed (h : operator.arity = .list) {s : String} {parts : List String}
    (hparts : listed operator s = parts) (hne : parts ≠ []) :
    ReadsAlike operator s parts (.list (parts.map .text)) := by
  subst hparts
  exact ⟨ofJson_string_of_list h s, ofJson_texts_of_list h hne⟩

theorem singleton_semicolon : String.singleton ';' = ";" := rfl

theorem singleton_comma : String.singleton ',' = "," := rfl

theorem listed_oneOf (s : String) : listed .oneOf s = pieces ';' s := rfl

/-- Joining texts without semicolons loses nothing. -/
theorem readsAlike_oneOf {parts : List String} (hne : parts ≠ [])
    (h : ∀ p ∈ parts, ';' ∉ p.toList) :
    ReadsAlike .oneOf (joined ";" parts) parts (.list (parts.map .text)) := by
  apply readsAlike_of_listed rfl _ hne
  rw [listed_oneOf, ← singleton_semicolon]
  exact pieces_joined hne h

/-- The character that parts the elements of an excluded list. -/
def separator (s : String) : Char := if ';' ∈ s.toList then ';' else ','

theorem listed_notOneOf (s : String) :
    listed .notOneOf s = (pieces (separator s) s).map trim := by
  simp [listed, separator, holds]

/-- Texts joined by their separator are read like the trimmed texts. -/
theorem readsAlike_notOneOf {sep : Char} {parts : List String} (hne : parts ≠ [])
    (hsep : separator (joined (String.singleton sep) parts) = sep)
    (h : ∀ p ∈ parts, sep ∉ p.toList) :
    ReadsAlike .notOneOf (joined (String.singleton sep) parts) (parts.map trim)
      (.list ((parts.map trim).map .text)) := by
  apply readsAlike_of_listed rfl _ (by simpa using hne)
  rw [listed_notOneOf, hsep, pieces_joined hne h]

/-- The separator of several joined texts is the semicolon. -/
theorem separator_joined_semicolon {parts : List String} (h : 2 ≤ parts.length) :
    separator (joined ";" parts) = ';' := by
  rw [← singleton_semicolon]
  exact if_pos (mem_joined_iff.2 (.inl ⟨rfl, h⟩))

theorem separator_joined_comma {parts : List String} (h : ∀ p ∈ parts, ';' ∉ p.toList) :
    separator (joined "," parts) = ',' := by
  apply if_neg
  rw [← singleton_comma, mem_joined_iff]
  rintro (⟨hc, -⟩ | ⟨p, hp, hmem⟩)
  · exact absurd hc (by decide)
  · exact h p hp hmem

/-- Texts without semicolons and commas may be joined by commas. -/
theorem readsAlike_notOneOf_comma {parts : List String} (hne : parts ≠ [])
    (h : ∀ p ∈ parts, ';' ∉ p.toList) (hcomma : ∀ p ∈ parts, ',' ∉ p.toList) :
    ReadsAlike .notOneOf (joined "," parts) (parts.map trim)
      (.list ((parts.map trim).map .text)) := by
  have hsep := separator_joined_comma h
  rw [← singleton_comma] at hsep ⊢
  exact readsAlike_notOneOf hne hsep hcomma

/-- Texts without semicolons may be joined by semicolons, but a single text with a comma is cut
there. -/
theorem readsAlike_notOneOf_semicolon {parts : List String} (hne : parts ≠ [])
    (h : ∀ p ∈ parts, ';' ∉ p.toList)
    (hmany : 2 ≤ parts.length ∨ ∀ p ∈ parts, ',' ∉ p.toList) :
    ReadsAlike .notOneOf (joined ";" parts) (parts.map trim)
      (.list ((parts.map trim).map .text)) := by
  by_cases hlength : 2 ≤ parts.length
  · have hsep := separator_joined_semicolon hlength
    rw [← singleton_semicolon] at hsep ⊢
    exact readsAlike_notOneOf hne hsep h
  · -- One text is the same whatever it is joined by.
    obtain ⟨p, rfl⟩ : ∃ p, parts = [p] := by
      apply List.length_eq_one_iff.1
      have hpos := List.length_pos_of_ne_nil hne
      omega
    have hjoined : joined ";" [p] = joined "," [p] := by
      rw [joined_singleton, joined_singleton]
    rw [hjoined]
    exact readsAlike_notOneOf_comma hne h (hmany.resolve_left hlength)

/-- What is left of a piece does not hold the separator, and is trimmed. -/
theorem not_mem_and_isTrimmed_of_mem {sep : Char} {s p : String}
    (h : p ∈ (pieces sep s).map trim) : sep ∉ p.toList ∧ IsTrimmed p := by
  obtain ⟨q, hq, rfl⟩ := List.mem_map.1 h
  refine ⟨fun hmem => not_mem_of_mem_pieces hq ?_, isTrimmed_trim q⟩
  rw [toList_trim] at hmem
  exact mem_of_mem_trimChars hmem

/-! ### Pairs -/

theorem ofJson_string_of_pair (h : operator.arity = .pair) (s : String) :
    ofJson operator (some (.string s)) = pairOfJson operator (.string s) := by
  simp [ofJson, h]

theorem pairOfJson_string {s low high : String} (h : (pieces ',' s).map trim = [low, high]) :
    pairOfJson operator (.string s) = .ok (.pair (.text low) (.text high)) := by
  rw [pairOfJson, h]

/-- Two texts with a comma between them are read like the array of the two trimmed texts. -/
theorem readsAlike_pair (harity : operator.arity = .pair) {a b : String} (ha : ',' ∉ a.toList)
    (hb : ',' ∉ b.toList) :
    ReadsAlike operator (a ++ "," ++ b) [trim a, trim b]
      (.pair (.text (trim a)) (.text (trim b))) := by
  have hjoined : a ++ "," ++ b = joined (String.singleton ',') [a, b] := by
    rw [← String.toList_inj, toList_joined]
    simp
  have hpieces : pieces ',' (a ++ "," ++ b) = [a, b] := by
    rw [hjoined]
    exact pieces_joined (by simp) (by simp [ha, hb])
  constructor
  · rw [ofJson_string_of_pair harity]
    exact pairOfJson_string (by rw [hpieces]; rfl)
  · simp [ofJson, harity, pairOfJson, Scalar.ofJson, bind, Except.bind, pure, Except.pure]

/-- A text without just one comma is refused by the number of its parts. -/
theorem ofJson_string_error_of_pair (harity : operator.arity = .pair) {s : String}
    (h : s.toList.count ',' ≠ 1) :
    ofJson operator (some (.string s))
      = .error (.valueArity operator (.commaSeparated (s.toList.count ',' + 1))) := by
  have hlength : ((pieces ',' s).map trim).length = s.toList.count ',' + 1 := by
    rw [List.length_map, length_pieces]
  rw [ofJson_string_of_pair harity, pairOfJson]
  split
  · rename_i low high heq
    rw [heq] at hlength
    exact absurd (by simpa using hlength.symm) h
  · rw [hlength]

theorem exists_ofJson_string_iff_of_pair (harity : operator.arity = .pair) (s : String) :
    (∃ v, ofJson operator (some (.string s)) = .ok v) ↔ s.toList.count ',' = 1 := by
  constructor
  · rintro ⟨v, hv⟩
    by_contra hcount
    rw [ofJson_string_error_of_pair harity hcount] at hv
    exact absurd hv (by simp)
  · intro hcount
    have hlength : ((pieces ',' s).map trim).length = 2 := by
      rw [List.length_map, length_pieces, hcount]
    obtain ⟨low, high, heq⟩ := List.length_eq_two.1 hlength
    rw [ofJson_string_of_pair harity]
    exact ⟨_, pairOfJson_string heq⟩

/-! ### Main result -/

/-- Texts and arrays are interchangeable where a list or a pair is asked for.  Texts without
semicolons may be joined by semicolons, and every text is listed as its parts between semicolons.
For `notOneOf` the parts are trimmed, the separator is a comma where the text has no semicolon, and
texts without commas may be joined by them.  A pair is two trimmed texts with a comma between them,
and a text with another number of commas is refused. -/
theorem ofJson_delimited :
    (∀ parts, parts ≠ [] → (∀ p ∈ parts, ';' ∉ p.toList) →
      ReadsAlike .oneOf (joined ";" parts) parts (.list (parts.map .text))) ∧
    (∀ s, ∃ parts, ofJson .oneOf (some (.string s)) = .ok (.list (parts.map .text)) ∧
      (∀ p ∈ parts, ';' ∉ p.toList) ∧ joined ";" parts = s) ∧
    (∀ parts, parts ≠ [] → (∀ p ∈ parts, ';' ∉ p.toList) →
      (2 ≤ parts.length ∨ (∀ p ∈ parts, ',' ∉ p.toList) →
        ReadsAlike .notOneOf (joined ";" parts) (parts.map trim)
          (.list ((parts.map trim).map .text))) ∧
      ((∀ p ∈ parts, ',' ∉ p.toList) →
        ReadsAlike .notOneOf (joined "," parts) (parts.map trim)
          (.list ((parts.map trim).map .text)))) ∧
    (∀ s, ∃ sep parts, sep = (if ';' ∈ s.toList then ';' else ',') ∧
      parts = (pieces sep s).map trim ∧
      ofJson .notOneOf (some (.string s)) = .ok (.list (parts.map .text)) ∧
      parts.length = s.toList.count sep + 1 ∧ ∀ p ∈ parts, sep ∉ p.toList ∧ IsTrimmed p) ∧
    ∀ operator : Operator, operator.arity = .pair →
      (∀ a b, ',' ∉ a.toList → ',' ∉ b.toList →
        ReadsAlike operator (a ++ "," ++ b) [trim a, trim b]
          (.pair (.text (trim a)) (.text (trim b)))) ∧
      ∀ s, ((∃ v, ofJson operator (some (.string s)) = .ok v) ↔ s.toList.count ',' = 1) ∧
        (s.toList.count ',' ≠ 1 → ofJson operator (some (.string s))
          = .error (.valueArity operator (.commaSeparated (s.toList.count ',' + 1)))) := by
  refine ⟨fun parts hne h => readsAlike_oneOf hne h, fun s => ?_, fun parts hne h => ?_,
    fun s => ?_, fun operator harity => ?_⟩
  · refine ⟨pieces ';' s, ofJson_string_of_list rfl s, fun p hp => not_mem_of_mem_pieces hp, ?_⟩
    rw [← singleton_semicolon]
    exact joined_pieces ';' s
  · exact ⟨readsAlike_notOneOf_semicolon hne h, readsAlike_notOneOf_comma hne h⟩
  · refine ⟨separator s, _, rfl, rfl, ?_, ?_, fun p hp => not_mem_and_isTrimmed_of_mem hp⟩
    · rw [ofJson_string_of_list rfl, listed_notOneOf]
    · rw [List.length_map, length_pieces]
  · exact ⟨fun a b ha hb => readsAlike_pair harity ha hb, fun s =>
      ⟨exists_ofJson_string_iff_of_pair harity s, ofJson_string_error_of_pair harity⟩⟩

/-- An empty part and a decimal comma between semicolons, blanks around commas, and a range. -/
theorem ofJson_delimited_commas :
    ReadsAlike .oneOf "foo;42,5;" ["foo", "42,5", ""]
      (.list [.text "foo", .text "42,5", .text ""]) ∧
    ReadsAlike .notOneOf "foo, bar" ["foo", "bar"] (.list [.text "foo", .text "bar"]) ∧
    ReadsAlike .notBetween "1 , 2" ["1", "2"] (.pair (.text "1") (.text "2")) := by
  obtain ⟨honeOf, -, hnotOneOf, -, hpair⟩ := ofJson_delimited
  refine ⟨honeOf ["foo", "42,5", ""] (by simp) (by simp), ?_, ?_⟩
  · exact (hnotOneOf ["foo", " bar"] (by simp) (by simp)).2 (by simp)
  · exact (hpair .notBetween rfl).1 "1 " " 2" (by simp) (by simp)

end Value

end FilterSql
