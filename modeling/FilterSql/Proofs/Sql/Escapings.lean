import Mathlib
import FilterSql.Proofs.Sql.Complements

/-!
# The two escapings

A filter compiles with values as they are just when it compiles with special characters doubled.  The
doubled text has the characters of the other text and, once more, the special characters of the texts
that are written (`Filter.writtenTexts`), and nothing else: both texts are made of the same lexemes,
which differ in their literals alone (`Lexeme.perm_text`).  So the two are equal just when no written
text holds a special character (`Filter.toSql_escapings`).
-/

namespace FilterSql

/-! ### Special characters -/

/-- The special characters of the text, from left to right. -/
def Dialect.specials (d : Dialect) (s : String) : List Char :=
  s.toList.filter fun c => decide (c ∈ d.special)

namespace Dialect

variable {d : Dialect} {s : String}

theorem specials_eq_nil_iff :
    d.specials s = [] ↔ '\x27' ∉ s.toList ∧ (d = .mysql → '\\' ∉ s.toList) := by
  simp only [specials, List.filter_eq_nil_iff, decide_eq_true_eq, mem_special_iff]
  constructor
  · intro h
    exact ⟨fun hq => h _ hq (.inl rfl), fun hd hb => h _ hb (.inr ⟨hd, rfl⟩)⟩
  · rintro ⟨hq, hb⟩ c hc (rfl | ⟨hd, rfl⟩)
    · exact hq hc
    · exact hb hd hc

/-- Doubling adds each special character once more. -/
theorem perm_doubleSpecial (cs : List Char) :
    (d.doubleSpecial cs).Perm (cs ++ cs.filter fun c => decide (c ∈ d.special)) := by
  induction cs with
  | nil => rw [doubleSpecial_nil]; rfl
  | cons c cs ih =>
    rw [doubleSpecial_cons]
    by_cases hc : c ∈ d.special
    · rw [if_pos hc, List.filter_cons_of_pos (by simpa using hc)]
      exact ((ih.cons c).trans List.perm_middle.symm).cons c
    · rw [if_neg hc, List.filter_cons_of_neg (by simpa using hc)]
      exact ih.cons c

theorem doubleSpecial_of_specials_eq_nil (h : d.specials s = []) :
    d.doubleSpecial s.toList = s.toList := by
  apply doubleSpecial_of_forall_not_mem
  simpa [specials] using h

/-- A percent sign is not special. -/
theorem specials_percent (d : Dialect) : d.specials "%" = [] := by
  cases d <;> rfl

theorem specials_append (d : Dialect) (s t : String) :
    d.specials (s ++ t) = d.specials s ++ d.specials t := by
  simp [specials]

end Dialect

/-! ### Lexemes -/

namespace Lexeme

variable {d : Dialect}

/-- The special characters of the lexeme. -/
def specials (d : Dialect) : Lexeme → List Char
  | some (.literal s) => d.specials s
  | _ => []

theorem text_literal (style : Style) (s : String) :
    Lexeme.text style (some (.literal s))
      = '\x27' :: ((style.dialect.escape style.escaping s).toList ++ ['\x27']) := by
  simp [Lexeme.text, Token.text, Style.literal]

/-- Only literals are written differently. -/
theorem text_eq_of_specials_eq_nil {l : Lexeme} (h : l.specials d = []) :
    l.text ⟨d, .doubled⟩ = l.text ⟨d, .verbatim⟩ := by
  rcases l with _ | t
  · rfl
  · cases t with
    | literal s =>
      have hs : d.doubleSpecial s.toList = s.toList := Dialect.doubleSpecial_of_specials_eq_nil h
      simp [text_literal, Dialect.escape, hs]
    | _ => rfl

theorem perm_text (d : Dialect) (l : Lexeme) :
    (l.text ⟨d, .doubled⟩).Perm (l.text ⟨d, .verbatim⟩ ++ l.specials d) := by
  rcases l with _ | t
  · rfl
  · cases t with
    | literal s =>
      rw [text_literal, text_literal, List.cons_append, List.append_assoc]
      have hdoubled : (d.escape .doubled s).toList = d.doubleSpecial s.toList := by
        simp [Dialect.escape]
      have hquote : (s.toList ++ d.specials s ++ ['\x27']).Perm
          (s.toList ++ (['\x27'] ++ d.specials s)) := by
        rw [List.append_assoc]
        exact List.perm_append_comm.append_left _
      rw [hdoubled]
      exact (((Dialect.perm_doubleSpecial s.toList).append_right _).trans hquote).cons _
    | _ => exact List.Perm.of_eq (List.append_nil _).symm

/-- Lexemes without special characters have one text. -/
theorem flatMap_text_eq_of_specials_eq_nil {ls : List Lexeme}
    (h : ls.flatMap (Lexeme.specials d) = []) :
    ls.flatMap (Lexeme.text ⟨d, .doubled⟩) = ls.flatMap (Lexeme.text ⟨d, .verbatim⟩) := by
  rw [List.flatMap_eq_nil_iff] at h
  exact List.flatMap_congr fun l hl => text_eq_of_specials_eq_nil (h l hl)

theorem perm_flatMap_text (d : Dialect) (ls : List Lexeme) :
    (ls.flatMap (Lexeme.text ⟨d, .doubled⟩)).Perm
      (ls.flatMap (Lexeme.text ⟨d, .verbatim⟩) ++ ls.flatMap (Lexeme.specials d)) :=
  (List.Perm.flatMap_left ls fun l _ => perm_text d l).trans
    (List.flatMap_append_perm ls _ _).symm

theorem flatMap_specials_ofName (d : Dialect) (name : String) :
    (Lexeme.ofName name).flatMap (Lexeme.specials d) = [] := by
  rw [Lexeme.ofName, Token.ofName, List.flatMap_map, flatMap_intercalate_of_eq_nil rfl]
  simp [specials]

end Lexeme

/-! ### Written texts -/

namespace Rule

variable {r : Rule} {d : Dialect}

/-- The texts of the value, unless the operator compares with none. -/
def writtenTexts (r : Rule) : List String :=
  if r.operator.arity = .none then [] else r.texts

/-- The literals of a test hold the special characters of the written texts: the signs of a pattern
are not special. -/
theorem flatMap_specials_literals_outline (h : r.value.Suits r.operator.arity) :
    r.outline.literals.flatMap d.specials = r.writtenTexts.flatMap d.specials := by
  unfold outline writtenTexts
  cases ho : r.operator with
  | isEmpty | isNotEmpty | isNull | isNotNull => rfl
  | oneOf | notOneOf => rfl
  | between | notBetween =>
    rw [ho] at h
    rw [texts_of_suits_pair h]
    rfl
  | _ =>
    rw [ho] at h
    rw [texts_of_suits_single h]
    simp [Operator.arity, Test.literals, Dialect.specials_append, Dialect.specials_percent]

end Rule

section Written

variable {unknown : UnknownTypes} {d : Dialect} {column : List Lexeme}

theorem Test.flatMap_specials_lexemes (hc : column.flatMap (Lexeme.specials d) = []) (t : Test) :
    (t.lexemes column).flatMap (Lexeme.specials d) = t.literals.flatMap d.specials := by
  cases t with
  | oneOf texts =>
    have hcommas := flatMap_intercalate_of_eq_nil
      (show [some Token.comma].flatMap (Lexeme.specials d) = [] from rfl)
      (texts.map fun text => [some (.literal text)])
    simp [Test.lexemes, literals, Lexeme.ofWords, Lexeme.inParentheses, hc, hcommas,
      Lexeme.specials, List.flatMap_map]
  | notOneOf texts =>
    rw [Test.lexemes, flatMap_intercalate_of_eq_nil rfl]
    simp [literals, compared, hc, Lexeme.specials, List.flatMap_map]
  | _ =>
    simp [Test.lexemes, literals, compared, Lexeme.ofWords, Lexeme.inParentheses, hc,
      Lexeme.specials, Dialect.specials]

namespace Filter

/-- The texts that a filter compares with, from left to right. -/
def writtenTexts (f : Filter) : List String := f.rules.flatMap Rule.writtenTexts

theorem writtenTexts_group (connective : Connective) (children : List Filter) :
    writtenTexts (.group connective children) = children.flatMap writtenTexts := by
  rw [writtenTexts, rules, rulesOfAll_eq_flatMap, List.flatMap_assoc]
  rfl

/-- The lexemes of a filter that compiles hold the special characters of its written texts. -/
theorem flatMap_specials_lexemes_outline (hc : column.flatMap (Lexeme.specials d) = [])
    (f : Filter) : f.Compilable unknown →
      (f.outline.lexemes column).flatMap (Lexeme.specials d)
        = f.writtenTexts.flatMap d.specials := by
  induction f using Filter.induction with
  | rule r =>
    intro h
    cases h with
    | rule _ suited =>
      rw [outline, Predicate.lexemes, Test.flatMap_specials_lexemes hc,
        Rule.flatMap_specials_literals_outline suited]
      simp [writtenTexts, rules]
  | group connective children ih =>
    intro h
    cases h with
    | group _ compilable =>
      have hseparator : connective.lexemes.flatMap (Lexeme.specials d) = [] := rfl
      have hchildren : (Predicate.lexemesOfAll column (outlines children)).flatMap
          (fun part => part.flatMap (Lexeme.specials d))
            = (children.flatMap writtenTexts).flatMap d.specials := by
        rw [Predicate.lexemesOfAll_eq_map, outlines_eq_map, List.map_map, List.flatMap_map,
          List.flatMap_assoc]
        exact List.flatMap_congr fun f hf => ih f hf (compilable f hf)
      rw [outline, Predicate.lexemes, Lexeme.enclosed, List.flatMap_append, List.flatMap_append,
        flatMap_intercalate_of_eq_nil hseparator, hchildren, writtenTexts_group]
      simp [Lexeme.specials]

theorem flatMap_specials_lexemes_rootOutline (hc : column.flatMap (Lexeme.specials d) = [])
    {f : Filter} (h : f.Compilable unknown) :
    (f.rootOutline.lexemes column).flatMap (Lexeme.specials d)
      = f.writtenTexts.flatMap d.specials := by
  have hf := flatMap_specials_lexemes_outline hc f h
  cases f with
  | rule r =>
    rw [← hf]
    simp [rootOutline, outline, Predicate.lexemes, Predicate.lexemesOfAll, Lexeme.enclosed,
      Lexeme.specials]
  | group connective children => exact hf

end Filter

end Written

/-! ### The two texts -/

/-- The bytes of a text do not depend on the order of its characters. -/
theorem Text.utf8ByteSize_eq_of_perm {s : String} {cs : List Char} (h : s.toList.Perm cs) :
    s.utf8ByteSize = String.utf8Len cs := by
  have hlength : ∀ {cs ds : List Char}, cs.Perm ds → String.utf8Len cs = String.utf8Len ds := by
    intro cs ds h
    induction h with
    | nil => rfl
    | cons c _ ih => rw [String.utf8Len_cons, String.utf8Len_cons, ih]
    | swap c d cs =>
      simp only [String.utf8Len_cons]
      omega
    | trans _ _ ih ih' => exact ih.trans ih'
  rw [← hlength h, ← String.utf8ByteSize_ofList, String.ofList_toList]

/-- Special characters have one byte each. -/
theorem Dialect.utf8Len_of_forall_mem_special {d : Dialect} {cs : List Char}
    (h : ∀ c ∈ cs, c ∈ d.special) : String.utf8Len cs = cs.length := by
  induction cs with
  | nil => rfl
  | cons c cs ih =>
    obtain ⟨hc, hcs⟩ := List.forall_mem_cons.1 h
    have hsize : c.utf8Size = 1 := by
      rcases mem_special_iff.1 hc with rfl | ⟨-, rfl⟩ <;> rfl
    rw [String.utf8Len_cons, ih hcs, hsize, List.length_cons]

namespace Filter

variable {unknown : UnknownTypes} {f : Filter} (d : Dialect) (target : String)

/-- Doubling adds the special characters of the written texts, and no others. -/
theorem perm_against (h : f.Compilable unknown) :
    (f.rootOutline.against ⟨d, .doubled⟩ target).toList.Perm
      ((f.rootOutline.against ⟨d, .verbatim⟩ target).toList
        ++ f.writtenTexts.flatMap d.specials) := by
  rw [Predicate.toList_against, Predicate.toList_against,
    ← flatMap_specials_lexemes_rootOutline (Lexeme.flatMap_specials_ofName d target) h]
  exact Lexeme.perm_flatMap_text d _

theorem against_eq_iff_specials (h : f.Compilable unknown) :
    f.rootOutline.against ⟨d, .verbatim⟩ target = f.rootOutline.against ⟨d, .doubled⟩ target ↔
      f.writtenTexts.flatMap d.specials = [] := by
  constructor
  · intro heq
    have hlength := (perm_against d target h).length_eq
    rw [heq, List.length_append] at hlength
    exact List.eq_nil_of_length_eq_zero (by omega)
  · intro hnil
    rw [← flatMap_specials_lexemes_rootOutline (Lexeme.flatMap_specials_ofName d target) h] at hnil
    rw [← String.toList_inj, Predicate.toList_against, Predicate.toList_against]
    exact (Lexeme.flatMap_text_eq_of_specials_eq_nil hnil).symm

/-! ### Main result -/

/-- In both escapings a filter fails with the same error or has a text.  The texts are equal just
when no text that is written holds a quote or, where it escapes, a backslash.  The doubled text is
longer by just these characters. -/
theorem toSql_escapings (unknown : UnknownTypes) (d : Dialect) (f : Filter) (target : String) :
    (∃ e, f.toSql ⟨⟨d, .verbatim⟩, unknown⟩ target = .error e ∧
      f.toSql ⟨⟨d, .doubled⟩, unknown⟩ target = .error e) ∨
    ∃ sql sql', f.toSql ⟨⟨d, .verbatim⟩, unknown⟩ target = .ok sql ∧
      f.toSql ⟨⟨d, .doubled⟩, unknown⟩ target = .ok sql' ∧
      (sql = sql' ↔
        ∀ s ∈ f.writtenTexts, '\x27' ∉ s.toList ∧ (d = .mysql → '\\' ∉ s.toList)) ∧
      sql'.toList.Perm (sql.toList ++ f.writtenTexts.flatMap d.specials) ∧
      sql'.length = sql.length + (f.writtenTexts.flatMap d.specials).length ∧
      sql'.utf8ByteSize = sql.utf8ByteSize + (f.writtenTexts.flatMap d.specials).length := by
  cases hroot : Predicate.ofRoot unknown f with
  | error e =>
    left
    exact ⟨e, by rw [toSql, hroot]; rfl, by rw [toSql, hroot]; rfl⟩
  | ok p =>
    right
    obtain ⟨rfl, -⟩ := Predicate.eq_rootOutline_of_ofRoot hroot
    have hsql : ∀ style : Style, f.toSql ⟨style, unknown⟩ target
        = .ok (f.rootOutline.against style target) := fun style => by rw [toSql, hroot]; rfl
    have hcompilable : f.Compilable unknown := exists_toSql_iff.1 ⟨_, hsql ⟨d, .doubled⟩⟩
    have hperm := perm_against d target hcompilable
    have hspecial : ∀ c ∈ f.writtenTexts.flatMap d.specials, c ∈ d.special := by
      intro c hc
      obtain ⟨s, -, hs⟩ := List.mem_flatMap.1 hc
      simpa using (List.mem_filter.1 hs).2
    refine ⟨_, _, hsql _, hsql _, ?_, hperm, ?_, ?_⟩
    · rw [against_eq_iff_specials d target hcompilable, List.flatMap_eq_nil_iff]
      simp only [Dialect.specials_eq_nil_iff]
    · rw [← String.length_toList, ← String.length_toList, ← List.length_append]
      exact hperm.length_eq
    · rw [Text.utf8ByteSize_eq_of_perm hperm, String.utf8Len_append,
        Dialect.utf8Len_of_forall_mem_special hspecial, ← Text.utf8ByteSize_eq_of_perm (.refl _)]

/-- A quote and a backslash are written, a value that is not compared with is not. -/
example : writtenTexts (.group .or
    [.rule ⟨"a", .string, .oneOf, .list [.text "it's", .text "a\\b"]⟩,
      .rule ⟨"b", .string, .isNull, .single (.text "'")⟩]) = ["it's", "a\\b"] := rfl

end Filter

end FilterSql
