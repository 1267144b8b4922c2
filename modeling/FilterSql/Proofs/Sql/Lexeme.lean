import Mathlib.Data.List.Chain
import FilterSql.Proofs.Lists
import FilterSql.Sql.Token

/-!
# Lexemes

A lexeme is a token or a single blank.  `Lexes d cs ls` says that the characters `cs` are cut into
the lexemes `ls` by the lexical rules of the dialect; there is at most one way to do so (`Lexes.unique`),
and the tokens among the lexemes are what `Token.scan` finds (`Lexes.scan`).  Lexemes that stand
apart are read back from their texts (`lexes_texts`), whatever the literals and the names hold.
-/

namespace FilterSql

/-- A token, or nothing for one blank. -/
abbrev Lexeme := Option Token

/-! ### Texts of lexemes -/

/-- The text of a token. -/
def Token.text (style : Style) : Token → List Char
  | .word letters => letters.toList
  | .literal text => (style.literal text).toList
  | .name part => (style.dialect.quotePart part).toList
  | .opening => ['(']
  | .closing => [')']
  | .comma => [',']
  | .point => ['.']
  | .sign characters => characters.toList
  | .bars => ['|', '|']

/-- The text of a lexeme. -/
def Lexeme.text (style : Style) : Lexeme → List Char
  | none => [' ']
  | some t => t.text style

/-- A word is a word of letters and a sign one of comparison characters. -/
def Token.IsProper : Token → Prop
  | .word letters => letters.toList ≠ [] ∧ ∀ c ∈ letters.toList, c.isAlpha = true
  | .sign characters => characters.toList ≠ [] ∧ ∀ c ∈ characters.toList, isSignChar c = true
  | _ => True

/-- The token ends where the rest starts, because the rest does not carry it on. -/
def Token.EndsBefore (d : Dialect) (rest : List Char) : Token → Prop
  | .word _ => ∀ c ∈ rest.head?, c.isAlpha = false
  | .literal _ => rest.head? ≠ some '\x27'
  | .name _ => rest.head? ≠ some d.nameQuote
  | .sign _ => ∀ c ∈ rest.head?, isSignChar c = false
  | _ => True

/-! ### Reading one token -/

namespace Dialect

theorem isAlpha_nameQuote (d : Dialect) : d.nameQuote.isAlpha = false := by
  cases d <;> decide

theorem isSignChar_nameQuote (d : Dialect) : Token.isSignChar d.nameQuote = false := by
  cases d <;> decide

theorem nameQuote_ne_quote (d : Dialect) : d.nameQuote ≠ '\x27' := by
  cases d <;> decide

/-- A special character is written twice and read once, any other is read as it is written. -/
theorem readLiteral_cons (d : Dialect) (c : Char) {rest : List Char} (hr : rest ≠ []) :
    d.readLiteral ((if c ∈ d.special then [c, c] else [c]) ++ rest)
      = Text.readMore c (d.readLiteral rest) := by
  by_cases hq : c = '\x27'
  · subst hq
    have hs : '\x27' ∈ d.special := by cases d <;> decide
    rw [if_pos hs]
    exact Text.quotedBody_double rest
  · by_cases he : some c = d.literalEscape
    · have hs : c ∈ d.special := by
        cases d
        · simp [Option.some.inj he, special]
        · simp [literalEscape] at he
      rw [if_pos hs]
      exact Text.quotedBody_escape hq he c rest
    · have hs : c ∉ d.special := by
        cases d
        · have hc : c ≠ '\\' := fun h => he (by rw [h]; rfl)
          simp [special, hc, hq]
        · simp [special, hq]
      rw [if_neg hs]
      exact Text.quotedBody_cons hq he hr

/-- What is doubled is read as it was, and then what stands behind it. -/
theorem readLiteral_doubleSpecial_append (d : Dialect) (cs : List Char) {rest : List Char}
    (hr : rest ≠ []) :
    d.readLiteral (d.doubleSpecial cs ++ rest)
      = (d.readLiteral rest).map fun r => (cs ++ r.1, r.2) := by
  induction cs with
  | nil => simp [doubleSpecial_nil]
  | cons c cs ih =>
    rw [doubleSpecial_cons, List.append_assoc, readLiteral_cons d c (by simp [hr]), ih,
      Text.readMore, Option.map_map]
    rfl

/-- A literal is read back up to its closing quote, whatever its text. -/
theorem readLiteral_doubleSpecial (d : Dialect) (cs : List Char) {rest : List Char}
    (h : rest.head? ≠ some '\x27') :
    d.readLiteral (d.doubleSpecial cs ++ '\x27' :: rest) = some (cs, rest) := by
  have hclose : d.readLiteral ('\x27' :: rest) = some ([], rest) := Text.quotedBody_close h
  rw [readLiteral_doubleSpecial_append d cs (by simp), hclose, Option.map_some, List.append_nil]

end Dialect

namespace Token

/-! The first character says which kind of token is read. -/

theorem read_quote (d : Dialect) (rest : List Char) :
    read d ('\x27' :: rest)
      = (d.readLiteral rest).map fun r => (literal (String.ofList r.1), r.2) := by
  simp [read]

theorem read_nameQuote (d : Dialect) (rest : List Char) :
    read d (d.nameQuote :: rest)
      = (d.readPart rest).map fun r => (name (String.ofList r.1), r.2) := by
  show (if d.nameQuote = '\x27' then _ else _) = _
  rw [if_neg d.nameQuote_ne_quote, if_pos rfl]

theorem read_of_isAlpha (d : Dialect) {c : Char} (hc : c.isAlpha = true) (rest : List Char) :
    read d (c :: rest)
      = some (word (String.ofList (c :: rest.takeWhile Char.isAlpha)),
          rest.dropWhile Char.isAlpha) := by
  have hn : ∀ x : Char, x.isAlpha = false → c ≠ x := by
    rintro x hx rfl
    exact absurd (hx.symm.trans hc) (by decide)
  show (if c = '\x27' then _ else _) = _
  rw [if_neg (hn _ (by decide)), if_neg (hn _ d.isAlpha_nameQuote), if_neg (hn _ (by decide)),
    if_neg (hn _ (by decide)), if_neg (hn _ (by decide)), if_neg (hn _ (by decide)),
    if_neg (hn _ (by decide)), if_pos hc]

theorem read_of_isSignChar (d : Dialect) {c : Char} (hc : isSignChar c = true)
    (rest : List Char) :
    read d (c :: rest)
      = some (sign (String.ofList (c :: rest.takeWhile isSignChar)),
          rest.dropWhile isSignChar) := by
  have hn : ∀ x : Char, isSignChar x = false → c ≠ x := by
    rintro x hx rfl
    exact absurd (hx.symm.trans hc) (by decide)
  have hl : ¬ c.isAlpha = true := by
    simp only [isSignChar, Bool.or_eq_true, decide_eq_true_eq] at hc
    rcases hc with ((rfl | rfl) | rfl) | rfl <;> decide
  show (if c = '\x27' then _ else _) = _
  rw [if_neg (hn _ (by decide)), if_neg (hn _ d.isSignChar_nameQuote), if_neg (hn _ (by decide)),
    if_neg (hn _ (by decide)), if_neg (hn _ (by decide)), if_neg (hn _ (by decide)),
    if_neg (hn _ (by decide)), if_neg hl, if_pos hc]

/-! Each token is read back from its text. -/

theorem read_word (d : Dialect) {letters : String} (h : (word letters).IsProper)
    {rest : List Char} (hr : (word letters).EndsBefore d rest) :
    read d (letters.toList ++ rest) = some (word letters, rest) := by
  obtain ⟨hne, hall⟩ := h
  obtain ⟨c, cs, hc⟩ := List.exists_cons_of_ne_nil hne
  rw [hc] at hall
  obtain ⟨htake, hdrop⟩ :=
    takeWhile_append_of_head (fun x hx => hall x (List.mem_cons_of_mem _ hx)) hr
  rw [hc, List.cons_append, read_of_isAlpha d (hall c List.mem_cons_self), htake, hdrop, ← hc,
    String.ofList_toList]

theorem read_sign (d : Dialect) {characters : String} (h : (sign characters).IsProper)
    {rest : List Char} (hr : (sign characters).EndsBefore d rest) :
    read d (characters.toList ++ rest) = some (sign characters, rest) := by
  obtain ⟨hne, hall⟩ := h
  obtain ⟨c, cs, hc⟩ := List.exists_cons_of_ne_nil hne
  rw [hc] at hall
  obtain ⟨htake, hdrop⟩ :=
    takeWhile_append_of_head (fun x hx => hall x (List.mem_cons_of_mem _ hx)) hr
  rw [hc, List.cons_append, read_of_isSignChar d (hall c List.mem_cons_self), htake, hdrop, ← hc,
    String.ofList_toList]

theorem read_literal {style : Style} (he : style.escaping = .doubled) {text : String}
    {rest : List Char} (hr : (literal text).EndsBefore style.dialect rest) :
    read style.dialect ((style.literal text).toList ++ rest) = some (literal text, rest) := by
  have hl : (style.literal text).toList ++ rest
      = '\x27' :: (style.dialect.doubleSpecial text.toList ++ '\x27' :: rest) := by
    simp [Style.literal, Dialect.escape, he]
  rw [hl, read_quote, Dialect.readLiteral_doubleSpecial _ _ hr, Option.map_some,
    String.ofList_toList]

theorem read_name (d : Dialect) {part : String} {rest : List Char}
    (hr : (name part).EndsBefore d rest) :
    read d ((d.quotePart part).toList ++ rest) = some (name part, rest) := by
  rw [Dialect.toList_quotePart_append, read_nameQuote, Dialect.readPart,
    Text.quotedBody_doubled _ hr, Option.map_some, String.ofList_toList]

/-- A token is read back from its text where the rest does not carry it on. -/
theorem read_text {style : Style} (he : style.escaping = .doubled) {t : Token} (ht : t.IsProper)
    {rest : List Char} (hr : t.EndsBefore style.dialect rest) :
    read style.dialect (t.text style ++ rest) = some (t, rest) := by
  have hq : ∀ c ∈ ['(', ')', ',', '.', '|'], c ≠ style.dialect.nameQuote := by
    cases style.dialect <;> simp [Dialect.nameQuote]
  cases t with
  | word letters => exact read_word _ ht hr
  | literal text => exact read_literal he hr
  | name part => exact read_name _ hr
  | sign characters => exact read_sign _ ht hr
  | «opening» => simp [text, read, hq]
  | closing => simp [text, read, hq]
  | comma => simp [text, read, hq]
  | point => simp [text, read, hq]
  | bars => simp [text, read, hq]

/-! Reading takes characters away and does not start at a blank. -/

theorem read_blank (d : Dialect) (rest : List Char) : read d (' ' :: rest) = none := by
  cases d <;> rfl

theorem length_lt_of_read {d : Dialect} {cs rest : List Char} {t : Token}
    (h : read d cs = some (t, rest)) : rest.length < cs.length := by
  fun_cases read d cs with
  | case2 cs =>
    rw [read_quote, Option.map_eq_some_iff] at h
    obtain ⟨r, hr, hp⟩ := h
    exact (Prod.mk.inj hp).2 ▸ Nat.lt_succ_of_lt (Text.length_lt_of_quotedBody hr)
  | case3 cs =>
    rw [read_nameQuote, Option.map_eq_some_iff] at h
    obtain ⟨r, hr, hp⟩ := h
    exact (Prod.mk.inj hp).2 ▸ Nat.lt_succ_of_lt (Text.length_lt_of_quotedBody hr)
  | case10 c cs _ _ _ _ _ _ _ hc =>
    rw [read_of_isAlpha d hc] at h
    rw [← (Prod.mk.inj (Option.some.inj h)).2]
    exact Nat.lt_succ_of_le (List.dropWhile_suffix _).length_le
  | case11 c cs _ _ _ _ _ _ _ _ hc =>
    rw [read_of_isSignChar d hc] at h
    rw [← (Prod.mk.inj (Option.some.inj h)).2]
    exact Nat.lt_succ_of_le (List.dropWhile_suffix _).length_le
  | case8 behind =>
    have hb : behind = rest := by simp_all [read]
    rw [hb, List.length_cons, List.length_cons]
    omega
  -- One character is behind, or the text has no token.
  | _ => simp_all [read]

end Token

/-! ### Cutting characters into lexemes -/

/-- The characters are cut into the lexemes, from left to right. -/
inductive Lexes (d : Dialect) : List Char → List Lexeme → Prop
  | nil : Lexes d [] []
  | blank {cs : List Char} {ls : List Lexeme} (rest : Lexes d cs ls) :
      Lexes d (' ' :: cs) (none :: ls)
  | token {cs rest : List Char} {t : Token} {ls : List Lexeme}
      (read : Token.read d cs = some (t, rest)) (rest : Lexes d rest ls) :
      Lexes d cs (some t :: ls)

/-- Characters are cut in one way only. -/
theorem Lexes.unique {d : Dialect} {cs : List Char} {ls ms : List Lexeme} (hl : Lexes d cs ls)
    (hm : Lexes d cs ms) : ls = ms := by
  induction hl generalizing ms with
  | nil =>
    cases hm with
    | nil => rfl
    | token h _ => simp [Token.read] at h
  | blank _ ih =>
    cases hm with
    | blank hr => rw [ih hr]
    | token h _ => simp [Token.read_blank] at h
  | token h _ ih =>
    cases hm with
    | nil => simp [Token.read] at h
    | blank _ => simp [Token.read_blank] at h
    | token h' hr =>
      obtain ⟨rfl, rfl⟩ := Prod.mk.inj (Option.some.inj (h.symm.trans h'))
      rw [ih hr]

/-- The tokens among the lexemes are the tokens of the characters. -/
theorem Lexes.scanChars {d : Dialect} {cs : List Char} {ls : List Lexeme} (h : Lexes d cs ls) :
    ∀ fuel, cs.length < fuel → Token.scanChars d fuel cs = some ls.reduceOption := by
  induction h with
  | nil =>
    intro fuel hf
    obtain ⟨fuel, rfl⟩ := Nat.exists_eq_succ_of_ne_zero (Nat.ne_of_gt hf)
    rfl
  | blank _ ih =>
    intro fuel hf
    obtain ⟨fuel, rfl⟩ := Nat.exists_eq_succ_of_ne_zero (Nat.ne_of_gt (Nat.zero_lt_of_lt hf))
    rw [List.length_cons] at hf
    have hi := ih (fuel + 1) (by omega)
    rw [Token.scanChars] at hi ⊢
    rwa [List.dropWhile_cons_of_pos (by decide), List.reduceOption_cons_of_none]
  | @token cs rest t ls hr _ ih =>
    intro fuel hf
    obtain ⟨fuel, rfl⟩ := Nat.exists_eq_succ_of_ne_zero (Nat.ne_of_gt (Nat.zero_lt_of_lt hf))
    have hlt := Token.length_lt_of_read hr
    have hi := ih fuel (by omega)
    cases cs with
    | nil => simp [Token.read] at hr
    | cons c cs =>
      have hc : c ≠ ' ' := by
        rintro rfl
        rw [Token.read_blank] at hr
        exact absurd hr (by simp)
      rw [Token.scanChars, List.dropWhile_cons_of_neg (by simpa using hc),
        List.reduceOption_cons_of_some]
      simp [hr, hi]

theorem Lexes.scan {d : Dialect} {s : String} {ls : List Lexeme} (h : Lexes d s.toList ls) :
    Token.scan d s = some ls.reduceOption :=
  h.scanChars _ (Nat.lt_succ_self _)

/-! ### Kinds of lexemes -/

/-- What the first character of a lexeme says about it. -/
inductive LexemeKind where
  | word
  | literal
  | name
  | sign
  /-- A blank, or a token of fixed characters. -/
  | mark
  deriving DecidableEq

/-- The kind of the lexemes that start with the character. -/
def Dialect.startOf (d : Dialect) (c : Char) : LexemeKind :=
  if c = '\x27' then .literal
  else if c = d.nameQuote then .name
  else if c.isAlpha then .word
  else if Token.isSignChar c then .sign
  else .mark

def Token.kind : Token → LexemeKind
  | .word _ => .word
  | .literal _ => .literal
  | .name _ => .name
  | .sign _ => .sign
  | _ => .mark

def Lexeme.kind : Lexeme → LexemeKind
  | none => .mark
  | some t => t.kind

namespace Dialect

variable (d : Dialect)

theorem startOf_quote : d.startOf '\x27' = .literal := if_pos rfl

theorem startOf_nameQuote : d.startOf d.nameQuote = .name := by
  rw [startOf, if_neg d.nameQuote_ne_quote, if_pos rfl]

theorem startOf_of_isAlpha {c : Char} (hc : c.isAlpha = true) : d.startOf c = .word := by
  have hn : ∀ x : Char, x.isAlpha = false → c ≠ x := by
    rintro x hx rfl
    exact absurd (hx.symm.trans hc) (by decide)
  rw [startOf, if_neg (hn _ (by decide)), if_neg (hn _ d.isAlpha_nameQuote), if_pos hc]

theorem startOf_of_isSignChar {c : Char} (hc : Token.isSignChar c = true) :
    d.startOf c = .sign := by
  simp only [Token.isSignChar, Bool.or_eq_true, decide_eq_true_eq] at hc
  rcases hc with ((rfl | rfl) | rfl) | rfl <;> cases d <;> rfl

end Dialect

/-- A token ends where something of another kind starts. -/
theorem Token.endsBefore_of_startOf_ne {d : Dialect} {t : Token} {rest : List Char}
    (h : t.kind = .mark ∨ ∀ c ∈ rest.head?, d.startOf c ≠ t.kind) : t.EndsBefore d rest := by
  cases t with
  | word letters =>
    intro c hc
    rcases h with h | h
    · cases h
    · exact Bool.eq_false_iff.2 fun ha => h c hc (d.startOf_of_isAlpha ha)
  | sign characters =>
    intro c hc
    rcases h with h | h
    · cases h
    · exact Bool.eq_false_iff.2 fun ha => h c hc (d.startOf_of_isSignChar ha)
  | literal text =>
    intro hc
    rcases h with h | h
    · cases h
    · exact h _ hc d.startOf_quote
  | name part =>
    intro hc
    rcases h with h | h
    · cases h
    · exact h _ hc d.startOf_nameQuote
  | _ => trivial

/-! ### Lexemes that stand apart -/

namespace Lexeme

/-- The second lexeme can stand right behind the first. -/
def Apart (l m : Lexeme) : Prop := l.kind = .mark ∨ l.kind ≠ m.kind

/-- The lexeme is a blank or a proper token. -/
def IsProper : Lexeme → Prop
  | none => True
  | some t => t.IsProper

/-- The first character of a lexeme shows its kind. -/
theorem exists_startOf_eq_kind (style : Style) {l : Lexeme} (hl : l.IsProper) (rest : List Char) :
    ∃ c, (l.text style ++ rest).head? = some c ∧ style.dialect.startOf c = l.kind := by
  rcases l with _ | t
  · exact ⟨' ', rfl, by cases style.dialect <;> rfl⟩
  · cases t with
    | word letters =>
      obtain ⟨c, cs, hc⟩ := List.exists_cons_of_ne_nil hl.1
      exact ⟨c, by simp [text, Token.text, hc],
        style.dialect.startOf_of_isAlpha (hl.2 c (by simp [hc]))⟩
    | sign characters =>
      obtain ⟨c, cs, hc⟩ := List.exists_cons_of_ne_nil hl.1
      exact ⟨c, by simp [text, Token.text, hc],
        style.dialect.startOf_of_isSignChar (hl.2 c (by simp [hc]))⟩
    | literal text =>
      exact ⟨_, by simp [Lexeme.text, Token.text, Style.literal], style.dialect.startOf_quote⟩
    | name part =>
      exact ⟨_, by simp [text, Token.text, Dialect.toList_quotePart],
        style.dialect.startOf_nameQuote⟩
    | _ => exact ⟨_, rfl, by cases style.dialect <;> rfl⟩

/-- Proper lexemes that stand apart are read back from their texts. -/
theorem lexes_texts {style : Style} (he : style.escaping = .doubled) {ls : List Lexeme}
    (hp : ∀ l ∈ ls, l.IsProper) (h : ls.IsChain Apart) :
    Lexes style.dialect (ls.flatMap (text style)) ls := by
  induction ls with
  | nil => exact .nil
  | cons l ls ih =>
    obtain ⟨hl, hls⟩ := List.forall_mem_cons.1 hp
    have hrest := ih hls h.tail
    rw [List.flatMap_cons]
    rcases l with _ | t
    · exact .blank hrest
    · refine .token (Token.read_text he hl (Token.endsBefore_of_startOf_ne ?_)) hrest
      cases ls with
      | nil => simp
      | cons m ls =>
        obtain ⟨c, hc, hm⟩ := exists_startOf_eq_kind style (hls m List.mem_cons_self)
          (ls.flatMap (text style))
        refine (List.isChain_cons_cons.1 h).1.imp id fun hne x hx => ?_
        rw [List.flatMap_cons, hc] at hx
        rw [← Option.some.inj hx, hm]
        exact hne.symm

end Lexeme

end FilterSql
