import FilterSql.Proofs.Lists
import FilterSql.Proofs.Sql.Lexeme

/-!
# Quoting is undone by reading

An escaped text is read up to the quote that closes it, and nothing is read beyond unless another quote
stands right behind it (`Dialect.readLiteral_escape`).  Escaping goes character by character, so that
it respects concatenation.  A column reference is read part by part, and its parts are the pieces of the
name between the points (`Dialect.readName_quoteName`), so that different names have different
references.
-/

namespace FilterSql

namespace Dialect

variable {d : Dialect} {rest : List Char}

/-! ### Literals -/

/-- Each special character is written twice and any other once, from left to right. -/
theorem doubleSpecial_eq_flatMap (d : Dialect) (cs : List Char) :
    d.doubleSpecial cs = cs.flatMap fun c => if c ∈ d.special then [c, c] else [c] := by
  induction cs with
  | nil => exact d.doubleSpecial_nil
  | cons c cs ih => rw [doubleSpecial_cons, List.flatMap_cons, ih]

theorem toList_escape_doubled (d : Dialect) (s : String) :
    (d.escape .doubled s).toList = d.doubleSpecial s.toList := by
  simp [escape]

theorem escape_append (d : Dialect) (e : Escaping) (s t : String) :
    d.escape e (s ++ t) = d.escape e s ++ d.escape e t := by
  cases e with
  | verbatim => rfl
  | doubled =>
    rw [← String.toList_inj, String.toList_append, toList_escape_doubled, toList_escape_doubled,
      toList_escape_doubled, String.toList_append, doubleSpecial_append]

theorem escape_percent (d : Dialect) (e : Escaping) : d.escape e "%" = "%" :=
  escape_of_forall_not_mem (by cases d <;> simp [special]) e

/-- A quote closes a literal if no other quote stands behind it. -/
theorem readLiteral_quote_iff :
    d.readLiteral ('\x27' :: rest) = some ([], rest) ↔ rest.head? ≠ some '\x27' := by
  refine ⟨fun h hq => ?_, fun h => Text.quotedBody_close h⟩
  obtain ⟨more, rfl⟩ := List.head?_eq_some_iff.1 hq
  -- Two quotes stand for one, and so what is read has a character.
  rw [readLiteral, Text.quotedBody_double, Text.readMore, Option.map_eq_some_iff] at h
  obtain ⟨r, -, hr⟩ := h
  exact absurd (Prod.mk.inj hr).1 (List.cons_ne_nil _ _)

/-! ### Main result on literals -/

/-- Reading an escaped text and a quote gives the text and stops right behind the quote, whatever the
text holds, exactly when what follows does not start with a quote.  Doubling the backslashes and then
the quotes is doubling both in one go.  Escaping a concatenation is concatenating what is escaped, and a
percent sign is left as it is. -/
theorem readLiteral_escape (d : Dialect) (s : String) :
    (∀ rest, d.readLiteral ((d.escape .doubled s).toList ++ '\x27' :: rest) = some (s.toList, rest) ↔
      rest.head? ≠ some '\x27') ∧
    (d.escape .doubled s).toList = s.toList.flatMap (fun c => if c ∈ d.special then [c, c] else [c]) ∧
    ((mysql.escape .doubled s).toList = Text.doubled '\x27' (Text.doubled '\\' s.toList) ∧
      Text.doubled '\x27' (Text.doubled '\\' s.toList)
        = s.toList.flatMap fun c => if c = '\\' ∨ c = '\x27' then [c, c] else [c]) ∧
    (∀ t, d.escape .doubled (s ++ t) = d.escape .doubled s ++ d.escape .doubled t) ∧
    d.escape .doubled ("%" ++ s) = "%" ++ d.escape .doubled s ∧
    d.escape .doubled (s ++ "%") = d.escape .doubled s ++ "%" := by
  refine ⟨fun rest => ?_, ?_, ⟨toList_escape_doubled mysql s, ?_⟩, d.escape_append _ s, ?_, ?_⟩
  · rw [toList_escape_doubled, readLiteral_doubleSpecial_append d _ (by simp),
      ← readLiteral_quote_iff (d := d)]
    constructor
    · intro h
      obtain ⟨r, hread, hr⟩ := Option.map_eq_some_iff.1 h
      obtain ⟨hcs, hrest⟩ := Prod.mk.inj hr
      rw [hread, ← hrest, ← List.append_right_eq_self.1 hcs]
    · intro h
      rw [h, Option.map_some, List.append_nil]
  · rw [toList_escape_doubled, doubleSpecial_eq_flatMap]
  · have h := mysql.doubleSpecial_eq_flatMap s.toList
    simpa [doubleSpecial, special] using h
  · rw [escape_append, escape_percent]
  · rw [escape_append, escape_percent]

/-- Backslashes and quotes at both ends. -/
example : mysql.readLiteral ((mysql.escape .doubled "'\\a'\\").toList ++ ['\x27', ' '])
    = some (['\x27', '\\', 'a', '\x27', '\\'], [' ']) := by
  decide +kernel

/-! ### Column references -/

theorem point_ne_nameQuote (d : Dialect) : '.' ≠ d.nameQuote := by
  cases d <;> decide

theorem readPart_doubled (part : String) (h : rest.head? ≠ some d.nameQuote) :
    d.readPart (Text.doubled d.nameQuote part.toList ++ d.nameQuote :: rest)
      = some (part.toList, rest) :=
  Text.quotedBody_doubled part.toList h

/-- The last part, behind which there is no point. -/
theorem readName_quotePart (part : String) (hq : rest.head? ≠ some d.nameQuote)
    (hp : rest.head? ≠ some '.') :
    d.readName ((d.quotePart part).toList ++ rest) = some ([part], rest) := by
  rw [toList_quotePart_append, readName, if_pos rfl]
  have hread := readPart_doubled part hq
  split
  · next h => exact absurd (h.symm.trans hread) (by simp)
  · next h =>
    obtain ⟨-, rfl⟩ := Prod.mk.inj (Option.some.inj (h.symm.trans hread))
    exact absurd rfl hp
  · next h =>
    obtain ⟨rfl, rfl⟩ := Prod.mk.inj (Option.some.inj (h.symm.trans hread))
    rw [String.ofList_toList]

/-- A part in front of a point. -/
theorem readName_quotePart_point (part : String) (rest : List Char) :
    d.readName ((d.quotePart part).toList ++ '.' :: rest)
      = (d.readName rest).map fun r => (part :: r.1, r.2) := by
  rw [toList_quotePart_append, readName, if_pos rfl]
  have hpoint : ('.' :: rest).head? ≠ some d.nameQuote := by simpa using d.point_ne_nameQuote
  have hread := readPart_doubled part hpoint
  split
  · next h => exact absurd (h.symm.trans hread) (by simp)
  · next h =>
    obtain ⟨rfl, hrest⟩ := Prod.mk.inj (Option.some.inj (h.symm.trans hread))
    rw [(List.cons.inj hrest).2, String.ofList_toList]
  · next hne h =>
    obtain ⟨rfl, rfl⟩ := Prod.mk.inj (Option.some.inj (h.symm.trans hread))
    exact absurd rfl (hne rest)

theorem readName_quoteParts {parts : List String} (hne : parts ≠ [])
    (hq : rest.head? ≠ some d.nameQuote) (hp : rest.head? ≠ some '.') :
    d.readName ((Text.joined "." (parts.map d.quotePart)).toList ++ rest) = some (parts, rest) := by
  induction parts with
  | nil => exact absurd rfl hne
  | cons part parts ih =>
    rw [Text.toList_joined] at ih ⊢
    cases parts with
    | nil => simpa using readName_quotePart part hq hp
    | cons next parts =>
      have hpoint : ".".toList = ['.'] := rfl
      rw [List.map_cons, List.map_cons, List.map_cons, List.map_cons, List.intercalate_cons_cons,
        ← List.map_cons, ← List.map_cons, List.append_assoc, List.append_assoc, hpoint,
        List.singleton_append, readName_quotePart_point, ← hpoint, ih (by simp), Option.map_some]

/-! ### Main result on column references -/

/-- Reading a column reference takes all of it and nothing beyond, whatever the name holds, where what
follows starts with neither a quote nor a point.  What is read are the pieces of the name between its
points, with points between them the name itself, so no other name has this reference. -/
theorem readName_quoteName (d : Dialect) (name : String) {rest : List Char}
    (hq : rest.head? ≠ some d.nameQuote) (hp : rest.head? ≠ some '.') :
    ∃ parts, d.readName ((d.quoteName name).toList ++ rest) = some (parts, rest) ∧
      parts = Text.pieces '.' name ∧ Text.joined "." parts = name ∧
      ∀ other, d.quoteName other = d.quoteName name → other = name := by
  have hread : ∀ name, d.readName ((d.quoteName name).toList ++ rest)
      = some (Text.pieces '.' name, rest) := fun name =>
    readName_quoteParts (Text.pieces_ne_nil '.' name) hq hp
  have hjoined : ∀ name, Text.joined "." (Text.pieces '.' name) = name := Text.joined_pieces '.'
  refine ⟨_, hread name, rfl, hjoined name, fun other hother => ?_⟩
  have hpieces : Text.pieces '.' other = Text.pieces '.' name := by
    have h := hread other
    rw [hother, hread name] at h
    exact (Prod.mk.inj (Option.some.inj h)).1.symm
  rw [← hjoined other, hpieces, hjoined name]

/-- An empty part, quotes at both ends of a part, and a blank behind the reference. -/
theorem readName_quoteName_blank :
    mysql.quoteName ".`a`" = "``.```a```" ∧
      ∃ parts, mysql.readName "``.```a``` = 'x'".toList = some (parts, " = 'x'".toList) ∧
        parts = ["", "`a`"] := by
  have hname : mysql.quoteName ".`a`" = "``.```a```" := by decide +kernel
  obtain ⟨parts, hread, hparts, -⟩ :=
    @readName_quoteName mysql ".`a`" " = 'x'".toList (by decide) (by decide)
  rw [hname] at hread
  exact ⟨hname, parts, hread, hparts.trans (by decide +kernel)⟩

end Dialect

end FilterSql
