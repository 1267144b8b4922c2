import FilterSql.Json.Reader

/-!
# How JSON texts are read

One lemma for each form of text without blanks: a plain text between quotes (`Json.value_inQuotes`), the
items between an opening and a closing character (`Json.listing_of_items`), a member of an object
(`Json.member_inQuotes`), an array and an object.  Each says what is read from the front and that the
rest is left.
-/

namespace FilterSql.Json

/-! ### Strings -/

/-- The character stands for itself between quotes. -/
def IsPlain (c : Char) : Prop := c ≠ '"' ∧ c ≠ '\\' ∧ 0x20 ≤ c.toNat

instance : DecidablePred IsPlain := fun _ => inferInstanceAs (Decidable (_ ∧ _))

/-- A text between quotes, in front of the rest. -/
def inQuotes (s : String) (rest : List Char) : List Char := '"' :: (s.toList ++ '"' :: rest)

theorem quoted_of_isPlain {cs rest : List Char} (h : ∀ c ∈ cs, IsPlain c) {fuel : Nat}
    (hfuel : cs.length < fuel) : quoted fuel (cs ++ '"' :: rest) = some (cs, rest) := by
  induction cs generalizing fuel with
  | nil =>
    obtain ⟨fuel, rfl⟩ := Nat.exists_eq_add_of_lt hfuel
    rfl
  | cons c cs ih =>
    obtain ⟨⟨hquote, hescape, hcontrol⟩, hcs⟩ := List.forall_mem_cons.1 h
    obtain ⟨fuel, rfl⟩ := Nat.exists_eq_add_of_lt hfuel
    have hmore : quoted (cs.length + 1 + fuel) (cs ++ '"' :: rest) = some (cs, rest) :=
      ih hcs (by omega)
    rw [List.cons_append, List.length_cons, quoted]
    · simp [Nat.not_lt.2 hcontrol, hmore]
    · exact hquote
    · exact hescape

theorem text_of_isPlain {s : String} (h : ∀ c ∈ s.toList, IsPlain c) (rest : List Char) :
    text (s.toList ++ '"' :: rest) = some (s, rest) := by
  have hfuel : s.toList.length < (s.toList ++ '"' :: rest).length + 1 := by
    rw [List.length_append]
    omega
  rw [text, quoted_of_isPlain h hfuel]
  simp

/-- A plain text is read as a string, however many levels are left. -/
theorem value_inQuotes {s : String} (h : ∀ c ∈ s.toList, IsPlain c) (levels : Nat)
    (rest : List Char) : value levels (inQuotes s rest) = some (.string s, rest) := by
  have hscalar : scalar (inQuotes s rest) = some (.string s, rest) := by
    rw [inQuotes, scalar, text_of_isPlain h]
    rfl
  have hquote : isSpace '"' = false := by decide
  cases levels with
  | zero => simpa [value, skip, inQuotes, hquote] using hscalar
  | succ levels => simpa [value, skip, inQuotes, hquote] using hscalar

/-! ### Items -/

section Items

variable {α : Type} {item : List Char → Option (α × List Char)} {close : Char} {fuel : Nat}
  {cs rest rest' : List Char} {x : α} {xs : List α}

theorem items_last (h : item cs = some (x, close :: rest)) (hclose : isSpace close = false) :
    items item close (fuel + 1) cs = some ([x], rest) := by
  simp [items, h, skip, hclose]

theorem items_cons (h : item cs = some (x, ',' :: rest)) (hclose : ',' ≠ close)
    (hmore : items item close fuel rest = some (xs, rest')) :
    items item close (fuel + 1) cs = some (x :: xs, rest') := by
  have hcomma : isSpace ',' = false := by decide
  simp [items, h, skip, hcomma, hclose, hmore]

theorem listing_of_items {c : Char} (hspace : isSpace c = false) (hclose : c ≠ close)
    (h : items item close (cs.length + 1) (c :: cs) = some (xs, rest)) :
    listing item close (c :: cs) = some (xs, rest) := by
  simp [listing, skip, hspace, hclose, h]

end Items

/-! ### Arrays and objects -/

section Values

variable {levels : Nat} {cs rest : List Char}

theorem member_inQuotes {value : List Char → Option (Json × List Char)} {name : String} {j : Json}
    (hname : ∀ c ∈ name.toList, IsPlain c) (h : value cs = some (j, rest)) :
    member value (inQuotes name (':' :: cs)) = some ((name, j), rest) := by
  have hquote : isSpace '"' = false := by decide
  have hcolon : isSpace ':' = false := by decide
  simp [member, inQuotes, skip, text_of_isPlain hname, h, hquote, hcolon]

/-- A member that is a plain text is read however many levels are left. -/
theorem member_text (name s : String) (hname : ∀ c ∈ name.toList, IsPlain c)
    (hs : ∀ c ∈ s.toList, IsPlain c) (levels : Nat) (rest : List Char) :
    member (value levels) (inQuotes name (':' :: inQuotes s rest))
      = some ((name, .string s), rest) :=
  member_inQuotes hname (value_inQuotes hs levels rest)

theorem value_array {js : List Json} (h : listing (value levels) ']' cs = some (js, rest)) :
    value (levels + 1) ('[' :: cs) = some (.array js, rest) := by
  have hbracket : isSpace '[' = false := by decide
  simp [value, skip, hbracket, h]

theorem value_object {members : List (String × Json)}
    (h : listing (member (value levels)) '\x7d' cs = some (members, rest)) :
    value (levels + 1) ('\x7b' :: cs) = some (ofMembers members, rest) := by
  have hbrace : isSpace '\x7b' = false := by decide
  simp [value, skip, hbrace, h]

end Values

end FilterSql.Json
