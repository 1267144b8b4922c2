import FilterSql.Text.Pieces
import FilterSql.Text.Quoted

/-!
# Dialects and quoting

A `Dialect` says how column names and literals are quoted.  `Dialect.quoteName` writes a column
reference, each of its dot-separated parts between identifier quotes.  `Dialect.escape` writes a text
so that it can stand between single quotes; the escaping can be left out for trusted values.
`Style.literal` is a text with its quotes.  A style protects a text (`Style.Protects`) when it leaves
no special character of the text as it is.
-/

namespace FilterSql

inductive Dialect where
  /-- Names are quoted by a grave accent; a backslash escapes inside literals. -/
  | mysql
  /-- Names are quoted by a double quote; a backslash means itself. -/
  | ansi
  deriving DecidableEq, Repr

/-- How special characters inside a literal are written. -/
inductive Escaping where
  | doubled
  /-- Values are written as they are, which is safe for trusted values only. -/
  | verbatim
  deriving DecidableEq, Repr

namespace Dialect

def name : Dialect → String
  | .mysql => "mysql"
  | .ansi => "ansi"

/-- The names that each dialect goes by. -/
def names : List (String × Dialect) :=
  [("mysql", .mysql), ("mariadb", .mysql), ("ansi", .ansi), ("postgres", .ansi),
    ("postgresql", .ansi), ("sqlite", .ansi)]

/-- The dialect with the given name, upper and lower case being the same.  The lower case of a
letter outside ASCII is never one of the letters in these names, so ASCII letters are enough. -/
def ofName? (s : String) : Option Dialect :=
  (names.find? fun entry => entry.1.toList = s.toList.map Char.toLower).map (·.2)

/-- What is said about a name that no dialect goes by. -/
def unknownName (s : String) : String :=
  "unknown dialect '" ++ s ++ "' (expected mysql or ansi)"

def nameQuote : Dialect → Char
  | .mysql => '\x60'
  | .ansi => '"'

/-- The characters that are written twice inside a literal, in the order of doubling. -/
def special : Dialect → List Char
  | .mysql => ['\\', '\x27']
  | .ansi => ['\x27']

/-- One part of a column reference between identifier quotes. -/
def quotePart (d : Dialect) (part : String) : String :=
  String.ofList (d.nameQuote :: Text.doubled d.nameQuote part.toList ++ [d.nameQuote])

/-- The column reference for a name, each of its dot-separated parts quoted. -/
def quoteName (d : Dialect) (name : String) : String :=
  Text.joined "." ((Text.pieces '.' name).map d.quotePart)

/-- The characters with all special ones doubled, one after the other. -/
def doubleSpecial (d : Dialect) (cs : List Char) : List Char :=
  d.special.foldl (fun cs c => Text.doubled c cs) cs

/-- The text as it is written between single quotes. -/
def escape (d : Dialect) (e : Escaping) (s : String) : String :=
  match e with
  | .doubled => String.ofList (d.doubleSpecial s.toList)
  | .verbatim => s

end Dialect

/-- How a predicate is written. -/
structure Style where
  dialect : Dialect := .mysql
  escaping : Escaping := .doubled
  deriving DecidableEq, Repr

/-- A text as a literal, with its quotes. -/
def Style.literal (style : Style) (s : String) : String :=
  "'" ++ style.dialect.escape style.escaping s ++ "'"

/-! ### Escaping -/

namespace Dialect

theorem mem_special_iff {d : Dialect} {c : Char} :
    c ∈ d.special ↔ c = '\x27' ∨ d = .mysql ∧ c = '\\' := by
  cases d <;> simp [special, or_comm]

theorem toList_quotePart (d : Dialect) (part : String) :
    (d.quotePart part).toList =
      d.nameQuote :: Text.doubled d.nameQuote part.toList ++ [d.nameQuote] := by
  simp [quotePart]

/-- Where a part of a name stands, its quotes frame its characters. -/
theorem toList_quotePart_append (d : Dialect) (part : String) (rest : List Char) :
    (d.quotePart part).toList ++ rest =
      d.nameQuote :: (Text.doubled d.nameQuote part.toList ++ d.nameQuote :: rest) := by
  simp [toList_quotePart]

/-- Doubling the special characters one after the other doubles each of them once: a backslash is
doubled before the quotes are, and doubling makes no character of another kind. -/
theorem doubleSpecial_cons (d : Dialect) (x : Char) (cs : List Char) :
    d.doubleSpecial (x :: cs) = (if x ∈ d.special then [x, x] else [x]) ++ d.doubleSpecial cs := by
  cases d with
  | ansi =>
    by_cases h : x = '\x27' <;> simp [doubleSpecial, special, Text.doubled_cons, h]
  | mysql =>
    by_cases h : x = '\\'
    · subst h
      simp [doubleSpecial, special, Text.doubled_cons]
    · by_cases h' : x = '\x27' <;> simp [doubleSpecial, special, Text.doubled_cons, h, h']

theorem doubleSpecial_nil (d : Dialect) : d.doubleSpecial [] = [] := by
  cases d <;> rfl

theorem doubleSpecial_append (d : Dialect) (cs ds : List Char) :
    d.doubleSpecial (cs ++ ds) = d.doubleSpecial cs ++ d.doubleSpecial ds := by
  cases d <;> simp [doubleSpecial, special]

theorem doubleSpecial_of_forall_not_mem {d : Dialect} {cs : List Char}
    (h : ∀ c ∈ cs, c ∉ d.special) : d.doubleSpecial cs = cs := by
  induction cs with
  | nil => exact d.doubleSpecial_nil
  | cons c cs ih =>
    obtain ⟨hc, hcs⟩ := List.forall_mem_cons.1 h
    rw [doubleSpecial_cons, if_neg hc, ih hcs]
    rfl

theorem escape_of_forall_not_mem {d : Dialect} {s : String} (h : ∀ c ∈ s.toList, c ∉ d.special)
    (e : Escaping) : d.escape e s = s := by
  cases e with
  | doubled => rw [escape, doubleSpecial_of_forall_not_mem h, String.ofList_toList]
  | verbatim => rfl

end Dialect

namespace Style

variable {style : Style}

/-- No special character of the text is left as it is. -/
def Protects (style : Style) (s : String) : Prop :=
  style.escaping = .verbatim → ∀ c ∈ s.toList, c ∉ style.dialect.special

theorem protects_of_doubled (h : style.escaping = .doubled) (s : String) : style.Protects s :=
  fun hv => absurd (h.symm.trans hv) Escaping.noConfusion

/-- Both escapings write such a text alike. -/
theorem Protects.literal_eq {s : String} (h : style.Protects s) :
    style.literal s = literal { style with escaping := .doubled } s := by
  rw [literal, literal]
  cases he : style.escaping with
  | doubled => rfl
  | verbatim => rw [Dialect.escape_of_forall_not_mem (h he), Dialect.escape_of_forall_not_mem (h he)]

end Style

end FilterSql
