import FilterSql.Decimal.Shortest
import FilterSql.Json.Basic

/-!
# Printing JSON values

`Json.pretty` writes a value over several lines: two blanks more for each level, one item or member
a line, a blank behind the colon, and empty arrays and objects as a bare pair of brackets.  Strings
escape the quote, the backslash and the control characters (`Json.quote`).  Data that are not whole
numbers are written with their shortest digits (`Json.floatText`).
-/

namespace FilterSql.Json

/-! ### Strings -/

def hexChar (n : Nat) : Char :=
  if n < 10 then Char.ofNat ('0'.toNat + n) else Char.ofNat ('a'.toNat + (n - 10))

/-- A character as it stands inside a string. -/
def quoteChar (c : Char) : List Char :=
  if c = '"' then ['\\', '"']
  else if c = '\\' then ['\\', '\\']
  else if c = '\x08' then ['\\', 'b']
  else if c = '\x0c' then ['\\', 'f']
  else if c = '\n' then ['\\', 'n']
  else if c = '\r' then ['\\', 'r']
  else if c = '\t' then ['\\', 't']
  else if c.toNat < 0x20 then
    ['\\', 'u', '0', '0', hexChar (c.toNat / 16), hexChar (c.toNat % 16)]
  else [c]

/-- A string with its quotes. -/
def quote (s : String) : String :=
  String.ofList ('"' :: s.toList.flatMap quoteChar ++ ['"'])

/-! ### Numbers -/

/-- A leading digit of `10^-5` up to `10^15` is written in place, with at least one digit behind the
point; other data have an exponent.  Of two equally near decimals the even one is taken. -/
def floatText (x : Binary64) : String :=
  let d := Binary64.shortest .toEven x
  x.signText ++
    if -5 < d.places ∧ d.places ≤ 16 then d.positionalWithPoint else d.scientific

def numberText : Number → String
  | .integer n _ _ => n.repr
  | .float x _ => floatText x

/-! ### Values -/

/-- A line end and the indentation of the level. -/
def lineStart (level : Nat) : String :=
  String.ofList ('\n' :: List.replicate (2 * level) ' ')

mutual
/-- The value, when the line it starts on is indented for the level. -/
def prettyAt (level : Nat) : Json → String
  | .null => "null"
  | .bool true => "true"
  | .bool false => "false"
  | .number n => numberText n
  | .string s => quote s
  | .array [] => "[]"
  | .array (x :: xs) =>
    "[" ++ lineStart (level + 1) ++ prettyAt (level + 1) x ++ prettyItems (level + 1) xs
      ++ lineStart level ++ "]"
  | .object [] => "\x7b\x7d"
  | .object ((name, x) :: ms) =>
    "\x7b" ++ lineStart (level + 1) ++ quote name ++ ": " ++ prettyAt (level + 1) x
      ++ prettyMembers (level + 1) ms ++ lineStart level ++ "\x7d"

/-- The items behind the first. -/
def prettyItems (level : Nat) : List Json → String
  | [] => ""
  | x :: xs => "," ++ lineStart level ++ prettyAt level x ++ prettyItems level xs

/-- The members behind the first. -/
def prettyMembers (level : Nat) : List (String × Json) → String
  | [] => ""
  | (name, x) :: ms =>
    "," ++ lineStart level ++ quote name ++ ": " ++ prettyAt level x ++ prettyMembers level ms
end

/-- The value over several lines. -/
def pretty (j : Json) : String := prettyAt 0 j

end FilterSql.Json
