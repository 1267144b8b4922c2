import FilterSql.Sql.Dialect
import FilterSql.Text.Quoted

/-!
# Tokens of predicates

`Token.scan` cuts the text of a predicate into tokens by the lexical rules of a dialect, from left
to right: a literal stands between single quotes, one part of a name between the quotes of the
dialect, and what is left are words, parentheses, commas, points, comparison signs and double bars.
A text with an open literal or name, or with any other character, has no tokens.
`Dialect.readName` reads one column reference from the front of a text and returns the rest.
-/

namespace FilterSql

inductive Token where
  /-- A run of letters. -/
  | word (letters : String)
  /-- A text between single quotes, read back. -/
  | literal (text : String)
  /-- One part of a name between its quotes, read back. -/
  | name (part : String)
  | opening
  | closing
  | comma
  | point
  /-- A run of comparison characters. -/
  | sign (characters : String)
  | bars
  deriving DecidableEq, Repr

/-- The character that takes the next one as it is inside a literal. -/
def Dialect.literalEscape : Dialect → Option Char
  | .mysql => some '\\'
  | .ansi => none

/-- A literal behind its opening quote, and the rest. -/
def Dialect.readLiteral (d : Dialect) : List Char → Option (List Char × List Char) :=
  Text.quotedBody '\x27' d.literalEscape

/-- A part of a name behind its opening quote, and the rest. -/
def Dialect.readPart (d : Dialect) : List Char → Option (List Char × List Char) :=
  Text.quotedBody d.nameQuote none

/-- A column reference and the rest: parts between their quotes, each behind a point but the first. -/
def Dialect.readName (d : Dialect) (cs : List Char) : Option (List String × List Char) :=
  match cs with
  | [] => none
  | c :: cs =>
    if c = d.nameQuote then
      match _ : d.readPart cs with
      | none => none
      | some (part, '.' :: rest) =>
        (readName d rest).map fun r => (String.ofList part :: r.1, r.2)
      | some (part, rest) => some ([String.ofList part], rest)
    else none
termination_by cs.length
decreasing_by
  have := Text.length_lt_of_quotedBody ‹d.readPart _ = _›
  simp only [List.length_cons] at this ⊢
  omega

namespace Token

def isSignChar (c : Char) : Bool :=
  c = '=' || c = '<' || c = '>' || c = '!'

/-- The token at the front of a text that does not start with a blank, and the rest. -/
def read (d : Dialect) : List Char → Option (Token × List Char)
  | [] => none
  | c :: rest =>
    if c = '\x27' then
      (d.readLiteral rest).map fun r => (literal (String.ofList r.1), r.2)
    else if c = d.nameQuote then
      (d.readPart rest).map fun r => (name (String.ofList r.1), r.2)
    else if c = '(' then some (opening, rest)
    else if c = ')' then some (closing, rest)
    else if c = ',' then some (comma, rest)
    else if c = '.' then some (point, rest)
    else if c = '|' then
      match rest with
      | '|' :: rest => some (bars, rest)
      | _ => none
    else if c.isAlpha then
      some (word (String.ofList (c :: rest.takeWhile Char.isAlpha)), rest.dropWhile Char.isAlpha)
    else if isSignChar c then
      some (sign (String.ofList (c :: rest.takeWhile isSignChar)), rest.dropWhile isSignChar)
    else none

/-- The tokens of a text, at most `fuel` of them. -/
def scanChars (d : Dialect) : Nat → List Char → Option (List Token)
  | 0, _ => none
  | fuel + 1, cs =>
    match cs.dropWhile (· = ' ') with
    | [] => some []
    | c :: rest => do
      let (token, rest) ← read d (c :: rest)
      let tokens ← scanChars d fuel rest
      return token :: tokens

/-- The tokens of a text. -/
def scan (d : Dialect) (s : String) : Option (List Token) :=
  scanChars d (s.toList.length + 1) s.toList

/-! ### Nesting -/

/-- How the token changes the number of open parentheses. -/
def step : Token → Int
  | opening => 1
  | closing => -1
  | _ => 0

/-- The number of open parentheses after each token, `start` being open before. -/
def depths (start : Int) : List Token → List Int
  | [] => []
  | t :: ts => (start + t.step) :: depths (start + t.step) ts

end Token

end FilterSql
