import FilterSql.Sql.Condition
import FilterSql.Sql.Token

/-!
# Reading conditions

`Condition.ofTokens?` reads tokens by the precedence of SQL: parentheses first, comparisons next,
AND before OR.  The dialects differ in the double bars.  In the one they join conditions like OR; in
the other they join texts and bind tighter than a comparison, and a comparison is no operand.
-/

namespace FilterSql

/-- What double bars mean. -/
def Dialect.barsJoinTexts : Dialect → Bool
  | .mysql => false
  | .ansi => true

/-- The comparison that a sign stands for. -/
def Comparison.ofSign? (s : String) : Option Comparison :=
  if s = "=" then some .equal
  else if s = "<>" ∨ s = "!=" then some .notEqual
  else if s = "<" then some .less
  else if s = "<=" then some .lessOrEqual
  else if s = ">" then some .greater
  else if s = ">=" then some .greaterOrEqual
  else none

namespace Condition

/-! ### Operands -/

/-- A name with its parts, and the tokens behind it. -/
def readColumn : List Token → Option (List String × List Token)
  | .name part :: .point :: rest => (readColumn rest).map fun r => (part :: r.1, r.2)
  | .name part :: rest => some ([part], rest)
  | _ => none

def readTerm : List Token → Option (Operand × List Token)
  | .literal text :: rest => some (.literal text, rest)
  | tokens => (readColumn tokens).map fun r => (.column r.1, r.2)

/-- Terms that are joined by double bars, where these join texts. -/
def readOperand (d : Dialect) : Nat → List Token → Option (Operand × List Token)
  | 0, _ => none
  | fuel + 1, tokens => do
    let (left, rest) ← readTerm tokens
    match rest with
    | .bars :: behind =>
      if d.barsJoinTexts then
        let (right, rest) ← readOperand d fuel behind
        return (.joined left right, rest)
      else return (left, rest)
    | _ => return (left, rest)

/-- Operands with commas between them, up to the closing parenthesis. -/
def readMembers (d : Dialect) : Nat → List Token → Option (List Operand × List Token)
  | 0, _ => none
  | fuel + 1, tokens => do
    let (x, rest) ← readOperand d fuel tokens
    match rest with
    | .comma :: rest =>
      let (xs, rest) ← readMembers d fuel rest
      return (x :: xs, rest)
    | .closing :: rest => return ([x], rest)
    | _ => none

/-! ### Conditions -/

/-- What is said about the operand in front. -/
def readRelation (d : Dialect) (fuel : Nat) (left : Operand) :
    List Token → Option (Condition × List Token)
  | .sign s :: rest => do
    let comparison ← Comparison.ofSign? s
    let (right, rest) ← readOperand d fuel rest
    return (.compare left comparison right, rest)
  | .word "LIKE" :: rest => do
    let (pattern, rest) ← readOperand d fuel rest
    return (.like left pattern, rest)
  | .word "NOT" :: .word "LIKE" :: rest => do
    let (pattern, rest) ← readOperand d fuel rest
    return (.notLike left pattern, rest)
  | .word "IN" :: .opening :: rest => do
    let (members, rest) ← readMembers d fuel rest
    return (.oneOf left members, rest)
  | .word "IS" :: .word "NULL" :: rest => some (.isNull left, rest)
  | .word "IS" :: .word "NOT" :: .word "NULL" :: rest => some (.isNotNull left, rest)
  | _ => none

mutual
/-- Conjunctions that are joined by OR, or by double bars where these join conditions. -/
def readDisjunction (d : Dialect) : Nat → List Token → Option (Condition × List Token)
  | 0, _ => none
  | fuel + 1, tokens => do
    let (left, rest) ← readConjunction d fuel tokens
    match rest with
    | .word "OR" :: rest =>
      let (right, rest) ← readDisjunction d fuel rest
      return (.or left right, rest)
    | .bars :: rest =>
      if d.barsJoinTexts then none
      else
        let (right, rest) ← readDisjunction d fuel rest
        return (.or left right, rest)
    | _ => return (left, rest)

/-- Conditions that are joined by AND. -/
def readConjunction (d : Dialect) : Nat → List Token → Option (Condition × List Token)
  | 0, _ => none
  | fuel + 1, tokens => do
    let (left, rest) ← readPrimary d fuel tokens
    match rest with
    | .word "AND" :: rest =>
      let (right, rest) ← readConjunction d fuel rest
      return (.and left right, rest)
    | _ => return (left, rest)

/-- A condition between parentheses, or a relation. -/
def readPrimary (d : Dialect) : Nat → List Token → Option (Condition × List Token)
  | 0, _ => none
  | fuel + 1, tokens =>
    match tokens with
    | .opening :: rest => do
      let (inner, rest) ← readDisjunction d fuel rest
      match rest with
      | .closing :: rest => return (inner, rest)
      | _ => none
    | tokens => do
      let (left, rest) ← readOperand d fuel tokens
      readRelation d fuel left rest
end

/-- The condition that all tokens together make.  Three steps a token are always enough. -/
def ofTokens? (d : Dialect) (tokens : List Token) : Option Condition :=
  match readDisjunction d (3 * tokens.length + 3) tokens with
  | some (c, []) => some c
  | _ => none

/-- The condition that a text means in the dialect. -/
def ofSql? (d : Dialect) (sql : String) : Option Condition :=
  (Token.scan d sql).bind (ofTokens? d)

end Condition

end FilterSql
