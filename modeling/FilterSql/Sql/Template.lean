import FilterSql.Sql.Predicate
import FilterSql.Sql.Token

/-!
# The tokens of a predicate

`Predicate.tokens` lists the tokens that the text of a predicate is meant to have: each test is a
template with one token for a text, whatever the text holds, and each group is its children between
parentheses with a connective between every two of them.  Nothing here knows of quotes or blanks.
-/

namespace FilterSql

/-- The parts of a name with points between them. -/
def Token.ofName (name : String) : List Token :=
  [Token.point].intercalate ((Text.pieces '.' name).map fun part => [Token.name part])

theorem Token.exists_ofName_eq_cons (name : String) :
    ∃ part ts, Token.ofName name = .name part :: ts := by
  obtain ⟨part, parts, hp⟩ := List.exists_cons_of_ne_nil (Text.pieces_ne_nil '.' name)
  cases parts with
  | nil => exact ⟨part, [], by simp [ofName, hp]⟩
  | cons next parts =>
    exact ⟨part, _, by
      rw [ofName, hp, List.map_cons, List.map_cons, List.intercalate_cons_cons]
      rfl⟩

/-- The tokens of a test of the column. -/
def Test.tokens (column : List Token) : Test → List Token
  | .compare comparison text => column ++ [.sign comparison.sign, .literal text]
  | .oneOf texts =>
    column ++ .word "IN" :: .opening ::
      [Token.comma].intercalate (texts.map fun text => [.literal text]) ++ [.closing]
  | .notOneOf texts =>
    [Token.bars].intercalate (texts.map fun text => column ++ [.sign "!=", .literal text])
  | .like pattern => column ++ [.word "LIKE", .literal pattern]
  | .notLike pattern => column ++ [.word "NOT", .word "LIKE", .literal pattern]
  | .isEmpty =>
    .opening :: column ++ [.sign "=", .literal "", .closing, .word "OR", .opening] ++ column
      ++ [.word "IS", .word "NULL", .closing]
  | .isNotEmpty =>
    .opening :: column ++ [.sign "<>", .literal "", .closing, .word "AND", .opening] ++ column
      ++ [.word "IS", .word "NOT", .word "NULL", .closing]
  | .isNull => column ++ [.word "IS", .word "NULL"]
  | .isNotNull => column ++ [.word "IS", .word "NOT", .word "NULL"]
  | .between low high =>
    .opening :: column ++ [.sign ">", .literal low, .closing, .word "AND", .opening] ++ column
      ++ [.sign "<", .literal high, .closing]
  | .notBetween low high =>
    .opening :: column ++ [.sign "<", .literal low, .closing, .word "AND", .opening] ++ column
      ++ [.sign ">", .literal high, .closing]

namespace Predicate

mutual
/-- The tokens of a predicate about the column. -/
def tokens (column : List Token) : Predicate → List Token
  | .test t => t.tokens column
  | .group connective children =>
    .opening :: [Token.word connective.keyword].intercalate (tokensOfAll column children)
      ++ [.closing]

/-- The tokens of each of several predicates. -/
def tokensOfAll (column : List Token) : List Predicate → List (List Token)
  | [] => []
  | p :: ps => p.tokens column :: tokensOfAll column ps
end

theorem tokensOfAll_eq_map (column : List Token) (ps : List Predicate) :
    tokensOfAll column ps = ps.map (tokens column) := by
  induction ps with
  | nil => rfl
  | cons p ps ih => rw [tokensOfAll, ih, List.map_cons]

end Predicate

end FilterSql
