import FilterSql.Filter.Operator
import FilterSql.Sql.Dialect

/-!
# Predicates over one column

A `Predicate` is a tree of tests of one column, joined by AND and OR; every text in it is already
what the column is compared with.  `Predicate.toSql` prints it and cannot fail: groups stand between
parentheses, tests stand bare.
-/

namespace FilterSql

/-- Comparisons with one literal. -/
inductive Comparison where
  | equal
  | notEqual
  | less
  | lessOrEqual
  | greater
  | greaterOrEqual
  deriving DecidableEq, Repr

def Comparison.sign : Comparison → String
  | .equal => "="
  | .notEqual => "<>"
  | .less => "<"
  | .lessOrEqual => "<="
  | .greater => ">"
  | .greaterOrEqual => ">="

/-- A test of a column. -/
inductive Test where
  | compare (comparison : Comparison) (text : String)
  | oneOf (texts : List String)
  | notOneOf (texts : List String)
  | like (pattern : String)
  | notLike (pattern : String)
  | isEmpty
  | isNotEmpty
  | isNull
  | isNotNull
  | between (low high : String)
  | notBetween (low high : String)
  deriving DecidableEq, Repr

inductive Predicate where
  | test (t : Test)
  | group (connective : Connective) (children : List Predicate)
  deriving Repr

/-! ### Printing -/

/-- A test as text; the column is quoted already. -/
def Test.toSql (style : Style) (column : String) : Test → String
  | .compare comparison text => column ++ " " ++ comparison.sign ++ " " ++ style.literal text
  | .oneOf texts => column ++ " IN (" ++ Text.joined "," (texts.map style.literal) ++ ")"
  | .notOneOf texts =>
    Text.joined " || " (texts.map fun text => column ++ " != " ++ style.literal text)
  | .like pattern => column ++ " LIKE " ++ style.literal pattern
  | .notLike pattern => column ++ " NOT LIKE " ++ style.literal pattern
  | .isEmpty => "(" ++ column ++ " = '') OR (" ++ column ++ " IS NULL)"
  | .isNotEmpty => "(" ++ column ++ " <> '') AND (" ++ column ++ " IS NOT NULL)"
  | .isNull => column ++ " IS NULL"
  | .isNotNull => column ++ " IS NOT NULL"
  | .between low high =>
    "(" ++ column ++ " > " ++ style.literal low ++ ") AND (" ++ column ++ " < "
      ++ style.literal high ++ ")"
  | .notBetween low high =>
    "(" ++ column ++ " < " ++ style.literal low ++ ") AND (" ++ column ++ " > "
      ++ style.literal high ++ ")"

/-- The body of a group between its parentheses. -/
def enclosed (body : String) : String := " ( " ++ body ++ " ) "

/-- What stands between the children of a group. -/
def Connective.separator (c : Connective) : String := " " ++ c.keyword ++ " "

namespace Predicate

mutual
/-- A predicate as text; the column is quoted already. -/
def toSql (style : Style) (column : String) : Predicate → String
  | .test t => t.toSql style column
  | .group connective children =>
    enclosed (Text.joined connective.separator (toSqls style column children))

/-- The texts of several predicates. -/
def toSqls (style : Style) (column : String) : List Predicate → List String
  | [] => []
  | p :: ps => p.toSql style column :: toSqls style column ps
end

theorem toSqls_eq_map (style : Style) (column : String) (ps : List Predicate) :
    toSqls style column ps = ps.map (toSql style column) := by
  induction ps with
  | nil => rfl
  | cons p ps ih => rw [toSqls, ih, List.map_cons]

end Predicate

end FilterSql
