import FilterSql.Command.Request
import FilterSql.Filter.TreeJson
import FilterSql.Json.Printer
import FilterSql.Sql.Compile

/-!
# Running requests

`Request.run` gives the exit code and the two output texts for a request and the bytes of the
standard input, which only matter when the request names no filter itself.  `compileCommand` and
`checkCommand` are the two commands as functions on texts.  `operatorTable` lists every operator with
the kind of value that it takes and the predicate that it becomes (`Operator.sampleSql`), one a line
under a heading.
-/

namespace FilterSql

/-! ### The operator table -/

/-- A value that fits the operator. -/
def Operator.sampleValue (o : Operator) : Value :=
  match o.arity with
  | .none => .absent
  | .single => .single (.text "v")
  | .list => .list [.text "v1", .text "v2"]
  | .pair => .pair (.text "v1") (.text "v2")

/-- A rule by the operator. -/
def Operator.sampleRule (o : Operator) : Rule := ⟨"field", .string, o, o.sampleValue⟩

/-- The predicate that the operator becomes, for a column named `field`.  A sample value always
fits its operator. -/
def Operator.sampleSql (o : Operator) : String :=
  match (Filter.rule o.sampleRule).toSql ⟨⟨.mysql, .doubled⟩, .passThrough⟩ "field" with
  | .ok sql => Text.trim sql
  | .error _ => ""

/-- The text with blanks behind it up to the width. -/
def Text.padded (width : Nat) (s : String) : String :=
  s ++ String.ofList (List.replicate (width - s.length) ' ')

/-- Three columns of one line; the last one is not padded. -/
def tableRow (operator value sql : String) : String :=
  "  " ++ Text.padded 18 operator ++ " " ++ Text.padded 18 value ++ " " ++ sql ++ "\n"

def operatorTable : String :=
  "OPERATORS\n\n" ++ tableRow "OPERATOR" "VALUE" "SQL"
    ++ String.join (Operator.all.map fun o => tableRow o.tag o.arity.text o.sampleSql)
    ++ "\nLists are separated by ';' (not_in also accepts ','). "
    ++ "Pairs are a two-element array or \"low,high\".\n"

/-! ### Commands -/

/-- Why a command fails. -/
inductive Failure where
  | filter (e : Error)
  | noInput
  /-- The standard input is not UTF-8. -/
  | notUtf8
  deriving DecidableEq, Repr

def Failure.message : Failure → String
  | .filter e => e.message
  | .noInput => "No filter provided. Use --query or pipe JSON to stdin."
  | .notUtf8 => "IO error: stream did not contain valid UTF-8"

/-- The filter as text, if there is something to filter by. -/
def compileCommand (filter : Option String) (target : String) (options : Options) :
    Except Failure (Option String) :=
  match filter with
  | none => .error .noInput
  | some s => (compileText options s target).mapError .filter

/-- The filter, when the text holds one. -/
def checkCommand (filter : Option String) : Except Failure Filter :=
  match filter with
  | none => .error .noInput
  | some s => (Filter.ofText? s).mapError .filter

/-- What a finished run leaves behind. -/
structure Outcome where
  exit : Nat
  output : String
  errors : String
  deriving DecidableEq, Repr

namespace Outcome

def ofOutput : Except Failure String → Outcome
  | .ok output => ⟨0, output, ""⟩
  | .error failure => ⟨1, "", failure.message ++ "\n"⟩

end Outcome

namespace Request

/-- The request names no filter, so that the standard input holds it. -/
def needsInput : Request → Bool
  | .compile _ query _ => query.isNone
  | .check query _ => query.isNone
  | .operators => false
  | .version => false

/-- The filter that the request names, else the one on the standard input.  There may be no input
to read. -/
def filterText (query : Option String) (input : Option ByteArray) :
    Except Failure (Option String) :=
  match query, input with
  | some s, _ => .ok (some s)
  | none, none => .ok none
  | none, some bytes =>
    match String.fromUTF8? bytes with
    | some s => .ok (some s)
    | none => .error .notUtf8

/-- The output text of a request. -/
def output (input : Option ByteArray) : Request → Except Failure String
  | .compile target query options => do
    let filter ← filterText query input
    match ← compileCommand filter target options with
    | some sql => return sql ++ "\n"
    | none => return ""
  | .check query showTree => do
    let filter ← filterText query input
    let f ← checkCommand filter
    return (if showTree then f.toJson.pretty else "Filter is valid") ++ "\n"
  | .operators => return operatorTable
  | .version => return "rulesql 0.1.0\n"

def run (input : Option ByteArray) (request : Request) : Outcome :=
  Outcome.ofOutput (request.output input)

end Request

end FilterSql
