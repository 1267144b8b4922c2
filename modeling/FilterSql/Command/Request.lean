import FilterSql.Sql.Compile

/-!
# Requests of the command line

A `Request` is what a command line asks for.  `Request.ofArguments?` reads it from the list of
arguments; a command line that asks for nothing sensible has none.  First the arguments of a command
are told apart into options, flags and operands (`Command.items`), then each command picks its own
(`Command.Item`).
-/

namespace FilterSql

/-- What a command line asks for. -/
inductive Request where
  | compile (target : String) (query : Option String) (options : Options)
  | check (query : Option String) (showTree : Bool)
  | operators
  | version
  deriving DecidableEq, Repr

namespace Command

/-! ### Telling arguments apart -/

/-- An option takes a value, a flag does not. -/
inductive Kind where
  | option
  | flag
  deriving DecidableEq, Repr

/-- One way to write an option or a flag. -/
structure Spelling where
  /-- The text with its dashes, one for a spelling of one letter and two for a longer one. -/
  written : String
  /-- The option or flag that is meant. -/
  name : String
  kind : Kind

/-- An argument, or an option together with its value. -/
inductive Item where
  | option (name value : String)
  | flag (name : String)
  | operand (text : String)
  deriving DecidableEq, Repr

/-- The text behind the start of an argument, when the argument starts so. -/
def after? (start argument : String) : Option String :=
  let s := start.toList
  let a := argument.toList
  if s.isPrefixOf a then some (String.ofList (a.drop s.length)) else none

/-- A dash with something behind it makes an argument an option or a flag; a lone dash is a value. -/
def isDashed (argument : String) : Bool :=
  match argument.toList with
  | '-' :: _ :: _ => true
  | _ => false

/-- A value that is written in the same argument as its option: behind an equals sign, or right
behind a spelling of one letter. -/
def attached? (spelling : Spelling) (argument : String) : Option String :=
  if spelling.kind = .flag then none
  else
    (after? (spelling.written ++ "=") argument).or <|
      if spelling.written.length = 2 then after? spelling.written argument else none

/-- The option with a value attached to it. -/
def attachedItem? (spellings : List Spelling) (argument : String) : Option Item :=
  spellings.findSome? fun sp => (attached? sp argument).map (Item.option sp.name)

/-- The items of the arguments of a command.  A dashed argument has to be a spelling; the value of
an option may not be dashed; behind two dashes there are only operands. -/
def items (spellings : List Spelling) : List String → Option (List Item)
  | [] => some []
  | argument :: rest =>
    if argument = "--" then some (rest.map .operand)
    else if isDashed argument = false then (items spellings rest).map (.operand argument :: ·)
    else
      match spellings.find? fun sp => sp.written = argument with
      | some ⟨_, name, .flag⟩ => (items spellings rest).map (.flag name :: ·)
      | some ⟨_, name, .option⟩ =>
        match rest with
        | [] => none
        | value :: rest =>
          if isDashed value then none
          else (items spellings rest).map (.option name value :: ·)
      | none =>
        match attachedItem? spellings argument with
        | some item => (items spellings rest).map (item :: ·)
        | none => none

/-! ### Picking items -/

def options (name : String) (found : List Item) : List String :=
  found.filterMap fun
    | .option other value => if other = name then some value else none
    | _ => none

def flags (name : String) (found : List Item) : Nat :=
  found.count (.flag name)

def operands (found : List Item) : List String :=
  found.filterMap fun
    | .operand text => some text
    | _ => none

/-- At most one value; a repeated option is refused. -/
def atMostOne : List String → Option (Option String)
  | [] => some none
  | [value] => some (some value)
  | _ => none

/-- At most one mention; a repeated flag is refused. -/
def flagged : Nat → Option Bool
  | 0 => some false
  | 1 => some true
  | _ => none

/-! ### Commands -/

def querySpellings : List Spelling :=
  [⟨"--query", "query", .option⟩, ⟨"-q", "query", .option⟩]

def compileSpellings : List Spelling :=
  querySpellings ++ [⟨"--dialect", "dialect", .option⟩, ⟨"--verbatim", "verbatim", .flag⟩,
    ⟨"--strict-types", "strict-types", .flag⟩]

def checkSpellings : List Spelling :=
  querySpellings ++ [⟨"--ast", "ast", .flag⟩]

/-- The dialect of the command line, else of the environment, else the first one. -/
def chosenDialect (given environment : Option String) : Option Dialect :=
  match given.or environment with
  | some name => Dialect.ofName? name
  | none => some .mysql

def compileRequest (environment : Option String) (arguments : List String) :
    Option Request := do
  let found ← items compileSpellings arguments
  let query ← atMostOne (options "query" found)
  let given ← atMostOne (options "dialect" found)
  let verbatim ← flagged (flags "verbatim" found)
  let strict ← flagged (flags "strict-types" found)
  let dialect ← chosenDialect given environment
  match operands found with
  | [target] =>
    return .compile target query
      ⟨⟨dialect, if verbatim then .verbatim else .doubled⟩,
        if strict then .reject else .passThrough⟩
  | _ => none

def checkRequest (arguments : List String) : Option Request := do
  let found ← items checkSpellings arguments
  let query ← atMostOne (options "query" found)
  let showTree ← flagged (flags "ast" found)
  match operands found with
  | [] => return .check query showTree
  | _ => none

def operatorsRequest (arguments : List String) : Option Request := do
  match ← items [] arguments with
  | [] => return .operators
  | _ => none

/-- The version can be asked for in front of any command; whatever follows does not matter. -/
def asksVersion (argument : String) : Bool :=
  argument = "--version" || (after? "-V" argument).isSome

end Command

open Command in
/-- What the arguments ask for; the environment may name the dialect. -/
def Request.ofArguments? (environment : Option String) : List String → Option Request
  | [] => none
  | first :: rest =>
    if asksVersion first then some .version
    else if first = "compile" then compileRequest environment rest
    else if first = "check" then checkRequest rest
    else if first = "operators" then operatorsRequest rest
    else none

end FilterSql
