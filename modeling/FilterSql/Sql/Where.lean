import FilterSql.Sql.Compile

/-!
# WHERE clauses

A `WhereClause` is a list of conditions that are joined by AND.  `WhereClause.push` appends a
condition.  `WhereClause.addFilter` appends a compiled filter, or skips it and gives the reason
(`Skip`), of which two deserve a warning (`Skip.warning?`).  It is a `WhereClause.Call`: whether it
returns something or fails, it leaves a clause and the warnings that it gave.  `WhereClause.run` is what
becomes of a clause by any changes one after the other.
-/

namespace FilterSql

/-- The conditions of a WHERE clause, in the order in which they were added. -/
structure WhereClause where
  conditions : List String := []
  deriving DecidableEq, Repr

/-- Why a payload added no condition. -/
inductive Skip where
  /-- There is no payload, or only blanks. -/
  | absent
  | undecodable
  | notAnObject
  /-- The payload is an object with nothing to filter by. -/
  | vacant
  deriving DecidableEq, Repr

/-- The warning that a payload was left out although something was sent. -/
def Skip.warning? : Skip → Option String
  | .undecodable => some "skipping undecodable filter payload"
  | .notAnObject => some "skipping filter payload that is not an object"
  | .absent => none
  | .vacant => none

/-- What a payload comes to. -/
inductive Push where
  | added (condition : String)
  | skipped (reason : Skip)
  deriving DecidableEq, Repr

namespace WhereClause

def isEmpty (w : WhereClause) : Bool := w.conditions.isEmpty

/-- The clause with one condition more. -/
def push (w : WhereClause) (condition : String) : WhereClause :=
  ⟨w.conditions ++ [condition]⟩

@[simp] theorem conditions_push (w : WhereClause) (condition : String) :
    (w.push condition).conditions = w.conditions ++ [condition] := rfl

/-- The conditions joined by AND. -/
def text (w : WhereClause) : String := Text.joined " AND " w.conditions

/-! ### Calls -/

/-- A clause with the warnings that were given while it was changed. -/
structure Logged where
  clause : WhereClause
  warnings : List String := []
  deriving DecidableEq, Repr

/-- A call may change the clause, give warnings and fail.  What it has done before it fails stays. -/
abbrev Call := ExceptT Error (StateM Logged)

/-- What the call returns on a clause, and what it leaves. -/
def Call.on {α : Type} (call : Call α) (w : WhereClause) : Except Error α × Logged :=
  call.run.run { clause := w }

/-- Passes a payload over. -/
def skip (reason : Skip) : Call Push := do
  modify fun s => { s with warnings := s.warnings ++ reason.warning?.toList }
  return .skipped reason

/-- Adds a condition, or fails as it does. -/
def addCondition (condition : Except Error String) : Call Push := do
  let sql ← condition
  modify fun s => { s with clause := s.clause.push sql }
  return .added sql

/-- Adds the filter of a decoded payload. -/
def addJson (j : Json) (target : String) (options : Options) : Call Push :=
  if j.isObject = false then skip .notAnObject
  else if Payload.isVacant j then skip .vacant
  else addCondition do
    let f ← Filter.ofJson j
    f.toSql options target

/-- Adds the filter of a payload, compiled against the target. -/
def addFilter (payload : Option String) (target : String) (options : Options) : Call Push :=
  match payload with
  | none => skip .absent
  | some s =>
    if Text.isAllBlank s then skip .absent
    else
      match Json.ofText? s with
      | none => skip .undecodable
      | some j => addJson j target options

section Filter

variable (w : WhereClause) (payload : Option String) (target : String) (options : Options)

/-- What adding a filter returns. -/
def pushFilter : Except Error Push := ((addFilter payload target options).on w).1

/-- The warnings that adding a filter gives. -/
def warnings : List String := ((addFilter payload target options).on w).2.warnings

end Filter

end WhereClause

/-- The clause that was given, with what was added to it. -/
def Push.clause (before : WhereClause) : Push → WhereClause
  | .added condition => before.push condition
  | .skipped _ => before

/-! ### Runs -/

/-- What can be asked of a clause. -/
inductive WhereClause.Change where
  | push (condition : String)
  | filter (payload : Option String) (target : String) (options : Options)
  deriving DecidableEq, Repr

namespace WhereClause

/-- The clause that a change leaves. -/
def change (w : WhereClause) : Change → WhereClause
  | .push condition => w.push condition
  | .filter payload target options => ((addFilter payload target options).on w).2.clause

/-- The clause after all changes, from left to right. -/
def run (w : WhereClause) (changes : List Change) : WhereClause :=
  changes.foldl change w

end WhereClause

end FilterSql
