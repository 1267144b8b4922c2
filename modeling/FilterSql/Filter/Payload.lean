import FilterSql.Filter.Basic
import FilterSql.Filter.Located
import FilterSql.Json.Reader
import FilterSql.Text.Blank
import FilterSql.Text.Pieces

/-!
# Reading filters from documents

`Filter.ofJson` reads a decoded document.  An object with `rules` is a group, an object with
`operator` is a rule.  `readNode` makes all checks of one object without looking at the children of
a group; the recursion only adds the children in order, so the first defect in document order is
the error.  The value of a rule is read as its operator asks (`Value.ofJson`): arrays element by
element, and texts cut at their separators where a list or a pair is wanted.
-/

namespace FilterSql

/-! ### Scalars -/

/-- Whole numbers that do not fit into a signed word are kept as their digits. -/
def Scalar.ofNumber : Json.Number → Scalar
  | .integer n _ _ => if n < 0x8000000000000000 then .integer (Int64.ofInt n) else .text n.repr
  | .float x _ => .float x

def Scalar.ofJson : Json → Except Error Scalar
  | .string s => .ok (.text s)
  | .bool b => .ok (.boolean b)
  | .number n => .ok (Scalar.ofNumber n)
  | .null => .error (.malformed [] .nullInList)
  | .array _ | .object _ => .error (.malformed [] .notAScalar)

/-! ### Values -/

/-- The elements of a text that stands for a list.  Semicolons separate them.  For the negated
operator they are trimmed, and commas separate them where the text has no semicolon. -/
def listed (operator : Operator) (s : String) : List String :=
  if operator = .notOneOf then
    (Text.pieces (if Text.holds ';' s then ';' else ',') s).map Text.trim
  else Text.pieces ';' s

namespace Value

/-- The value of an operator that compares with one scalar. -/
def singleOfJson (operator : Operator) : Json → Except Error Value
  | .array [x] => (located [.index 0] (Scalar.ofJson x)).map .single
  | .array xs => .error (.valueArity operator (.list xs.length))
  | j => (Scalar.ofJson j).map .single

/-- The value of an operator that compares with a list. -/
def listOfJson (operator : Operator) : Json → Except Error Value
  | .array [] => .error (.valueArity operator .emptyList)
  | .array xs => (eachAt Scalar.ofJson 0 xs).map .list
  | .string s => .ok (.list ((listed operator s).map .text))
  | j => (Scalar.ofJson j).map fun x => .list [x]

/-- The value of an operator that compares with two scalars. -/
def pairOfJson (operator : Operator) : Json → Except Error Value
  | .array [x, y] => do
    let low ← located [.index 0] (Scalar.ofJson x)
    let high ← located [.index 1] (Scalar.ofJson y)
    return .pair low high
  | .array xs => .error (.valueArity operator (.list xs.length))
  | .string s =>
    match (Text.pieces ',' s).map Text.trim with
    | [low, high] => .ok (.pair (.text low) (.text high))
    | parts => .error (.valueArity operator (.commaSeparated parts.length))
  | _ => .error (.valueArity operator .single)

/-- The value that the operator asks for.  An operator without a value ignores what is there; for
the others a missing value and `null` are the same. -/
def ofJson (operator : Operator) (j : Option Json) : Except Error Value :=
  match operator.arity, j with
  | .none, _ => .ok .absent
  | _, none => .error (.valueArity operator .nothing)
  | _, some .null => .error (.valueArity operator .nothing)
  | .single, some j => singleOfJson operator j
  | .list, some j => listOfJson operator j
  | .pair, some j => pairOfJson operator j

end Value

/-! ### One object -/

namespace Payload

def readOperator (j : Json) : Except Error Operator :=
  match j.member? "operator" with
  | some (.string tag) =>
    match Operator.ofTag? tag with
    | some operator => .ok operator
    | none => .error (.unsupportedOperator tag)
  | _ => .error (.malformed [.key "operator"] .operatorNotText)

/-- The name under `field`, or under `id` where there is no `field`. -/
def readField (j : Json) : Except Error String :=
  match (j.member? "field").or (j.member? "id") with
  | some (.string name) => .ok name
  | _ => .error (.malformed [] .noField)

/-- The declared type; a rule without one compares strings. -/
def readType (j : Json) : Except Error FieldType :=
  match j.member? "type" with
  | some (.string name) => .ok (FieldType.ofName name)
  | none | some .null => .ok .string
  | _ => .error (.malformed [.key "type"] .typeNotText)

def readRule (j : Json) : Except Error Rule := do
  let operator ← readOperator j
  let field ← readField j
  let type ← readType j
  let value ← located [.key "value"] (Value.ofJson operator (j.member? "value"))
  return ⟨field, type, operator, value⟩

def readConnective (j : Json) : Except Error Connective :=
  match j.member? "condition" with
  | some (.string s) =>
    match Connective.ofKeyword? s with
    | some connective => .ok connective
    | none => .error (.malformed [.key "condition"] (.unknownCondition s))
  | some _ => .error (.malformed [.key "condition"] .conditionNotText)
  | none => .error (.malformed [] .noCondition)

def readItems (j : Json) : Except Error (List Json) :=
  match j.member? "rules" with
  | some (.array items) => .ok items
  | _ => .error (.malformed [.key "rules"] .rulesNotAnArray)

/-- An object that passed its own checks; the children of a group are not read yet. -/
inductive Node where
  | rule (r : Rule)
  | group (connective : Connective) (items : List Json)

def readNode (j : Json) : Except Error Node :=
  if j.isObject = false then .error (.malformed [] .notAnObject)
  else if (j.member? "rules").isSome then do
    let connective ← readConnective j
    let items ← readItems j
    return .group connective items
  else if (j.member? "operator").isSome then (readRule j).map .rule
  else .error (.malformed [] .neitherGroupNorRule)

theorem member?_rules_of_readItems {j : Json} {items : List Json} (h : readItems j = .ok items) :
    j.member? "rules" = some (.array items) := by
  unfold readItems at h
  split at h
  · rename_i items' hm
    rw [hm, Except.ok.inj h]
  · exact absurd h (by simp)

theorem readItems_of_readNode {j : Json} {connective : Connective} {items : List Json}
    (h : readNode j = .ok (.group connective items)) : readItems j = .ok items := by
  unfold readNode at h
  split at h
  · exact absurd h (by simp)
  · split at h
    · cases hc : readConnective j with
      | error e => simp [hc, bind, Except.bind] at h
      | ok c =>
        cases hi : readItems j with
        | error e => simp [hc, hi, bind, Except.bind] at h
        | ok is => simp [hc, hi, bind, Except.bind, pure, Except.pure] at h; rw [h.2]
    · split at h
      · cases hr : readRule j <;> simp [hr, Except.map] at h
      · exact absurd h (by simp)

/-- A child of a group is a part of its object. -/
theorem sizeOf_lt_of_readNode {j : Json} {connective : Connective} {items : List Json}
    (h : readNode j = .ok (.group connective items)) {item : Json} (hi : item ∈ items) :
    sizeOf item < sizeOf j := by
  have hm := Json.sizeOf_member?_lt (member?_rules_of_readItems (readItems_of_readNode h))
  have hs := List.sizeOf_lt_of_mem hi
  simp only [Json.array.sizeOf_spec] at hm
  omega

/-- There is nothing to filter by: `null`, or an object whose `rules` are empty. -/
def isVacant (j : Json) : Bool :=
  match j with
  | .null => true
  | j => match j.member? "rules" with
    | some (.array []) => true
    | _ => false

theorem isVacant_iff {j : Json} :
    isVacant j = true ↔ j = .null ∨ j.member? "rules" = some (.array []) := by
  cases j with
  | object members =>
    rw [isVacant]
    · split <;> simp_all
    · simp
  | _ => simp [isVacant, Json.member?]

end Payload

/-! ### Filters -/

namespace Filter

open Payload

/-- The filter of a decoded document, or the first defect in document order. -/
def ofJson (j : Json) : Except Error Filter :=
  match _ : readNode j with
  | .error e => .error e
  | .ok (.rule r) => .ok (.rule r)
  | .ok (.group connective items) =>
    (located [.key "rules"] (eachAt (fun item => ofJson item.1) 0 items.attach)).map
      (.group connective)
termination_by sizeOf j
decreasing_by exact sizeOf_lt_of_readNode ‹_› item.2

/-- The filter of a document's text. -/
def ofText? (s : String) : Except Error Filter :=
  match Json.ofText? s with
  | none => .error .notJson
  | some j => ofJson j

theorem ofText?_eq_ok_iff {s : String} {f : Filter} :
    ofText? s = .ok f ↔ ∃ j, Json.ofText? s = some j ∧ ofJson j = .ok f := by
  rw [ofText?]
  cases Json.ofText? s <;> simp

theorem ofJson_of_error {j : Json} {e : Error} (h : readNode j = .error e) :
    ofJson j = .error e := by
  rw [ofJson]; split <;> simp_all

theorem ofJson_of_rule {j : Json} {r : Rule} (h : readNode j = .ok (.rule r)) :
    ofJson j = .ok (.rule r) := by
  rw [ofJson]; split <;> simp_all

theorem ofJson_of_group {j : Json} {connective : Connective} {items : List Json}
    (h : readNode j = .ok (.group connective items)) :
    ofJson j = (located [.key "rules"] (eachAt ofJson 0 items)).map (.group connective) := by
  rw [ofJson]
  split <;> rename_i h'
  · simp_all
  · simp_all
  · rw [h] at h'
    obtain ⟨rfl, rfl⟩ := Node.group.inj (Except.ok.inj h')
    rw [eachAt_map Subtype.val ofJson, List.attach_map_subtype_val]

end Filter

end FilterSql
