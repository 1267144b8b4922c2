/-!
# Declared types

A rule may declare the type of its field.  Seven types are known by name; any other name is kept
as it is (`FieldType.other`).
-/

namespace FilterSql

inductive FieldType where
  | string
  | integer
  | double
  | boolean
  | date
  | time
  | datetime
  /-- A type that is not one of the known ones. -/
  | other (name : String)
  deriving DecidableEq, Repr

namespace FieldType

def name : FieldType → String
  | .string => "string"
  | .integer => "integer"
  | .double => "double"
  | .boolean => "boolean"
  | .date => "date"
  | .time => "time"
  | .datetime => "datetime"
  | .other name => name

def isKnown : FieldType → Bool
  | .other _ => false
  | _ => true

/-- The type with the given name; `float` is another name of `double`. -/
def ofName (s : String) : FieldType :=
  if s = "string" then .string
  else if s = "integer" then .integer
  else if s = "double" ∨ s = "float" then .double
  else if s = "boolean" then .boolean
  else if s = "date" then .date
  else if s = "time" then .time
  else if s = "datetime" then .datetime
  else .other s

/-- The names that `ofName` knows. -/
def knownNames : List String :=
  ["string", "integer", "double", "float", "boolean", "date", "time", "datetime"]

/-! ### Names -/

theorem ofName_of_not_mem {s : String} (h : s ∉ knownNames) : ofName s = .other s := by
  simp only [knownNames, List.mem_cons, List.not_mem_nil, not_or, or_false] at h
  simp [ofName, h]

theorem not_mem_of_ofName {s t : String} (h : ofName s = .other t) : t ∉ knownNames := by
  unfold ofName at h
  repeat' split at h
  all_goals simp_all [knownNames]

theorem isKnown_eq_false_iff {t : FieldType} : t.isKnown = false ↔ ∃ name, t = .other name := by
  cases t <;> simp [isKnown]

@[simp] theorem ofName_name_of_isKnown {t : FieldType} (h : t.isKnown = true) :
    ofName t.name = t := by
  cases t <;> first | rfl | simp [isKnown] at h

end FieldType

end FilterSql
