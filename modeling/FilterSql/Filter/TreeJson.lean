import FilterSql.Filter.Basic
import FilterSql.Json.Basic

/-!
# Filters as JSON values

`Filter.toJson` shows a filter as a JSON value in which nothing is lost: groups, rules, known and
other types and the kinds of values are told apart by the names of members.  The members of an
object stand in alphabetical order.  A datum that is no finite number has no JSON form and is shown
as `null`.

`Filter.toPayload` writes a filter as a document of the kind that is read: a group as an object with
`condition` and `rules`, a rule as an object with `field`, `type`, `operator` and, where there is a
value, `value`.
-/

namespace FilterSql

/-! ### Trees -/

def Scalar.toJson : Scalar → Json
  | .integer n =>
    .number (.integer n.toInt n.le_toInt (Int.lt_trans n.toInt_lt (by decide)))
  | .float x => if h : x.isFinite = true then .number (.float x h) else .null
  | .text s => .string s
  | .boolean b => .bool b

def Value.toJson : Value → Json
  | .absent => .string "none"
  | .single x => .object [("scalar", x.toJson)]
  | .list xs => .object [("list", .array (xs.map Scalar.toJson))]
  | .pair low high => .object [("pair", .array [low.toJson, high.toJson])]

def FieldType.toJson : FieldType → Json
  | .other name => .object [("other", .string name)]
  | type => .string type.name

def Rule.toJson (r : Rule) : Json :=
  .object [("field", .string r.field), ("operator", .string r.operator.tag),
    ("type_tag", r.type.toJson), ("value", r.value.toJson)]

namespace Filter

mutual
/-- The filter as a tree of groups and rules. -/
def toJson : Filter → Json
  | .rule r => .object [("rule", r.toJson)]
  | .group connective children =>
    .object [("group", .object [("children", .array (toJsons children)),
      ("condition", .string connective.keyword)])]

/-- The trees of several filters. -/
def toJsons : List Filter → List Json
  | [] => []
  | f :: fs => f.toJson :: toJsons fs
end

theorem toJsons_eq_map (fs : List Filter) : toJsons fs = fs.map toJson := by
  induction fs with
  | nil => rfl
  | cons f fs ih => rw [toJsons, ih, List.map_cons]

end Filter

/-! ### Documents -/

/-- The member that holds the value; an absent value has none. -/
def Value.payloadMembers : Value → List (String × Json)
  | .absent => []
  | .single x => [("value", x.toJson)]
  | .list xs => [("value", .array (xs.map Scalar.toJson))]
  | .pair low high => [("value", .array [low.toJson, high.toJson])]

def Rule.toPayload (r : Rule) : Json :=
  .object <| [("field", .string r.field), ("type", .string r.type.name),
    ("operator", .string r.operator.tag)] ++ r.value.payloadMembers

namespace Filter

mutual
/-- The filter as a document. -/
def toPayload : Filter → Json
  | .rule r => r.toPayload
  | .group connective children =>
    .object [("condition", .string connective.keyword), ("rules", .array (toPayloads children))]

/-- The documents of several filters. -/
def toPayloads : List Filter → List Json
  | [] => []
  | f :: fs => f.toPayload :: toPayloads fs
end

theorem toPayloads_eq_map (fs : List Filter) : toPayloads fs = fs.map toPayload := by
  induction fs with
  | nil => rfl
  | cons f fs ih => rw [toPayloads, ih, List.map_cons]

end Filter

end FilterSql
