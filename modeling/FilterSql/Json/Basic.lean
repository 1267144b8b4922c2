import FilterSql.Binary64.Basic

/-!
# JSON values

`Json` is the type of decoded documents.  A number is either a whole number of the range that fits
into a signed or an unsigned word of 64 bits, or a finite binary datum (`Json.Number`).  Objects keep
their members in order; `Json.Members.set` replaces an earlier member of the same name, so that
decoded objects have one member a name and `Json.member?` finds it.  `Json.depth` counts nested
arrays and objects.
-/

namespace FilterSql

/-- The numbers of JSON texts after decoding. -/
inductive Json.Number where
  /-- A whole number that was written without fraction and exponent. -/
  | integer (value : Int) (least : -0x8000000000000000 ≤ value) (greatest : value < 0x10000000000000000)
  /-- Any other number. -/
  | float (value : Binary64) (finite : value.isFinite = true)
  deriving DecidableEq, Repr

inductive Json where
  | null
  | bool (value : Bool)
  | number (value : Json.Number)
  | string (value : String)
  | array (items : List Json)
  | object (members : List (String × Json))
  deriving Repr

namespace Json

/-- The value of the first member with the name. -/
def Members.get? (name : String) : List (String × Json) → Option Json
  | [] => none
  | (other, value) :: rest => if other = name then some value else Members.get? name rest

/-- Gives the name the value; a member of that name is replaced where it stands. -/
def Members.set (name : String) (value : Json) : List (String × Json) → List (String × Json)
  | [] => [(name, value)]
  | (other, old) :: rest =>
    if other = name then (name, value) :: rest else (other, old) :: Members.set name value rest

/-- The member of an object; other values have none. -/
def member? (name : String) : Json → Option Json
  | .object members => Members.get? name members
  | _ => none

def isObject : Json → Bool
  | .object _ => true
  | _ => false

mutual
/-- How deep arrays and objects are nested; a scalar has depth zero. -/
def depth : Json → Nat
  | .array items => depthOfItems items + 1
  | .object members => depthOfMembers members + 1
  | _ => 0

/-- The greatest depth in a list of values. -/
def depthOfItems : List Json → Nat
  | [] => 0
  | item :: rest => max item.depth (depthOfItems rest)

/-- The greatest depth in a list of members. -/
def depthOfMembers : List (String × Json) → Nat
  | [] => 0
  | (_, value) :: rest => max value.depth (depthOfMembers rest)
end

/-! ### Members -/

theorem Members.mem_of_get? {name : String} {value : Json} {members : List (String × Json)}
    (h : Members.get? name members = some value) : (name, value) ∈ members := by
  induction members with
  | nil => simp [get?] at h
  | cons m rest ih =>
    obtain ⟨other, v⟩ := m
    by_cases hm : other = name
    · simp_all [get?]
    · simp only [get?, hm, if_false] at h
      exact List.mem_cons_of_mem _ (ih h)

/-- A member is a part of its object. -/
theorem sizeOf_member?_lt {name : String} {j value : Json} (h : j.member? name = some value) :
    sizeOf value < sizeOf j := by
  cases j <;> simp only [member?, reduceCtorEq] at h
  rename_i members
  have hs := List.sizeOf_lt_of_mem (Members.mem_of_get? h)
  simp only [Prod.mk.sizeOf_spec, object.sizeOf_spec] at hs ⊢
  omega

/-! ### Depth -/

theorem depth_le_depthOfItems {item : Json} {items : List Json} (h : item ∈ items) :
    item.depth ≤ depthOfItems items := by
  induction items with
  | nil => simp at h
  | cons x rest ih =>
    rcases List.mem_cons.1 h with rfl | h
    · exact Nat.le_max_left _ _
    · exact Nat.le_trans (ih h) (Nat.le_max_right _ _)

theorem depth_le_depthOfMembers {name : String} {value : Json} {members : List (String × Json)}
    (h : (name, value) ∈ members) : value.depth ≤ depthOfMembers members := by
  induction members with
  | nil => simp at h
  | cons x rest ih =>
    rcases List.mem_cons.1 h with rfl | h
    · exact Nat.le_max_left _ _
    · exact Nat.le_trans (ih h) (Nat.le_max_right _ _)

/-- A member lies one level below its object. -/
theorem depth_member?_lt {name : String} {j value : Json} (h : j.member? name = some value) :
    value.depth < j.depth := by
  cases j <;> simp only [member?, reduceCtorEq] at h
  rw [depth]
  exact Nat.lt_succ_of_le (depth_le_depthOfMembers (Members.mem_of_get? h))

theorem depthOfMembers_set_le (name : String) (value : Json) (members : List (String × Json)) :
    depthOfMembers (Members.set name value members)
      ≤ max value.depth (depthOfMembers members) := by
  induction members with
  | nil => simp [Members.set, depthOfMembers]
  | cons m rest ih =>
    by_cases h : m.1 = name <;> simp only [Members.set, h, depthOfMembers, if_true, if_false] <;>
      omega

end Json

end FilterSql
