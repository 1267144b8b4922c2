import FilterSql.Json.Numeral

/-!
# Reading JSON texts

`Json.ofText?` decodes a whole text.  Blanks are the four characters of the format, nothing may
follow the value, a member that is named twice has its last value, and at most `Json.levels`
arrays and objects are nested.  Each reader takes what it wants from the front of a list of
characters and returns the rest; `Json.value` recurses on the levels that are left, which is why
no decoded value is deeper (`depth_le_of_ofText?`).
-/

namespace FilterSql.Json

/-- How deep arrays and objects may be nested. -/
def levels : Nat := 127

def isSpace (c : Char) : Bool :=
  c = ' ' || c = '\t' || c = '\n' || c = '\r'

def skip (cs : List Char) : List Char := cs.dropWhile isSpace

/-! ### Strings -/

def hexDigit? (c : Char) : Option Nat :=
  if '0' ≤ c ∧ c ≤ '9' then some (c.toNat - '0'.toNat)
  else if 'a' ≤ c ∧ c ≤ 'f' then some (c.toNat - 'a'.toNat + 10)
  else if 'A' ≤ c ∧ c ≤ 'F' then some (c.toNat - 'A'.toNat + 10)
  else none

/-- The value of four hexadecimal digits. -/
def codeUnit? (a b c d : Char) : Option Nat := do
  let a ← hexDigit? a
  let b ← hexDigit? b
  let c ← hexDigit? c
  let d ← hexDigit? d
  return ((a * 16 + b) * 16 + c) * 16 + d

def isHighSurrogate (n : Nat) : Bool := decide (0xD800 ≤ n) && decide (n < 0xDC00)

def isLowSurrogate (n : Nat) : Bool := decide (0xDC00 ≤ n) && decide (n < 0xE000)

/-- The character of a surrogate pair. -/
def pairChar? (high low : Nat) : Option Char :=
  if isHighSurrogate high && isLowSurrogate low then
    some (Char.ofNat (0x10000 + (high - 0xD800) * 0x400 + (low - 0xDC00)))
  else none

/-- The character of one code unit that is no surrogate. -/
def unitChar? (n : Nat) : Option Char :=
  if isHighSurrogate n || isLowSurrogate n then none else some (Char.ofNat n)

/-- The character that a letter behind a backslash stands for. -/
def escaped? : Char → Option Char
  | '"' => some '"'
  | '\\' => some '\\'
  | '/' => some '/'
  | 'b' => some '\x08'
  | 'f' => some '\x0c'
  | 'n' => some '\n'
  | 'r' => some '\r'
  | 't' => some '\t'
  | _ => none

/-- An escape behind its backslash: the character and the rest.  A high surrogate takes the escape
behind it along. -/
def escape : List Char → Option (Char × List Char)
  | 'u' :: a :: b :: c :: d :: rest => do
    let unit ← codeUnit? a b c d
    if isHighSurrogate unit then
      match rest with
      | '\\' :: 'u' :: e :: f :: g :: h :: rest =>
        let low ← codeUnit? e f g h
        let char ← pairChar? unit low
        return (char, rest)
      | _ => none
    else
      let char ← unitChar? unit
      return (char, rest)
  | c :: rest => (escaped? c).map fun char => (char, rest)
  | [] => none

/-- The characters up to the closing quote, at most `fuel` of them. -/
def quoted : Nat → List Char → Option (List Char × List Char)
  | 0, _ => none
  | fuel + 1, cs =>
    match cs with
    | [] => none
    | '"' :: rest => some ([], rest)
    | '\\' :: rest => do
      let (char, rest) ← escape rest
      let (chars, rest) ← quoted fuel rest
      return (char :: chars, rest)
    | char :: rest =>
      if char.toNat < 0x20 then none
      else do
        let (chars, rest) ← quoted fuel rest
        return (char :: chars, rest)

/-- A string behind its opening quote. -/
def text (cs : List Char) : Option (String × List Char) := do
  let (chars, rest) ← quoted (cs.length + 1) cs
  return (String.ofList chars, rest)

/-! ### Values -/

/-- Any value but an array and an object. -/
def scalar : List Char → Option (Json × List Char)
  | 'n' :: 'u' :: 'l' :: 'l' :: rest => some (.null, rest)
  | 't' :: 'r' :: 'u' :: 'e' :: rest => some (.bool true, rest)
  | 'f' :: 'a' :: 'l' :: 's' :: 'e' :: rest => some (.bool false, rest)
  | '"' :: rest => (text rest).map fun (s, rest) => (.string s, rest)
  | cs => do
    let (numeral, rest) ← Numeral.read cs
    let number ← numeral.number?
    return (.number number, rest)

variable {α : Type}

/-- At least one item, commas between the items, and the closing character behind the last one;
at most `fuel` items. -/
def items (item : List Char → Option (α × List Char)) (close : Char) :
    Nat → List Char → Option (List α × List Char)
  | 0, _ => none
  | fuel + 1, cs => do
    let (x, rest) ← item cs
    match skip rest with
    | [] => none
    | c :: rest =>
      if c = close then some ([x], rest)
      else if c = ',' then do
        let (xs, rest) ← items item close fuel rest
        return (x :: xs, rest)
      else none

/-- The items of an array or an object behind its opening character; there may be none. -/
def listing (item : List Char → Option (α × List Char)) (close : Char) (cs : List Char) :
    Option (List α × List Char) :=
  match skip cs with
  | [] => none
  | c :: rest =>
    if c = close then some ([], rest) else items item close (rest.length + 1) (c :: rest)

/-- A name, a colon and a value. -/
def member (value : List Char → Option (Json × List Char)) (cs : List Char) :
    Option ((String × Json) × List Char) :=
  match skip cs with
  | '"' :: rest => do
    let (name, rest) ← text rest
    match skip rest with
    | ':' :: rest =>
      let (j, rest) ← value rest
      return ((name, j), rest)
    | _ => none
  | _ => none

/-- The object with the given members, the last one of a name being kept. -/
def ofMembers (members : List (String × Json)) : Json :=
  .object (members.foldl (fun kept m => Members.set m.1 m.2 kept) [])

/-- A value in which at most the given number of arrays and objects are nested. -/
def value : Nat → List Char → Option (Json × List Char)
  | 0, cs => scalar (skip cs)
  | more + 1, cs =>
    match skip cs with
    | '[' :: rest => do
      let (elements, rest) ← listing (value more) ']' rest
      return (.array elements, rest)
    | '\x7b' :: rest => do
      let (members, rest) ← listing (member (value more)) '\x7d' rest
      return (ofMembers members, rest)
    | cs => scalar cs

/-- The value of a text that holds one value and nothing else but blanks. -/
def ofText? (s : String) : Option Json :=
  match value levels s.toList with
  | some (j, rest) => if skip rest = [] then some j else none
  | none => none

/-! ### Depth -/

theorem depth_scalar {cs rest : List Char} {j : Json} (h : scalar cs = some (j, rest)) :
    j.depth = 0 := by
  unfold scalar at h
  split at h
  · cases h; rfl
  · cases h; rfl
  · cases h; rfl
  · obtain ⟨r, -, hr⟩ := Option.map_eq_some_iff.1 h
    cases hr; rfl
  · obtain ⟨r, -, h⟩ := Option.bind_eq_some_iff.1 h
    obtain ⟨n, -, h⟩ := Option.bind_eq_some_iff.1 h
    cases h; rfl

/-- What holds of every item that can be read holds of all items of a list. -/
theorem forall_of_items {item : List Char → Option (α × List Char)} {close : Char} {P : α → Prop}
    (hitem : ∀ cs x rest, item cs = some (x, rest) → P x) {fuel : Nat} {cs rest : List Char}
    {xs : List α} (h : items item close fuel cs = some (xs, rest)) : ∀ x ∈ xs, P x := by
  induction fuel generalizing cs rest xs with
  | zero => simp [items] at h
  | succ fuel ih =>
    obtain ⟨⟨x, r⟩, hx, h⟩ := Option.bind_eq_some_iff.1 h
    have hP := hitem _ _ _ hx
    dsimp only at h
    split at h
    · exact absurd h (by simp)
    · split at h
      · cases h; simpa using hP
      · split at h
        · obtain ⟨⟨ys, r'⟩, hy, h⟩ := Option.bind_eq_some_iff.1 h
          cases h
          intro y hmem
          rcases List.mem_cons.1 hmem with rfl | hmem
          · exact hP
          · exact ih hy y hmem
        · exact absurd h (by simp)

theorem forall_of_listing {item : List Char → Option (α × List Char)} {close : Char}
    {P : α → Prop} (hitem : ∀ cs x rest, item cs = some (x, rest) → P x) {cs rest : List Char}
    {xs : List α} (h : listing item close cs = some (xs, rest)) : ∀ x ∈ xs, P x := by
  unfold listing at h
  split at h
  · exact absurd h (by simp)
  · split at h
    · cases h; simp
    · exact forall_of_items hitem h

/-- The value of a member is one that can be read. -/
theorem of_member {value : List Char → Option (Json × List Char)} {P : Json → Prop}
    (hvalue : ∀ cs j rest, value cs = some (j, rest) → P j) {cs rest : List Char}
    {m : String × Json} (h : member value cs = some (m, rest)) : P m.2 := by
  unfold member at h
  split at h
  · obtain ⟨⟨name, r⟩, -, h⟩ := Option.bind_eq_some_iff.1 h
    dsimp only at h
    split at h
    · obtain ⟨⟨j, r'⟩, hj, h⟩ := Option.bind_eq_some_iff.1 h
      cases h
      exact hvalue _ _ _ hj
    · exact absurd h (by simp)
  · exact absurd h (by simp)

theorem depthOfItems_le {js : List Json} {n : Nat} (h : ∀ j ∈ js, j.depth ≤ n) :
    depthOfItems js ≤ n := by
  induction js with
  | nil => exact Nat.zero_le _
  | cons j js ih =>
    exact Nat.max_le.2 ⟨h j List.mem_cons_self, ih fun i hi => h i (List.mem_cons_of_mem _ hi)⟩

theorem depth_ofMembers_le {members : List (String × Json)} {n : Nat}
    (h : ∀ m ∈ members, m.2.depth ≤ n) : (ofMembers members).depth ≤ n + 1 := by
  have key : ∀ kept : List (String × Json), depthOfMembers kept ≤ n →
      depthOfMembers (members.foldl (fun kept m => Members.set m.1 m.2 kept) kept) ≤ n := by
    induction members with
    | nil => exact fun _ hk => hk
    | cons m ms ih =>
      intro kept hk
      refine ih (fun m' hm => h m' (List.mem_cons_of_mem _ hm)) _ ?_
      have hm := h m List.mem_cons_self
      exact Nat.le_trans (depthOfMembers_set_le m.1 m.2 kept) (Nat.max_le.2 ⟨hm, hk⟩)
  exact Nat.succ_le_succ (key [] (Nat.zero_le _))

theorem depth_value_le {levels : Nat} {cs rest : List Char} {j : Json}
    (h : value levels cs = some (j, rest)) : j.depth ≤ levels := by
  induction levels generalizing cs rest j with
  | zero => exact Nat.le_of_eq (depth_scalar h)
  | succ levels ih =>
    have hvalue : ∀ cs j rest, value levels cs = some (j, rest) → j.depth ≤ levels :=
      fun _ _ _ h => ih h
    unfold value at h
    split at h
    · obtain ⟨⟨xs, r⟩, hx, h⟩ := Option.bind_eq_some_iff.1 h
      cases h
      exact Nat.succ_le_succ (depthOfItems_le (forall_of_listing hvalue hx))
    · obtain ⟨⟨ms, r⟩, hm, h⟩ := Option.bind_eq_some_iff.1 h
      cases h
      exact depth_ofMembers_le (forall_of_listing (fun _ _ _ h => of_member hvalue h) hm)
    · exact Nat.le_trans (Nat.le_of_eq (depth_scalar h)) (Nat.zero_le _)

/-- No decoded text is deeper than the limit. -/
theorem depth_le_of_ofText? {s : String} {j : Json} (h : ofText? s = some j) :
    j.depth ≤ levels := by
  unfold ofText? at h
  split at h
  · rename_i j' rest hv
    split at h
    · cases h; exact depth_value_le hv
    · exact absurd h (by simp)
  · exact absurd h (by simp)

end FilterSql.Json
