/-!
# Quoted texts

`Text.doubled c` writes every occurrence of the character `c` twice and all else once; texts inside
a pair of quotes are written so.

`Text.quotedBody` reads from behind an opening quote up to the quote that closes the text: a doubled
quote stands for one, and where there is an escape character, it takes the next character as it is.
`quotedBody_doubled` says that a text with doubled quotes is read back and that reading stops at
its closing quote, whatever follows, unless another quote does.
-/

namespace FilterSql.Text

/-! ### Doubled characters -/

def doubled (c : Char) (cs : List Char) : List Char :=
  cs.flatMap fun x => if x = c then [x, x] else [x]

variable {c : Char}

@[simp] theorem doubled_nil : doubled c [] = [] := rfl

theorem doubled_cons (x : Char) (cs : List Char) :
    doubled c (x :: cs) = (if x = c then [x, x] else [x]) ++ doubled c cs := rfl

@[simp] theorem doubled_cons_self (cs : List Char) :
    doubled c (c :: cs) = c :: c :: doubled c cs := by
  simp [doubled_cons]

theorem doubled_cons_of_ne {x : Char} (h : x ≠ c) (cs : List Char) :
    doubled c (x :: cs) = x :: doubled c cs := by
  simp [doubled_cons, h]

@[simp] theorem doubled_append (cs ds : List Char) :
    doubled c (cs ++ ds) = doubled c cs ++ doubled c ds :=
  List.flatMap_append

/-! ### Reading -/

/-- One character more in front of the text that was read. -/
def readMore (c : Char) : Option (List Char × List Char) → Option (List Char × List Char) :=
  Option.map fun r => (c :: r.1, r.2)

/-- The text up to its closing quote and the characters behind that quote; nothing where the text is
not closed. -/
def quotedBody (quote : Char) (escape : Option Char) :
    List Char → Option (List Char × List Char)
  | [] => none
  | [c] => if c = quote then some ([], []) else none
  | c :: d :: rest =>
    if c = quote then
      if d = quote then readMore quote (quotedBody quote escape rest) else some ([], d :: rest)
    else if some c = escape then readMore d (quotedBody quote escape rest)
    else readMore c (quotedBody quote escape (d :: rest))

variable {quote : Char} {escape : Option Char}

@[simp] theorem readMore_some (c : Char) (cs rest : List Char) :
    readMore c (some (cs, rest)) = some (c :: cs, rest) := rfl

/-! ### Single steps -/

theorem quotedBody_close {rest : List Char} (h : rest.head? ≠ some quote) :
    quotedBody quote escape (quote :: rest) = some ([], rest) := by
  cases rest with
  | nil => simp [quotedBody]
  | cons d rest =>
    have hd : d ≠ quote := by simpa using h
    simp [quotedBody, hd]

theorem quotedBody_double (rest : List Char) :
    quotedBody quote escape (quote :: quote :: rest)
      = readMore quote (quotedBody quote escape rest) := by
  simp [quotedBody]

theorem quotedBody_escape {c : Char} (hq : c ≠ quote) (he : some c = escape) (d : Char)
    (rest : List Char) :
    quotedBody quote escape (c :: d :: rest) = readMore d (quotedBody quote escape rest) := by
  simp [quotedBody, hq, he]

theorem quotedBody_cons {c : Char} (hq : c ≠ quote) (he : some c ≠ escape) {rest : List Char}
    (hr : rest ≠ []) :
    quotedBody quote escape (c :: rest) = readMore c (quotedBody quote escape rest) := by
  cases rest with
  | nil => exact absurd rfl hr
  | cons d rest => simp [quotedBody, hq, he]

/-! ### Reading back -/

theorem quotedBody_doubled (cs : List Char) {rest : List Char} (h : rest.head? ≠ some quote) :
    quotedBody quote none (doubled quote cs ++ quote :: rest) = some (cs, rest) := by
  induction cs with
  | nil => exact quotedBody_close h
  | cons c cs ih =>
    by_cases hc : c = quote
    · subst hc
      rw [doubled_cons_self, List.cons_append, List.cons_append, quotedBody_double, ih]
      rfl
    · rw [doubled_cons_of_ne hc, List.cons_append, quotedBody_cons hc (by simp) (by simp), ih]
      rfl

/-! ### What is left -/

/-- What is left behind a quoted text is shorter. -/
theorem length_lt_of_quotedBody {cs text rest : List Char}
    (h : quotedBody quote escape cs = some (text, rest)) : rest.length < cs.length := by
  fun_induction quotedBody quote escape cs generalizing text with
  | case1 => simp at h
  | case2 => simp_all
  | case3 => simp at h
  | case5 => simp_all
  | case4 cs ih | case6 c d cs _ _ ih | case7 c d cs _ _ ih =>
    obtain ⟨r, hr, hp⟩ := Option.map_eq_some_iff.1 h
    have hi := @ih r.1 (by rw [hr, ← (Prod.mk.inj hp).2])
    simp only [List.length_cons] at hi ⊢
    omega

end FilterSql.Text
