import FilterSql.Sql.Reading
import FilterSql.Sql.Template

/-!
# Conjunctions inside disjunctions

Without parentheses, tokens are read as conjunctions that are joined to a disjunction.  Such a
reading is kept as data (`Conjunction`, `Disjunction`), so that one can say what becomes of two
readings when their tokens are joined by OR (`Disjunction.Reads.append`) or by AND
(`Disjunction.Reads.abut`): the latter joins the last conjunction of the one to the first of the
other.  `Disjunction.Reads.ofTokens?` is what the reader makes of them.
-/

namespace FilterSql

/-- One condition or more, joined by AND. -/
inductive Conjunction where
  | one (c : Condition)
  | and (c : Condition) (rest : Conjunction)

/-- One conjunction or more, joined by OR. -/
inductive Disjunction where
  | one (p : Conjunction)
  | or (p : Conjunction) (rest : Disjunction)

namespace Conjunction

def toCondition : Conjunction → Condition
  | .one c => c
  | .and c p => .and c p.toCondition

/-- Two conjunctions as one. -/
def append : Conjunction → Conjunction → Conjunction
  | .one c, q => .and c q
  | .and c p, q => .and c (p.append q)

end Conjunction

namespace Disjunction

def toCondition : Disjunction → Condition
  | .one p => p.toCondition
  | .or p s => .or p.toCondition s.toCondition

/-- Two disjunctions as one. -/
def append : Disjunction → Disjunction → Disjunction
  | .one p, t => .or p t
  | .or p s, t => .or p (s.append t)

/-- What an AND between two disjunctions makes of them: it joins what stands right beside it. -/
def abut : Disjunction → Disjunction → Disjunction
  | .one p, .one q => .one (p.append q)
  | .one p, .or q t => .or (p.append q) t
  | .or p s, t => .or p (s.abut t)

end Disjunction

/-! ### What ends a condition -/

/-- The tokens do not carry on an operand. -/
def EndsOperand (d : Dialect) (rest : List Token) : Prop :=
  d.barsJoinTexts = true → rest.head? ≠ some .bars

/-- The tokens do not carry on a conjunction. -/
def EndsConjunction (d : Dialect) (rest : List Token) : Prop :=
  EndsOperand d rest ∧ rest.head? ≠ some (.word "AND")

/-- The tokens do not carry on a disjunction. -/
def EndsDisjunction (rest : List Token) : Prop :=
  rest.head? ≠ some .bars ∧ rest.head? ≠ some (.word "AND") ∧ rest.head? ≠ some (.word "OR")

theorem endsDisjunction_nil : EndsDisjunction [] := by
  simp [EndsDisjunction]

theorem endsDisjunction_closing (rest : List Token) : EndsDisjunction (.closing :: rest) := by
  simp [EndsDisjunction]

theorem EndsDisjunction.endsConjunction {rest : List Token} (h : EndsDisjunction rest)
    (d : Dialect) : EndsConjunction d rest :=
  ⟨fun _ => h.1, h.2.1⟩

/-- The token joins conditions like OR. -/
def Dialect.JoinsConditions (d : Dialect) (t : Token) : Prop :=
  t = .word "OR" ∨ t = .bars ∧ d.barsJoinTexts = false

theorem Dialect.JoinsConditions.endsConjunction {d : Dialect} {t : Token}
    (h : d.JoinsConditions t) (rest : List Token) : EndsConjunction d (t :: rest) := by
  rcases h with rfl | ⟨rfl, hd⟩
  · simp [EndsConjunction, EndsOperand]
  · simp [EndsConjunction, EndsOperand, hd]

/-! ### What tokens are read as -/

variable {d : Dialect} {ts us : List Token}

/-- The tokens are read as a condition that binds tighter than AND. -/
def Condition.Reads (d : Dialect) (ts : List Token) (c : Condition) : Prop :=
  ∀ rest fuel, EndsOperand d rest → 3 * ts.length ≤ fuel →
    Condition.readPrimary d fuel (ts ++ rest) = some (c, rest)

/-- The tokens are conditions with AND between them. -/
inductive Conjunction.Reads (d : Dialect) : List Token → Conjunction → Prop
  | one {ts : List Token} {c : Condition} (condition : c.Reads d ts) : Reads d ts (.one c)
  | and {ts us : List Token} {c : Condition} {p : Conjunction} (condition : c.Reads d ts)
      (rest : Reads d us p) : Reads d (ts ++ .word "AND" :: us) (.and c p)

/-- The tokens are conjunctions with OR between them. -/
inductive Disjunction.Reads (d : Dialect) : List Token → Disjunction → Prop
  | one {ts : List Token} {p : Conjunction} (conjunction : p.Reads d ts) : Reads d ts (.one p)
  | or {ts us : List Token} {t : Token} {p : Conjunction} {s : Disjunction}
      (conjunction : p.Reads d ts) (joins : d.JoinsConditions t) (rest : Reads d us s) :
      Reads d (ts ++ t :: us) (.or p s)

theorem Conjunction.Reads.append {p q : Conjunction} (hp : p.Reads d ts) (hq : q.Reads d us) :
    (p.append q).Reads d (ts ++ .word "AND" :: us) := by
  induction hp with
  | one hc => exact .and hc hq
  | and hc _ ih =>
    rw [List.append_assoc]
    exact .and hc ih

namespace Disjunction.Reads

variable {s t : Disjunction}

theorem append {token : Token} (hs : s.Reads d ts) (hj : d.JoinsConditions token)
    (ht : t.Reads d us) : (s.append t).Reads d (ts ++ token :: us) := by
  induction hs with
  | one hp => exact .or hp hj ht
  | or hp hj' _ ih =>
    rw [List.append_assoc]
    exact .or hp hj' ih

theorem abut (hs : s.Reads d ts) (ht : t.Reads d us) :
    (s.abut t).Reads d (ts ++ .word "AND" :: us) := by
  induction hs with
  | one hp =>
    cases ht with
    | one hq => exact .one (hp.append hq)
    | or hq hj ht =>
      rw [← List.cons_append, ← List.append_assoc]
      exact .or (hp.append hq) hj ht
  | or hp hj _ ih =>
    rw [List.append_assoc]
    exact .or hp hj ih

end Disjunction.Reads

/-! ### The reader -/

theorem Conjunction.Reads.readConjunction {p : Conjunction} (h : p.Reads d ts) :
    ∀ rest fuel, EndsConjunction d rest → 3 * ts.length + 1 ≤ fuel →
      Condition.readConjunction d fuel (ts ++ rest) = some (p.toCondition, rest) := by
  induction h with
  | one hc =>
    intro rest fuel hr hf
    obtain ⟨fuel, rfl⟩ := Nat.exists_eq_add_one.2 (show 0 < fuel by omega)
    rw [Condition.readConjunction, hc rest fuel hr.1 (by omega)]
    obtain ⟨-, hr⟩ := hr
    simp only [Option.bind_eq_bind, Option.bind_some]
    split
    · simp at hr
    · rfl
  | and hc _ ih =>
    intro rest fuel hr hf
    obtain ⟨fuel, rfl⟩ := Nat.exists_eq_add_one.2 (show 0 < fuel by omega)
    rw [List.length_append, List.length_cons] at hf
    rw [List.append_assoc, Condition.readConjunction,
      hc _ fuel (by simp [EndsOperand]) (by omega)]
    simp [ih rest fuel hr (by omega), toCondition]

theorem Disjunction.Reads.readDisjunction {s : Disjunction} (h : s.Reads d ts) :
    ∀ rest fuel, EndsDisjunction rest → 3 * ts.length + 2 ≤ fuel →
      Condition.readDisjunction d fuel (ts ++ rest) = some (s.toCondition, rest) := by
  induction h with
  | one hp =>
    intro rest fuel hr hf
    obtain ⟨fuel, rfl⟩ := Nat.exists_eq_add_one.2 (show 0 < fuel by omega)
    rw [Condition.readDisjunction, hp.readConjunction rest fuel (hr.endsConjunction d) (by omega)]
    obtain ⟨hbars, -, hor⟩ := hr
    simp only [Option.bind_eq_bind, Option.bind_some]
    split
    · simp at hor
    · simp at hbars
    · rfl
  | or hp hj _ ih =>
    intro rest fuel hr hf
    obtain ⟨fuel, rfl⟩ := Nat.exists_eq_add_one.2 (show 0 < fuel by omega)
    rw [List.length_append, List.length_cons] at hf
    rw [List.append_assoc, List.cons_append, Condition.readDisjunction,
      hp.readConjunction _ fuel (hj.endsConjunction _) (by omega)]
    rcases hj with rfl | ⟨rfl, hd⟩
    · simp [ih rest fuel hr (by omega), toCondition]
    · simp [ih rest fuel hr (by omega), toCondition, hd]

/-- All tokens together are read as the condition. -/
theorem Disjunction.Reads.ofTokens? {s : Disjunction} (h : s.Reads d ts) :
    Condition.ofTokens? d ts = some s.toCondition := by
  have hread := h.readDisjunction [] (3 * ts.length + 3) endsDisjunction_nil (by omega)
  rw [List.append_nil] at hread
  rw [Condition.ofTokens?, hread]

/-- Parentheses make one condition of a disjunction. -/
theorem Disjunction.Reads.enclosed {s : Disjunction} (h : s.Reads d ts) :
    s.toCondition.Reads d (.opening :: ts ++ [.closing]) := by
  intro rest fuel _ hf
  simp only [List.cons_append, List.length_cons, List.length_append, List.length_nil] at hf
  obtain ⟨fuel, rfl⟩ := Nat.exists_eq_add_one.2 (show 0 < fuel by omega)
  rw [List.cons_append, List.cons_append, List.append_assoc, Condition.readPrimary]
  simp [h.readDisjunction _ fuel (endsDisjunction_closing rest) (by omega)]

theorem Condition.Reads.enclosed {c : Condition} (h : c.Reads d ts) :
    c.Reads d (.opening :: ts ++ [.closing]) :=
  Disjunction.Reads.enclosed (.one (.one h))

/-- Two conditions between parentheses of their own with AND between them. -/
theorem Condition.Reads.bothEnclosed {c e : Condition} (hc : c.Reads d ts) (he : e.Reads d us) :
    (Disjunction.one (.and c (.one e))).Reads d
      (.opening :: ts ++ [.closing, .word "AND", .opening] ++ us ++ [.closing]) := by
  have h := Disjunction.Reads.one (.and hc.enclosed (.one he.enclosed))
  simpa using h

/-- Two conditions between parentheses of their own with OR between them. -/
theorem Condition.Reads.eitherEnclosed {c e : Condition} (hc : c.Reads d ts) (he : e.Reads d us) :
    (Disjunction.or (.one c) (.one (.one e))).Reads d
      (.opening :: ts ++ [.closing, .word "OR", .opening] ++ us ++ [.closing]) := by
  have h := Disjunction.Reads.or (.one hc.enclosed) (.inl rfl) (.one (.one he.enclosed))
  simpa using h

end FilterSql
