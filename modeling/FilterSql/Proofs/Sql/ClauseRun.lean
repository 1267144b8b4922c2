import FilterSql.Proofs.Sql.Documents
import FilterSql.Sql.Where

/-!
# Runs of a WHERE clause

A clause only grows, by at most one condition a change, and what a change adds does not depend on
the clause (`WhereClause.conditions_run`).  What a filter returns and leaves is told by what compiling
its text gives, but that a text which holds no object is passed over with a warning
(`WhereClause.Answers`).
-/

namespace FilterSql

/-- The text is that of an object. -/
def Text.HoldsObject (s : String) : Prop := ∃ j, Json.ofText? s = some j ∧ j.isObject = true

theorem Text.not_holdsObject_iff {s : String} :
    ¬ HoldsObject s ↔
      Json.ofText? s = none ∨ ∃ j, Json.ofText? s = some j ∧ j.isObject = false := by
  cases h : Json.ofText? s <;> simp [HoldsObject, h]

/-- The condition that a change adds: what a filter is compiled to. -/
def WhereClause.Change.condition? : Change → Option String
  | .push condition => some condition
  | .filter payload target options =>
    payload.bind fun s => (compileText options s target).toOption.join

section Payload

variable {options : Options} {target s : String}

/-- A text that compiles to a text is that of an object. -/
theorem holdsObject_of_compileText {sql : String}
    (h : compileText options s target = .ok (some sql)) : Text.HoldsObject s := by
  cases hb : Text.isAllBlank s with
  | true =>
    rw [compileText_of_isAllBlank hb] at h
    exact absurd h (by simp)
  | false =>
    cases hj : Json.ofText? s with
    | none =>
      rw [compileText_eq_notJson_iff.2 ⟨hb, hj⟩] at h
      exact absurd h (by simp)
    | some j =>
      rw [compileText_of_ofText? hb hj] at h
      cases ho : j.isObject with
      | true => exact ⟨j, hj, ho⟩
      | false => exact absurd h (compileJson_ne_ok_some ho sql)

end Payload

namespace WhereClause

variable (w : WhereClause) {options : Options} {target s : String} {payload : Option String}

/-! ### Calls -/

/-- A payload that is passed over leaves its warning, and the clause as it was. -/
theorem on_skip (reason : Skip) :
    (skip reason).on w = (.ok (.skipped reason), ⟨w, reason.warning?.toList⟩) := rfl

/-- What adding a filter comes to when it compiles to the outcome. -/
def settled : Except Error (Option String) → Except Error Push × Logged
  | .ok (some sql) => (.ok (.added sql), ⟨w.push sql, []⟩)
  | .ok none => (.ok (.skipped .vacant), ⟨w, []⟩)
  | .error e => (.error e, ⟨w, []⟩)

theorem on_addCondition (condition : Except Error String) :
    (addCondition condition).on w = w.settled (condition.map some) := by
  cases condition <;> rfl

/-- An object is added as it compiles. -/
theorem on_addJson_of_isObject {j : Json} (ho : j.isObject = true) :
    (addJson j target options).on w = w.settled (compileJson options j target) := by
  rw [addJson, if_neg (by simp [ho])]
  cases hv : Payload.isVacant j with
  | true =>
    rw [compileJson_of_isVacant hv, if_pos rfl]
    rfl
  | false =>
    rw [compileJson_of_not_isVacant hv, if_neg Bool.false_ne_true, on_addCondition]
    cases Filter.ofJson j <;> rfl

theorem on_addFilter_of_isAllBlank (hb : Text.isAllBlank s = true) :
    (addFilter (some s) target options).on w = (.ok (.skipped .absent), ⟨w, []⟩) := by
  simp [addFilter, hb, on_skip, Skip.warning?]

theorem on_addFilter_of_holdsObject (hb : Text.isAllBlank s = false) (hs : Text.HoldsObject s) :
    (addFilter (some s) target options).on w = w.settled (compileText options s target) := by
  obtain ⟨j, hj, ho⟩ := hs
  rw [compileText_of_ofText? hb hj, ← on_addJson_of_isObject w ho]
  simp [addFilter, hb, hj]

/-- What is said about a text that holds no object. -/
def warning (s : String) : String :=
  if Json.ofText? s = none then "skipping undecodable filter payload"
  else "skipping filter payload that is not an object"

theorem on_addFilter_of_not_holdsObject (hb : Text.isAllBlank s = false)
    (hs : ¬ Text.HoldsObject s) :
    ∃ reason, (addFilter (some s) target options).on w
      = (.ok (.skipped reason), ⟨w, [warning s]⟩) := by
  rcases Text.not_holdsObject_iff.1 hs with hj | ⟨j, hj, ho⟩
  · have hskip : addFilter (some s) target options = skip .undecodable := by
      simp [addFilter, hb, hj]
    rw [hskip, warning, if_pos hj]
    exact ⟨_, on_skip w .undecodable⟩
  · have hskip : addFilter (some s) target options = skip .notAnObject := by
      simp [addFilter, hb, hj, addJson, ho]
    rw [hskip, warning, if_neg (by simp [hj])]
    exact ⟨_, on_skip w .notAnObject⟩

/-! ### Answers -/

/-- What a filter returns, the clause that it leaves and its warnings, told by what compiling its
text gives. -/
structure Answers (w : WhereClause) (payload : Option String) (target : String) (options : Options)
    (answer : Except Error Push) (next : WhereClause) (warnings : List String) : Prop where
  absent : payload = none → answer = .ok (.skipped .absent) ∧ next = w
  added : ∀ s ∈ payload, ∀ sql, compileText options s target = .ok (some sql) →
    answer = .ok (.added sql) ∧ next.conditions = w.conditions ++ [sql]
  skipped : ∀ s ∈ payload, (compileText options s target = .ok none ∨
      compileText options s target = .error .notJson ∨
      ∃ j, Json.ofText? s = some j ∧ j.isObject = false) →
    (∃ reason, answer = .ok (.skipped reason)) ∧ next = w
  failed : ∀ s ∈ payload, ∀ e, compileText options s target = .error e → e ≠ .notJson →
    (∀ j, Json.ofText? s = some j → j.isObject = true) → answer = .error e ∧ next = w
  answered : ∀ push, answer = .ok push → next = push.clause w
  warned : warnings ≠ [] ↔ ∃ s ∈ payload, (∃ c ∈ s.toList, Text.isBlank c = false) ∧
    (Json.ofText? s = none ∨ ∃ j, Json.ofText? s = some j ∧ j.isObject = false)
  warnedOnce : warnings = [] ∨ ∃ s ∈ payload, warnings = [warning s]

theorem answers_none : w.Answers none target options (.ok (.skipped .absent)) w [] := by
  constructor
  case answered =>
    rintro _ ⟨⟩
    rfl
  all_goals simp

theorem answers_of_isAllBlank (hb : Text.isAllBlank s = true) :
    w.Answers (some s) target options (.ok (.skipped .absent)) w [] := by
  have hnone := @compileText_of_isAllBlank options target s hb
  have hblank : ∀ c ∈ s.toList, Text.isBlank c = true := List.all_eq_true.1 hb
  constructor
  case warned =>
    refine ⟨fun h => absurd rfl h, ?_⟩
    rintro ⟨_, ⟨⟩, ⟨c, hc, hn⟩, -⟩
    exact absurd (hblank c hc) (by simp [hn])
  case answered =>
    rintro _ ⟨⟩
    rfl
  all_goals simp [hnone]

theorem answers_of_not_holdsObject {reason : Skip} (hb : Text.isAllBlank s = false)
    (hs : ¬ Text.HoldsObject s) :
    w.Answers (some s) target options (.ok (.skipped reason)) w [warning s] := by
  have hj := Text.not_holdsObject_iff.1 hs
  constructor
  case absent => simp
  case warned =>
    exact ⟨fun _ => ⟨s, rfl, Text.isAllBlank_eq_false_iff.1 hb, hj⟩, fun _ => List.cons_ne_nil _ _⟩
  case warnedOnce => exact .inr ⟨s, rfl, rfl⟩
  case answered =>
    rintro _ ⟨⟩
    rfl
  case added =>
    rintro _ ⟨⟩ sql hc
    exact absurd (holdsObject_of_compileText hc) hs
  case skipped => exact fun _ _ _ => ⟨⟨reason, rfl⟩, rfl⟩
  case failed =>
    rintro _ ⟨⟩ e hc hne hobject
    rcases hj with hj | ⟨j, hj, ho⟩
    · rw [compileText_eq_notJson_iff.2 ⟨hb, hj⟩] at hc
      exact absurd (Except.error.inj hc).symm hne
    · exact absurd (hobject j hj) (by simp [ho])

theorem clause_settled {outcome : Except Error (Option String)} {push : Push}
    (h : (w.settled outcome).1 = .ok push) : (w.settled outcome).2.clause = push.clause w := by
  rcases outcome with e | _ | sql <;> cases h <;> rfl

theorem warnings_settled (outcome : Except Error (Option String)) :
    (w.settled outcome).2.warnings = [] := by
  rcases outcome with e | _ | sql <;> rfl

theorem answers_of_holdsObject (hs : Text.HoldsObject s) :
    w.Answers (some s) target options (w.settled (compileText options s target)).1
      (w.settled (compileText options s target)).2.clause [] := by
  have hj := Text.not_holdsObject_iff.not_right.1 hs
  constructor
  case absent => simp
  case warned =>
    refine ⟨fun h => absurd rfl h, ?_⟩
    rintro ⟨_, ⟨⟩, -, hn⟩
    exact absurd hn hj
  case warnedOnce => exact .inl rfl
  case answered => exact fun push => clause_settled w
  case added =>
    rintro _ ⟨⟩ sql hc
    rw [hc]
    exact ⟨rfl, rfl⟩
  case skipped =>
    rintro _ ⟨⟩ (hc | hc | hn)
    · rw [hc]
      exact ⟨⟨.vacant, rfl⟩, rfl⟩
    · exact absurd (.inl (compileText_eq_notJson_iff.1 hc).2) hj
    · exact absurd (.inr hn) hj
  case failed =>
    rintro _ ⟨⟩ e hc - -
    rw [hc]
    exact ⟨rfl, rfl⟩

/-- A filter is answered as its text compiles. -/
theorem answers_addFilter (payload : Option String) (target : String) (options : Options) :
    w.Answers payload target options (w.pushFilter payload target options)
      (w.change (.filter payload target options)) (w.warnings payload target options) := by
  rw [pushFilter, change, warnings]
  rcases payload with _ | s
  · exact answers_none w
  cases hb : Text.isAllBlank s with
  | true =>
    rw [on_addFilter_of_isAllBlank w hb]
    exact answers_of_isAllBlank w hb
  | false =>
    by_cases hs : Text.HoldsObject s
    · rw [on_addFilter_of_holdsObject w hb hs, warnings_settled]
      exact answers_of_holdsObject w hs
    · obtain ⟨reason, hon⟩ := @on_addFilter_of_not_holdsObject w options target s hb hs
      rw [hon]
      exact answers_of_not_holdsObject w hb hs

/-- A filter that does not compile leaves the clause alone. -/
theorem Answers.eq_of_error {answer : Except Error Push} {next : WhereClause}
    {warnings : List String} {e : Error}
    (h : w.Answers (some s) target options answer next warnings)
    (hc : compileText options s target = .error e) : next = w := by
  -- A text that is no JSON or no object is skipped, any other error is handed on.
  by_cases hn : e = .notJson
  · exact (h.skipped s rfl (.inr (.inl (hn ▸ hc)))).2
  · by_cases ho : ∃ j, Json.ofText? s = some j ∧ j.isObject = false
    · exact (h.skipped s rfl (.inr (.inr ho))).2
    · exact (h.failed s rfl e hc hn (by simpa using ho)).2

/-! ### Runs -/

/-- A change adds its own condition, if any, behind the others. -/
theorem conditions_change (c : Change) :
    (w.change c).conditions = w.conditions ++ c.condition?.toList := by
  cases c with
  | push condition => rfl
  | filter payload target options =>
    have h := w.answers_addFilter payload target options
    rcases payload with _ | s
    · rw [(h.absent rfl).2]
      exact (List.append_nil _).symm
    · rw [Change.condition?, Option.bind_some]
      rcases hc : compileText options s target with e | _ | sql
      case ok.some => exact (h.added s rfl sql hc).2
      case ok.none =>
        rw [(h.skipped s rfl (.inl hc)).2]
        exact (List.append_nil _).symm
      case error =>
        rw [h.eq_of_error w hc]
        exact (List.append_nil _).symm

/-- A run adds the conditions of its changes, in order. -/
theorem conditions_run (changes : List Change) :
    (w.run changes).conditions = w.conditions ++ changes.filterMap Change.condition? := by
  induction changes generalizing w with
  | nil => exact (List.append_nil _).symm
  | cons c changes ih =>
    have hfilter : (c :: changes).filterMap Change.condition?
        = c.condition?.toList ++ changes.filterMap Change.condition? := by
      cases h : c.condition? <;> simp [h]
    show ((w.change c).run changes).conditions = _
    rw [ih, conditions_change, hfilter, List.append_assoc]

theorem run_concat (changes : List Change) (c : Change) :
    w.run (changes ++ [c]) = (w.run changes).change c := by
  rw [run, List.foldl_append]
  rfl

/-! ### Main result -/

/-- Whatever has been asked of a clause that began empty, it holds what the changes have added, in
order.  The next change leaves that alone and adds at most one condition: the one pushed, or what
the filter is compiled to. -/
theorem run_answers (before : List Change) :
    (run {} before).conditions = before.filterMap Change.condition? ∧
    (∀ c, ∃ added, added.length ≤ 1 ∧
      (run {} (before ++ [c])).conditions = (run {} before).conditions ++ added) ∧
    (∀ condition, (run {} (before ++ [.push condition])).conditions
      = (run {} before).conditions ++ [condition]) ∧
    ∀ payload target options, (run {} before).Answers payload target options
      ((run {} before).pushFilter payload target options)
      (run {} (before ++ [.filter payload target options]))
      ((run {} before).warnings payload target options) := by
  simp only [run_concat]
  refine ⟨conditions_run {} before, fun c => ⟨_, ?_, conditions_change _ c⟩, fun condition => rfl,
    fun payload target options => answers_addFilter _ payload target options⟩
  cases c.condition? <;> simp

/-- A null behind a pushed condition and a compiled filter: a warning, and nothing else. -/
theorem run_answers_null :
    ∃ before, (run {} before).conditions = ["`deleted` = 0", " ( `t` IS NULL ) "] ∧
      run {} (before ++ [.filter (some "null") "t" {}]) = run {} before ∧
      (∃ reason, (run {} before).pushFilter (some "null") "t" {} = .ok (.skipped reason)) ∧
      (run {} before).warnings (some "null") "t" {} ≠ [] := by
  have hdecode : Json.ofText? "\x7b\"field\":\"a\",\"operator\":\"is_null\"\x7d"
      = some (.object [("field", .string "a"), ("operator", .string "is_null")]) := rfl
  have hcompile : compileText {} "\x7b\"field\":\"a\",\"operator\":\"is_null\"\x7d" "t"
      = .ok (some " ( `t` IS NULL ) ") := by
    rw [compileText_of_ofText? rfl hdecode, compileJson, Filter.ofJson_of_rule rfl]
    rfl
  obtain ⟨hconditions, -, -, hanswers⟩ := run_answers [.push "`deleted` = 0",
    .filter (some "\x7b\"field\":\"a\",\"operator\":\"is_null\"\x7d") "t" {}]
  have hnull : Json.ofText? "null" = some .null := rfl
  have h := hanswers (some "null") "t" {}
  obtain ⟨hskipped, hnext⟩ := h.skipped _ rfl (.inr (.inr ⟨_, hnull, rfl⟩))
  refine ⟨_, ?_, hnext, hskipped,
    h.warned.2 ⟨_, rfl, ⟨'n', by decide, by decide⟩, .inr ⟨_, hnull, rfl⟩⟩⟩
  rw [hconditions]
  simp [Change.condition?, hcompile, Except.toOption]

end WhereClause

end FilterSql
