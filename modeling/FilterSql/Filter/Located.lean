import FilterSql.Filter.Error

/-!
# Outcomes of parts

`located` turns the outcome of a part into the outcome of the whole, and `eachAt` goes through a
list from left to right, locating the first error at its index.  `eachAt_eq_ok_iff` says what it
means for the items that all of them have an outcome.
-/

namespace FilterSql

/-- The outcome of a part as an outcome of the whole. -/
def located {α : Type} (steps : Path) (outcome : Except Error α) : Except Error α :=
  outcome.mapError (Error.within steps)

/-- The outcomes of all items in order, or the error of the first item that has one, located at its
index; the first item has index `i`. -/
def eachAt {α β : Type} (f : α → Except Error β) (i : Nat) : List α → Except Error (List β)
  | [] => .ok []
  | x :: xs => do
    let y ← located [.index i] (f x)
    let ys ← eachAt f (i + 1) xs
    return y :: ys

variable {α β γ : Type}

/-! ### Locating -/

@[simp] theorem located_ok (steps : Path) (a : α) : located steps (.ok a) = .ok a := rfl

@[simp] theorem located_error (steps : Path) (e : Error) :
    located steps (.error e : Except Error α) = .error (e.within steps) := rfl

@[simp] theorem located_eq_ok_iff {steps : Path} {outcome : Except Error α} {a : α} :
    located steps outcome = .ok a ↔ outcome = .ok a := by
  cases outcome <;> simp

theorem located_eq_error_iff {steps : Path} {outcome : Except Error α} {e : Error} :
    located steps outcome = .error e ↔ ∃ e', outcome = .error e' ∧ e = e'.within steps := by
  cases outcome <;> simp [eq_comm]

theorem Except.map_eq_ok_iff {ε α β : Type} {f : α → β} {outcome : Except ε α} {b : β} :
    outcome.map f = .ok b ↔ ∃ a, outcome = .ok a ∧ f a = b := by
  cases outcome <;> simp [Except.map]

theorem Except.map_eq_error_iff {ε α β : Type} {f : α → β} {outcome : Except ε α} {e : ε} :
    outcome.map f = .error e ↔ outcome = .error e := by
  cases outcome <;> simp [Except.map]

theorem Except.mapError_eq_ok_iff {ε ε' α : Type} {f : ε → ε'} {outcome : Except ε α} {a : α} :
    outcome.mapError f = .ok a ↔ outcome = .ok a := by
  constructor
  · intro h
    cases outcome with
    | error e => exact nomatch h
    | ok b => rw [Except.ok.inj h]
  · rintro rfl
    rfl

theorem Except.mapError_eq_error_iff {ε ε' α : Type} {f : ε → ε'} {outcome : Except ε α} {e' : ε'} :
    outcome.mapError f = .error e' ↔ ∃ e, outcome = .error e ∧ f e = e' := by
  constructor
  · intro h
    cases outcome with
    | error e => exact ⟨e, rfl, Except.error.inj h⟩
    | ok b => exact nomatch h
  · rintro ⟨e, rfl, rfl⟩
    rfl

theorem Except.bind_eq_ok_iff {ε α β : Type} {f : α → Except ε β} {outcome : Except ε α} {b : β} :
    outcome >>= f = .ok b ↔ ∃ a, outcome = .ok a ∧ f a = .ok b := by
  cases outcome <;> simp [bind, Except.bind]

theorem Except.bind_eq_error_iff {ε α β : Type} {f : α → Except ε β} {outcome : Except ε α} {e : ε} :
    outcome >>= f = .error e ↔ outcome = .error e ∨ ∃ a, outcome = .ok a ∧ f a = .error e := by
  cases outcome <;> simp [bind, Except.bind]

theorem Except.eq_ok_of_toOption_join {ε α : Type} {outcome : Except ε (Option α)} {a : α}
    (h : outcome.toOption.join = some a) : outcome = .ok (some a) := by
  rcases outcome with e | _ | b <;> simp_all [Except.toOption]

/-! ### Going through a list -/

@[simp] theorem eachAt_nil (f : α → Except Error β) (i : Nat) : eachAt f i [] = .ok [] := rfl

theorem eachAt_cons_error {f : α → Except Error β} {x : α} {e : Error} (h : f x = .error e)
    (i : Nat) (xs : List α) : eachAt f i (x :: xs) = .error (e.within [.index i]) := by
  simp [eachAt, h, bind, Except.bind]

theorem eachAt_cons_ok {f : α → Except Error β} {x : α} {y : β} (h : f x = .ok y)
    (i : Nat) (xs : List α) : eachAt f i (x :: xs) = (eachAt f (i + 1) xs).map (y :: ·) := by
  cases hs : eachAt f (i + 1) xs <;>
    simp [eachAt, h, hs, bind, Except.bind, pure, Except.pure, Except.map]

/-- An item may be transformed before or while going through the list. -/
theorem eachAt_map (g : γ → α) (f : α → Except Error β) (i : Nat) (xs : List γ) :
    eachAt (fun x => f (g x)) i xs = eachAt f i (xs.map g) := by
  induction xs generalizing i with
  | nil => rfl
  | cons x xs ih => simp [eachAt, ih]

/-- Going through a list depends on the outcomes of its items alone. -/
theorem eachAt_congr {f : α → Except Error γ} {g : β → Except Error γ} {xs : List α} {ys : List β}
    (h : xs.map f = ys.map g) (i : Nat) : eachAt f i xs = eachAt g i ys := by
  calc eachAt f i xs = eachAt id i (xs.map f) := eachAt_map f id i xs
    _ = eachAt id i (ys.map g) := by rw [h]
    _ = eachAt g i ys := (eachAt_map g id i ys).symm

/-- All outcomes are there exactly when each item has one, in its place. -/
theorem eachAt_eq_ok_iff {f : α → Except Error β} {i : Nat} {xs : List α} {ys : List β} :
    eachAt f i xs = .ok ys ↔ xs.map f = ys.map .ok := by
  induction xs generalizing i ys with
  | nil => cases ys <;> simp
  | cons x xs ih =>
    cases hx : f x with
    | error e => cases ys <;> simp [eachAt_cons_error hx, hx]
    | ok y =>
      rw [eachAt_cons_ok hx]
      cases hs : eachAt f (i + 1) xs with
      | error e =>
        have hne : ∀ zs : List β, xs.map f ≠ zs.map .ok := fun zs h => by
          rw [ih.2 h] at hs; exact absurd hs (by simp)
        cases ys <;> simp [Except.map, hne]
      | ok zs =>
        have hz := ih.1 hs
        have hinj : ∀ ws : List β, zs.map (@Except.ok Error β) = ws.map .ok ↔ zs = ws :=
          fun ws => List.map_inj_right fun _ _ h => Except.ok.inj h
        cases ys with
        | nil => simp [Except.map]
        | cons z ws => simp [Except.map, hx, hz, hinj]

end FilterSql
