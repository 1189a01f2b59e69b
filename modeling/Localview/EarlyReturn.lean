import Mathlib.Logic.Basic

/-! # Checks that return early

A guarded function is a chain of checks `if bad { return Err(e) }` followed by
its result.  `rejectIf` is one such check in `Except`, and the `simp` lemmas
below turn "the chain succeeded" into the conjunction of the checks passed.
-/
namespace EarlyReturn
variable {ε α β : Type}

/-- `if bad { return Err(e) }` -/
def rejectIf (bad : Prop) [Decidable bad] (e : ε) : Except ε Unit :=
  if bad then .error e else .ok ()

def okOr (value : Option α) (e : ε) : Except ε α :=
  match value with
  | some a => .ok a
  | none => .error e

variable {x : Except ε α} {f : α → Except ε β}

theorem bind_eq_ok {b : β} :
    (x >>= f) = .ok b ↔ ∃ a, x = .ok a ∧ f a = .ok b := by
  cases x with
  | error e =>
    constructor
    · intro h; cases h
    · rintro ⟨_, h, _⟩; cases h
  | ok a =>
    constructor
    · intro h; exact ⟨a, rfl, h⟩
    · rintro ⟨_, h, hf⟩; cases h; exact hf

@[simp] theorem rejectIf_eq_ok {bad : Prop} [Decidable bad] {e : ε} {u : Unit} :
    rejectIf bad e = .ok u ↔ ¬ bad := by
  by_cases h : bad <;> simp [rejectIf, h]

@[simp] theorem rejectIf_bind_eq_ok {bad : Prop} [Decidable bad] {e : ε}
    {f : Unit → Except ε β} {b : β} :
    (rejectIf bad e >>= f) = .ok b ↔ ¬ bad ∧ f () = .ok b := by
  by_cases h : bad
  · simp [rejectIf, h, bind_eq_ok]
  · simp [rejectIf, h, bind, Except.bind]

@[simp] theorem okOr_eq_ok {value : Option α} {e : ε} {a : α} :
    okOr value e = .ok a ↔ value = some a := by
  cases value <;> simp [okOr]

@[simp] theorem okOr_bind_eq_ok {value : Option α} {e : ε} {b : β} :
    (okOr value e >>= f) = .ok b ↔ ∃ a, value = some a ∧ f a = .ok b := by
  rw [bind_eq_ok]
  simp

/-- A result that is there and passes a test. -/
theorem exists_eq_ok {P : α → Prop} [DecidablePred P]
    (h : x.toOption.any (fun a => decide (P a)) = true) : ∃ a, x = .ok a ∧ P a := by
  cases x with
  | error e => cases h
  | ok a => exact ⟨a, rfl, of_decide_eq_true h⟩

theorem bind_eq_error {e : ε} :
    (x >>= f) = .error e ↔ x = .error e ∨ ∃ a, x = .ok a ∧ f a = .error e := by
  cases x with
  | error e' => simp [bind, Except.bind]
  | ok a => simp [bind, Except.bind]

@[simp] theorem rejectIf_eq_error {bad : Prop} [Decidable bad] {e e' : ε} :
    rejectIf bad e = .error e' ↔ bad ∧ e = e' := by
  by_cases h : bad <;> simp [rejectIf, h]

theorem mapError_error {ε' : Type} {f : ε → ε'} {e : ε} :
    (.error e : Except ε α).mapError f = .error (f e) := rfl

theorem mapError_ok {ε' : Type} {f : ε → ε'} {a : α} : (.ok a : Except ε α).mapError f = .ok a :=
  rfl

theorem mapError_eq_error {ε' : Type} {f : ε → ε'} {e : ε'} :
    x.mapError f = .error e ↔ ∃ e', x = .error e' ∧ f e' = e := by
  cases x <;> simp [mapError_error, mapError_ok]

theorem mapError_eq_ok {ε' : Type} {f : ε → ε'} {a : α} :
    x.mapError f = .ok a ↔ x = .ok a := by
  cases x <;> simp [mapError_error, mapError_ok]

theorem discard_eq_ok {u : PUnit} :
    (discard x : Except ε PUnit) = .ok u ↔ ∃ a, x = .ok a := by
  cases x with
  | error e =>
    constructor
    · intro h; cases h
    · rintro ⟨_, h⟩; cases h
  | ok a => exact ⟨fun _ => ⟨a, rfl⟩, fun _ => rfl⟩

theorem toOption_eq_some {a : α} : x.toOption = some a ↔ x = .ok a := by
  cases x <;> simp [Except.toOption]

end EarlyReturn
