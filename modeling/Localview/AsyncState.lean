import Mathlib.Logic.Basic

/-! # Async functions on a shared state

An async function owns nothing between its accesses: before each of them the
other tasks have moved the state it shares with them.  `Async σ ε α` is such a
function.  It may fail with an `ε`, and what it did to the state before stays
done.

`Ends t sh ok err` says how the function ends from `sh`: with an answer and a state
of `ok`, or with an error and a state of `err`.  The rules compute it backwards
through the code of the function, one access at a time.
-/
namespace AsyncState
variable {σ ε ε' α β : Type}

/-- The shared state, and what the other tasks do to it before each of the
function's next accesses. -/
structure Shared (σ : Type) where
  state : σ
  others : Nat → σ → σ

namespace Shared

/-- The other tasks' next turn. -/
def next (sh : Shared σ) : Shared σ :=
  { state := sh.others 0 sh.state, others := fun n => sh.others (n + 1) }

/-- The other tasks' next turns, the function itself changing nothing. -/
def after (sh : Shared σ) : Nat → Shared σ
  | 0 => sh
  | n + 1 => (sh.after n).next

@[simp] theorem after_after (sh : Shared σ) (m n : Nat) :
    (sh.after m).after n = sh.after (m + n) := by
  induction n with
  | zero => rfl
  | succ n ih =>
    show ((sh.after m).after n).next = (sh.after (m + n)).next
    rw [ih]

/-- The state as this function's access leaves it. -/
def set (sh : Shared σ) (s : σ) : Shared σ := { sh with state := s }

end Shared

/-- An async function on a shared state. -/
def Async (σ ε α : Type) : Type := Shared σ → Except ε α × Shared σ

namespace Async

instance : Monad (Async σ ε) where
  pure a := fun sh => (.ok a, sh)
  bind t f := fun sh =>
    match t sh with
    | (.ok a, sh) => f a sh
    | (.error e, sh) => (.error e, sh)

/-- `return Err(e)` -/
def fail (e : ε) : Async σ ε α := fun sh => (.error e, sh)

/-- `if bad { return Err(e) }` -/
def reject (bad : Prop) [Decidable bad] (e : ε) : Async σ ε Unit :=
  if bad then fail e else pure ()

def ofExcept (result : Except ε α) : Async σ ε α := fun sh => (result, sh)

/-- `value.ok_or(e)?` -/
def ofOption (value : Option α) (e : ε) : Async σ ε α :=
  match value with
  | some a => pure a
  | none => fail e

/-- One access to the shared state, after the other tasks' turn. -/
def access (operation : σ → Except ε α × σ) : Async σ ε α := fun sh =>
  let (result, s) := operation (sh.after 1).state
  (result, (sh.after 1).set s)

/-- An access that only looks. -/
def read (f : σ → α) : Async σ ε α := access fun s => (.ok (f s), s)

/-- `function.map_err(f)?` -/
def mapError (f : ε → ε') (t : Async σ ε α) : Async σ ε' α := fun sh =>
  match t sh with
  | (.ok a, sh) => (.ok a, sh)
  | (.error e, sh) => (.error (f e), sh)

/-- `match function { Ok(a) => .., Err(e) => .. }`: the failure is the caller's to
handle. -/
def attempt (t : Async σ ε α) : Async σ ε' (Except ε α) := fun sh =>
  (.ok (t sh).1, (t sh).2)

theorem bind_apply (t : Async σ ε α) (f : α → Async σ ε β) (sh : Shared σ) :
    (t >>= f) sh = match t sh with
      | (.ok a, sh) => f a sh
      | (.error e, sh) => (.error e, sh) := rfl

theorem mapError_apply (f : ε' → ε) (t : Async σ ε' α) (sh : Shared σ) :
    mapError f t sh = match t sh with
      | (.ok a, sh) => (.ok a, sh)
      | (.error e, sh) => (.error (f e), sh) := rfl

end Async

open Async

/-! ## How a function ends -/

/-- The function ends well in `ok`, or with an error in `err`. -/
def Ends (t : Async σ ε α) (sh : Shared σ) (ok : α → Shared σ → Prop)
    (err : ε → Shared σ → Prop) : Prop :=
  match t sh with
  | (.ok a, sh) => ok a sh
  | (.error e, sh) => err e sh

section
variable {sh : Shared σ} {ok : α → Shared σ → Prop} {err : ε → Shared σ → Prop}

theorem Ends.of_ok {t : Async σ ε α} (h : Ends t sh ok err) {a : α} {sh' : Shared σ}
    (hrun : t sh = (.ok a, sh')) : ok a sh' := by
  unfold Ends at h
  rwa [hrun] at h

theorem Ends.mono {t : Async σ ε α} {ok' : α → Shared σ → Prop} {err' : ε → Shared σ → Prop}
    (h : Ends t sh ok err) (hok : ∀ a sh', ok a sh' → ok' a sh')
    (herr : ∀ e sh', err e sh' → err' e sh') : Ends t sh ok' err' := by
  unfold Ends at h ⊢
  rcases hrun : t sh with ⟨e | a, sh'⟩
  · rw [hrun] at h
    exact herr e sh' h
  · rw [hrun] at h
    exact hok a sh' h

@[simp] theorem ends_pure {a : α} : Ends (pure a) sh ok err ↔ ok a sh := Iff.rfl

@[simp] theorem ends_fail {e : ε} : Ends (fail e) sh ok err ↔ err e sh := Iff.rfl

/-- **Sequencing**: the rest runs where the first part ends well. -/
@[simp] theorem ends_bind {t : Async σ ε α} {f : α → Async σ ε β} {ok : β → Shared σ → Prop} :
    Ends (t >>= f) sh ok err ↔ Ends t sh (fun a sh' => Ends (f a) sh' ok err) err := by
  unfold Ends
  rw [bind_apply]
  rcases t sh with ⟨e | a, sh'⟩ <;> rfl

@[simp] theorem ends_reject {bad : Prop} [Decidable bad] {e : ε} {ok : Unit → Shared σ → Prop} :
    Ends (reject bad e) sh ok err ↔ (bad → err e sh) ∧ (¬ bad → ok () sh) := by
  unfold reject
  by_cases h : bad
  · rw [if_pos h]
    simp [h]
  · rw [if_neg h]
    simp [h]

@[simp] theorem ends_ofExcept {result : Except ε α} :
    Ends (ofExcept result) sh ok err ↔
      (∀ a, result = .ok a → ok a sh) ∧ ∀ e, result = .error e → err e sh := by
  cases result with
  | error e => exact ⟨fun h => ⟨(by intro a ha; cases ha), (by intro e' he; cases he; exact h)⟩,
      fun h => h.2 e rfl⟩
  | ok a => exact ⟨fun h => ⟨(by intro a' ha; cases ha; exact h), (by intro e he; cases he)⟩,
      fun h => h.1 a rfl⟩

@[simp] theorem ends_ofOption {value : Option α} {e : ε} :
    Ends (ofOption value e) sh ok err ↔
      (∀ a, value = some a → ok a sh) ∧ (value = none → err e sh) := by
  cases value with
  | none => simp [ofOption]
  | some a => simp [ofOption]

/-- **One access**: the other tasks' turn, then the operation. -/
theorem ends_access {operation : σ → Except ε α × σ} :
    Ends (access operation) sh ok err ↔
      (∀ a, (operation (sh.after 1).state).1 = .ok a →
          ok a ((sh.after 1).set (operation (sh.after 1).state).2)) ∧
        ∀ e, (operation (sh.after 1).state).1 = .error e →
          err e ((sh.after 1).set (operation (sh.after 1).state).2) := by
  have hrun : access operation sh = ((operation (sh.after 1).state).1,
      (sh.after 1).set (operation (sh.after 1).state).2) := rfl
  unfold Ends
  rw [hrun]
  rcases (operation (sh.after 1).state).1 with e | a
  · simp
  · simp

@[simp] theorem ends_read {f : σ → α} :
    Ends (read f) sh ok err ↔ ok (f (sh.after 1).state) (sh.after 1) := Iff.rfl

@[simp] theorem ends_mapError {f : ε' → ε} {t : Async σ ε' α} :
    Ends (mapError f t) sh ok err ↔ Ends t sh ok fun e sh' => err (f e) sh' := by
  unfold Ends
  rw [mapError_apply]
  rcases t sh with ⟨e | a, sh'⟩ <;> rfl

/-- **Handling**: a handled failure ends well. -/
@[simp] theorem ends_attempt {t : Async σ ε' α} {ok : Except ε' α → Shared σ → Prop} :
    Ends (attempt t : Async σ ε (Except ε' α)) sh ok err ↔
      Ends t sh (fun a => ok (.ok a)) fun e => ok (.error e) := by
  show ok (t sh).1 (t sh).2 ↔ _
  unfold Ends
  rcases t sh with ⟨e | a, sh'⟩ <;> rfl

/-- Two specifications of one run hold together. -/
theorem Ends.and {t : Async σ ε α} {ok' : α → Shared σ → Prop} {err' : ε → Shared σ → Prop}
    (h : Ends t sh ok err) (h' : Ends t sh ok' err') :
    Ends t sh (fun a sh' => ok a sh' ∧ ok' a sh') (fun e sh' => err e sh' ∧ err' e sh') := by
  unfold Ends at h h' ⊢
  rcases hrun : t sh with ⟨e | a, sh'⟩
  · rw [hrun] at h h'
    exact ⟨h, h'⟩
  · rw [hrun] at h h'
    exact ⟨h, h'⟩

/-- A function that ends somehow ends. -/
theorem ends_trivial (t : Async σ ε α) (sh : Shared σ) : Ends t sh (fun _ _ => True) (fun _ _ => True) := by
  unfold Ends
  rcases t sh with ⟨e | a, sh'⟩
  · trivial
  · trivial

end

/-! ## Functions that only look -/

/-- The function leaves the state to the other tasks. -/
def Looks (t : Async σ ε α) : Prop := ∀ sh, ∃ n, (t sh).2 = sh.after n

theorem looks_pure (a : α) : Looks (pure a : Async σ ε α) := fun _ => ⟨0, rfl⟩

theorem looks_fail (e : ε) : Looks (fail e : Async σ ε α) := fun _ => ⟨0, rfl⟩

theorem looks_reject (bad : Prop) [Decidable bad] (e : ε) :
    Looks (reject bad e : Async σ ε Unit) := by
  unfold reject
  split
  · exact looks_fail e
  · exact looks_pure ()

theorem looks_ofOption (value : Option α) (e : ε) : Looks (ofOption value e : Async σ ε α) := by
  cases value with
  | none => exact looks_fail e
  | some a => exact looks_pure a

theorem looks_ofExcept (result : Except ε α) : Looks (ofExcept result : Async σ ε α) :=
  fun _ => ⟨0, rfl⟩

/-- An access looks if its operation returns the state it was given. -/
theorem looks_access {operation : σ → Except ε α × σ} (h : ∀ s, (operation s).2 = s) :
    Looks (access operation) := by
  intro sh
  refine ⟨1, ?_⟩
  show (sh.after 1).set (operation (sh.after 1).state).2 = sh.after 1
  rw [h]
  rfl

theorem looks_read (f : σ → α) : Looks (read f : Async σ ε α) := looks_access fun _ => rfl

theorem Looks.bind {t : Async σ ε α} {f : α → Async σ ε β} (ht : Looks t) (hf : ∀ a, Looks (f a)) :
    Looks (t >>= f) := by
  intro sh
  obtain ⟨m, hm⟩ := ht sh
  rw [bind_apply]
  rcases htsh : t sh with ⟨e | a, sh'⟩ <;> rw [htsh] at hm
  · exact ⟨m, hm⟩
  · obtain ⟨n, hn⟩ := hf a sh'
    refine ⟨m + n, ?_⟩
    rw [← Shared.after_after, ← hm]
    exact hn

theorem Looks.mapError {t : Async σ ε' α} (ht : Looks t) {f : ε' → ε} :
    Looks (Async.mapError f t) := by
  intro sh
  obtain ⟨n, hn⟩ := ht sh
  refine ⟨n, ?_⟩
  rw [mapError_apply]
  rcases htsh : t sh with ⟨e | a, sh'⟩ <;> rw [htsh] at hn
  · exact hn
  · exact hn

/-- Where a function only looks, its ends need to be compared only in the states
the other tasks lead to. -/
theorem Looks.ends_congr {t : Async σ ε α} {sh : Shared σ} {ok ok' : α → Shared σ → Prop}
    {err err' : ε → Shared σ → Prop} (ht : Looks t)
    (hok : ∀ a n, ok a (sh.after n) ↔ ok' a (sh.after n))
    (herr : ∀ e n, err e (sh.after n) ↔ err' e (sh.after n)) :
    Ends t sh ok err ↔ Ends t sh ok' err' := by
  obtain ⟨n, hn⟩ := ht sh
  unfold Ends
  rcases hrun : t sh with ⟨e | a, sh'⟩ <;> rw [hrun] at hn
  · simp only at hn
    rw [hn]
    exact herr e n
  · simp only at hn
    rw [hn]
    exact hok a n

/-! ## Invariants -/

/-- However the function ends, it keeps the invariant. -/
def Keeps (I : Shared σ → Prop) (t : Async σ ε α) : Prop :=
  ∀ sh, I sh → Ends t sh (fun _ => I) (fun _ => I)

section
variable {I : Shared σ → Prop}

theorem keeps_pure (a : α) : Keeps I (pure a : Async σ ε α) := fun _ h => h

theorem keeps_fail (e : ε) : Keeps I (fail e : Async σ ε α) := fun _ h => h

theorem keeps_ofExcept (result : Except ε α) : Keeps I (ofExcept result : Async σ ε α) :=
  fun _ h => ends_ofExcept.mpr ⟨fun _ _ => h, fun _ _ => h⟩

theorem keeps_ofOption (value : Option α) (e : ε) : Keeps I (ofOption value e : Async σ ε α) :=
  fun _ h => ends_ofOption.mpr ⟨fun _ _ => h, fun _ => h⟩

theorem keeps_reject (bad : Prop) [Decidable bad] (e : ε) :
    Keeps I (reject bad e : Async σ ε Unit) :=
  fun _ h => ends_reject.mpr ⟨fun _ => h, fun _ => h⟩

/-- A function that looks keeps what the other tasks' turns keep. -/
theorem Looks.keeps {t : Async σ ε α} (ht : Looks t) (hnext : ∀ sh, I sh → I sh.next) :
    Keeps I t := by
  intro sh h
  have hafter : ∀ n, I (sh.after n) := by
    intro n
    induction n with
    | zero => exact h
    | succ n ih => exact hnext _ ih
  obtain ⟨n, hn⟩ := ht sh
  unfold Ends
  rcases hrun : t sh with ⟨e | a, sh'⟩ <;> rw [hrun] at hn
  · simp only at hn
    rw [hn]
    exact hafter n
  · simp only at hn
    rw [hn]
    exact hafter n

theorem Keeps.bind {t : Async σ ε α} {f : α → Async σ ε β} (ht : Keeps I t)
    (hf : ∀ a, Keeps I (f a)) : Keeps I (t >>= f) := by
  intro sh h
  rw [ends_bind]
  exact (ht sh h).mono (fun a sh' h' => hf a sh' h') fun _ _ h' => h'

theorem Keeps.mapError {t : Async σ ε' α} (ht : Keeps I t) (f : ε' → ε) :
    Keeps I (Async.mapError f t) :=
  fun sh h => ends_mapError.mpr (ht sh h)

theorem Keeps.attempt {t : Async σ ε' α} (ht : Keeps I t) :
    Keeps I (Async.attempt t : Async σ ε (Except ε' α)) :=
  fun sh h => ends_attempt.mpr (ht sh h)

end

/-! ## Errors -/

/-- Every error the function returns meets `P`. -/
def FailsWith (P : ε → Prop) (t : Async σ ε α) : Prop :=
  ∀ sh, Ends t sh (fun _ _ => True) fun e _ => P e

section
variable {P : ε → Prop}

theorem failsWith_pure (a : α) : FailsWith P (pure a : Async σ ε α) := fun _ => trivial

theorem failsWith_read (f : σ → α) : FailsWith P (read f : Async σ ε α) := fun _ => trivial

theorem failsWith_reject (bad : Prop) [Decidable bad] {e : ε} (he : P e) :
    FailsWith P (reject bad e : Async σ ε Unit) :=
  fun _ => ends_reject.mpr ⟨fun _ => he, fun _ => trivial⟩

theorem failsWith_ofOption (value : Option α) {e : ε} (he : P e) :
    FailsWith P (ofOption value e : Async σ ε α) :=
  fun _ => ends_ofOption.mpr ⟨fun _ _ => trivial, fun _ => he⟩

/-- A mapped error is one of the map's, whatever fails. -/
theorem failsWith_mapError (t : Async σ ε' α) {f : ε' → ε} (hf : ∀ e, P (f e)) :
    FailsWith P (mapError f t) :=
  fun sh => ends_mapError.mpr ((ends_trivial t sh).mono (fun _ _ h => h) fun e _ _ => hf e)

theorem FailsWith.bind {t : Async σ ε α} {f : α → Async σ ε β} (ht : FailsWith P t)
    (hf : ∀ a, FailsWith P (f a)) : FailsWith P (t >>= f) :=
  fun sh => ends_bind.mpr ((ht sh).mono (fun a sh' _ => hf a sh') fun _ _ he => he)

end
end AsyncState
