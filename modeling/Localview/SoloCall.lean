import Localview.Interleaving

/-! # A call by itself, cut short

A call that nobody else runs beside: `solo` is what it ends with, and `cut n` the state in
which it leaves things when it is stopped for good before its access `n`.  `Solo I ok err`
says that each access leaves the state in `I` and how the call ends, so that a call that
is cut anywhere leaves `I`.
-/
namespace Interleaving
variable {σ ε η η' α β : Type}

namespace Call

/-- The answer, and the state then. -/
def solo : Call σ ε η α → σ → Except η α × σ
  | .done a, s => (.ok a, s)
  | .fail e, s => (.error e, s)
  | .access _ effect next, s => (next s).solo (effect s).1

/-- The state after at most `n` accesses. -/
def cut : Nat → Call σ ε η α → σ → σ
  | n + 1, .access _ effect next, s => (next s).cut n (effect s).1
  | _, _, s => s

end Call
open Call

/-- Each access leaves the state in `I`, and the call ends as said. -/
def Solo (I : σ → Prop) (ok : α → σ → Prop) (err : η → σ → Prop) : Call σ ε η α → σ → Prop
  | .done a, s => ok a s
  | .fail e, s => err e s
  | .access _ effect next, s => I (effect s).1 ∧ Solo I ok err (next s) (effect s).1

section
variable {I : σ → Prop} {ok : α → σ → Prop} {err : η → σ → Prop} {s : σ}

@[simp] theorem solo_fail {e : η} : Solo I ok err (.fail e : Call σ ε η α) s ↔ err e s := Iff.rfl

variable {call : Call σ ε η α}

@[simp] theorem solo_bind {f : α → Call σ ε η β} {ok : β → σ → Prop} :
    Solo I ok err (call >>= f) s ↔ Solo I (fun a => Solo I ok err (f a)) err call s := by
  show Solo I ok err (call.bind f) s ↔ _
  induction call generalizing s with
  | done a => exact Iff.rfl
  | fail e => exact Iff.rfl
  | access ready effect next ih => exact and_congr_right fun _ => ih s

/-- So too for what holds on the way. -/
theorem Solo.weaken {I' : σ → Prop} {ok' : α → σ → Prop} {err' : η → σ → Prop}
    (h : Solo I ok err call s) (hI : ∀ s', I s' → I' s') (hok : ∀ a s', ok a s' → ok' a s')
    (herr : ∀ e s', err e s' → err' e s') :
    Solo I' ok' err' call s := by
  induction call generalizing s with
  | done a => exact hok a s h
  | fail e => exact herr e s h
  | access ready effect next ih => exact ⟨hI _ h.1, ih s h.2⟩

theorem Solo.mono {ok' : α → σ → Prop} {err' : η → σ → Prop} (h : Solo I ok err call s)
    (hok : ∀ a s', ok a s' → ok' a s') (herr : ∀ e s', err e s' → err' e s') :
    Solo I ok' err' call s :=
  h.weaken (fun _ hI => hI) hok herr

@[simp] theorem solo_attempt {ok : Except η α → σ → Prop} {err : η' → σ → Prop} :
    Solo I ok err (call.attempt : Call σ ε η' (Except η α)) s ↔
      Solo I (fun a => ok (.ok a)) (fun e => ok (.error e)) call s := by
  induction call generalizing s with
  | done a => exact Iff.rfl
  | fail e => exact Iff.rfl
  | access ready effect next ih => exact and_congr_right fun _ => ih s

@[simp] theorem solo_ofExcept_ok {a : α} :
    Solo I ok err (Call.ofExcept (.ok a) : Call σ ε η α) s ↔ ok a s := Iff.rfl

@[simp] theorem solo_reject {bad : Prop} [Decidable bad] {e : η} {ok : Unit → σ → Prop} :
    Solo I ok err (reject bad e : Call σ ε η Unit) s ↔ (bad → err e s) ∧ (¬ bad → ok () s) := by
  unfold reject
  by_cases h : bad
  · simp [h]
  · simp [h, Solo]

/-- **One access.** -/
theorem solo_locked {f : σ → Except η α × σ × List ε}
    (h : ∀ result s' entries, f s = (result, s', entries) →
      I s' ∧ Solo I ok err (Call.ofExcept result : Call σ ε η α) s') :
    Solo I ok err (locked f) s := h _ _ _ rfl

theorem solo_update {f : σ → α × σ × List ε}
    (h : ∀ a s' entries, f s = (a, s', entries) → I s' ∧ ok a s') :
    Solo I ok err (update f : Call σ ε η α) s := h _ _ _ rfl

/-- **Cut anywhere**, the call leaves the invariant. -/
theorem Solo.cut (h : Solo I ok err call s) (hI : I s) (n : Nat) :
    I (call.cut n s) := by
  induction call generalizing s n with
  | done a => cases n <;> exact hI
  | fail e => cases n <;> exact hI
  | access ready effect next ih =>
    cases n with
    | zero => exact hI
    | succ n => exact ih s h.2 h.1 n

theorem Solo.ends (h : Solo I ok err call s) :
    (∀ a, (call.solo s).1 = .ok a → ok a (call.solo s).2) ∧
      ∀ e, (call.solo s).1 = .error e → err e (call.solo s).2 := by
  induction call generalizing s with
  | done a =>
    constructor
    · intro b hb
      cases hb
      exact h
    · intro e he
      cases he
  | fail e =>
    constructor
    · intro b hb
      cases hb
    · intro e' he
      cases he
      exact h
  | access ready effect next ih => exact ih s h.2

end
end Interleaving
