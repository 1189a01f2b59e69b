import Localview.StateRun

/-! # Interleaved calls

Calls run side by side on one state.  A `Call` is the accesses it still makes, each
of them atomic: it waits until the state is ready, changes the state, and adds
entries to a log that the calls cannot read.  Between two accesses of a call the
others take any number of theirs.

`Meets I t call w ok err` says that call number `t`, begun in `w`, keeps the
invariant `I` with each access and ends as `ok` or `err` say.  All it may rely on is
the invariant and that the log has grown by entries of others.  `reachable` puts
calls together: where each meets this by itself, a run of all of them keeps `I`.
-/
namespace Interleaving
open StateRun List
variable {σ ε η η' α β ρ : Type}

/-! ## The log -/

/-- The state that is shared, and the entries so far with the numbers of the calls
that made them. -/
structure Shared (σ ε : Type) where
  state : σ
  log : List (Nat × ε)

/-- The entry was made. -/
def Shared.Saw (w : Shared σ ε) (e : ε) : Prop := ∃ t, (t, e) ∈ w.log

/-- Call `t` leaves the state as `s` and makes the entries. -/
def Shared.next (w : Shared σ ε) (t : Nat) (s : σ) (entries : List ε) : Shared σ ε :=
  { state := s, log := w.log ++ entries.map fun e => (t, e) }

/-- The shared state after an access of call `t`. -/
def Shared.take (w : Shared σ ε) (t : Nat) (effect : σ → σ × List ε) : Shared σ ε :=
  w.next t (effect w.state).1 (effect w.state).2

/-- The other calls lead from `w` to `w'`. -/
def Later (t : Nat) (w w' : Shared σ ε) : Prop :=
  ∃ more, w'.log = w.log ++ more ∧ ∀ e ∈ more, e.1 ≠ t

/-- The log has grown from `w` to `w'`. -/
def Grows (w w' : Shared σ ε) : Prop := ∃ more, w'.log = w.log ++ more

section
variable {t u : Nat} {w w' w'' : Shared σ ε} {s : σ} {entries : List ε} {e : ε}

theorem Later.refl (t : Nat) (w : Shared σ ε) : Later t w w :=
  ⟨[], (append_nil _).symm, by simp⟩

theorem Later.trans (h : Later t w w') (h' : Later t w' w'') : Later t w w'' := by
  obtain ⟨more, hlog, hmore⟩ := h
  obtain ⟨more', hlog', hmore'⟩ := h'
  refine ⟨more ++ more', by rw [hlog', hlog, append_assoc], ?_⟩
  intro e he
  rcases mem_append.mp he with he | he
  · exact hmore e he
  · exact hmore' e he

theorem Later.next (h : u ≠ t) (w : Shared σ ε) (s : σ) (entries : List ε) :
    Later t w (w.next u s entries) := by
  refine ⟨_, rfl, ?_⟩
  intro e he
  obtain ⟨x, -, rfl⟩ := mem_map.mp he
  exact h

/-- The others have made no entry of the call's. -/
theorem Later.own (h : Later t w w') : (t, e) ∈ w'.log ↔ (t, e) ∈ w.log := by
  obtain ⟨more, hlog, hothers⟩ := h
  rw [hlog, mem_append]
  exact or_iff_left fun hmore => hothers _ hmore rfl

theorem Later.grows (h : Later t w w') : Grows w w' := by
  obtain ⟨more, hlog, -⟩ := h
  exact ⟨more, hlog⟩

theorem Grows.refl (w : Shared σ ε) : Grows w w := ⟨[], (append_nil _).symm⟩

theorem Grows.trans (h : Grows w w') (h' : Grows w' w'') : Grows w w'' := by
  obtain ⟨more, hlog⟩ := h
  obtain ⟨more', hlog'⟩ := h'
  exact ⟨more ++ more', by rw [hlog', hlog, append_assoc]⟩

theorem Grows.next (w : Shared σ ε) (t : Nat) (s : σ) (entries : List ε) :
    Grows w (w.next t s entries) := ⟨_, rfl⟩

theorem Grows.mem (h : Grows w w') {x : Nat × ε} (hx : x ∈ w.log) : x ∈ w'.log := by
  obtain ⟨more, hlog⟩ := h
  rw [hlog]
  exact mem_append_left _ hx

theorem Grows.saw (h : Grows w w') (he : w.Saw e) : w'.Saw e := he.imp fun _ => h.mem

theorem Shared.Saw.next (h : w.Saw e) : (w.next t s entries).Saw e := by
  obtain ⟨u, hu⟩ := h
  exact ⟨u, mem_append_left _ hu⟩

/-- An access that only looks. -/
@[simp] theorem Shared.next_nothing (w : Shared σ ε) (t : Nat) : w.next t w.state [] = w := by
  show Shared.mk w.state (w.log ++ []) = w
  rw [append_nil]

@[simp] theorem Shared.next_state : (w.next t s entries).state = s := rfl

/-- The entries of a call after an access. -/
theorem mem_next : (u, e) ∈ (w.next t s entries).log ↔ (u, e) ∈ w.log ∨ u = t ∧ e ∈ entries := by
  show (u, e) ∈ w.log ++ entries.map (fun e => (t, e)) ↔ _
  rw [mem_append, mem_map]
  constructor
  · rintro (h | ⟨x, hx, heq⟩)
    · exact .inl h
    · cases heq
      exact .inr ⟨rfl, hx⟩
  · rintro (h | ⟨rfl, h⟩)
    · exact .inl h
    · exact .inr ⟨e, h, rfl⟩

/-- What an access has added to the log. -/
@[simp] theorem saw_next : (w.next t s entries).Saw e ↔ w.Saw e ∨ e ∈ entries := by
  constructor
  · rintro ⟨u, hu⟩
    rcases mem_append.mp hu with hu | hu
    · exact .inl ⟨u, hu⟩
    · obtain ⟨x, hx, heq⟩ := mem_map.mp hu
      cases heq
      exact .inr hx
  · rintro (h | h)
    · exact h.next
    · exact ⟨t, mem_append_right _ (mem_map.mpr ⟨e, h, rfl⟩)⟩

/-- Before an entry that a log does not have comes all that it has. -/
theorem mem_before {log more before after : List α} {e : α} (h : log ++ more = before ++ e :: after)
    (he : e ∉ log) : ∀ x ∈ log, x ∈ before := by
  rcases append_eq_append_iff.mp h with ⟨rest, rfl, -⟩ | ⟨rest, rfl, hrest⟩
  · exact fun x hx => mem_append_left _ hx
  · cases rest with
    | nil => simp
    | cons y rest =>
      obtain ⟨rfl, -⟩ := List.cons.inj hrest
      exact absurd (mem_append_right _ mem_cons_self) he

end

/-- Each entry is justified by those before it. -/
def Justified (P : List α → α → Prop) (log : List α) : Prop :=
  ∀ before e after, log = before ++ e :: after → P before e

theorem Justified.nil (P : List α → α → Prop) : Justified P [] := by
  intro before e after h
  cases before <;> cases h

theorem Justified.snoc {P : List α → α → Prop} {log : List α} {e : α} (h : Justified P log)
    (he : P log e) : Justified P (log ++ [e]) := by
  intro before x after heq
  rcases eq_nil_or_concat after with rfl | ⟨after, y, rfl⟩
  · obtain ⟨rfl, hx⟩ := append_inj' heq rfl
    cases hx
    exact he
  · refine h before x after ?_
    rw [concat_eq_append, ← cons_append, ← append_assoc] at heq
    exact (append_inj' heq rfl).1

/-- Entries of a kind that each need none before them come once at most. -/
theorem Justified.countP_le_one {P : List α → α → Prop} {p : α → Bool} {log : List α}
    (h : Justified P log) (hP : ∀ log e, P log e → p e = true → ∀ x ∈ log, p x = false) :
    log.countP p ≤ 1 := by
  induction log using List.reverseRec with
  | nil => simp
  | append_singleton log e ih =>
    have hlog : Justified P log := fun before x after heq =>
      h before x (after ++ [e]) (by rw [heq]; simp)
    rw [countP_append, countP_singleton]
    split_ifs with he
    · have hnone : log.countP p = 0 := countP_eq_zero.mpr fun x hx => by
        rw [hP log e (h log e [] rfl) he x hx]
        simp
      omega
    · exact ih hlog

/-! ## Calls -/

/-- A call, as the accesses it still makes. -/
inductive Call (σ ε η α : Type)
  | done (answer : α)
  | fail (error : η)
  | access (ready : σ → Bool) (effect : σ → σ × List ε) (next : σ → Call σ ε η α)

namespace Call

/-- One call after the other; a failure ends both. -/
def bind : Call σ ε η α → (α → Call σ ε η β) → Call σ ε η β
  | .done a, f => f a
  | .fail e, _ => .fail e
  | .access ready effect next, f => .access ready effect fun s => (next s).bind f

instance : Monad (Call σ ε η) where
  pure := .done
  bind := Call.bind

/-- `call.map_err(f)?` -/
def mapError (f : η → η') : Call σ ε η α → Call σ ε η' α
  | .done a => .done a
  | .fail e => .fail (f e)
  | .access ready effect next => .access ready effect fun s => (next s).mapError f

/-- `match call { Ok(a) => .., Err(e) => .. }` -/
def attempt : Call σ ε η α → Call σ ε η' (Except η α)
  | .done a => .done (.ok a)
  | .fail e => .done (.error e)
  | .access ready effect next => .access ready effect fun s => (next s).attempt

/-- `result?` -/
def ofExcept : Except η α → Call σ ε η α
  | .ok a => .done a
  | .error e => .fail e

/-- `if bad { return Err(e) }` -/
def reject (bad : Prop) [Decidable bad] (e : η) : Call σ ε η Unit :=
  if bad then .fail e else .done ()

/-- An access that waits for `ready`, may fail, and says what it does to the state and
the log. -/
def await (ready : σ → Bool) (f : σ → Except η α × σ × List ε) : Call σ ε η α :=
  .access ready (fun s => (f s).2) fun s => ofExcept (f s).1

/-- An access that does not wait. -/
def locked (f : σ → Except η α × σ × List ε) : Call σ ε η α := await (fun _ => true) f

/-- An access that cannot fail. -/
def update (f : σ → α × σ × List ε) : Call σ ε η α := locked fun s => (.ok (f s).1, (f s).2)

/-- An entry in the log, the state as it is. -/
def tell (e : ε) : Call σ ε η Unit := update fun s => ((), s, [e])

end Call
open Call

/-! ## What a call meets -/

/-- However the others run meanwhile, each access of call `t` keeps the invariant, and
the call ends as said. -/
def Meets (I : Shared σ ε → Prop) (t : Nat) (ok : α → Shared σ ε → Prop)
    (err : η → Shared σ ε → Prop) : Call σ ε η α → Shared σ ε → Prop
  | .done a, w => ok a w
  | .fail e, w => err e w
  | .access ready effect next, w =>
      ∀ w', Later t w w' → I w' → ready w'.state = true →
        I (w'.take t effect) ∧ Meets I t ok err (next w'.state) (w'.take t effect)

section
variable {I : Shared σ ε → Prop} {t : Nat} {w : Shared σ ε} {ok : α → Shared σ ε → Prop}
  {err : η → Shared σ ε → Prop}

@[simp] theorem meets_fail {e : η} : Meets I t ok err (.fail e) w ↔ err e w := Iff.rfl

variable {call : Call σ ε η α}

/-- **Sequencing**: the rest runs where the first part ends well. -/
@[simp] theorem meets_bind {f : α → Call σ ε η β} {ok : β → Shared σ ε → Prop} :
    Meets I t ok err (call >>= f) w ↔ Meets I t (fun a => Meets I t ok err (f a)) err call w := by
  show Meets I t ok err (call.bind f) w ↔ _
  induction call generalizing w with
  | done a => exact Iff.rfl
  | fail e => exact Iff.rfl
  | access ready effect next ih =>
    simp only [Call.bind, Meets]
    constructor
    · intro h w' hlater hI hready
      exact ⟨(h w' hlater hI hready).1, (ih _).mp (h w' hlater hI hready).2⟩
    · intro h w' hlater hI hready
      exact ⟨(h w' hlater hI hready).1, (ih _).mpr (h w' hlater hI hready).2⟩

theorem Meets.mono {ok' : α → Shared σ ε → Prop} {err' : η → Shared σ ε → Prop}
    (h : Meets I t ok err call w) (hok : ∀ a w', ok a w' → ok' a w')
    (herr : ∀ e w', err e w' → err' e w') :
    Meets I t ok' err' call w := by
  induction call generalizing w with
  | done a => exact hok a w h
  | fail e => exact herr e w h
  | access ready effect next ih =>
    intro w' hlater hI hready
    exact ⟨(h w' hlater hI hready).1, ih _ (h w' hlater hI hready).2⟩

/-- What every call meets besides: it ends in the invariant, and the log has grown. -/
theorem Meets.ends (h : Meets I t ok err call w) (hI : I w) :
    Meets I t (fun a w' => ok a w' ∧ I w' ∧ Grows w w') (fun e w' => err e w' ∧ I w' ∧ Grows w w')
      call w := by
  induction call generalizing w with
  | done a => exact ⟨h, hI, Grows.refl w⟩
  | fail e => exact ⟨h, hI, Grows.refl w⟩
  | access ready effect next ih =>
    intro w' hlater hI' hready
    obtain ⟨hnext, hrest⟩ := h w' hlater hI' hready
    have hgrows : Grows w (w'.take t effect) := hlater.grows.trans (Grows.next _ _ _ _)
    refine ⟨hnext, (ih _ hrest hnext).mono ?_ ?_⟩
    · rintro a v ⟨ha, hv, hg⟩
      exact ⟨ha, hv, hgrows.trans hg⟩
    · rintro e v ⟨he, hv, hg⟩
      exact ⟨he, hv, hgrows.trans hg⟩

@[simp] theorem meets_mapError {f : η → η'} {err : η' → Shared σ ε → Prop} :
    Meets I t ok err (call.mapError f) w ↔ Meets I t ok (fun e => err (f e)) call w := by
  induction call generalizing w with
  | done a => exact Iff.rfl
  | fail e => exact Iff.rfl
  | access ready effect next ih =>
    simp only [Call.mapError, Meets, ih]

/-- **Handling**: a handled failure ends well. -/
@[simp] theorem meets_attempt {ok : Except η α → Shared σ ε → Prop} {err : η' → Shared σ ε → Prop} :
    Meets I t ok err (call.attempt : Call σ ε η' (Except η α)) w ↔
      Meets I t (fun a => ok (.ok a)) (fun e => ok (.error e)) call w := by
  induction call generalizing w with
  | done a => exact Iff.rfl
  | fail e => exact Iff.rfl
  | access ready effect next ih =>
    simp only [Call.attempt, Meets, ih]

@[simp] theorem meets_reject {bad : Prop} [Decidable bad] {e : η} {ok : Unit → Shared σ ε → Prop} :
    Meets I t ok err (reject bad e) w ↔ (bad → err e w) ∧ (¬ bad → ok () w) := by
  unfold reject
  by_cases h : bad
  · simp [h]
  · simp [h, Meets]

/-- **One access**: the others' turn, then its own. -/
theorem meets_await {ready : σ → Bool} {f : σ → Except η α × σ × List ε}
    (h : ∀ w' result s entries, Later t w w' → I w' → ready w'.state = true →
      f w'.state = (result, s, entries) → I (w'.next t s entries) ∧
        Meets I t ok err (Call.ofExcept result) (w'.next t s entries)) :
    Meets I t ok err (await ready f) w :=
  fun w' hlater hI hready => h w' _ _ _ hlater hI hready rfl

theorem meets_locked {f : σ → Except η α × σ × List ε}
    (h : ∀ w' result s entries, Later t w w' → I w' → f w'.state = (result, s, entries) →
      I (w'.next t s entries) ∧ Meets I t ok err (Call.ofExcept result) (w'.next t s entries)) :
    Meets I t ok err (locked f) w :=
  meets_await fun w' _ _ _ hlater hI _ hf => h w' _ _ _ hlater hI hf

theorem meets_update {f : σ → α × σ × List ε}
    (h : ∀ w', Later t w w' → I w' → I (w'.take t fun s => (f s).2) ∧
      ok (f w'.state).1 (w'.take t fun s => (f s).2)) :
    Meets I t ok err (update f) w := by
  intro w' hlater hI _
  exact h w' hlater hI

/-- So too by the cases of what it does. -/
theorem meets_update_cases {f : σ → α × σ × List ε}
    (h : ∀ w' a s entries, Later t w w' → I w' → f w'.state = (a, s, entries) →
      I (w'.next t s entries) ∧ ok a (w'.next t s entries)) :
    Meets I t ok err (update f) w := meets_update fun w' hlater hI => h w' _ _ _ hlater hI rfl

theorem meets_tell {e : ε} {ok : Unit → Shared σ ε → Prop}
    (h : ∀ w', Later t w w' → I w' → I (w'.next t w'.state [e]) ∧
      ok () (w'.next t w'.state [e])) :
    Meets I t ok err (tell e) w := meets_update h

end

/-- Call `t` will keep the invariant, whatever it ends with. -/
def Goes (I : Shared σ ε → Prop) (t : Nat) (call : Call σ ε η α) (w : Shared σ ε) : Prop :=
  Meets I t (fun _ _ => True) (fun _ _ => True) call w

section
variable {I : Shared σ ε → Prop} {t : Nat} {w w' : Shared σ ε} {ok : α → Shared σ ε → Prop}
  {err : η → Shared σ ε → Prop} {call : Call σ ε η α}

theorem Goes.later (h : Goes I t call w) (hlater : Later t w w') : Goes I t call w' := by
  cases call with
  | done a => trivial
  | fail e => trivial
  | access ready effect next =>
    intro w'' hlater' hI hready
    exact h w'' (hlater.trans hlater') hI hready

/-- A call whose answer is dropped. -/
theorem Goes.attempt (h : Goes I t call w) :
    Goes I t (call.attempt : Call σ ε η' (Except η α)) w := meets_attempt.mpr h

/-- A call that goes, followed by one that goes from wherever the first ends. -/
theorem Meets.goes_bind {f : α → Call σ ε η β} (h : Meets I t ok err call w)
    (hf : ∀ a w', ok a w' → Goes I t (f a) w') : Goes I t (call >>= f) w :=
  meets_bind.mpr (h.mono hf fun _ _ _ => trivial)

end

/-! ## Runs -/

/-- What a move of the system is: a call begins, or makes its next access. -/
inductive Move (ρ : Type)
  | begin (call : Nat) (request : ρ)
  | advance (call : Nat)

/-- A system of calls: which requests may come, and the call each of them is. -/
structure System (σ ε ρ : Type) where
  admits : Shared σ ε → ρ → Bool
  body : ρ → Call σ ε Empty Unit

/-- The shared state and the calls begun so far. -/
structure Config (σ ε : Type) extends Shared σ ε where
  calls : Nat → Option (Call σ ε Empty Unit)

/-- Nothing has begun. -/
def Config.start (s : σ) : Config σ ε := { state := s, log := [], calls := fun _ => none }

/-- Call `t` takes an access and goes on as `call`. -/
def Config.put (c : Config σ ε) (t : Nat) (effect : σ → σ × List ε)
    (call : Call σ ε Empty Unit) : Config σ ε :=
  { toShared := c.toShared.take t effect, calls := Function.update c.calls t (some call) }

theorem Config.put_calls (c : Config σ ε) (t : Nat) (effect : σ → σ × List ε)
    (call : Call σ ε Empty Unit) (u : Nat) :
    (c.put t effect call).calls u = if u = t then some call else c.calls u := by
  by_cases hu : u = t
  · subst hu
    rw [if_pos rfl]
    simp [Config.put]
  · rw [if_neg hu]
    simp [Config.put, hu]

/-- The configuration after a move, where it can be made. -/
def System.act (sys : System σ ε ρ) (c : Config σ ε) : Move ρ → Option (Config σ ε)
  | .begin t request =>
      if (c.calls t).isNone && sys.admits c.toShared request then
        some (c.put t (fun s => (s, [])) (sys.body request))
      else none
  | .advance t =>
      match c.calls t with
      | some (.access ready effect next) =>
          if ready c.state then some (c.put t effect (next c.state)) else none
      | _ => none

def System.Step (sys : System σ ε ρ) (c : Config σ ε) (m : Move ρ) (c' : Config σ ε) : Prop :=
  sys.act c m = some c'

section
variable {sys : System σ ε ρ} {I : Shared σ ε → Prop} {c c' : Config σ ε} {m : Move ρ}
  {tr : List (Move ρ)}

/-- The requests keep the invariant, each by itself. -/
def System.Keeps (sys : System σ ε ρ) (I : Shared σ ε → Prop) : Prop :=
  ∀ w t request, I w → sys.admits w request = true → Goes I t (sys.body request) w

/-- The same, where a request that comes may count on having made no entry. -/
def System.KeepsNew (sys : System σ ε ρ) (I : Shared σ ε → Prop) : Prop :=
  ∀ w t request, I w → (∀ e ∈ w.log, e.1 ≠ t) → sys.admits w request = true →
    Goes I t (sys.body request) w

theorem System.Keeps.keepsNew (h : sys.Keeps I) : sys.KeepsNew I :=
  fun w t request hI _ => h w t request hI

/-- The invariant holds, the calls begun will keep it, and only they have made
entries. -/
structure Kept (I : Shared σ ε → Prop) (c : Config σ ε) : Prop where
  invariant : I c.toShared
  goes : ∀ t call, c.calls t = some call → Goes I t call c.toShared
  silent : ∀ t, c.calls t = none → ∀ e ∈ c.log, e.1 ≠ t

/-- The moves: what each does. -/
theorem System.Step.cases (h : sys.Step c m c') :
    (∃ t request, m = .begin t request ∧ c.calls t = none ∧ sys.admits c.toShared request = true ∧
      c' = c.put t (fun s => (s, [])) (sys.body request)) ∨
    ∃ t ready effect next, m = .advance t ∧ c.calls t = some (.access ready effect next) ∧
      ready c.state = true ∧ c' = c.put t effect (next c.state) := by
  unfold System.Step at h
  cases m with
  | begin t request =>
    simp only [System.act, Bool.and_eq_true, Option.isNone_iff_eq_none] at h
    split at h
    · rename_i hadmits
      exact .inl ⟨t, request, rfl, hadmits.1, hadmits.2, (Option.some.inj h).symm⟩
    · cases h
  | advance t =>
    simp only [System.act] at h
    split at h
    · rename_i ready effect next hcall
      split at h
      · rename_i hready
        exact .inr ⟨t, ready, effect, next, rfl, hcall, hready, (Option.some.inj h).symm⟩
      · cases h
    · cases h

/-- Call `t` goes on as `call`; the others find a longer log. -/
theorem Kept.put (h : Kept I c) {t : Nat} {effect : σ → σ × List ε} {call : Call σ ε Empty Unit}
    (hI : I (c.toShared.take t effect)) (hgoes : Goes I t call (c.toShared.take t effect)) :
    Kept I (c.put t effect call) := by
  refine ⟨hI, ?_, ?_⟩
  · intro u call' hcall
    rw [Config.put_calls] at hcall
    by_cases hu : u = t
    · subst hu
      rw [if_pos rfl] at hcall
      cases hcall
      exact hgoes
    · rw [if_neg hu] at hcall
      exact (h.goes u call' hcall).later (Later.next (Ne.symm hu) _ _ _)
  · intro u hnone e he
    rw [Config.put_calls] at hnone
    rcases ite_eq_iff.mp hnone with ⟨hu, hnone⟩ | ⟨hu, hnone⟩
    · cases hnone
    · rcases mem_append.mp he with he | he
      · exact h.silent u hnone e he
      · obtain ⟨x, -, rfl⟩ := mem_map.mp he
        exact Ne.symm hu

/-- **One move.** -/
theorem Kept.step_new (hsys : sys.KeepsNew I) (h : Kept I c) (hs : sys.Step c m c') :
    Kept I c' := by
  obtain ⟨t, request, -, hnone, hadmits, rfl⟩ | ⟨t, ready, effect, next, -, hcall, hready, rfl⟩ :=
    hs.cases
  · have hgoes := hsys c.toShared t request h.invariant (h.silent t hnone) hadmits
    have hsame : c.toShared.take t (fun s => (s, [])) = c.toShared := c.toShared.next_nothing t
    exact h.put (by rw [hsame]; exact h.invariant) (by rw [hsame]; exact hgoes)
  · obtain ⟨hI, hgoes⟩ := h.goes t _ hcall _ (Later.refl t _) h.invariant hready
    exact h.put hI hgoes

/-- **Every run** of calls that each keep the invariant keeps it. -/
theorem Kept.run_new (hsys : sys.KeepsNew I) (h : Kept I c) (hrun : Run sys.Step c tr c') :
    Kept I c' :=
  hrun.invariant (fun _ _ _ h hs => h.step_new hsys hs) h

theorem Kept.run (hsys : sys.Keeps I) (h : Kept I c) (hrun : Run sys.Step c tr c') : Kept I c' :=
  h.run_new hsys.keepsNew hrun

theorem kept_start {s : σ} (h : I { state := s, log := [] }) : Kept I (Config.start s) := by
  refine ⟨h, ?_, ?_⟩
  · intro t call hcall
    cases hcall
  · intro t _ e he
    cases he

/-- A call that never begins is never there. -/
theorem calls_none (hrun : Run sys.Step c tr c') {t : Nat} (hbegin : ∀ request, .begin t request ∉ tr)
    (h : c.calls t = none) : c'.calls t = none := by
  induction hrun with
  | nil => exact h
  | cons hs _ ih =>
    refine ih (fun request hr => hbegin request (mem_cons_of_mem _ hr)) ?_
    obtain ⟨u, request, rfl, -, -, rfl⟩ | ⟨u, ready, effect, next, -, hcall, -, rfl⟩ := hs.cases
    · rw [Config.put_calls, if_neg fun hu => hbegin request (by rw [hu]; exact mem_cons_self)]
      exact h
    · rw [Config.put_calls, if_neg fun hu => by rw [← hu, h] at hcall; cases hcall]
      exact h

theorem log_grows (hrun : Run sys.Step c tr c') : ∃ more, c'.log = c.log ++ more := by
  induction hrun with
  | nil => exact ⟨[], (append_nil _).symm⟩
  | cons hs _ ih =>
    obtain ⟨more, hmore⟩ := ih
    obtain ⟨t, request, -, -, -, rfl⟩ | ⟨t, ready, effect, next, -, -, -, rfl⟩ := hs.cases
    · exact ⟨_, hmore.trans (append_assoc _ _ _)⟩
    · exact ⟨_, hmore.trans (append_assoc _ _ _)⟩

end
end Interleaving
