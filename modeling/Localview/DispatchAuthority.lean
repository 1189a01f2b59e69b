import Localview.JournalReplay

/-! # Dispatch authority

At most one execution permit and at most one linearized record for each action,
on one instance opened from any file, over every interleaving of calls.  No
assumption is made about the capabilities and permits callers pass: a call may
carry any value, and carry it again.

The proof follows two facts about a single call.  Minting a permit spends a
budget that is one while the action is unprepared or holds a prepared grant and
that no call refills.  An action that is past PREPARED and holds no dispatch
grant is settled for good.
-/
namespace Localview
open EarlyReturn RecordLog StateRun List Function Option JournalAnswer

/-! ## Before PREPARED -/

/-- The recovery states in which PREPARED has not been recorded. -/
def beforePrepared : Option ConsequentialRecoveryState → Bool
  | none | some .admitted | some .authorizedNotDispatched => true
  | _ => false

/-- The recovery states in which nothing was linearized. -/
def beforeLinearized : Option ConsequentialRecoveryState → Bool
  | none | some .admitted | some .authorizedNotDispatched | some .dispatchPrepared => true
  | _ => false

def linearizes (a : Uuid) (e : ConsequentialJournalEntry) : Bool :=
  e.actionId == a && match e.transition with
    | .dispatchLinearized _ => true
    | _ => false

def prepares (a : Uuid) (e : ConsequentialJournalEntry) : Bool :=
  e.actionId == a && match e.transition with
    | .dispatchPrepared _ => true
    | _ => false

section
variable {mode : TransitionValidationMode} {entries : List ConsequentialJournalEntry}
  {e : ConsequentialJournalEntry} {a : Uuid}

/-- PREPARED is not taken back: no admitted entry returns to before it. -/
theorem beforePrepared_snoc (hadm : Admits mode entries e.actionId e.transition)
    (h : beforePrepared (recoveryStateFor entries a) = false) :
    beforePrepared (recoveryStateFor (entries ++ [e]) a) = false := by
  rw [recoveryStateFor_snoc]
  by_cases ha : e.actionId = a
  · subst ha
    rw [if_pos rfl]
    generalize e.transition = tr at hadm ⊢
    cases hadm with
    | intent hs _ => rw [hs] at h; cases h
    | authorization hs => rcases hs with hs | hs <;> · rw [hs] at h; cases h
    | prepared _ _ => rfl
    | @linearized receipt _ =>
      rcases transitionState_dispatchLinearized receipt with hs | hs <;> rw [hs] <;> rfl
    | @receipt receipt _ _ _ _ _ =>
      rcases transitionState_receipt receipt with hs | hs <;> rw [hs] <;> rfl
    | @compensation ref outcome _ =>
      rcases transitionState_compensation ref outcome with hs | hs <;> rw [hs] <;> rfl
    | committed _ => rfl
    | @legacyLinearized receipt _ _ =>
      rcases transitionState_dispatchLinearized receipt with hs | hs <;> rw [hs] <;> rfl
    | @legacyOutcome outcome ref refs verified _ _ _ _ =>
      rcases transitionState_reconciliationOutcome outcome ref refs verified with hs | hs <;>
        rw [hs] <;> rfl
  · rw [if_neg ha]
    exact h

/-- An action with a PREPARED record is past it. -/
theorem beforePrepared_of_prepares (h : History mode entries) (he : e ∈ entries)
    (hprep : prepares a e = true) : beforePrepared (recoveryStateFor entries a) = false := by
  induction h with
  | nil => cases he
  | @snoc entries last hist _ _ hadm ih =>
    rcases mem_append.mp he with he | he
    · exact beforePrepared_snoc hadm (ih he)
    · rw [mem_singleton] at he
      subst he
      obtain ⟨ha, htr⟩ := Bool.and_eq_true_iff.mp hprep
      rw [recoveryStateFor_snoc, if_pos (by simpa using ha)]
      cases hetr : e.transition <;> simp [hetr] at htr
      rfl

/-- One entry's share of the count: it linearizes only from before linearized,
and leaves the action past it. -/
theorem linearizes_snoc (hadm : Admits mode entries e.actionId e.transition)
    (h : linearizes a e = true) :
    beforeLinearized (recoveryStateFor entries a) = true ∧
      beforeLinearized (recoveryStateFor (entries ++ [e]) a) = false := by
  obtain ⟨ha, htr⟩ := Bool.and_eq_true_iff.mp h
  obtain rfl : e.actionId = a := by simpa using ha
  rw [recoveryStateFor_snoc, if_pos rfl]
  generalize e.transition = tr at hadm htr ⊢
  cases hadm with
  | @linearized receipt hs =>
    refine ⟨by rw [hs]; rfl, ?_⟩
    rcases transitionState_dispatchLinearized receipt with hs | hs <;> rw [hs] <;> rfl
  | @legacyLinearized receipt _ hs =>
    refine ⟨by rw [hs]; rfl, ?_⟩
    rcases transitionState_dispatchLinearized receipt with hs | hs <;> rw [hs] <;> rfl
  | _ => cases htr

/-- Being past linearized is not taken back either. -/
theorem beforeLinearized_snoc (hadm : Admits mode entries e.actionId e.transition)
    (h : beforeLinearized (recoveryStateFor (entries ++ [e]) a) = true) :
    beforeLinearized (recoveryStateFor entries a) = true := by
  rw [recoveryStateFor_snoc] at h
  by_cases ha : e.actionId = a
  · subst ha
    rw [if_pos rfl] at h
    generalize e.transition = tr at hadm h
    cases hadm with
    | intent hs _ => rw [hs]; rfl
    | authorization hs => rcases hs with hs | hs <;> rw [hs] <;> rfl
    | prepared hs _ => rw [hs]; rfl
    | linearized hs => rw [hs]; rfl
    | @receipt receipt _ _ _ _ _ =>
      rcases transitionState_receipt receipt with hs | hs <;> rw [hs] at h <;> cases h
    | @compensation ref outcome _ =>
      rcases transitionState_compensation ref outcome with hs | hs <;> rw [hs] at h <;> cases h
    | committed _ => cases h
    | legacyLinearized _ hs => rw [hs]; rfl
    | @legacyOutcome outcome ref refs verified _ _ _ _ =>
      rcases transitionState_reconciliationOutcome outcome ref refs verified with hs | hs <;>
        rw [hs] at h <;> cases h
  · rwa [if_neg ha] at h

/-- **At most one linearized record for each action**, and none while the
action is not past it. -/
theorem linearizes_count (h : History mode entries) (a : Uuid) :
    entries.countP (linearizes a) ≤
      if beforeLinearized (recoveryStateFor entries a) then 0 else 1 := by
  induction h with
  | nil => simp
  | @snoc entries e hist _ _ hadm ih =>
    rw [countP_append, countP_singleton]
    by_cases hlin : linearizes a e = true
    · obtain ⟨hbefore, hafter⟩ := linearizes_snoc hadm hlin
      rw [if_pos hbefore] at ih
      rw [if_pos hlin, hafter]
      simpa using ih
    · rw [if_neg hlin, Nat.add_zero]
      refine ih.trans ?_
      by_cases hafter : beforeLinearized (recoveryStateFor (entries ++ [e]) a) = true
      · rw [if_pos (beforeLinearized_snoc hadm hafter)]
        exact Nat.zero_le _
      · rw [if_neg hafter]
        split <;> omega

end

/-- The call minted an execution permit for the action. -/
def mintsDispatch (a : Uuid) (l : CallLabel) : Bool :=
  l.2.mintedDispatch.any (·.actionId == a)

def mintsObservation (a : Uuid) (l : CallLabel) : Bool :=
  l.2.mintedObservation.any (·.actionId == a)

def recordsLinearized (a : Uuid) (l : CallLabel) : Bool :=
  l.2.recorded.any (linearizes a)

/-! ## What one call does to the authority over one action -/

section
variable {codec : EntryCodec} {j j' : ConsequentialJournal} {l : CallLabel} {a : Uuid}

/-- How many permits may still be minted for the action. -/
def permitBudget (a : Uuid) (j : ConsequentialJournal) : Nat :=
  if (j.liveDispatchPrepared a).isSome ∨
      beforePrepared (recoveryStateFor j.entries a) = true then 1 else 0

/-- Losing grants and not returning before PREPARED refills no budget. -/
theorem permitBudget_le
    (hbefore : beforePrepared (recoveryStateFor j'.entries a) = true →
      beforePrepared (recoveryStateFor j.entries a) = true)
    (hgrant : j'.liveDispatchPrepared a = j.liveDispatchPrepared a ∨
      j'.liveDispatchPrepared a = none) :
    permitBudget a j' ≤ permitBudget a j := by
  unfold permitBudget
  by_cases h : (j'.liveDispatchPrepared a).isSome ∨
      beforePrepared (recoveryStateFor j'.entries a) = true
  · rw [if_pos h, if_pos]
    rcases h with h | h
    · rcases hgrant with hg | hg
      · exact .inl (hg ▸ h)
      · rw [hg] at h
        cases h
    · exact .inr (hbefore h)
  · rw [if_neg h]
    exact Nat.zero_le _

theorem Unrecorded.beforePrepared {fault : Option AppendFault} (h : Unrecorded fault j j') :
    beforePrepared (recoveryStateFor j'.entries a) = true →
      Localview.beforePrepared (recoveryStateFor j.entries a) = true := by
  rw [h.entries]
  exact id

theorem Recorded.beforePrepared {e : ConsequentialJournalEntry} (h : Recorded codec j e j') :
    beforePrepared (recoveryStateFor j'.entries a) = true →
      Localview.beforePrepared (recoveryStateFor j.entries a) = true := by
  intro hafter
  by_contra hnot
  rw [h.entries, beforePrepared_snoc h.admitted (by simpa using hnot)] at hafter
  cases hafter

/-- **Minting a permit spends the budget.** -/
theorem permitBudget_step (hs : CallStep codec j l j') :
    (if mintsDispatch a l then 1 else 0) + permitBudget a j' ≤ permitBudget a j := by
  obtain ⟨c, ans⟩ := l
  have hquiet : ans.mintedDispatch = none → permitBudget a j' ≤ permitBudget a j →
      (if mintsDispatch a (c, ans) then 1 else 0) + permitBudget a j' ≤ permitBudget a j := by
    intro hnone hle
    rw [if_neg (by simp [mintsDispatch, hnone]), Nat.zero_add]
    exact hle
  cases hs.journalStep with
  | refused _ hdispatch _ hun hwithin =>
    exact hquiet hdispatch (permitBudget_le hun.beforePrepared (hwithin.prepared a))
  | recorded _ hdispatch _ hrec hwithin _ _ =>
    exact hquiet hdispatch (permitBudget_le hrec.beforePrepared (hwithin.prepared a))
  | @prepared admission receipt _ hrec htr hgrants _ _ =>
    refine hquiet rfl ?_
    by_cases ha : a = admission.entry.actionId
    · -- PREPARED is admitted only before PREPARED
      subst ha
      have hadm := hrec.admitted
      rw [htr] at hadm
      have hbefore : beforePrepared (recoveryStateFor j.entries admission.entry.actionId) = true := by
        cases hadm with
        | prepared hs _ => rw [hs]; rfl
      have hfull : permitBudget admission.entry.actionId j = 1 := if_pos (.inr hbefore)
      rw [hfull]
      unfold permitBudget
      split <;> omega
    · refine permitBudget_le hrec.beforePrepared (.inl ?_)
      rw [hgrants, update_of_ne ha]
  | @dispatch capability permit _ hbound hid hstate hun _ hprepared _ _ =>
    by_cases ha : permit.actionId = a
    · subst ha
      have hgrant : (j.liveDispatchPrepared permit.actionId).isSome := by
        rw [hid, hbound.2]
        rfl
      have hfull : permitBudget permit.actionId j = 1 := if_pos (.inl hgrant)
      have hspent : permitBudget permit.actionId j' = 0 := by
        refine if_neg ?_
        rw [hprepared, update_self, hun.entries, hstate]
        simp [beforePrepared]
      rw [hfull, hspent]
      split <;> omega
    · have hnot : mintsDispatch a (c, .permit (.ok permit)) = false := by
        simpa [mintsDispatch, mintedDispatch] using ha
      rw [hnot]
      simp only [Bool.false_eq_true, if_false, Nat.zero_add]
      refine permitBudget_le hun.beforePrepared (.inl ?_)
      rw [hprepared, update_of_ne (Ne.symm ha)]
  | observation _ _ _ hun _ hprepared _ _ =>
    exact hquiet rfl (permitBudget_le hun.beforePrepared (.inl (by rw [hprepared])))

/-- The action is past PREPARED and holds no dispatch grant. -/
structure Settled (a : Uuid) (j : ConsequentialJournal) : Prop where
  past : beforePrepared (recoveryStateFor j.entries a) = false
  prepared : j.liveDispatchPrepared a = none
  execution : j.liveDispatchExecution a = none

/-- **Settled is for good**: no call leaves it, mints a permit for the action or
linearizes it. -/
theorem settled_step (h : Settled a j) (hs : CallStep codec j l j') :
    Settled a j' ∧ ¬ (mintsDispatch a l = true ∨ recordsLinearized a l = true) := by
  obtain ⟨c, ans⟩ := l
  cases hs.journalStep with
  | refused hrec hdispatch _ hun hwithin =>
    refine ⟨⟨?_, ?_, ?_⟩, by simp [mintsDispatch, recordsLinearized, hrec, hdispatch]⟩
    · rw [hun.entries]; exact h.past
    · rcases hwithin.prepared a with hg | hg
      · rw [hg]; exact h.prepared
      · exact hg
    · rcases hwithin.execution a with hg | hg
      · rw [hg]; exact h.execution
      · exact hg
  | @recorded _ e _ hans hdispatch _ hrec hwithin _ hlin =>
    refine ⟨⟨?_, ?_, ?_⟩, ?_⟩
    · rw [hrec.entries]; exact beforePrepared_snoc hrec.admitted h.past
    · rcases hwithin.prepared a with hg | hg
      · rw [hg]; exact h.prepared
      · exact hg
    · rcases hwithin.execution a with hg | hg
      · rw [hg]; exact h.execution
      · exact hg
    · -- a linearization is recorded only under the action's execution grant
      simp only [mintsDispatch, recordsLinearized, hans, hdispatch, any_none,
        any_some, Bool.false_eq_true, false_or]
      intro hl
      obtain ⟨ha, htr⟩ := Bool.and_eq_true_iff.mp hl
      obtain rfl : e.actionId = a := by simpa using ha
      cases hetr : e.transition with
      | dispatchLinearized receipt =>
        have hgrant := hlin receipt hetr
        rw [h.execution] at hgrant
        cases hgrant
      | _ => simp [hetr] at htr
  | @prepared admission receipt _ hrec htr hgrants hexec _ =>
    have hne : a ≠ admission.entry.actionId := by
      rintro rfl
      have hadm := hrec.admitted
      rw [htr] at hadm
      cases hadm with
      | prepared hs _ =>
        have hpast := h.past
        rw [hs] at hpast
        cases hpast
    refine ⟨⟨?_, ?_, ?_⟩, ?_⟩
    · rw [hrec.entries]; exact beforePrepared_snoc hrec.admitted h.past
    · rw [hgrants, update_of_ne hne]; exact h.prepared
    · rw [hexec]; exact h.execution
    · simp [mintsDispatch, recordsLinearized, mintedDispatch,
        recorded, linearizes, htr]
  | @dispatch capability permit _ hbound hid _ hun _ hprepared hexec _ =>
    have hne : a ≠ permit.actionId := by
      rintro rfl
      have hgrant := h.prepared
      rw [hid, hbound.2] at hgrant
      cases hgrant
    refine ⟨⟨?_, ?_, ?_⟩, ?_⟩
    · rw [hun.entries]; exact h.past
    · rw [hprepared, update_of_ne hne]; exact h.prepared
    · rw [hexec, update_of_ne hne]; exact h.execution
    · simp [mintsDispatch, recordsLinearized, mintedDispatch,
        recorded, Ne.symm hne]
  | observation _ _ _ hun _ hprepared hexec _ =>
    refine ⟨⟨?_, ?_, ?_⟩, ?_⟩
    · rw [hun.entries]; exact h.past
    · rw [hprepared]; exact h.prepared
    · rw [hexec]; exact h.execution
    · simp [mintsDispatch, recordsLinearized, mintedDispatch,
        recorded]

/-- **An observation permit is minted only for a settled action.** -/
theorem settled_of_mintsObservation (hs : CallStep codec j l j')
    (hmint : mintsObservation a l = true) : Settled a j ∧ Settled a j' := by
  obtain ⟨c, ans⟩ := l
  cases hs.journalStep with
  | refused _ _ hobs _ _ => simp [mintsObservation, hobs] at hmint
  | recorded _ _ hobs _ _ _ _ => simp [mintsObservation, hobs] at hmint
  | prepared _ _ _ _ _ => simp [mintsObservation, mintedObservation] at hmint
  | dispatch _ _ _ _ _ _ _ _ => simp [mintsObservation, mintedObservation] at hmint
  | @observation permit _ _ hprepared hexec hstate hun _ hp hx _ =>
    simp only [mintsObservation, mintedObservation, any_some,
      beq_iff_eq] at hmint
    subst hmint
    obtain ⟨state, hstate, hobs⟩ := hstate
    have hpast : beforePrepared (recoveryStateFor j.entries permit.actionId) = false := by
      rw [hstate]
      cases state <;> first | rfl | cases hobs
    refine ⟨⟨hpast, hprepared, hexec⟩, ⟨?_, ?_, ?_⟩⟩
    · rw [hun.entries]; exact hpast
    · rw [hp]; exact hprepared
    · rw [hx]; exact hexec

end

/-- **At-most-once dispatch authority** over one action, in one run of an
instance. -/
structure AtMostOnceDispatch (codec : EntryCodec) (j₀ : ConsequentialJournal)
    (tr : List CallLabel) (j : ConsequentialJournal) (a : Uuid) : Prop where
  /-- One permit at most is ever minted. -/
  permits : tr.countP (mintsDispatch a) ≤ 1
  /-- One linearized entry at most is ever recorded. -/
  linearized : j.entries.countP (linearizes a) ≤ 1
  /-- No grant is live when an observation permit is minted. -/
  observedAlone : ∀ tr₁ l tr₂ i, tr = tr₁ ++ l :: tr₂ → Run (CallStep codec) j₀ tr₁ i →
    mintsObservation a l = true →
    i.liveDispatchPrepared a = none ∧ i.liveDispatchExecution a = none
  /-- Neither a permit nor a linearization follows an observation permit. -/
  observedLast : ∀ tr₁ l tr₂, tr = tr₁ ++ l :: tr₂ → mintsObservation a l = true →
    ∀ m ∈ tr₂, ¬ (mintsDispatch a m = true ∨ recordsLinearized a m = true)
  /-- No permit is minted for an action the file already holds as PREPARED. -/
  reopened : (∃ e ∈ j₀.entries, prepares a e = true) → ∀ l ∈ tr, ¬ mintsDispatch a l = true

/-- **Every run of an instance opened from any file keeps dispatch authority
at-most-once**, for every action. -/
theorem atMostOnceDispatch (codec : EntryCodec) (faults : LoadFaults) (ref : Uuid) (file : Bytes)
    (j₀ : ConsequentialJournal) (hopen : (openJournal codec faults ref file).1 = .ok j₀)
    (tr : List CallLabel) (j : ConsequentialJournal) (hrun : Run (CallStep codec) j₀ tr j)
    (a : Uuid) : AtMostOnceDispatch codec j₀ tr j a := by
  obtain ⟨hcont, hprepared, hexec, -⟩ := continues_of_open hopen
  have hsettled : ∀ {tr i k}, Run (CallStep codec) i tr k → Settled a i →
      ∀ m ∈ tr, ¬ (mintsDispatch a m = true ∨ recordsLinearized a m = true) :=
    fun hrun hi => hrun.never_after (fun _ _ _ h hs => settled_step h hs) hi
  refine ⟨?_, ?_, ?_, ?_, ?_⟩
  · have hbudget : tr.countP (mintsDispatch a) + permitBudget a j ≤ permitBudget a j₀ :=
      hrun.countP_le (I := fun _ => True) (fun _ _ _ _ _ => trivial)
        (fun _ _ _ _ hs => permitBudget_step hs) trivial
    have hone : permitBudget a j₀ ≤ 1 := by
      unfold permitBudget
      split <;> omega
    omega
  · have hj : Continues j := hrun.invariant (fun _ _ _ h hs => h.step hs) hcont
    have hcount := linearizes_count hj.history a
    split at hcount <;> omega
  · rintro tr₁ l tr₂ i rfl hrun₁ hmint
    obtain ⟨k, _, hrun₁', hs, -⟩ := hrun.step_of_split
    -- calls are functions of the state, so both runs of `tr₁` end alike
    obtain rfl : i = k := hrun₁.unique callStep_unique hrun₁'
    obtain ⟨hi, -⟩ := settled_of_mintsObservation hs hmint
    exact ⟨hi.prepared, hi.execution⟩
  · rintro tr₁ l tr₂ rfl hmint
    obtain ⟨i, k, -, hs, hrest⟩ := hrun.step_of_split
    exact hsettled hrest (settled_of_mintsObservation hs hmint).2
  · rintro ⟨e, he, hprep⟩ l hl hmint
    have hstart : Settled a j₀ :=
      ⟨beforePrepared_of_prepares hcont.history he hprep, hprepared a, hexec a⟩
    exact hsettled hrun hstart l hl (.inl hmint)

theorem atMostOnceDispatch_sampleRun :
    AtMostOnceDispatch numeralCodec (freshJournal 1) sampleRun.1 sampleRun.2 7 :=
  atMostOnceDispatch numeralCodec .none 1 [] (freshJournal 1) (by rw [openJournal_empty])
    sampleRun.1 sampleRun.2 (run_runCalls _ _ _) 7

/-- The sample run does mint a permit. -/
example : sampleRun.1.countP (mintsDispatch 7) = 1 := by decide

end Localview
