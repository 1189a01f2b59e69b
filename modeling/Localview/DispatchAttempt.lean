import Localview.SetValueExecution

/-! # What a failed dispatch attempt leaves behind

After PREPARED the action can be reconciled in the same process only once its
live grants are gone: `begin_postcondition_observation` refuses as long as one
is left, and a grant goes only through a call that consumes it.  A capability or
permit that an early return drops takes no such call with it.

This module follows the grants of one action through the three stages of an
attempt, the other tasks moving the journal between any two accesses.  A stage's
specification says from which states its errors leave no grant.
-/
namespace Localview
open EarlyReturn StateRun AsyncState Function ConsequentialJournal

/-! ## The grants of one action -/

def presentsDispatch (a : Uuid) : JournalCall → Bool
  | .beginDispatch capability _ => capability.actionId == a
  | .abandonDispatchExecution permit => permit.actionId == a
  | .recordDispatchLinearized permit _ _ => permit.actionId == a
  | _ => false

/-- The action's dispatch grants are those of `j`. -/
structure SameDispatchGrants (a : Uuid) (j j' : ConsequentialJournal) : Prop where
  prepared : j'.liveDispatchPrepared a = j.liveDispatchPrepared a
  execution : j'.liveDispatchExecution a = j.liveDispatchExecution a

theorem SameGrants.dispatch {j j' : ConsequentialJournal} (h : SameGrants j j') (a : Uuid) :
    SameDispatchGrants a j j' :=
  ⟨congrFun h.prepared a, congrFun h.execution a⟩

theorem SameDispatchGrants.refl (a : Uuid) (j : ConsequentialJournal) : SameDispatchGrants a j j :=
  ⟨rfl, rfl⟩

theorem SameDispatchGrants.trans {a : Uuid} {j₁ j₂ j₃ : ConsequentialJournal}
    (h₁ : SameDispatchGrants a j₁ j₂) (h₂ : SameDispatchGrants a j₂ j₃) :
    SameDispatchGrants a j₁ j₃ :=
  ⟨h₂.prepared.trans h₁.prepared, h₂.execution.trans h₁.execution⟩

section
variable {codec : EntryCodec} {j j' : ConsequentialJournal} {a : Uuid}

/-- An action past PREPARED is not prepared again. -/
theorem recordDispatchPrepared_past (hpast : beforePrepared (recoveryStateFor j.entries a) = false)
    (receipt : DispatchPreparationReceipt) (capabilityRef : Uuid) (io : AppendIo) :
    SameDispatchGrants a j (j.recordDispatchPrepared codec a receipt capabilityRef io).2 := by
  obtain ⟨hsame, h⟩ := append_cases codec j a (.dispatchPrepared receipt) io
  unfold recordDispatchPrepared
  rcases hres : j.appendValidatedLocked codec a (.dispatchPrepared receipt) io with ⟨result, j'⟩
  rw [hres] at hsame h
  rcases h with ⟨error, herr, -⟩ | ⟨-, hrec⟩
  · simp only at herr
    subst herr
    exact hsame.dispatch a
  · have hadm : Admits .append j.entries a (.dispatchPrepared receipt) := hrec.admitted
    cases hadm with
    | prepared hs _ =>
      rw [hs] at hpast
      cases hpast

theorem recordDispatchPrepared_other {b : Uuid} (hb : a ≠ b) (receipt : DispatchPreparationReceipt)
    (capabilityRef : Uuid) (io : AppendIo) :
    SameDispatchGrants a j (j.recordDispatchPrepared codec b receipt capabilityRef io).2 := by
  obtain ⟨hsame, -⟩ := append_cases codec j b (.dispatchPrepared receipt) io
  unfold recordDispatchPrepared
  rcases hres : j.appendValidatedLocked codec b (.dispatchPrepared receipt) io
    with ⟨error | entry, j'⟩ <;> rw [hres] at hsame
  · exact hsame.dispatch a
  · refine ⟨?_, congrFun hsame.execution a⟩
    show update j'.liveDispatchPrepared b _ a = _
    rw [update_of_ne hb]
    exact congrFun hsame.prepared a

theorem beginDispatch_other {capability : DispatchPreparedCapability}
    (ha : a ≠ capability.actionId) (permitRef : Uuid) :
    SameDispatchGrants a j (j.beginDispatch capability permitRef).2 := by
  unfold beginDispatch
  simp only
  split
  · exact .refl a j
  split
  · exact .refl a j
  split
  · exact .refl a j
  have hprepared :
      update j.liveDispatchPrepared capability.actionId none a = j.liveDispatchPrepared a :=
    update_of_ne ha _ _
  split
  · exact ⟨hprepared, rfl⟩
  split
  · exact ⟨hprepared, rfl⟩
  · exact ⟨hprepared, update_of_ne ha _ _⟩

variable {permit : DispatchExecutionPermit}

theorem consumeDispatchPermit_other (ha : a ≠ permit.actionId) :
    SameDispatchGrants a j (j.consumeDispatchPermit permit).2 := by
  unfold consumeDispatchPermit
  simp only
  split
  · exact .refl a j
  split
  · exact .refl a j
  split
  · exact .refl a j
  have hexecution :
      update j.liveDispatchExecution permit.actionId none a = j.liveDispatchExecution a :=
    update_of_ne ha _ _
  split
  · exact ⟨rfl, hexecution⟩
  split
  · exact ⟨rfl, hexecution⟩
  · exact ⟨rfl, hexecution⟩

theorem recordDispatchLinearized_other (ha : a ≠ permit.actionId)
    (receipt : DispatchLinearizationReceipt) (io : AppendIo) :
    SameDispatchGrants a j (j.recordDispatchLinearized codec permit receipt io).2 := by
  have hconsumed := consumeDispatchPermit_other (j := j) ha
  unfold recordDispatchLinearized
  rcases hres : j.consumeDispatchPermit permit with ⟨error | u, j₁⟩ <;> rw [hres] at hconsumed
  · exact hconsumed
  · exact hconsumed.trans ((append_cases codec j₁ permit.actionId _ io).1.dispatch a)

theorem beginPostconditionObservation_dispatch (b observationRef : Uuid) :
    SameDispatchGrants a j (j.beginPostconditionObservation b observationRef).2 := by
  unfold beginPostconditionObservation
  simp only
  split
  · exact .refl a j
  split
  · exact .refl a j
  split
  · exact .refl a j
  split
  · exact .refl a j
  split
  · exact .refl a j
  · exact ⟨rfl, rfl⟩

theorem consumeObservationPermit_dispatch (permit : ConsequentialPostconditionObservationPermit) :
    SameDispatchGrants a j (j.consumeObservationPermit permit).2 := by
  unfold consumeObservationPermit
  simp only
  split
  · exact .refl a j
  split
  · exact .refl a j
  split
  · exact .refl a j
  · exact ⟨rfl, rfl⟩

theorem completePostconditionObservation_dispatch
    (permit : ConsequentialPostconditionObservationPermit)
    (snapshot : ReconciliationSnapshotReceipt) :
    SameDispatchGrants a j (j.completePostconditionObservation permit snapshot).2 := by
  have h := consumeObservationPermit_dispatch (a := a) (j := j) permit
  unfold completePostconditionObservation
  rcases hres : j.consumeObservationPermit permit with ⟨error | u, j₁⟩ <;> rw [hres] at h
  · exact h
  · exact h

/-- **Who presents nothing of the action leaves its grants**, once it is past
PREPARED. -/
theorem dispatchGrants_call (c : JournalCall)
    (hpast : beforePrepared (recoveryStateFor j.entries a) = false)
    (hc : presentsDispatch a c = false) : SameDispatchGrants a j (c.run codec j).2 := by
  cases c with
  | recordIntentAdmitted envelope io => exact (append_cases codec j _ _ io).1.dispatch a
  | recordAuthorization b revision revalidated io =>
    exact (append_cases codec j _ _ io).1.dispatch a
  | recordDispatchPrepared b receipt capabilityRef io =>
    by_cases hb : a = b
    · subst hb
      exact recordDispatchPrepared_past hpast receipt capabilityRef io
    · exact recordDispatchPrepared_other hb receipt capabilityRef io
  | beginDispatch capability permitRef =>
    have ha : a ≠ capability.actionId := Ne.symm (by simpa [presentsDispatch] using hc)
    exact beginDispatch_other ha permitRef
  | abandonDispatchExecution permit =>
    have ha : a ≠ permit.actionId := Ne.symm (by simpa [presentsDispatch] using hc)
    exact consumeDispatchPermit_other ha
  | recordDispatchLinearized permit receipt io =>
    have ha : a ≠ permit.actionId := Ne.symm (by simpa [presentsDispatch] using hc)
    exact recordDispatchLinearized_other ha receipt io
  | beginPostconditionObservation b observationRef =>
    exact beginPostconditionObservation_dispatch b observationRef
  | abandonPostconditionObservation permit => exact consumeObservationPermit_dispatch permit
  | completePostconditionObservation permit snapshot =>
    exact completePostconditionObservation_dispatch permit snapshot
  | recordActionPostconditionReceipt draft io =>
    show SameDispatchGrants a j (j.recordActionPostconditionReceipt codec draft io).2
    rw [recordActionPostconditionReceipt_snd]
    exact (append_cases ..).1.dispatch a
  | recordCompensation b ref outcome io => exact (append_cases codec j _ _ io).1.dispatch a
  | recordCommitted b io => exact (append_cases codec j _ _ io).1.dispatch a

/-- PREPARED is not taken back by any call. -/
theorem past_step {l : CallLabel} (hs : CallStep codec j l j')
    (hpast : beforePrepared (recoveryStateFor j.entries a) = false) :
    beforePrepared (recoveryStateFor j'.entries a) = false := by
  obtain ⟨c, ans⟩ := l
  cases hs.journalStep with
  | refused _ _ _ hun _ => rw [hun.entries]; exact hpast
  | recorded _ _ _ hrec _ _ _ => rw [hrec.entries]; exact beforePrepared_snoc hrec.admitted hpast
  | prepared hrec _ _ _ _ => rw [hrec.entries]; exact beforePrepared_snoc hrec.admitted hpast
  | dispatch _ _ _ hun _ _ _ _ => rw [hun.entries]; exact hpast
  | observation _ _ _ hun _ _ _ _ => rw [hun.entries]; exact hpast

/-- No call changes the instance. -/
theorem journalInstanceRef_step {l : CallLabel} (hs : CallStep codec j l j') :
    j'.journalInstanceRef = j.journalInstanceRef := by
  obtain ⟨c, ans⟩ := l
  cases hs.journalStep with
  | refused _ _ _ hun _ => exact hun.journalInstanceRef
  | recorded _ _ _ hrec _ _ _ => exact hrec.journalInstanceRef
  | prepared hrec _ _ _ _ => exact hrec.journalInstanceRef
  | dispatch _ _ _ hun _ _ _ _ => exact hun.journalInstanceRef
  | observation _ _ _ hun _ _ _ _ => exact hun.journalInstanceRef

/-- An execution grant belongs to an action past PREPARED. -/
def ExecutionPast (j : ConsequentialJournal) : Prop :=
  ∀ a, beforePrepared (recoveryStateFor j.entries a) = true → j.liveDispatchExecution a = none

theorem executionPast_step {l : CallLabel} (h : ExecutionPast j) (hs : CallStep codec j l j') :
    ExecutionPast j' := by
  obtain ⟨c, ans⟩ := l
  intro a hbefore
  have hkeep : (j'.liveDispatchExecution a = j.liveDispatchExecution a ∨
        j'.liveDispatchExecution a = none) →
      j'.liveDispatchExecution a = none := by
    rintro (hsame | hnone)
    · rw [hsame]
      refine h a ?_
      by_contra hpast
      rw [past_step hs (by simpa using hpast)] at hbefore
      cases hbefore
    · exact hnone
  cases hs.journalStep with
  | refused _ _ _ _ hwithin => exact hkeep (hwithin.execution a)
  | recorded _ _ _ _ hwithin _ _ => exact hkeep (hwithin.execution a)
  | prepared _ _ _ hexec _ => exact hkeep (.inl (by rw [hexec]))
  | @dispatch _ permit _ _ _ hstate hun _ _ hexec _ =>
    refine hkeep (.inl ?_)
    have hne : a ≠ permit.actionId := by
      rintro rfl
      rw [hun.entries, hstate] at hbefore
      cases hbefore
    rw [hexec, update_of_ne hne]
  | observation _ _ _ _ _ _ hexec _ => exact hkeep (.inl (by rw [hexec]))

/-- A failed `begin_dispatch` on a genuine capability has consumed its grant, and
a successful one has moved it. -/
theorem beginDispatch_consumes {capability : DispatchPreparedCapability}
    (hbound : BoundCapability j capability) (permitRef : Uuid) :
    (j.beginDispatch capability permitRef).2.liveDispatchPrepared capability.actionId = none ∧
      ((∃ error, (j.beginDispatch capability permitRef).1 = .error error) ∧
          (j.beginDispatch capability permitRef).2.liveDispatchExecution capability.actionId =
            j.liveDispatchExecution capability.actionId ∨
        ∃ permit, (j.beginDispatch capability permitRef).1 = .ok permit ∧
          permit.actionId = capability.actionId ∧
          permit.preparationJournalSequence = capability.preparationJournalSequence ∧
          BoundPermit (j.beginDispatch capability permitRef).2 permit) := by
  obtain ⟨hinst, hgrant⟩ := hbound
  unfold beginDispatch
  simp only [hinst, hgrant, ne_eq, not_true_eq_false, or_self, if_false]
  have hgone : update j.liveDispatchPrepared capability.actionId none
      capability.actionId = none := update_self _ _ _
  split
  · exact ⟨hgone, .inl ⟨⟨_, rfl⟩, rfl⟩⟩
  split
  · exact ⟨hgone, .inl ⟨⟨_, rfl⟩, rfl⟩⟩
  · exact ⟨hgone, .inr ⟨_, rfl, rfl, rfl, rfl, update_self _ _ _⟩⟩

/-- A genuine permit's grant is consumed, whatever the call answers. -/
theorem consumeDispatchPermit_consumes (hbound : BoundPermit j permit) :
    (j.consumeDispatchPermit permit).2.liveDispatchExecution permit.actionId = none ∧
      (j.consumeDispatchPermit permit).2.liveDispatchPrepared = j.liveDispatchPrepared := by
  obtain ⟨hinst, hgrant⟩ := hbound
  unfold consumeDispatchPermit
  simp only [hinst, hgrant, ne_eq, not_true_eq_false, or_self, if_false]
  have hgone : update j.liveDispatchExecution permit.actionId none permit.actionId =
      none := update_self _ _ _
  split
  · exact ⟨hgone, rfl⟩
  split
  · exact ⟨hgone, rfl⟩
  · exact ⟨hgone, rfl⟩

theorem recordDispatchLinearized_consumes (hbound : BoundPermit j permit)
    (receipt : DispatchLinearizationReceipt) (io : AppendIo) :
    (j.recordDispatchLinearized codec permit receipt io).2.liveDispatchExecution permit.actionId =
        none ∧
      (j.recordDispatchLinearized codec permit receipt io).2.liveDispatchPrepared =
        j.liveDispatchPrepared := by
  have hconsumed := consumeDispatchPermit_consumes hbound
  unfold recordDispatchLinearized
  rcases hres : j.consumeDispatchPermit permit with ⟨error | u, j₁⟩ <;> rw [hres] at hconsumed
  · exact hconsumed
  · have hsame := (append_cases codec j₁ permit.actionId (.dispatchLinearized receipt) io).1
    exact ⟨(congrFun hsame.execution _).trans hconsumed.1, hsame.prepared.trans hconsumed.2⟩

end

/-! ## On the shared state -/

/-- The other tasks move the journal by its calls and present no capability or
permit of the action: those are move-only, and the attempt holds what there is
of them. -/
def OthersWithout (codec : EntryCodec) (a : Uuid) (sh : Shared DispatchWorld) : Prop :=
  ∀ n w, ∃ tr, Run (CallStep codec) w.journal tr (sh.others n w).journal ∧
    ∀ l ∈ tr, presentsDispatch a l.1 = false

/-- What one turn of the others, or a call of the attempt's own, keeps of an
action past PREPARED: its grants and the instance they belong to. -/
structure Undisturbed (a : Uuid) (j j' : ConsequentialJournal) : Prop where
  past : beforePrepared (recoveryStateFor j'.entries a) = false
  grants : SameDispatchGrants a j j'
  journalInstanceRef : j'.journalInstanceRef = j.journalInstanceRef

section
variable {codec : EntryCodec} {a : Uuid}

theorem undisturbed_call {j : ConsequentialJournal} (c : JournalCall)
    (hpast : beforePrepared (recoveryStateFor j.entries a) = false)
    (hc : presentsDispatch a c = false) : Undisturbed a j (c.run codec j).2 := by
  have hs : CallStep codec j (c, (c.run codec j).1) (c.run codec j).2 := rfl
  exact ⟨past_step hs hpast, dispatchGrants_call c hpast hc, journalInstanceRef_step hs⟩

theorem undisturbed_run {j j' : ConsequentialJournal} {tr : List CallLabel}
    (hrun : Run (CallStep codec) j tr j')
    (hpast : beforePrepared (recoveryStateFor j.entries a) = false)
    (htr : ∀ l ∈ tr, presentsDispatch a l.1 = false) : Undisturbed a j j' := by
  induction hrun with
  | nil j => exact ⟨hpast, .refl a j, rfl⟩
  | @cons j k _ l _ hs _ ih =>
    have hk : k = (l.1.run codec j).2 := (congrArg Prod.snd hs).symm
    have hone : Undisturbed a j k := by
      rw [hk]
      exact undisturbed_call l.1 hpast (htr l List.mem_cons_self)
    have hrest := ih hone.past fun m hm => htr m (List.mem_cons_of_mem _ hm)
    exact ⟨hrest.past, hone.grants.trans hrest.grants,
      hrest.journalInstanceRef.trans hone.journalInstanceRef⟩

/-- The states of an attempt on an action past PREPARED whose grants it alone can
present. -/
structure Attempting (codec : EntryCodec) (a : Uuid) (sh : Shared DispatchWorld) : Prop where
  others : OthersWithout codec a sh
  past : beforePrepared (recoveryStateFor sh.state.journal.entries a) = false

variable {sh : Shared DispatchWorld}

theorem OthersWithout.next (h : OthersWithout codec a sh) :
    OthersWithout codec a sh.next :=
  fun n w => h (n + 1) w

theorem OthersWithout.after (h : OthersWithout codec a sh) (n : Nat) :
    OthersWithout codec a (sh.after n) := by
  induction n with
  | zero => exact h
  | succ n ih => exact ih.next

theorem Attempting.undisturbed (h : Attempting codec a sh) :
    Undisturbed a sh.state.journal sh.next.state.journal := by
  obtain ⟨tr, hrun, htr⟩ := h.others 0 sh.state
  exact undisturbed_run hrun h.past htr

/-- The attempt holds the capability whose grant is live. -/
structure HoldsCapability (codec : EntryCodec) (a : Uuid) (capability : DispatchPreparedCapability)
    (sh : Shared DispatchWorld) : Prop extends Attempting codec a sh where
  actionId : capability.actionId = a
  bound : BoundCapability sh.state.journal capability
  execution : sh.state.journal.liveDispatchExecution a = none

structure HoldsPermit (codec : EntryCodec) (a : Uuid) (permit : DispatchExecutionPermit)
    (sh : Shared DispatchWorld) : Prop extends Attempting codec a sh where
  actionId : permit.actionId = a
  bound : BoundPermit sh.state.journal permit
  prepared : sh.state.journal.liveDispatchPrepared a = none

/-- No dispatch grant of the action is left. -/
structure Released (codec : EntryCodec) (a : Uuid) (sh : Shared DispatchWorld) : Prop
    extends Attempting codec a sh where
  prepared : sh.state.journal.liveDispatchPrepared a = none
  execution : sh.state.journal.liveDispatchExecution a = none

theorem HoldsCapability.next {capability : DispatchPreparedCapability}
    (h : HoldsCapability codec a capability sh) :
    HoldsCapability codec a capability sh.next := by
  have hturn := h.toAttempting.undisturbed
  obtain ⟨hinst, hgrant⟩ := h.bound
  refine ⟨⟨h.others.next, hturn.past⟩, h.actionId, ⟨?_, ?_⟩, ?_⟩
  · rw [hturn.journalInstanceRef]; exact hinst
  · rw [h.actionId] at hgrant ⊢
    rw [hturn.grants.prepared]; exact hgrant
  · rw [hturn.grants.execution]; exact h.execution

theorem HoldsCapability.after {capability : DispatchPreparedCapability}
    (h : HoldsCapability codec a capability sh) (n : Nat) :
    HoldsCapability codec a capability (sh.after n) := by
  induction n with
  | zero => exact h
  | succ n ih => exact ih.next

variable {permit : DispatchExecutionPermit}

theorem HoldsPermit.next (h : HoldsPermit codec a permit sh) :
    HoldsPermit codec a permit sh.next := by
  have hturn := h.toAttempting.undisturbed
  obtain ⟨hinst, hgrant⟩ := h.bound
  refine ⟨⟨h.others.next, hturn.past⟩, h.actionId, ⟨?_, ?_⟩, ?_⟩
  · rw [hturn.journalInstanceRef]; exact hinst
  · rw [h.actionId] at hgrant ⊢
    rw [hturn.grants.execution]; exact hgrant
  · rw [hturn.grants.prepared]; exact h.prepared

theorem HoldsPermit.after (h : HoldsPermit codec a permit sh) (n : Nat) :
    HoldsPermit codec a permit (sh.after n) := by
  induction n with
  | zero => exact h
  | succ n ih => exact ih.next

theorem Released.next (h : Released codec a sh) :
    Released codec a sh.next := by
  have hturn := h.toAttempting.undisturbed
  refine ⟨⟨h.others.next, hturn.past⟩, ?_, ?_⟩
  · rw [hturn.grants.prepared]; exact h.prepared
  · rw [hturn.grants.execution]; exact h.execution

/-! ## The attempt's own calls -/

variable {ε α : Type} {call : ConsequentialJournal → Except ε α × ConsequentialJournal}

/-- A journal call is the others' turn and then the call. -/
theorem ends_journalCall {ok : α → Shared DispatchWorld → Prop}
    {err : ε → Shared DispatchWorld → Prop} :
    Ends (journalCall call) sh ok err ↔
      (∀ x, (call (sh.after 1).state.journal).1 = .ok x →
          ok x ((sh.after 1).set { (sh.after 1).state with
            journal := (call (sh.after 1).state.journal).2 })) ∧
        ∀ e, (call (sh.after 1).state.journal).1 = .error e →
          err e ((sh.after 1).set { (sh.after 1).state with
            journal := (call (sh.after 1).state.journal).2 }) :=
  ends_access

/-- Released is kept by every call that presents nothing of the action. -/
theorem keeps_released_call (c : JournalCall) (hc : presentsDispatch a c = false)
    (hcall : ∀ j, (call j).2 = (c.run codec j).2) :
    Keeps (Released codec a) (journalCall call) := by
  intro sh h
  have hturn : Released codec a (sh.after 1) := h.next
  have hown : Undisturbed a _ (c.run codec _).2 := undisturbed_call c hturn.past hc
  rw [← hcall] at hown
  have hkept : Released codec a ((sh.after 1).set { (sh.after 1).state with
      journal := (call (sh.after 1).state.journal).2 }) :=
    ⟨⟨hturn.others, hown.past⟩, hown.grants.prepared.trans hturn.prepared,
      hown.grants.execution.trans hturn.execution⟩
  exact ends_journalCall.mpr ⟨fun _ _ => hkept, fun _ _ => hkept⟩

/-- Giving the permit up releases the action, whatever the call answers. -/
theorem ends_abandonSetValue (h : HoldsPermit codec a permit sh) (stage : String) :
    Ends (abandonSetValue permit stage) sh (fun _ => Released codec a)
      (fun _ => Released codec a) := by
  have hturn : HoldsPermit codec a permit (sh.after 1) := h.next
  obtain ⟨hexecution, hprepared⟩ := consumeDispatchPermit_consumes hturn.bound
  obtain ⟨-, hun, -⟩ := consumeDispatchPermit_cases (sh.after 1).state.journal permit
  rw [hturn.actionId] at hexecution
  have hreleased : Released codec a ((sh.after 1).set { (sh.after 1).state with
      journal := ((sh.after 1).state.journal.abandonDispatchExecution permit).2 }) := by
    refine ⟨⟨hturn.others, ?_⟩, ?_, hexecution⟩
    · show beforePrepared (recoveryStateFor
        ((sh.after 1).state.journal.consumeDispatchPermit permit).2.entries a) = false
      rw [(hun none).entries]
      exact hturn.past
    · show ((sh.after 1).state.journal.consumeDispatchPermit permit).2.liveDispatchPrepared a = none
      rw [hprepared]
      exact hturn.prepared
  exact ends_mapError.mpr (ends_journalCall.mpr ⟨fun _ _ => hreleased, fun _ _ => hreleased⟩)

variable {err : WindowsUiaSetValueExecutionError → Shared DispatchWorld → Prop}

theorem ends_abandonThen {α : Type} (h : HoldsPermit codec a permit sh) {stage : String}
    {e : WindowsUiaSetValueExecutionError} {ok : α → Shared DispatchWorld → Prop}
    (herr : ∀ e sh', Released codec a sh' → err e sh') :
    Ends (abandonThen permit stage e) sh ok err :=
  ends_bind.mpr ((ends_abandonSetValue h stage).mono (fun _ => herr e) herr)

/-- An abandoning check never fails badly: only its passing is left to look at. -/
theorem ends_rejectAbandoning {bad : Prop} [Decidable bad] (h : HoldsPermit codec a permit sh)
    {stage : String} {e : WindowsUiaSetValueExecutionError}
    {ok : Unit → Shared DispatchWorld → Prop} (herr : ∀ e sh', Released codec a sh' → err e sh') :
    Ends (rejectAbandoning bad permit stage e) sh ok err ↔ (¬ bad → ok () sh) := by
  unfold rejectAbandoning
  by_cases hbad : bad
  · rw [if_pos hbad]
    exact ⟨fun _ hnot => absurd hbad hnot, fun _ => ends_abandonThen h herr⟩
  · rw [if_neg hbad]
    exact ⟨fun hok _ => hok, fun hok => hok hbad⟩

theorem ends_envelopeOrAbandon (h : HoldsPermit codec a permit sh)
    {value : Option CanonicalActionEnvelope}
    {ok : CanonicalActionEnvelope → Shared DispatchWorld → Prop}
    (herr : ∀ e sh', Released codec a sh' → err e sh') :
    Ends (envelopeOrAbandon permit value) sh ok err ↔
      ∀ envelope, value = some envelope → ok envelope sh := by
  cases value with
  | none => exact ⟨fun _ _ hnone => (nomatch hnone), fun _ => ends_abandonThen h herr⟩
  | some envelope => simp [envelopeOrAbandon]

theorem ends_receiptOrAbandon (h : HoldsPermit codec a permit sh)
    {answer : Except String WindowsUiaSetValueDispatchReceipt}
    {ok : WindowsUiaSetValueDispatchReceipt → Shared DispatchWorld → Prop}
    (herr : ∀ e sh', Released codec a sh' → err e sh') :
    Ends (receiptOrAbandon permit answer) sh ok err ↔
      ∀ receipt, answer = .ok receipt → ok receipt sh := by
  cases answer with
  | error message => exact ⟨fun _ _ hnone => (nomatch hnone), fun _ => ends_abandonThen h herr⟩
  | ok receipt => simp [receiptOrAbandon]

/-- Linearizing releases the action, whatever the call answers. -/
theorem ends_recordDispatchLinearized (h : HoldsPermit codec a permit sh)
    (receipt : DispatchLinearizationReceipt) (io : AppendIo) :
    Ends (journalCall fun j => j.recordDispatchLinearized codec permit receipt io) sh
      (fun _ => Released codec a) (fun _ => Released codec a) := by
  have hturn : HoldsPermit codec a permit (sh.after 1) := h.next
  have hs : CallStep codec (sh.after 1).state.journal
      (.recordDispatchLinearized permit receipt io,
        .entry ((sh.after 1).state.journal.recordDispatchLinearized codec permit receipt io).1)
      ((sh.after 1).state.journal.recordDispatchLinearized codec permit receipt io).2 := rfl
  obtain ⟨hexecution, hprepared⟩ :=
    recordDispatchLinearized_consumes hturn.bound receipt io
  rw [hturn.actionId] at hexecution
  have hreleased : Released codec a ((sh.after 1).set { (sh.after 1).state with
      journal :=
        ((sh.after 1).state.journal.recordDispatchLinearized codec permit receipt io).2 }) :=
    ⟨⟨hturn.others, past_step hs hturn.past⟩, (congrFun hprepared a).trans hturn.prepared,
      hexecution⟩
  exact ends_journalCall.mpr ⟨fun _ _ => hreleased, fun _ _ => hreleased⟩

end

end Localview
