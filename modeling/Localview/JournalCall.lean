import Localview.StateRun
import Localview.ConsequentialJournal

/-! # What a call on the journal can do

`JournalCall` lists the calls, `JournalCall.run` runs one, and `JournalStep`
says once what any of them can do: refuse (possibly losing grants, possibly
leaving the bytes of a failed append in the file), record one entry, record a
PREPARED entry with its grant, mint an execution permit, or mint an observation
permit.  Every invariant of an instance is derived from `JournalStep`.
-/
namespace Localview
open EarlyReturn RecordLog StateRun List Function ConsequentialJournal

/-- The four ways an append ends. -/
inductive Appended (codec : EntryCodec) (j : ConsequentialJournal) (a : Uuid)
    (tr : ConsequentialJournalTransition) (io : AppendIo) :
    Except ConsequentialJournalError ConsequentialJournalEntry × ConsequentialJournal → Prop
  | rejected {error} : ¬ Admits .append j.entries a tr →
      validateTransition j.entries a tr .append = .error error →
      Appended codec j a tr io (.error error, j)
  | unencodable {message} : Admits .append j.entries a tr →
      codec.toVec (j.nextEntry a tr io) = .error message →
      Appended codec j a tr io (.error (.serialization message), j)
  | failed {line fault} : Admits .append j.entries a tr →
      codec.toVec (j.nextEntry a tr io) = .ok line → io.fault = some fault →
      Appended codec j a tr io
        (.error fault.error, { j with file := j.file ++ fault.residue (line ++ [newline]) })
  | recorded {line} : Admits .append j.entries a tr →
      codec.toVec (j.nextEntry a tr io) = .ok line → io.fault = none →
      Appended codec j a tr io
        (.ok (j.nextEntry a tr io),
          { j with file := j.file ++ (line ++ [newline]), nextSequence := j.nextSequence + 1
                   entries := j.entries ++ [j.nextEntry a tr io] })

section
variable (codec : EntryCodec) (j : ConsequentialJournal)

theorem appendValidatedLocked_spec (a : Uuid)
    (tr : ConsequentialJournalTransition) (io : AppendIo) :
    Appended codec j a tr io (j.appendValidatedLocked codec a tr io) := by
  unfold appendValidatedLocked
  cases hv : validateTransition j.entries a tr .append with
  | error error =>
    refine .rejected (fun h => ?_) hv
    rw [validateTransition_iff.mpr h] at hv
    cases hv
  | ok u =>
    have hadm : Admits .append j.entries a tr := validateTransition_iff.mp hv
    cases henc : codec.toVec (j.nextEntry a tr io) with
    | error message => simpa only [henc] using Appended.unencodable hadm henc
    | ok line =>
      cases hfault : io.fault with
      | none => simpa only [henc, hfault, appendDurable] using Appended.recorded hadm henc hfault
      | some fault =>
        simpa only [henc, hfault, appendDurable] using Appended.failed hadm henc hfault

/-! ## Calls -/

/-- A call of the journal, with what its write meets. -/
inductive JournalCall
  | recordIntentAdmitted (envelope : CanonicalActionEnvelope) (io : AppendIo)
  | recordAuthorization (actionId : Uuid) (authorizationRevision : String) (revalidated : Bool)
      (io : AppendIo)
  | recordDispatchPrepared (actionId : Uuid) (receipt : DispatchPreparationReceipt)
      (capabilityRef : Uuid) (io : AppendIo)
  | beginDispatch (capability : DispatchPreparedCapability) (permitRef : Uuid)
  | abandonDispatchExecution (permit : DispatchExecutionPermit)
  | recordDispatchLinearized (permit : DispatchExecutionPermit)
      (receipt : DispatchLinearizationReceipt) (io : AppendIo)
  | beginPostconditionObservation (actionId observationRef : Uuid)
  | abandonPostconditionObservation (permit : ConsequentialPostconditionObservationPermit)
  | completePostconditionObservation (permit : ConsequentialPostconditionObservationPermit)
      (snapshot : ReconciliationSnapshotReceipt)
  | recordActionPostconditionReceipt (draft : ActionPostconditionReceiptDraft) (io : AppendIo)
  | recordCompensation (actionId : Uuid) (compensationRef : String) (worldOutcome : WorldOutcome)
      (io : AppendIo)
  | recordCommitted (actionId : Uuid) (io : AppendIo)

/-- How the call's append fails, if it makes one. -/
def JournalCall.fault : JournalCall → Option AppendFault
  | .recordIntentAdmitted _ io | .recordAuthorization _ _ _ io
  | .recordDispatchPrepared _ _ _ io | .recordDispatchLinearized _ _ io
  | .recordActionPostconditionReceipt _ io | .recordCompensation _ _ _ io
  | .recordCommitted _ io => io.fault
  | .beginDispatch _ _ | .abandonDispatchExecution _ | .beginPostconditionObservation _ _
  | .abandonPostconditionObservation _ | .completePostconditionObservation _ _ => none

/-- What a call of the journal returns. -/
inductive JournalAnswer
  | entry (result : Except ConsequentialJournalError ConsequentialJournalEntry)
  | prepared (result : Except ConsequentialJournalError DispatchPreparedAdmission)
  | permit (result : Except ConsequentialJournalError DispatchExecutionPermit)
  | abandoned (result : Except ConsequentialJournalError Unit)
  | observation (result : Except ConsequentialPostconditionObservationError
      ConsequentialPostconditionObservationPermit)
  | observationAbandoned (result : Except ConsequentialPostconditionObservationError Unit)
  | observed (result : Except ConsequentialPostconditionObservationError
      ConsequentialPostconditionObservationReceipt)
  | receipt (result : Except ConsequentialJournalError
      (ConsequentialJournalEntry × ActionPostconditionReceipt))

/-- The entry the call recorded. -/
def JournalAnswer.recorded : JournalAnswer → Option ConsequentialJournalEntry
  | entry (.ok e) => some e
  | prepared (.ok admission) => some admission.entry
  | receipt (.ok (e, _)) => some e
  | _ => none

def JournalAnswer.mintedDispatch : JournalAnswer → Option DispatchExecutionPermit
  | permit (.ok p) => some p
  | _ => none

def JournalAnswer.mintedObservation :
    JournalAnswer → Option ConsequentialPostconditionObservationPermit
  | observation (.ok p) => some p
  | _ => none

def JournalCall.run : JournalCall → JournalAnswer × ConsequentialJournal
  | .recordIntentAdmitted envelope io =>
      (j.recordIntentAdmitted codec envelope io).map .entry id
  | .recordAuthorization actionId authorizationRevision revalidated io =>
      (j.recordAuthorization codec actionId authorizationRevision revalidated io).map .entry id
  | .recordDispatchPrepared actionId receipt capabilityRef io =>
      (j.recordDispatchPrepared codec actionId receipt capabilityRef io).map .prepared id
  | .beginDispatch capability permitRef => (j.beginDispatch capability permitRef).map .permit id
  | .abandonDispatchExecution permit => (j.abandonDispatchExecution permit).map .abandoned id
  | .recordDispatchLinearized permit receipt io =>
      (j.recordDispatchLinearized codec permit receipt io).map .entry id
  | .beginPostconditionObservation actionId observationRef =>
      (j.beginPostconditionObservation actionId observationRef).map .observation id
  | .abandonPostconditionObservation permit =>
      (j.abandonPostconditionObservation permit).map .observationAbandoned id
  | .completePostconditionObservation permit snapshot =>
      (j.completePostconditionObservation permit snapshot).map .observed id
  | .recordActionPostconditionReceipt draft io =>
      (j.recordActionPostconditionReceipt codec draft io).map .receipt id
  | .recordCompensation actionId compensationRef worldOutcome io =>
      (j.recordCompensation codec actionId compensationRef worldOutcome io).map .entry id
  | .recordCommitted actionId io => (j.recordCommitted codec actionId io).map .entry id

/-! ## The step -/

/-- No grant is new. -/
structure GrantsWithin (j j' : ConsequentialJournal) : Prop where
  prepared : ∀ a, j'.liveDispatchPrepared a = j.liveDispatchPrepared a ∨
    j'.liveDispatchPrepared a = none
  execution : ∀ a, j'.liveDispatchExecution a = j.liveDispatchExecution a ∨
    j'.liveDispatchExecution a = none
  observation : ∀ a, j'.livePostconditionObservation a = j.livePostconditionObservation a ∨
    j'.livePostconditionObservation a = none

/-- `j'` acknowledges no further entry; only a failed append touched the file. -/
structure Unrecorded (fault : Option AppendFault) (j j' : ConsequentialJournal) : Prop where
  entries : j'.entries = j.entries
  nextSequence : j'.nextSequence = j.nextSequence
  journalInstanceRef : j'.journalInstanceRef = j.journalInstanceRef
  file : fault = none → j'.file = j.file

/-- `j'` acknowledges exactly `e` after the entries of `j`. -/
structure Recorded (e : ConsequentialJournalEntry) (j' : ConsequentialJournal) : Prop where
  schemaVersion : e.schemaVersion = journalSchemaVersion
  journalSequence : e.journalSequence = j.nextSequence
  admitted : Admits .append j.entries e.actionId e.transition
  entries : j'.entries = j.entries ++ [e]
  nextSequence : j'.nextSequence = j.nextSequence + 1
  journalInstanceRef : j'.journalInstanceRef = j.journalInstanceRef
  file : ∃ line, codec.toVec e = .ok line ∧ j'.file = j.file ++ (line ++ [newline])

/-- A permit's grant of `j` is bound to exactly this capability. -/
def BoundCapability (j : ConsequentialJournal) (capability : DispatchPreparedCapability) : Prop :=
  capability.journalInstanceRef = j.journalInstanceRef ∧
    j.liveDispatchPrepared capability.actionId =
      some ⟨capability.capabilityRef, capability.preparationJournalSequence,
        capability.preparationReceiptRef⟩

/-- The execution grant of `j` is bound to exactly this permit. -/
def BoundPermit (j : ConsequentialJournal) (permit : DispatchExecutionPermit) : Prop :=
  permit.journalInstanceRef = j.journalInstanceRef ∧
    j.liveDispatchExecution permit.actionId =
      some ⟨permit.permitRef, permit.preparationJournalSequence, permit.preparationReceiptRef⟩

/-- **What a call can do**, by what it answers. -/
inductive JournalStep (codec : EntryCodec) (fault : Option AppendFault)
    (j : ConsequentialJournal) : JournalAnswer → ConsequentialJournal → Prop
  | refused {ans j'} : ans.recorded = none → ans.mintedDispatch = none →
      ans.mintedObservation = none → Unrecorded fault j j' → GrantsWithin j j' →
      JournalStep codec fault j ans j'
  | recorded {ans e j'} : ans.recorded = some e → ans.mintedDispatch = none →
      ans.mintedObservation = none → Recorded codec j e j' → GrantsWithin j j' →
      (∀ receipt, e.transition ≠ .dispatchPrepared receipt) →
      (∀ receipt, e.transition = .dispatchLinearized receipt →
        (j.liveDispatchExecution e.actionId).isSome) →
      JournalStep codec fault j ans j'
  | prepared {admission receipt j'} : Recorded codec j admission.entry j' →
      admission.entry.transition = .dispatchPrepared receipt →
      j'.liveDispatchPrepared = update j.liveDispatchPrepared admission.entry.actionId
        (some ⟨admission.capability.capabilityRef, admission.entry.journalSequence,
          receipt.receiptRef⟩) →
      j'.liveDispatchExecution = j.liveDispatchExecution →
      j'.livePostconditionObservation = j.livePostconditionObservation →
      JournalStep codec fault j (.prepared (.ok admission)) j'
  | dispatch {capability permit j'} : BoundCapability j capability →
      permit.actionId = capability.actionId →
      recoveryStateFor j.entries permit.actionId = some .dispatchPrepared →
      Unrecorded fault j j' → j'.file = j.file →
      j'.liveDispatchPrepared = update j.liveDispatchPrepared permit.actionId none →
      j'.liveDispatchExecution = update j.liveDispatchExecution permit.actionId
        (some ⟨permit.permitRef, permit.preparationJournalSequence,
          permit.preparationReceiptRef⟩) →
      j'.livePostconditionObservation = j.livePostconditionObservation →
      JournalStep codec fault j (.permit (.ok permit)) j'
  | observation {permit grant j'} :
      j.liveDispatchPrepared permit.actionId = none →
      j.liveDispatchExecution permit.actionId = none →
      (∃ state, recoveryStateFor j.entries permit.actionId = some state ∧
        state.observable = true) →
      Unrecorded fault j j' → j'.file = j.file →
      j'.liveDispatchPrepared = j.liveDispatchPrepared →
      j'.liveDispatchExecution = j.liveDispatchExecution →
      j'.livePostconditionObservation =
        update j.livePostconditionObservation permit.actionId (some grant) →
      JournalStep codec fault j (.observation (.ok permit)) j'

/-! ## Every call is such a step -/

/-- The grants of `j'` are those of `j`. -/
structure SameGrants (j j' : ConsequentialJournal) : Prop where
  prepared : j'.liveDispatchPrepared = j.liveDispatchPrepared
  execution : j'.liveDispatchExecution = j.liveDispatchExecution
  observation : j'.livePostconditionObservation = j.livePostconditionObservation

theorem SameGrants.within {j j' : ConsequentialJournal} (h : SameGrants j j') :
    GrantsWithin j j' :=
  { prepared := fun a => .inl (congrFun h.prepared a)
    execution := fun a => .inl (congrFun h.execution a)
    observation := fun a => .inl (congrFun h.observation a) }

theorem GrantsWithin.trans {j₁ j₂ j₃ : ConsequentialJournal} (h₁ : GrantsWithin j₁ j₂)
    (h₂ : GrantsWithin j₂ j₃) : GrantsWithin j₁ j₃ := by
  constructor
  · intro a
    rcases h₂.prepared a with h | h
    · rw [h]; exact h₁.prepared a
    · exact .inr h
  · intro a
    rcases h₂.execution a with h | h
    · rw [h]; exact h₁.execution a
    · exact .inr h
  · intro a
    rcases h₂.observation a with h | h
    · rw [h]; exact h₁.observation a
    · exact .inr h

/-- Removing one key from a grant map only loses a grant. -/
theorem update_none_within {G : Type} (grants : Uuid → Option G) (a b : Uuid) :
    update grants a none b = grants b ∨ update grants a none b = none := by
  by_cases h : b = a
  · subst h
    exact .inr (update_self _ _ _)
  · exact .inl (update_of_ne h _ _)

theorem Unrecorded.refl (fault : Option AppendFault) (j : ConsequentialJournal) :
    Unrecorded fault j j :=
  { entries := rfl, nextSequence := rfl, journalInstanceRef := rfl, file := fun _ => rfl }

/-- An append refuses or records, and leaves the grants alone. -/
theorem append_cases (a : Uuid)
    (tr : ConsequentialJournalTransition) (io : AppendIo) :
    SameGrants j (j.appendValidatedLocked codec a tr io).2 ∧
      ((∃ error, (j.appendValidatedLocked codec a tr io).1 = .error error ∧
          Unrecorded io.fault j (j.appendValidatedLocked codec a tr io).2) ∨
        (j.appendValidatedLocked codec a tr io).1 = .ok (j.nextEntry a tr io) ∧
          Recorded codec j (j.nextEntry a tr io) (j.appendValidatedLocked codec a tr io).2) := by
  have hspec := appendValidatedLocked_spec codec j a tr io
  generalize j.appendValidatedLocked codec a tr io = result at hspec ⊢
  cases hspec with
  | rejected _ _ => exact ⟨⟨rfl, rfl, rfl⟩, .inl ⟨_, rfl, Unrecorded.refl _ _⟩⟩
  | unencodable _ _ => exact ⟨⟨rfl, rfl, rfl⟩, .inl ⟨_, rfl, Unrecorded.refl _ _⟩⟩
  | failed _ _ hfault =>
    refine ⟨⟨rfl, rfl, rfl⟩, .inl ⟨_, rfl, rfl, rfl, rfl, fun hnone => ?_⟩⟩
    rw [hfault] at hnone
    cases hnone
  | recorded hadm henc _ =>
    exact ⟨⟨rfl, rfl, rfl⟩, .inr ⟨rfl, rfl, rfl, hadm, rfl, rfl, rfl, _, henc, rfl⟩⟩

end

variable {codec : EntryCodec} {j : ConsequentialJournal}

/-- An admitted append whose I/O succeeds records. -/
theorem append_ok {a : Uuid} {tr : ConsequentialJournalTransition} {io : AppendIo}
    (hadm : Admits .append j.entries a tr)
    (henc : ∃ line, codec.toVec (j.nextEntry a tr io) = .ok line) (hio : io.fault = none) :
    ∃ j', j.appendValidatedLocked codec a tr io = (.ok (j.nextEntry a tr io), j') ∧
      Recorded codec j (j.nextEntry a tr io) j' := by
  obtain ⟨line, hline⟩ := henc
  have hspec := appendValidatedLocked_spec codec j a tr io
  generalize hres : j.appendValidatedLocked codec a tr io = result at hspec
  cases hspec with
  | rejected hnot _ => exact absurd hadm hnot
  | unencodable _ herr => rw [hline] at herr; cases herr
  | failed _ _ hfault => rw [hio] at hfault; cases hfault
  | recorded _ henc _ =>
    exact ⟨_, rfl, rfl, rfl, hadm, rfl, rfl, rfl, _, henc, rfl⟩

/-- Consuming an execution permit records nothing; if it succeeds the grant was
bound to the permit and is gone. -/
theorem consumeDispatchPermit_cases (j : ConsequentialJournal) (permit : DispatchExecutionPermit) :
    GrantsWithin j (j.consumeDispatchPermit permit).2 ∧
      (∀ fault, Unrecorded fault j (j.consumeDispatchPermit permit).2) ∧
      ((j.consumeDispatchPermit permit).1 = .ok () → BoundPermit j permit) := by
  unfold consumeDispatchPermit
  have hrefl : GrantsWithin j j := SameGrants.within ⟨rfl, rfl, rfl⟩
  by_cases hinst : permit.journalInstanceRef ≠ j.journalInstanceRef
  · rw [if_pos hinst]
    exact ⟨hrefl, fun _ => Unrecorded.refl _ _, fun h => nomatch h⟩
  rw [if_neg hinst]
  cases hgrant : j.liveDispatchExecution permit.actionId with
  | none => exact ⟨hrefl, fun _ => Unrecorded.refl _ _, fun h => nomatch h⟩
  | some grant =>
    simp only
    split
    · exact ⟨hrefl, fun _ => Unrecorded.refl _ _, fun h => nomatch h⟩
    · rename_i hbound
      obtain ⟨h₁, h₂, h₃⟩ : grant.permitRef = permit.permitRef ∧
          grant.preparationJournalSequence = permit.preparationJournalSequence ∧
          grant.preparationReceiptRef = permit.preparationReceiptRef := by
        simpa only [not_or, not_not] using hbound
      -- the grant is removed before the durable record is looked at
      have hlost : GrantsWithin j { j with
          liveDispatchExecution := update j.liveDispatchExecution permit.actionId none } :=
        { prepared := fun _ => .inl rfl, execution := fun b => update_none_within _ _ b
          observation := fun _ => .inl rfl }
      have hbinds : BoundPermit j permit := by
        refine ⟨not_not.mp hinst, ?_⟩
        rw [hgrant, ← h₁, ← h₂, ← h₃]
      split
      · exact ⟨hlost, fun _ => ⟨rfl, rfl, rfl, fun _ => rfl⟩, fun h => nomatch h⟩
      · split
        · exact ⟨hlost, fun _ => ⟨rfl, rfl, rfl, fun _ => rfl⟩, fun h => nomatch h⟩
        · exact ⟨hlost, fun _ => ⟨rfl, rfl, rfl, fun _ => rfl⟩, fun _ => hbinds⟩

theorem consumeObservationPermit_cases (j : ConsequentialJournal)
    (permit : ConsequentialPostconditionObservationPermit) :
    GrantsWithin j (j.consumeObservationPermit permit).2 ∧
      ∀ fault, Unrecorded fault j (j.consumeObservationPermit permit).2 := by
  unfold consumeObservationPermit
  have hrefl : GrantsWithin j j := SameGrants.within ⟨rfl, rfl, rfl⟩
  by_cases hinst : permit.journalInstanceRef ≠ j.journalInstanceRef
  · rw [if_pos hinst]
    exact ⟨hrefl, fun _ => Unrecorded.refl _ _⟩
  rw [if_neg hinst]
  cases j.livePostconditionObservation permit.actionId with
  | none => exact ⟨hrefl, fun _ => Unrecorded.refl _ _⟩
  | some grant =>
    simp only
    split
    · exact ⟨hrefl, fun _ => Unrecorded.refl _ _⟩
    · refine ⟨⟨fun _ => .inl rfl, fun _ => .inl rfl, fun b => ?_⟩,
        fun _ => ⟨rfl, rfl, rfl, fun _ => rfl⟩⟩
      exact update_none_within _ _ b

/-- A call that is one append of a transition that is neither PREPARED nor
linearized. -/
theorem append_step {a : Uuid}
    {tr : ConsequentialJournalTransition} {io : AppendIo}
    (hprepared : ∀ receipt, tr ≠ .dispatchPrepared receipt)
    (hlinearized : ∀ receipt, tr ≠ .dispatchLinearized receipt)
    {ans : JournalAnswer}
    (herror : ∀ error, (j.appendValidatedLocked codec a tr io).1 = .error error →
      ans.recorded = none)
    (hok : ∀ e, (j.appendValidatedLocked codec a tr io).1 = .ok e → ans.recorded = some e)
    (hdispatch : ans.mintedDispatch = none) (hobservation : ans.mintedObservation = none) :
    JournalStep codec io.fault j ans (j.appendValidatedLocked codec a tr io).2 := by
  obtain ⟨hsame, ⟨error, herr, hun⟩ | ⟨hrec, hrecorded⟩⟩ := append_cases codec j a tr io
  · exact .refused (herror error herr) hdispatch hobservation hun hsame.within
  · exact .recorded (hok _ hrec) hdispatch hobservation hrecorded hsame.within hprepared
      fun receipt h => absurd h (hlinearized receipt)

section
variable (codec : EntryCodec) (j : ConsequentialJournal)

theorem recordDispatchPrepared_step
    (a : Uuid) (receipt : DispatchPreparationReceipt) (capabilityRef : Uuid) (io : AppendIo) :
    JournalStep codec io.fault j (.prepared (j.recordDispatchPrepared codec a receipt capabilityRef io).1)
      (j.recordDispatchPrepared codec a receipt capabilityRef io).2 := by
  obtain ⟨hsame, h⟩ := append_cases codec j a (.dispatchPrepared receipt) io
  unfold recordDispatchPrepared
  rcases hres : j.appendValidatedLocked codec a (.dispatchPrepared receipt) io with ⟨result, j'⟩
  rw [hres] at hsame h
  rcases h with ⟨error, herr, hun⟩ | ⟨hok, hrec⟩
  · simp only at herr
    subst herr
    exact .refused rfl rfl rfl hun hsame.within
  · simp only at hok
    subst hok
    have hrecorded : Recorded codec j (j.nextEntry a (.dispatchPrepared receipt) io) j' := hrec
    refine .prepared ⟨hrecorded.schemaVersion, hrecorded.journalSequence, hrecorded.admitted,
      hrecorded.entries, hrecorded.nextSequence, hrecorded.journalInstanceRef, hrecorded.file⟩
      rfl ?_ hsame.execution hsame.observation
    rw [← hsame.prepared]
    rfl

theorem beginDispatch_step (capability : DispatchPreparedCapability) (permitRef : Uuid) :
    JournalStep codec none j (.permit (j.beginDispatch capability permitRef).1)
      (j.beginDispatch capability permitRef).2 := by
  unfold beginDispatch
  have hrefl : GrantsWithin j j := SameGrants.within ⟨rfl, rfl, rfl⟩
  by_cases hinst : capability.journalInstanceRef ≠ j.journalInstanceRef
  · rw [if_pos hinst]
    exact .refused rfl rfl rfl (Unrecorded.refl _ _) hrefl
  rw [if_neg hinst]
  cases hgrant : j.liveDispatchPrepared capability.actionId with
  | none => exact .refused rfl rfl rfl (Unrecorded.refl _ _) hrefl
  | some grant =>
    simp only
    split
    · exact .refused rfl rfl rfl (Unrecorded.refl _ _) hrefl
    · rename_i hbound
      obtain ⟨h₁, h₂, h₃⟩ : grant.capabilityRef = capability.capabilityRef ∧
          grant.preparationJournalSequence = capability.preparationJournalSequence ∧
          grant.preparationReceiptRef = capability.preparationReceiptRef := by
        simpa only [not_or, not_not] using hbound
      have hlost : GrantsWithin j { j with
          liveDispatchPrepared := update j.liveDispatchPrepared capability.actionId none } :=
        { prepared := fun b => update_none_within _ _ b, execution := fun _ => .inl rfl
          observation := fun _ => .inl rfl }
      have hbinds : BoundCapability j capability := by
        refine ⟨not_not.mp hinst, ?_⟩
        rw [hgrant, ← h₁, ← h₂, ← h₃]
      split
      · exact .refused rfl rfl rfl ⟨rfl, rfl, rfl, fun _ => rfl⟩ hlost
      · rename_i hstate
        split
        · exact .refused rfl rfl rfl ⟨rfl, rfl, rfl, fun _ => rfl⟩ hlost
        · exact .dispatch hbinds rfl (not_not.mp hstate) ⟨rfl, rfl, rfl, fun _ => rfl⟩ rfl rfl rfl rfl

theorem recordDispatchLinearized_step
    (permit : DispatchExecutionPermit) (receipt : DispatchLinearizationReceipt) (io : AppendIo) :
    JournalStep codec io.fault j (.entry (j.recordDispatchLinearized codec permit receipt io).1)
      (j.recordDispatchLinearized codec permit receipt io).2 := by
  obtain ⟨hwithin, hun, hbound⟩ := consumeDispatchPermit_cases j permit
  unfold recordDispatchLinearized
  rcases hres : j.consumeDispatchPermit permit with ⟨result, j₁⟩
  rw [hres] at hwithin hun hbound
  cases result with
  | error error => exact .refused rfl rfl rfl (hun _) hwithin
  | ok u =>
    have hgrant : (j.liveDispatchExecution permit.actionId).isSome := by
      rw [(hbound rfl).2]
      rfl
    obtain ⟨hsame, h⟩ := append_cases codec j₁ permit.actionId (.dispatchLinearized receipt) io
    -- the append runs on the journal without the permit's grant
    have hlost := hwithin.trans hsame.within
    have hun₁ := hun io.fault
    simp only at hun₁
    rcases h with ⟨error, herr, hun₂⟩ | ⟨hok, hrec⟩
    · refine .refused ?_ rfl rfl ?_ hlost
      · simp only [herr]; rfl
      · exact ⟨hun₂.entries.trans hun₁.entries, hun₂.nextSequence.trans hun₁.nextSequence,
          hun₂.journalInstanceRef.trans hun₁.journalInstanceRef,
          fun hnone => (hun₂.file hnone).trans (hun₁.file hnone)⟩
    · have hfile : j₁.file = j.file := (hun none).file rfl
      refine .recorded (e := j₁.nextEntry permit.actionId (.dispatchLinearized receipt) io)
        ?_ rfl rfl ?_ hlost (by intro r h; cases h) (fun _ _ => hgrant)
      · simp only [hok]; rfl
      · refine ⟨rfl, hun₁.nextSequence, ?_, ?_, ?_, ?_, ?_⟩
        · rw [← hun₁.entries]; exact hrec.admitted
        · rw [← hun₁.entries]; exact hrec.entries
        · rw [← hun₁.nextSequence]; exact hrec.nextSequence
        · rw [← hun₁.journalInstanceRef]; exact hrec.journalInstanceRef
        · rw [← hfile]; exact hrec.file

theorem beginPostconditionObservation_step (a observationRef : Uuid) :
    JournalStep codec none j (.observation (j.beginPostconditionObservation a observationRef).1)
      (j.beginPostconditionObservation a observationRef).2 := by
  unfold beginPostconditionObservation
  have hrefl : GrantsWithin j j := SameGrants.within ⟨rfl, rfl, rfl⟩
  simp only
  split
  · exact .refused rfl rfl rfl (Unrecorded.refl _ _) hrefl
  · rename_i hlive
    split
    · exact .refused rfl rfl rfl (Unrecorded.refl _ _) hrefl
    · split
      · exact .refused rfl rfl rfl (Unrecorded.refl _ _) hrefl
      · rename_i hstate
        cases admittedEnvelopeFor j.entries a with
        | none => exact .refused rfl rfl rfl (Unrecorded.refl _ _) hrefl
        | some envelope =>
          cases postconditionObservationCauseFor j.entries a with
          | none => exact .refused rfl rfl rfl (Unrecorded.refl _ _) hrefl
          | some cause =>
            obtain ⟨hprepared, hexecution⟩ := not_or.mp hlive
            refine .observation (by simpa using hprepared) (by simpa using hexecution) ?_
              ⟨rfl, rfl, rfl, fun _ => rfl⟩ rfl rfl rfl rfl
            rcases hs : recoveryStateFor j.entries a with _ | state
            · simp [hs] at hstate
            · refine ⟨state, rfl, ?_⟩
              cases state <;> simp [hs, ConsequentialRecoveryState.observable] at hstate ⊢

end

variable {result : Except ConsequentialJournalError ConsequentialJournalEntry}

/-- An answer that wraps the append's own result. -/
theorem entry_recorded_error {error : ConsequentialJournalError} (h : result = .error error) :
    (JournalAnswer.entry result).recorded = none := by
  rw [h]; rfl

theorem entry_recorded_ok {e : ConsequentialJournalEntry} (h : result = .ok e) :
    (JournalAnswer.entry result).recorded = some e := by
  rw [h]; rfl

section
variable (codec : EntryCodec) (j : ConsequentialJournal)

/-- Recording a receipt leaves the journal that the append leaves. -/
theorem recordActionPostconditionReceipt_snd
    (draft : ActionPostconditionReceiptDraft) (io : AppendIo) :
    (j.recordActionPostconditionReceipt codec draft io).2 = (j.appendValidatedLocked codec
      draft.actionId (.postconditionReceiptRecorded (draft.complete j.nextSequence)) io).2 := by
  unfold recordActionPostconditionReceipt
  simp only
  rcases j.appendValidatedLocked codec draft.actionId
    (.postconditionReceiptRecorded (draft.complete j.nextSequence)) io with ⟨error | entry, j₁⟩
  · rfl
  · rfl

theorem recordActionPostconditionReceipt_step
    (draft : ActionPostconditionReceiptDraft) (io : AppendIo) :
    JournalStep codec io.fault j (.receipt (j.recordActionPostconditionReceipt codec draft io).1)
      (j.recordActionPostconditionReceipt codec draft io).2 := by
  unfold recordActionPostconditionReceipt
  obtain ⟨hsame, h⟩ := append_cases codec j draft.actionId
    (.postconditionReceiptRecorded (draft.complete j.nextSequence)) io
  rcases hres : j.appendValidatedLocked codec draft.actionId
    (.postconditionReceiptRecorded (draft.complete j.nextSequence)) io with ⟨result, j'⟩
  rw [hres] at hsame h
  simp only [hres]
  rcases h with ⟨error, herr, hun⟩ | ⟨hok, hrec⟩
  · simp only at herr
    subst herr
    exact .refused rfl rfl rfl hun hsame.within
  · simp only at hok
    subst hok
    exact .recorded rfl rfl rfl hrec hsame.within (by intro r h; cases h) (by intro r h; cases h)

/-- **Every call is a step.** -/
theorem JournalCall.run_step (c : JournalCall) :
    JournalStep codec c.fault j (c.run codec j).1 (c.run codec j).2 := by
  cases c with
  | recordIntentAdmitted | recordAuthorization | recordCompensation | recordCommitted =>
    exact append_step (by intro r h; cases h) (by intro r h; cases h)
      (fun _ => entry_recorded_error) (fun _ => entry_recorded_ok) rfl rfl
  | recordDispatchPrepared a receipt capabilityRef io =>
    exact recordDispatchPrepared_step codec j a receipt capabilityRef io
  | beginDispatch capability permitRef => exact beginDispatch_step codec j capability permitRef
  | abandonDispatchExecution permit =>
    obtain ⟨hwithin, hun, -⟩ := consumeDispatchPermit_cases j permit
    exact .refused rfl rfl rfl (hun _) hwithin
  | recordDispatchLinearized permit receipt io =>
    exact recordDispatchLinearized_step codec j permit receipt io
  | beginPostconditionObservation a observationRef =>
    exact beginPostconditionObservation_step codec j a observationRef
  | abandonPostconditionObservation permit =>
    obtain ⟨hwithin, hun⟩ := consumeObservationPermit_cases j permit
    exact .refused rfl rfl rfl (hun _) hwithin
  | completePostconditionObservation permit snapshot =>
    obtain ⟨hwithin, hun⟩ := consumeObservationPermit_cases j permit
    show JournalStep codec none j (.observed (j.completePostconditionObservation permit snapshot).1)
      (j.completePostconditionObservation permit snapshot).2
    unfold ConsequentialJournal.completePostconditionObservation
    rcases hres : j.consumeObservationPermit permit with ⟨result, j'⟩
    rw [hres] at hwithin hun
    cases result with
    | error error => exact .refused rfl rfl rfl (hun _) hwithin
    | ok u => exact .refused rfl rfl rfl (hun _) hwithin
  | recordActionPostconditionReceipt draft io =>
    exact recordActionPostconditionReceipt_step codec j draft io

/-! ## Runs of calls -/

abbrev CallLabel := JournalCall × JournalAnswer

/-- One call on one instance. -/
def CallStep (l : CallLabel)
    (j' : ConsequentialJournal) : Prop :=
  l.1.run codec j = (l.2, j')

end

theorem callStep_unique (j : ConsequentialJournal) (l : CallLabel) (j₁ j₂ : ConsequentialJournal)
    (h₁ : CallStep codec j l j₁) (h₂ : CallStep codec j l j₂) :
    j₁ = j₂ := by
  rw [CallStep] at h₁ h₂
  exact congrArg Prod.snd (h₁.symm.trans h₂)

theorem CallStep.journalStep {j j' : ConsequentialJournal} {l : CallLabel}
    (h : CallStep codec j l j') : JournalStep codec l.1.fault j l.2 j' := by
  have hstep := l.1.run_step codec j
  rw [CallStep] at h
  rwa [h] at hstep

theorem nextSequenceAfter_of_history {mode : TransitionValidationMode}
    {entries : List ConsequentialJournalEntry} (h : History mode entries) :
    nextSequenceAfter entries = entries.length + 1 := by
  cases h with
  | nil => rfl
  | snoc _ _ hseq _ =>
    unfold nextSequenceAfter
    rw [getLast?_concat, length_append, length_singleton]
    simp only [hseq]

/-- Run a list of calls: the labels, and the instance after them. -/
def runCalls (codec : EntryCodec) (j : ConsequentialJournal) :
    List JournalCall → List CallLabel × ConsequentialJournal
  | [] => ([], j)
  | c :: cs =>
      let (ans, j) := c.run codec j
      let (tr, j) := runCalls codec j cs
      ((c, ans) :: tr, j)

theorem run_runCalls (codec : EntryCodec) (j : ConsequentialJournal) (cs : List JournalCall) :
    Run (CallStep codec) j (runCalls codec j cs).1 (runCalls codec j cs).2 := by
  induction cs generalizing j with
  | nil => exact Run.nil j
  | cons c cs ih => exact Run.cons rfl (ih (c.run codec j).2)

/-- What every instance keeps: its entries replay, and its next sequence
continues them. -/
structure Continues (j : ConsequentialJournal) : Prop where
  history : History .replay j.entries
  nextSequence : j.nextSequence = j.entries.length + 1

section
variable {codec : EntryCodec} {j j' : ConsequentialJournal} {l : CallLabel} {a : Uuid}

theorem Continues.unrecorded {fault : Option AppendFault} (h : Continues j)
    (hun : Unrecorded fault j j') : Continues j' := by
  refine ⟨?_, ?_⟩
  · rw [hun.entries]; exact h.history
  · rw [hun.nextSequence, hun.entries, h.nextSequence]

theorem Continues.recorded {e : ConsequentialJournalEntry} (h : Continues j)
    (hrec : Recorded codec j e j') : Continues j' := by
  refine ⟨?_, ?_⟩
  · rw [hrec.entries]
    exact h.history.snoc hrec.schemaVersion (hrec.journalSequence.trans h.nextSequence)
      hrec.admitted.replay
  · rw [hrec.nextSequence, hrec.entries, h.nextSequence, length_append,
      length_singleton]

theorem Continues.step (h : Continues j) (hs : CallStep codec j l j') : Continues j' := by
  cases l with
  | mk c ans =>
    cases hs.journalStep with
    | refused _ _ _ hun _ => exact h.unrecorded hun
    | recorded _ _ _ hrec _ _ _ => exact h.recorded hrec
    | prepared hrec _ _ _ _ => exact h.recorded hrec
    | dispatch _ _ _ hun _ _ _ _ => exact h.unrecorded hun
    | observation _ _ _ hun _ _ _ _ => exact h.unrecorded hun

end

/-- Loading returns a history, whatever stages fail. -/
theorem loadAndRepair_history {faults : LoadFaults} {file : Bytes}
    {entries : List ConsequentialJournalEntry}
    (h : (loadAndRepair codec faults file).1 = .ok entries) : History .replay entries := by
  have hreplay : replayRecords codec (split newline file).1 1 [] = .ok entries ∨
      replayRecords codec (split newline (file.take (durableLen newline file))).1 1 [] =
        .ok entries := by
    unfold loadAndRepair at h
    split at h
    · cases h
    · split at h
      · split at h
        · cases h
        · simp only at h
          split at h
          · cases h
          · exact .inr h
      · split at h
        · split at h
          · cases h
          · exact .inl h
        · exact .inl h
  rcases hreplay with h | h
  · exact (replayRecords_history .nil h).1
  · exact (replayRecords_history .nil h).1

/-- What `open` returns: a history to continue, and no grants. -/
theorem continues_of_open {faults : LoadFaults} {ref : Uuid} {file : Bytes}
    (h : (openJournal codec faults ref file).1 = .ok j) :
    Continues j ∧ (∀ a, j.liveDispatchPrepared a = none) ∧
      (∀ a, j.liveDispatchExecution a = none) ∧
      ∀ a, j.livePostconditionObservation a = none := by
  unfold openJournal at h
  rcases hload : loadAndRepair codec faults file with ⟨error | entries, file'⟩
  · rw [hload] at h
    cases h
  · rw [hload] at h
    cases h
    have hist : History .replay entries := loadAndRepair_history (by rw [hload])
    exact ⟨⟨hist, nextSequenceAfter_of_history hist⟩, fun _ => rfl, fun _ => rfl, fun _ => rfl⟩

end Localview
