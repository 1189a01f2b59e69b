import Localview.AssocMap
import Localview.EarlyReturn
import Localview.Protocol
import Localview.StateRun

/-! # Observer continuity of the AX provider

The tokens of `AxObserverContinuityProvider`.  Observer bindings, service evidence, live
continuity and the tombstones of broken continuity are move-only: an operation that takes
one consumes it, also where it fails.  A source incarnation is copied freely.  The world is
the provider's statics with the tokens that its callers hold, and a callback may come with
any refcon at any time.  The statics' sequences count tokens that are made and are taken as
unbounded; the count of callbacks, which nothing paces, wraps as `fetch_add` does.
-/
namespace Localview.AxContinuity
open EarlyReturn StateRun List AssocMap

/-! ## Tokens -/

structure AxApplicationIncarnation where
  applicationIdentity : String
  pid : Int
  processStartMarker : Nat
  deriving DecidableEq

structure AxObserverApplicationBinding where
  applicationIncarnation : AxApplicationIncarnation
  observerCreationRevision : Nat
  deriving DecidableEq

structure AxRunLoopSourceIncarnation where
  sequence : Nat
  deriving DecidableEq

/-- What the callbacks count into. -/
structure AxRunLoopCallbackState where
  applicationIncarnation : AxApplicationIncarnation
  observerCreationRevision : Nat
  runLoopSourceIncarnation : AxRunLoopSourceIncarnation
  deliveredCallbackCount : Nat

structure AxRunLoopServiceEvidence where
  applicationIncarnation : AxApplicationIncarnation
  observerCreationRevision : Nat
  runLoopSourceIncarnation : AxRunLoopSourceIncarnation
  deliveredCallbackCount : Nat
  deriving DecidableEq

/-- Why a tracker is not started. -/
inductive AxObserverContinuityStartError
  | serviceEvidenceMismatch
  deriving DecidableEq

/-- Why continuity is broken. -/
inductive AxObserverContinuityBreakReason
  | runLoopInterrupted
  | runLoopLivenessUnverified
  | runLoopSourceReplaced
  deriving DecidableEq

/-- An observer whose events are complete. -/
structure AxObserverContinuityBinding where
  observerBinding : AxObserverApplicationBinding
  runLoopSourceIncarnation : AxRunLoopSourceIncarnation
  (continuityRevision lastDeliveredCallbackCount : Nat)
  deriving DecidableEq

/-- What is left of a broken binding. -/
structure AxBrokenObserverContinuity where
  applicationIncarnation : AxApplicationIncarnation
  previousRunLoopSourceIncarnation : AxRunLoopSourceIncarnation
  currentRunLoopSourceIncarnation : Option AxRunLoopSourceIncarnation
  (invalidatedObserverCreationRevision invalidatedContinuityRevision : Nat)
  invalidatedLastDeliveredCallbackCount : Nat
  reason : AxObserverContinuityBreakReason
  deriving DecidableEq

/-- Why a broken observer is not bound again. -/
inductive AxObserverContinuityRebindError
  | applicationIncarnationChanged
  | observerRevisionNotNewer
  | runLoopSourceNotReplaced
  | serviceEvidenceMismatch
  deriving DecidableEq

/-! ## The provider -/

/-- The statics: the sequences, and the registry with the states that it refers to. -/
structure AxStatics where
  (observerCreationSequence runLoopSourceSequence observerContinuitySequence : Nat)
  callbackTrackerSequence : Nat
  callbackTrackers : AssocMap Nat AxRunLoopCallbackState

variable (statics : AxStatics)

/-- `AxObserverApplicationBindingProvider::bind_current` -/
def bindCurrent (applicationIncarnation : AxApplicationIncarnation) :
    AxObserverApplicationBinding × AxStatics :=
  let observerCreationRevision := statics.observerCreationSequence + 1
  (⟨applicationIncarnation, observerCreationRevision⟩,
    { statics with observerCreationSequence := observerCreationRevision })

def newRunLoopSourceIncarnation : AxRunLoopSourceIncarnation × AxStatics :=
  let sequence := statics.runLoopSourceSequence + 1
  (⟨sequence⟩, { statics with runLoopSourceSequence := sequence })

/-- `new_callback_tracker`: the tracker's id. -/
def newCallbackTracker (observerBinding : AxObserverApplicationBinding)
    (runLoopSourceIncarnation : AxRunLoopSourceIncarnation) : Nat × AxStatics :=
  let trackerId := statics.callbackTrackerSequence + 1
  (trackerId,
    { statics with
      callbackTrackerSequence := trackerId
      callbackTrackers := statics.callbackTrackers.insert trackerId
        { applicationIncarnation := observerBinding.applicationIncarnation
          observerCreationRevision := observerBinding.observerCreationRevision
          runLoopSourceIncarnation, deliveredCallbackCount := 0 } })

/-- `Drop for AxRunLoopCallbackTracker` -/
def dropCallbackTracker (trackerId : Nat) : AxStatics :=
  { statics with callbackTrackers := statics.callbackTrackers.erase trackerId }

def trackedAxObserverCallback (refcon : Nat) : AxStatics :=
  if refcon = 0 then statics
  else
    match statics.callbackTrackers.get refcon with
    | none => statics
    | some state =>
        { statics with
          callbackTrackers := statics.callbackTrackers.insert refcon
            { state with deliveredCallbackCount := (state.deliveredCallbackCount + 1) % 2 ^ 64 } }

def servicedCallbackEvidence (state : AxRunLoopCallbackState) : Option AxRunLoopServiceEvidence :=
  if state.deliveredCallbackCount = 0 then none
  else some
    { applicationIncarnation := state.applicationIncarnation
      observerCreationRevision := state.observerCreationRevision
      runLoopSourceIncarnation := state.runLoopSourceIncarnation
      deliveredCallbackCount := state.deliveredCallbackCount }

def serviceEvidenceMatches (serviceEvidence : AxRunLoopServiceEvidence)
    (observerBinding : AxObserverApplicationBinding)
    (runLoopSourceIncarnation : AxRunLoopSourceIncarnation) : Prop :=
  0 < serviceEvidence.deliveredCallbackCount ∧
    serviceEvidence.applicationIncarnation = observerBinding.applicationIncarnation ∧
    serviceEvidence.observerCreationRevision = observerBinding.observerCreationRevision ∧
    serviceEvidence.runLoopSourceIncarnation = runLoopSourceIncarnation

instance {e : AxRunLoopServiceEvidence} {o : AxObserverApplicationBinding}
    {s : AxRunLoopSourceIncarnation} : Decidable (serviceEvidenceMatches e o s) :=
  inferInstanceAs (Decidable (_ ∧ _))

/-- What `activate` and `rebind_after_break` mint. -/
def mintContinuity (observerBinding : AxObserverApplicationBinding)
    (runLoopSourceIncarnation : AxRunLoopSourceIncarnation)
    (serviceEvidence : AxRunLoopServiceEvidence) : AxObserverContinuityBinding × AxStatics :=
  let continuityRevision := statics.observerContinuitySequence + 1
  ({ observerBinding
     runLoopSourceIncarnation
     continuityRevision
     lastDeliveredCallbackCount := serviceEvidence.deliveredCallbackCount },
    { statics with observerContinuitySequence := continuityRevision })

def activate (observerBinding : AxObserverApplicationBinding)
    (runLoopSourceIncarnation : AxRunLoopSourceIncarnation)
    (serviceEvidence : AxRunLoopServiceEvidence) :
    Except AxObserverContinuityStartError (AxObserverContinuityBinding × AxStatics) := do
  rejectIf (¬ serviceEvidenceMatches serviceEvidence observerBinding runLoopSourceIncarnation)
    .serviceEvidenceMismatch
  return mintContinuity statics observerBinding runLoopSourceIncarnation serviceEvidence

def brokenFrom (binding : AxObserverContinuityBinding)
    (currentRunLoopSourceIncarnation : Option AxRunLoopSourceIncarnation)
    (reason : AxObserverContinuityBreakReason) : AxBrokenObserverContinuity :=
  { applicationIncarnation := binding.observerBinding.applicationIncarnation
    previousRunLoopSourceIncarnation := binding.runLoopSourceIncarnation
    currentRunLoopSourceIncarnation
    invalidatedObserverCreationRevision := binding.observerBinding.observerCreationRevision
    invalidatedContinuityRevision := binding.continuityRevision
    invalidatedLastDeliveredCallbackCount := binding.lastDeliveredCallbackCount, reason }

def breakContinuity (binding : AxObserverContinuityBinding)
    (currentRunLoopSourceIncarnation : AxRunLoopSourceIncarnation)
    (observedReason : AxObserverContinuityBreakReason) : AxBrokenObserverContinuity :=
  brokenFrom binding (some currentRunLoopSourceIncarnation)
    (if currentRunLoopSourceIncarnation ≠ binding.runLoopSourceIncarnation then
      .runLoopSourceReplaced
    else if observedReason = .runLoopSourceReplaced then .runLoopLivenessUnverified
    else observedReason)

def rebindAfterBreak (broken : AxBrokenObserverContinuity)
    (freshObserverBinding : AxObserverApplicationBinding)
    (freshRunLoopSourceIncarnation : AxRunLoopSourceIncarnation)
    (serviceEvidence : AxRunLoopServiceEvidence) :
    Except AxObserverContinuityRebindError (AxObserverContinuityBinding × AxStatics) := do
  rejectIf (freshObserverBinding.applicationIncarnation ≠ broken.applicationIncarnation)
    .applicationIncarnationChanged
  rejectIf (freshObserverBinding.observerCreationRevision ≤
    broken.invalidatedObserverCreationRevision) .observerRevisionNotNewer
  rejectIf (freshRunLoopSourceIncarnation = broken.previousRunLoopSourceIncarnation)
    .runLoopSourceNotReplaced
  rejectIf (¬ serviceEvidenceMatches serviceEvidence freshObserverBinding
    freshRunLoopSourceIncarnation) .serviceEvidenceMismatch
  return mintContinuity statics freshObserverBinding freshRunLoopSourceIncarnation serviceEvidence

/-- The statics, and what the callers hold. -/
structure AxWorld where
  statics : AxStatics
  observers : List AxObserverApplicationBinding
  sources : List AxRunLoopSourceIncarnation
  evidence : List AxRunLoopServiceEvidence
  live : List AxObserverContinuityBinding
  broken : List AxBrokenObserverContinuity

def AxWorld.start : AxWorld := ⟨⟨0, 0, 0, 0, AssocMap.empty⟩, [], [], [], [], []⟩

/-- What happens to the observers. -/
inductive AxEvent
  | bound (observer : AxObserverApplicationBinding)
  | sourceCreated (source : AxRunLoopSourceIncarnation)
  | trackerCreated (trackerId : Nat) (observer : AxObserverApplicationBinding)
      (source : AxRunLoopSourceIncarnation)
  | trackerDropped (trackerId : Nat)
  | callback (refcon : Nat)
  | serviced (trackerId : Nat) (evidence : Option AxRunLoopServiceEvidence)
  | activated (observer : AxObserverApplicationBinding) (source : AxRunLoopSourceIncarnation)
      (evidence : AxRunLoopServiceEvidence)
      (result : Except AxObserverContinuityStartError AxObserverContinuityBinding)
  | broke (binding : AxObserverContinuityBinding) (current : AxRunLoopSourceIncarnation)
      (reason : AxObserverContinuityBreakReason) (broken : AxBrokenObserverContinuity)
  | rebound (broken : AxBrokenObserverContinuity) (observer : AxObserverApplicationBinding)
      (source : AxRunLoopSourceIncarnation) (evidence : AxRunLoopServiceEvidence)
      (result : Except AxObserverContinuityRebindError AxObserverContinuityBinding)
  | dropped
  deriving DecidableEq

/-- The world once the tokens that a mint takes are consumed. -/
def AxWorld.spend (s : AxWorld) (observer : AxObserverApplicationBinding)
    (evidence : AxRunLoopServiceEvidence) : AxWorld :=
  { s with observers := s.observers.erase observer, evidence := s.evidence.erase evidence }

/-- One call, or one callback. -/
inductive AxStep : AxWorld → AxEvent → AxWorld → Prop
  | bindCurrent {s : AxWorld} (application : AxApplicationIncarnation) :
      AxStep s (.bound (bindCurrent s.statics application).1)
        { s with
          statics := (bindCurrent s.statics application).2
          observers := (bindCurrent s.statics application).1 :: s.observers }
  | newSource {s : AxWorld} :
      AxStep s (.sourceCreated (newRunLoopSourceIncarnation s.statics).1)
        { s with
          statics := (newRunLoopSourceIncarnation s.statics).2
          sources := (newRunLoopSourceIncarnation s.statics).1 :: s.sources }
  | newTracker {s : AxWorld} {observer source} : observer ∈ s.observers → source ∈ s.sources →
      AxStep s (.trackerCreated (newCallbackTracker s.statics observer source).1 observer source)
        { s with statics := (newCallbackTracker s.statics observer source).2 }
  | dropTracker {s : AxWorld} (trackerId : Nat) :
      AxStep s (.trackerDropped trackerId)
        { s with statics := dropCallbackTracker s.statics trackerId }
  | callback {s : AxWorld} (refcon : Nat) :
      AxStep s (.callback refcon) { s with statics := trackedAxObserverCallback s.statics refcon }
  | serviced {s : AxWorld} {trackerId state} : s.statics.callbackTrackers.get trackerId = some state →
      AxStep s (.serviced trackerId (servicedCallbackEvidence state))
        { s with evidence := (servicedCallbackEvidence state).toList ++ s.evidence }
  | activate {s : AxWorld} {observer source evidence binding statics} : observer ∈ s.observers →
      source ∈ s.sources → evidence ∈ s.evidence →
      activate s.statics observer source evidence = .ok (binding, statics) →
      AxStep s (.activated observer source evidence (.ok binding))
        { s.spend observer evidence with statics, live := binding :: s.live }
  | activateRefused {s : AxWorld} {observer source evidence error} : observer ∈ s.observers →
      source ∈ s.sources → evidence ∈ s.evidence →
      AxContinuity.activate s.statics observer source evidence = .error error →
      AxStep s (.activated observer source evidence (.error error)) (s.spend observer evidence)
  | breakContinuity {s : AxWorld} {binding current} (reason : AxObserverContinuityBreakReason) :
      binding ∈ s.live → current ∈ s.sources →
      AxStep s (.broke binding current reason (breakContinuity binding current reason))
        { s with
          live := s.live.erase binding
          broken := breakContinuity binding current reason :: s.broken }
  | rebind {s : AxWorld} {broken observer source evidence binding statics} : broken ∈ s.broken →
      observer ∈ s.observers → source ∈ s.sources → evidence ∈ s.evidence →
      rebindAfterBreak s.statics broken observer source evidence = .ok (binding, statics) →
      AxStep s (.rebound broken observer source evidence (.ok binding))
        { s.spend observer evidence with
          statics, live := binding :: s.live, broken := s.broken.erase broken }
  | rebindRefused {s : AxWorld} {broken observer source evidence error} : broken ∈ s.broken →
      observer ∈ s.observers → source ∈ s.sources → evidence ∈ s.evidence →
      rebindAfterBreak s.statics broken observer source evidence = .error error →
      AxStep s (.rebound broken observer source evidence (.error error))
        { s.spend observer evidence with broken := s.broken.erase broken }
  /-- Tokens are dropped. -/
  | drop {s : AxWorld} {observers evidence live broken} : observers.Sublist s.observers →
      evidence.Sublist s.evidence → live.Sublist s.live → broken.Sublist s.broken →
      AxStep s .dropped { s with observers, evidence, live, broken }

/-! ## What is minted -/

variable {s t u : AxWorld} {e : AxEvent} {tr before after : List AxEvent} {v : Nat}
  {observer : AxObserverApplicationBinding} {source : AxRunLoopSourceIncarnation}
  {evidence : AxRunLoopServiceEvidence} {binding : AxObserverContinuityBinding}

variable {statics} in
theorem activate_ok {statics' : AxStatics} :
    activate statics observer source evidence = .ok (binding, statics') ↔
      serviceEvidenceMatches evidence observer source ∧
        mintContinuity statics observer source evidence = (binding, statics') := by
  simp only [activate, rejectIf_bind_eq_ok, not_not]
  exact and_congr_right fun _ => ⟨Except.ok.inj, congrArg _⟩

variable {statics} in
theorem rebindAfterBreak_ok {statics' : AxStatics} {broken : AxBrokenObserverContinuity} :
    rebindAfterBreak statics broken observer source evidence = .ok (binding, statics') ↔
      observer.applicationIncarnation = broken.applicationIncarnation ∧
      broken.invalidatedObserverCreationRevision < observer.observerCreationRevision ∧
      source ≠ broken.previousRunLoopSourceIncarnation ∧
      serviceEvidenceMatches evidence observer source ∧
        mintContinuity statics observer source evidence = (binding, statics') := by
  simp only [rebindAfterBreak, rejectIf_bind_eq_ok, not_not, Nat.not_le, ne_eq]
  refine and_congr_right fun _ => and_congr_right fun _ => and_congr_right fun _ =>
    and_congr_right fun _ => ⟨Except.ok.inj, congrArg _⟩

/-- Callbacks were delivered to a tracker of the application, the revision and the source. -/
def Serviced (tr : List AxEvent) (application : AxApplicationIncarnation) (revision : Nat)
    (source : AxRunLoopSourceIncarnation) (count : Nat) : Prop :=
  ∃ trackerId observer before after,
    tr = before ++ .trackerCreated trackerId observer source :: after ∧
      observer.applicationIncarnation = application ∧
      observer.observerCreationRevision = revision ∧ count ≤ after.count (.callback trackerId)

theorem Serviced.snoc {application : AxApplicationIncarnation} {revision count : Nat}
    (h : Serviced tr application revision source count) :
    Serviced (tr ++ [e]) application revision source count := by
  obtain ⟨trackerId, observer, before, after, rfl, happ, hrev, hcount⟩ := h
  refine ⟨trackerId, observer, before, after ++ [e], by simp, happ, hrev, ?_⟩
  rw [count_append]
  omega

/-- The revision of an observer binding is in one token at most. -/
def AxWorld.revisions (s : AxWorld) : List Nat :=
  s.observers.map (·.observerCreationRevision) ++
    s.live.map (·.observerBinding.observerCreationRevision)

/-- Where the tokens come from. -/
structure Minted (tr : List AxEvent) (s : AxWorld) : Prop where
  nodup : s.revisions.Nodup
  bounded : ∀ v ∈ s.revisions, v ≤ s.statics.observerCreationSequence
  observers : ∀ o ∈ s.observers, .bound o ∈ tr
  trackers : ∀ id state, s.statics.callbackTrackers.get id = some state →
    ∃ observer before after,
      tr = before ++ .trackerCreated id observer state.runLoopSourceIncarnation :: after ∧
        observer.applicationIncarnation = state.applicationIncarnation ∧
        observer.observerCreationRevision = state.observerCreationRevision ∧
        state.deliveredCallbackCount ≤ after.count (.callback id)
  evidence : ∀ e ∈ s.evidence, Serviced tr e.applicationIncarnation e.observerCreationRevision
    e.runLoopSourceIncarnation e.deliveredCallbackCount
  live : ∀ b ∈ s.live, .bound b.observerBinding ∈ tr ∧ 0 < b.lastDeliveredCallbackCount ∧
    Serviced tr b.observerBinding.applicationIncarnation b.observerBinding.observerCreationRevision
      b.runLoopSourceIncarnation b.lastDeliveredCallbackCount

theorem Minted.start : Minted [] .start := by
  refine ⟨nodup_nil, ?_, ?_, ?_, ?_, ?_⟩
  all_goals simp [AxWorld.start, AxWorld.revisions]

/-- The tracker was made for the state's application, revision and source, and has had its callbacks. -/
def Tracked (tr : List AxEvent) (id : Nat) (state : AxRunLoopCallbackState) : Prop :=
  ∃ observer before after,
    tr = before ++ .trackerCreated id observer state.runLoopSourceIncarnation :: after ∧
      observer.applicationIncarnation = state.applicationIncarnation ∧
      observer.observerCreationRevision = state.observerCreationRevision ∧
      state.deliveredCallbackCount ≤ after.count (.callback id)

/-- A tracker is known by the events so far, and by later ones. -/
theorem Minted.tracked (h : Minted tr s) (e : AxEvent) {id : Nat} {state : AxRunLoopCallbackState}
    (hget : s.statics.callbackTrackers.get id = some state) : Tracked (tr ++ [e]) id state := by
  obtain ⟨observer, before, after, rfl, happ, hrev, hcount⟩ := h.trackers id state hget
  refine ⟨observer, before, after ++ [e], by simp, happ, hrev, ?_⟩
  rw [count_append]
  omega

/-- Where a step mints nothing, the tokens are among those that there were. -/
theorem Minted.keep (h : Minted tr s) (hstatics : t.statics = s.statics)
    (hobservers : t.observers.Sublist s.observers) (hevidence : t.evidence.Sublist s.evidence)
    (hlive : t.live.Sublist s.live) : Minted (tr ++ [e]) t := by
  have hrevisions : t.revisions.Sublist s.revisions :=
    (hobservers.map _).append (hlive.map _)
  refine ⟨hrevisions.nodup h.nodup, ?_, ?_, ?_, ?_, ?_⟩
  · intro v hv
    rw [hstatics]
    exact h.bounded v (hrevisions.subset hv)
  · intro o ho
    exact mem_append_left _ (h.observers o (hobservers.subset ho))
  · intro id state hget
    rw [hstatics] at hget
    exact h.tracked e hget
  · intro ev hev
    exact (h.evidence ev (hevidence.subset hev)).snoc
  · intro b hb
    obtain ⟨hbound, hpos, hserviced⟩ := h.live b (hlive.subset hb)
    exact ⟨mem_append_left _ hbound, hpos, hserviced.snoc⟩

/-- Where a step only changes statics, it has to keep the trackers known. -/
theorem Minted.restate (h : Minted tr s) {statics : AxStatics}
    (hsequence : statics.observerCreationSequence = s.statics.observerCreationSequence)
    (htrackers : ∀ id state, statics.callbackTrackers.get id = some state →
      Tracked (tr ++ [e]) id state)
    {sources : List AxRunLoopSourceIncarnation} :
    Minted (tr ++ [e]) { s with statics, sources } := by
  refine ⟨h.nodup, ?_, ?_, htrackers, ?_, ?_⟩
  · intro v hv
    show v ≤ statics.observerCreationSequence
    rw [hsequence]
    exact h.bounded v hv
  · exact fun o ho => mem_append_left _ (h.observers o ho)
  · exact fun ev hev => (h.evidence ev hev).snoc
  · intro b hb
    obtain ⟨hbound, hpos, hserviced⟩ := h.live b hb
    exact ⟨mem_append_left _ hbound, hpos, hserviced.snoc⟩

theorem minted_bind (h : Minted tr s) (application : AxApplicationIncarnation) :
    Minted (tr ++ [.bound (bindCurrent s.statics application).1])
      { s with
        statics := (bindCurrent s.statics application).2
        observers := (bindCurrent s.statics application).1 :: s.observers } := by
  refine ⟨?_, ?_, ?_, ?_, ?_, ?_⟩
  · refine nodup_cons.mpr ⟨fun hmem => ?_, h.nodup⟩
    have hle := h.bounded _ hmem
    simp only [bindCurrent] at hle
    omega
  · intro v hv
    show v ≤ s.statics.observerCreationSequence + 1
    rcases mem_cons.mp hv with rfl | hv
    · exact Nat.le_refl _
    · have hle := h.bounded v hv
      omega
  · intro o ho
    rcases mem_cons.mp ho with rfl | ho
    · exact mem_append_right _ (mem_singleton.mpr rfl)
    · exact mem_append_left _ (h.observers o ho)
  · exact fun id state hget => h.tracked _ hget
  · exact fun ev hev => (h.evidence ev hev).snoc
  · intro b hb
    obtain ⟨hbound, hpos, hserviced⟩ := h.live b hb
    exact ⟨mem_append_left _ hbound, hpos, hserviced.snoc⟩

theorem minted_newTracker (h : Minted tr s) :
    Minted (tr ++ [.trackerCreated (newCallbackTracker s.statics observer source).1 observer source])
      { s with statics := (newCallbackTracker s.statics observer source).2 } := by
  refine h.restate (by rfl) fun id state hget => ?_
  rw [newCallbackTracker, get_insert] at hget
  rcases ite_eq_iff.mp hget with ⟨hid, hget⟩ | ⟨hid, hget⟩
  · cases hget
    exact ⟨observer, tr, [], by rw [hid]; rfl, rfl, rfl, Nat.zero_le _⟩
  · exact h.tracked _ hget

theorem minted_callback (h : Minted tr s) (refcon : Nat) :
    Minted (tr ++ [.callback refcon])
      { s with statics := trackedAxObserverCallback s.statics refcon } := by
  have hsame : ∀ id state, s.statics.callbackTrackers.get id = some state →
      Tracked (tr ++ [.callback refcon]) id state := fun id state hget => h.tracked _ hget
  unfold trackedAxObserverCallback
  by_cases hzero : refcon = 0
  · rw [if_pos hzero]
    exact h.restate (by rfl) hsame
  rw [if_neg hzero]
  cases hstate : s.statics.callbackTrackers.get refcon with
  | none => exact h.restate (by rfl) hsame
  | some state =>
    refine h.restate (by rfl) fun id state' hget => ?_
    rw [get_insert] at hget
    rcases ite_eq_iff.mp hget with ⟨hid, hget⟩ | ⟨hid, hget⟩
    · cases hget
      obtain ⟨observer, before, after, rfl, happ, hrev, hcount⟩ := h.trackers refcon state hstate
      refine ⟨observer, before, after ++ [.callback refcon], by simp [hid], happ, hrev, ?_⟩
      -- the counter wraps to less
      have hmod := Nat.mod_le (state.deliveredCallbackCount + 1) (2 ^ 64)
      rw [hid, count_append, count_singleton_self]
      show (state.deliveredCallbackCount + 1) % 2 ^ 64 ≤ _
      omega
    · exact hsame id state' hget

theorem minted_dropTracker (h : Minted tr s) (trackerId : Nat) :
    Minted (tr ++ [e]) { s with statics := dropCallbackTracker s.statics trackerId } := by
  refine h.restate (by rfl) fun id state hget => ?_
  rw [dropCallbackTracker, get_erase] at hget
  split at hget
  · cases hget
  · exact h.tracked e hget

theorem minted_serviced (h : Minted tr s) {trackerId : Nat} {state : AxRunLoopCallbackState}
    (hstate : s.statics.callbackTrackers.get trackerId = some state) :
    Minted (tr ++ [e])
      { s with evidence := (servicedCallbackEvidence state).toList ++ s.evidence } := by
  have hkeep : Minted (tr ++ [e]) s :=
    h.keep rfl (List.Sublist.refl _) (List.Sublist.refl _) (List.Sublist.refl _)
  refine ⟨hkeep.nodup, hkeep.bounded, hkeep.observers, hkeep.trackers, ?_, hkeep.live⟩
  intro ev hev
  rcases mem_append.mp hev with hnew | hold
  · obtain ⟨observer, before, after, htr, happ, hrev, hcount⟩ :=
      hkeep.trackers trackerId state hstate
    unfold servicedCallbackEvidence at hnew
    split at hnew
    · cases hnew
    · obtain rfl := mem_singleton.mp hnew
      exact ⟨trackerId, observer, before, after, htr, happ, hrev, hcount⟩
  · exact hkeep.evidence ev hold

/-- **A mint**: the observer goes from the caller's hands into the live binding. -/
theorem minted_mint (h : Minted tr s) (hobserver : observer ∈ s.observers)
    (hevidence : evidence ∈ s.evidence) (hmatches : serviceEvidenceMatches evidence observer source)
    {broken : List AxBrokenObserverContinuity} :
    Minted (tr ++ [e])
      { s.spend observer evidence with
        statics := (mintContinuity s.statics observer source evidence).2
        live := (mintContinuity s.statics observer source evidence).1 :: s.live
        broken } := by
  have hkeep : Minted (tr ++ [e]) (s.spend observer evidence) :=
    h.keep rfl erase_sublist erase_sublist (List.Sublist.refl _)
  have hperm : s.revisions.Perm (observer.observerCreationRevision ::
      (s.spend observer evidence).revisions) :=
    ((perm_cons_erase hobserver).map (·.observerCreationRevision)).append_right _
  have hmoved : ({ s.spend observer evidence with
      statics := (mintContinuity s.statics observer source evidence).2
      live := (mintContinuity s.statics observer source evidence).1 :: s.live
      broken } : AxWorld).revisions.Perm s.revisions :=
    perm_middle.trans hperm.symm
  obtain ⟨hpos, happ, hrev, hsource⟩ := hmatches
  refine ⟨hmoved.nodup_iff.mpr h.nodup, fun v hv => h.bounded v (hmoved.mem_iff.mp hv),
    hkeep.observers, hkeep.trackers, hkeep.evidence, ?_⟩
  intro b hb
  rcases mem_cons.mp hb with rfl | hb
  · refine ⟨mem_append_left _ (h.observers _ hobserver), hpos, ?_⟩
    have hserviced := (h.evidence _ hevidence).snoc (e := e)
    rw [happ, hrev, hsource] at hserviced
    exact hserviced
  · exact hkeep.live b hb

/-- **One step.** -/
theorem minted_step (h : Minted tr s) (hs : AxStep s e t) : Minted (tr ++ [e]) t := by
  cases hs with
  | bindCurrent application => exact minted_bind h application
  | newSource =>
    refine h.restate (by rfl) fun id state hget => ?_
    exact h.tracked _ hget
  | newTracker hobserver hsource => exact minted_newTracker h
  | dropTracker trackerId => exact minted_dropTracker h trackerId
  | callback refcon => exact minted_callback h refcon
  | serviced hstate => exact minted_serviced h hstate
  | activate hobserver hsource hevidence hok =>
    obtain ⟨hmatches, hmint⟩ := activate_ok.mp hok
    cases hmint
    exact minted_mint h hobserver hevidence hmatches
  | activateRefused => exact h.keep rfl erase_sublist erase_sublist (List.Sublist.refl _)
  | breakContinuity =>
    exact h.keep rfl (List.Sublist.refl _) (List.Sublist.refl _) erase_sublist
  | rebind hbroken hobserver hsource hevidence hok =>
    obtain ⟨-, -, -, hmatches, hmint⟩ := rebindAfterBreak_ok.mp hok
    cases hmint
    exact minted_mint h hobserver hevidence hmatches
  | rebindRefused => exact h.keep rfl erase_sublist erase_sublist (List.Sublist.refl _)
  | drop hobservers hevidence hlive hbroken => exact h.keep rfl hobservers hevidence hlive

theorem minted_run (h : Run AxStep .start tr s) : Minted tr s :=
  Run.forward_induction (P := Minted) Minted.start (fun _ _ _ _ _ ih hs => minted_step ih hs) h

/-! ## What is broken -/

/-- An observer revision that was given and that no token has any more. -/
def Spent (v : Nat) (s : AxWorld) : Prop :=
  v ≤ s.statics.observerCreationSequence ∧ v ∉ s.revisions

/-- Revisions only go up, and each token's revision is new or was there. -/
theorem revisions_step (hs : AxStep s e t) :
    s.statics.observerCreationSequence ≤ t.statics.observerCreationSequence ∧
      (∀ v ∈ t.revisions, v ∈ s.revisions ∨ s.statics.observerCreationSequence < v) ∧
        ∀ o, e = .bound o → s.statics.observerCreationSequence < o.observerCreationRevision := by
  have hsame : ∀ {t : AxWorld}, t.statics.observerCreationSequence =
        s.statics.observerCreationSequence →
      (∀ v ∈ t.revisions, v ∈ s.revisions) → (∀ o, e ≠ .bound o) →
        s.statics.observerCreationSequence ≤ t.statics.observerCreationSequence ∧
        (∀ v ∈ t.revisions, v ∈ s.revisions ∨ s.statics.observerCreationSequence < v) ∧
        ∀ o, e = .bound o → s.statics.observerCreationSequence < o.observerCreationRevision :=
    fun hsequence hsub hbound =>
      ⟨Nat.le_of_eq hsequence.symm, fun v hv => .inl (hsub v hv), fun o ho => absurd ho (hbound o)⟩
  have hspend : ∀ {t : AxWorld} {o}, t.observers = s.observers.erase o → t.live = s.live →
      ∀ v ∈ t.revisions, v ∈ s.revisions := by
    intro t o hobservers hlive v hv
    unfold AxWorld.revisions at hv
    rw [hobservers, hlive] at hv
    exact ((erase_sublist.map _).append (List.Sublist.refl _)).subset hv
  have hminted : ∀ {o : AxObserverApplicationBinding} {ev : AxRunLoopServiceEvidence} {source st bs},
      o ∈ s.observers → ∀ v ∈ ({ s.spend o ev with
        statics := st, live := (mintContinuity s.statics o source ev).1 :: s.live
        broken := bs } : AxWorld).revisions, v ∈ s.revisions := by
    intro o ev source st bs ho v hv
    rcases mem_append.mp hv with hv | hv
    · exact mem_append_left _ ((erase_sublist.map _).subset hv)
    · rcases mem_cons.mp hv with rfl | hv
      · exact mem_append_left _ (mem_map.mpr ⟨o, ho, rfl⟩)
      · exact mem_append_right _ hv
  cases hs with
  | bindCurrent application =>
    refine ⟨Nat.le_succ _, fun v hv => ?_, ?_⟩
    · rcases mem_cons.mp hv with rfl | hv
      · exact .inr (Nat.lt_succ_self _)
      · exact .inl hv
    · rintro o ⟨⟩
      exact Nat.lt_succ_self _
  | newSource => exact hsame rfl (fun _ hv => hv) (by simp)
  | newTracker => exact hsame rfl (fun _ hv => hv) (by simp)
  | dropTracker => exact hsame rfl (fun _ hv => hv) (by simp)
  | callback refcon =>
    refine hsame ?_ (fun _ hv => hv) (by simp)
    show (trackedAxObserverCallback s.statics refcon).observerCreationSequence = _
    unfold trackedAxObserverCallback
    split
    · rfl
    · split <;> rfl
  | serviced => exact hsame rfl (fun _ hv => hv) (by simp)
  | activate hobserver _ _ hok =>
    obtain ⟨-, hmint⟩ := activate_ok.mp hok
    cases hmint
    exact hsame rfl (hminted hobserver) (by simp)
  | activateRefused => exact hsame rfl (hspend rfl rfl) (by simp)
  | breakContinuity =>
    exact hsame rfl (fun v hv =>
      ((List.Sublist.refl _).append (erase_sublist.map _)).subset hv) (by simp)
  | rebind _ hobserver _ _ hok =>
    obtain ⟨-, -, -, -, hmint⟩ := rebindAfterBreak_ok.mp hok
    cases hmint
    exact hsame rfl (hminted hobserver) (by simp)
  | rebindRefused => exact hsame rfl (hspend rfl rfl) (by simp)
  | drop hobservers _ hlive =>
    exact hsame rfl (fun v hv => ((hobservers.map _).append (hlive.map _)).subset hv) (by simp)

theorem spent_step (h : Spent v s) (hs : AxStep s e t) : Spent v t := by
  obtain ⟨hsequence, hrevisions, -⟩ := revisions_step hs
  refine ⟨Nat.le_trans h.1 hsequence, fun hmem => ?_⟩
  rcases hrevisions v hmem with hold | hnew
  · exact h.2 hold
  · have hle := h.1
    omega

theorem later_bound (hrun : Run AxStep s tr t) :
    ∀ o, .bound o ∈ tr → s.statics.observerCreationSequence < o.observerCreationRevision := by
  induction hrun with
  | nil =>
    intro o ho
    cases ho
  | cons hs _ ih =>
    intro o ho
    obtain ⟨hsequence, -, hbound⟩ := revisions_step hs
    rcases mem_cons.mp ho with heq | ho
    · exact hbound o heq.symm
    · exact Nat.lt_of_le_of_lt hsequence (ih o ho)

/-- Breaking spends the revision. -/
theorem spent_of_break {current : AxRunLoopSourceIncarnation}
    {reason : AxObserverContinuityBreakReason} {broken : AxBrokenObserverContinuity}
    (h : Minted tr s) (hs : AxStep s (.broke binding current reason broken) t) :
    Spent binding.observerBinding.observerCreationRevision t ∧
      .bound binding.observerBinding ∈ tr ∧
        t.statics.observerCreationSequence = s.statics.observerCreationSequence := by
  cases hs with
  | breakContinuity _ hlive =>
    have hperm : s.revisions.Perm (binding.observerBinding.observerCreationRevision ::
        (s.observers.map (·.observerCreationRevision) ++
          (s.live.erase binding).map (·.observerBinding.observerCreationRevision))) :=
      (((perm_cons_erase hlive).map _).append_left _).trans perm_middle
    refine ⟨⟨?_, (nodup_cons.mp (hperm.nodup_iff.mp h.nodup)).1⟩, (h.live _ hlive).1, rfl⟩
    exact h.bounded _ (hperm.mem_iff.mpr mem_cons_self)

/-- **Positive authority has a delivered callback, and a broken observer stays broken.**
Each live binding comes from callbacks delivered to a tracker of its application, revision
and source.  After a break no live binding has the revision that was broken, and one with
a smaller revision belongs to an observer that was bound before.  What `rebind_after_break`
mints is of the tombstone's application, newer, and on another source. -/
theorem observer_continuity (hrun : Run AxStep .start tr s) :
    (∀ b ∈ s.live, 0 < b.lastDeliveredCallbackCount ∧
      Serviced tr b.observerBinding.applicationIncarnation
        b.observerBinding.observerCreationRevision b.runLoopSourceIncarnation
          b.lastDeliveredCallbackCount) ∧
    (∀ before after broke current reason broken,
      tr = before ++ .broke broke current reason broken :: after → ∀ b ∈ s.live,
        b.observerBinding.observerCreationRevision ≠
          broke.observerBinding.observerCreationRevision ∧
        (b.observerBinding.observerCreationRevision <
            broke.observerBinding.observerCreationRevision →
          .bound b.observerBinding ∈ before)) ∧
    ∀ broken observer source evidence b,
      .rebound broken observer source evidence (.ok b) ∈ tr →
        b.observerBinding = observer ∧ b.runLoopSourceIncarnation = source ∧
        observer.applicationIncarnation = broken.applicationIncarnation ∧
        broken.invalidatedObserverCreationRevision < observer.observerCreationRevision ∧
        source ≠ broken.previousRunLoopSourceIncarnation := by
  have h := minted_run hrun
  refine ⟨fun b hb => (h.live b hb).2, ?_, ?_⟩
  · rintro before after broke current reason broken rfl b hb
    obtain ⟨a, c, hbefore, hs, hafter⟩ := hrun.step_of_split
    obtain ⟨hspent, hbound, hsequence⟩ := spent_of_break (minted_run hbefore) hs
    have hlater : Spent broke.observerBinding.observerCreationRevision s :=
      hafter.invariant (I := Spent _) (fun _ _ _ hI hs => spent_step hI hs) hspent
    have hrevision : b.observerBinding.observerCreationRevision ∈ s.revisions :=
      mem_append_right _ (mem_map.mpr ⟨b, hb, rfl⟩)
    refine ⟨fun heq => hlater.2 (heq ▸ hrevision), fun hlt => ?_⟩
    rcases mem_append.mp (h.live b hb).1 with hin | hin
    · exact hin
    rcases mem_cons.mp hin with heq | hin
    · cases heq
    · have hnew := later_bound hafter _ hin
      have hle := hspent.1
      omega
  · intro broken observer source evidence b hmem
    obtain ⟨before, after, rfl⟩ := append_of_mem hmem
    obtain ⟨a, c, -, hs, -⟩ := hrun.step_of_split
    cases hs with
    | rebind _ _ _ _ hok =>
      obtain ⟨happ, hrev, hsource, -, hmint⟩ := rebindAfterBreak_ok.mp hok
      obtain ⟨rfl, -⟩ := Prod.mk.inj hmint
      exact ⟨rfl, rfl, happ, hrev, hsource⟩

/-! ## A source is copied -/

def sampleApplication : AxApplicationIncarnation := ⟨"app", 7070, 7001⟩

def sampleObserver (revision : Nat) : AxObserverApplicationBinding := ⟨sampleApplication, revision⟩

def sampleEvidence (revision : Nat) : AxRunLoopServiceEvidence := ⟨sampleApplication, revision, ⟨1⟩, 1⟩

def sampleContinuity (revision continuityRevision : Nat) : AxObserverContinuityBinding :=
  ⟨sampleObserver revision, ⟨1⟩, continuityRevision, 1⟩

/-- Two observers on one source, the first activated and broken before the second is activated. -/
def sampleEvents : List AxEvent :=
  [.bound (sampleObserver 1), .bound (sampleObserver 2), .sourceCreated ⟨1⟩,
    .trackerCreated 1 (sampleObserver 1) ⟨1⟩, .trackerCreated 2 (sampleObserver 2) ⟨1⟩,
    .callback 1, .callback 2, .serviced 1 (some (sampleEvidence 1)),
    .serviced 2 (some (sampleEvidence 2)),
    .activated (sampleObserver 1) ⟨1⟩ (sampleEvidence 1) (.ok (sampleContinuity 1 1)),
    .broke (sampleContinuity 1 1) ⟨1⟩ .runLoopInterrupted
      (breakContinuity (sampleContinuity 1 1) ⟨1⟩ .runLoopInterrupted),
    .activated (sampleObserver 2) ⟨1⟩ (sampleEvidence 2) (.ok (sampleContinuity 2 2))]

theorem sample_events : ∃ s, Run AxStep .start sampleEvents s ∧ s.live = [sampleContinuity 2 2] := by
  refine ⟨?_, ?run, ?live⟩
  case run =>
    refine .cons (.bindCurrent sampleApplication) ?_
    refine .cons (.bindCurrent sampleApplication) ?_
    refine .cons .newSource ?_
    refine .cons (.newTracker (by decide) (by decide)) ?_
    refine .cons (.newTracker (by decide) (by decide)) ?_
    refine .cons (.callback 1) ?_
    refine .cons (.callback 2) ?_
    refine .cons (@AxStep.serviced _ 1 ⟨sampleApplication, 1, ⟨1⟩, 1⟩ rfl) ?_
    refine .cons (@AxStep.serviced _ 2 ⟨sampleApplication, 2, ⟨1⟩, 1⟩ rfl) ?_
    refine .cons (.activate (by decide) (by decide) (by decide) rfl) ?_
    refine .cons (.breakContinuity .runLoopInterrupted (by decide) (by decide)) ?_
    refine .cons (.activate (by decide) (by decide) (by decide) rfl) ?_
    exact .nil _
  case live => rfl

/-- The second observer is live, with callbacks of its own. -/
theorem observer_continuity_sample : ∃ s, Run AxStep .start sampleEvents s ∧
    s.live = [sampleContinuity 2 2] ∧ ∀ b ∈ s.live, Serviced sampleEvents b.observerBinding.applicationIncarnation
      b.observerBinding.observerCreationRevision b.runLoopSourceIncarnation
        b.lastDeliveredCallbackCount := by
  obtain ⟨s, hrun, hlive⟩ := sample_events
  exact ⟨s, hrun, hlive, fun b hb => ((observer_continuity hrun).1 b hb).2⟩

theorem source_revived : ¬ ∀ (tr before after : List AxEvent) (s : AxWorld)
    (broke : AxObserverContinuityBinding) (current : AxRunLoopSourceIncarnation)
    (reason : AxObserverContinuityBreakReason) (broken : AxBrokenObserverContinuity),
    Run AxStep .start tr s → tr = before ++ .broke broke current reason broken :: after →
      ∀ b ∈ s.live,
        b.observerBinding.applicationIncarnation = broke.observerBinding.applicationIncarnation →
          b.runLoopSourceIncarnation ≠ broke.runLoopSourceIncarnation ∧
            broke.observerBinding.observerCreationRevision <
              b.observerBinding.observerCreationRevision := by
  intro hall
  obtain ⟨s, hrun, hlive⟩ := sample_events
  have h := hall sampleEvents (sampleEvents.take 10) (sampleEvents.drop 11) s
    (sampleContinuity 1 1) ⟨1⟩ .runLoopInterrupted _ hrun rfl (sampleContinuity 2 2)
    (by rw [hlive]; exact mem_cons_self) rfl
  exact h.1 rfl

end Localview.AxContinuity
