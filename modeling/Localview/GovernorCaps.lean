import Localview.ReservationHandles
import Localview.DistinctSort

/-! # The caps of the governor

How many Chromium processes and captures the governor admits.  Nothing compares
a count with a cap directly: `reserve` asks for a decision, the decision lists
what to degrade, and an admission is refused if its list says so.

A call other than `reserve` leaves at most as many entries of either class
(`NoMore`): an activation makes a pending Chromium entry a live one, which
counts as before.  So only an admission can add an entry, and it is made below
the cap.
-/
namespace Localview
open StateRun List

section

variable {F : Type} [Binary32 F] {sample : ResourceSample F} {budget : ResourceBudget F}

/-- A check that is met has its action in the decision. -/
theorem mem_actions_of_measured {action : DegradationAction} {reason : String}
    (h : (true, action, reason) ∈ measuredDegradations sample budget) :
    action ∈ (evaluate sample budget).actions := by
  have hmeasured : action ∈ ((measuredDegradations sample budget).filter (·.1)).map (·.2.1) :=
    mem_map.mpr ⟨_, mem_filter.mpr ⟨h, rfl⟩, rfl⟩
  have hall (sweeps captures : List DegradationAction) :
      action ∈ ((measuredDegradations sample budget).filter (·.1)).map (·.2.1) ++ sweeps ++
        captures :=
    mem_append_left _ (mem_append_left _ hmeasured)
  apply DistinctSort.mem_destutter_iff.mpr
  rw [mem_insertionSort, if_neg (ne_nil_of_mem (hall _ _))]
  exact hall _ _

/-- At the cap no Chromium process is admitted. -/
theorem chromium_denied (h : max budget.chromiumInstances 1 ≤ sample.chromiumInstances) :
    deniedByDecision .chromium (evaluate sample budget) = true := by
  have hmet : (true, DegradationAction.blockChromiumEscalation,
      "Chromium instance budget reached") ∈ measuredDegradations sample budget := by
    simp [measuredDegradations, h]
  simp [deniedByDecision, mem_actions_of_measured hmet]

/-- At the cap no capture is admitted. -/
theorem capture_denied (h : max budget.concurrentCaptures 1 ≤ sample.concurrentCaptures) :
    deniedByDecision .nativeVisualCapture (evaluate sample budget) = true := by
  have hmet : (true, DegradationAction.serializeCaptures,
      "capture concurrency budget reached") ∈ measuredDegradations sample budget := by
    simp [measuredDegradations, h]
  simp [deniedByDecision, mem_actions_of_measured hmet]

end

/-! ## Counts of the table -/

namespace RuntimeGovernorState
variable {F : Type} {s s' s'' : RuntimeGovernorState F} {key : ReservationKey}

/-- Pending and live Chromium processes. -/
def chromiumCount (s : RuntimeGovernorState F) : Nat := s.reservations.count (·.isChromium)

/-- Pending captures. -/
def captureCount (s : RuntimeGovernorState F) : Nat := s.reservations.count (·.isCapture)

/-- The budget is the same, and no more entries of either class are there. -/
structure NoMore (s s' : RuntimeGovernorState F) : Prop where
  budget : s'.budget = s.budget
  chromium : s'.chromiumCount ≤ s.chromiumCount
  captures : s'.captureCount ≤ s.captureCount

theorem NoMore.refl (s : RuntimeGovernorState F) : NoMore s s := ⟨rfl, le_rfl, le_rfl⟩

theorem NoMore.trans (h : NoMore s s') (h' : NoMore s' s'') : NoMore s s'' :=
  ⟨h'.budget.trans h.budget, h'.chromium.trans h.chromium, h'.captures.trans h.captures⟩

/-- Entries are dropped. -/
theorem noMore_retain (q : ReservationKey → ReservationState → Bool) :
    NoMore s (s.setReservations (s.reservations.retain q)) :=
  ⟨rfl, s.reservations.count_retain_le _ q, s.reservations.count_retain_le _ q⟩

/-- An entry takes the place of one of its class. -/
theorem noMore_replace {old new : ReservationState} (hget : s.get key = some old)
    (hchromium : new.isChromium = true → old.isChromium = true)
    (hcapture : new.isCapture = true → old.isCapture = true) :
    NoMore s (s.setReservations (s.reservations.insert key new)) :=
  ⟨rfl, s.reservations.count_replace_le _ hget hchromium,
    s.reservations.count_replace_le _ hget hcapture⟩

theorem noMore_releaseKey : NoMore s (s.releaseKey key) := noMore_retain _

theorem noMore_releaseSession (sessionId : String) : NoMore s (s.releaseSession sessionId).2 :=
  noMore_retain _

/-- Activation keeps a Chromium entry a Chromium entry. -/
theorem noMore_activateKey (kind : LiveResourceKind) : NoMore s (s.activateKey key kind).2 := by
  unfold activateKey
  by_cases hkind : kind ≠ .chromiumProcess
  · rw [if_pos hkind]
    exact .refl s
  · rw [if_neg hkind]
    split
    · exact .refl s
    · next hget => exact noMore_replace hget (fun _ => rfl) (fun h => nomatch h)
    · exact .refl s
    · exact .refl s

theorem noMore_activateSurfaceKey (identity : LiveSurfaceIdentity)
    (visibility : SurfaceVisibility) :
    NoMore s (s.activateSurfaceKey key identity visibility).2 := by
  unfold activateSurfaceKey
  split
  · exact .refl s
  · next hget => exact noMore_replace hget (fun h => nomatch h) (fun h => nomatch h)
  · exact .refl s
  · exact .refl s

theorem noMore_setSurfaceVisibilityKey (identity : LiveSurfaceIdentity)
    (visibility : SurfaceVisibility) :
    NoMore s (s.setSurfaceVisibilityKey key identity visibility).2 := by
  unfold setSurfaceVisibilityKey
  split
  · exact .refl s
  · next hget =>
    split
    · exact noMore_replace hget (fun h => nomatch h) (fun h => nomatch h)
    · exact .refl s
  · exact .refl s

/-! ### Calls with a handle -/

theorem noMore_activateLive (r : ResourceReservation) (kind : LiveResourceKind) :
    NoMore s (r.activateLive s kind).2 := by
  have hkey : NoMore s (s.activateKey r.key kind).2 := noMore_activateKey kind
  unfold ResourceReservation.activateLive
  split
  · next heq =>
    rw [heq] at hkey
    exact hkey.trans noMore_releaseKey
  · next heq =>
    rw [heq] at hkey
    exact hkey

theorem noMore_activateSurface (r : ResourceReservation) (identity : LiveSurfaceIdentity)
    (visibility : SurfaceVisibility) : NoMore s (r.activateSurface s identity visibility).2 := by
  have hkey : NoMore s (s.activateSurfaceKey r.key identity visibility).2 :=
    noMore_activateSurfaceKey identity visibility
  unfold ResourceReservation.activateSurface
  split
  · next heq =>
    rw [heq] at hkey
    exact hkey.trans noMore_releaseKey
  · next heq =>
    rw [heq] at hkey
    exact hkey

theorem noMore_setSurfaceVisibility (l : LiveResourceLease) (identity : LiveSurfaceIdentity)
    (visibility : SurfaceVisibility) :
    NoMore s (l.setSurfaceVisibility s identity visibility).2 := by
  unfold LiveResourceLease.setSurfaceVisibility
  split
  · exact .refl s
  · exact noMore_setSurfaceVisibilityKey identity visibility

/-! ### The caps -/

/-- The caps are values of a `usize`. -/
def CapsInRange (budget : ResourceBudget F) : Prop :=
  budget.chromiumInstances ≤ u64Max ∧ budget.concurrentCaptures ≤ u64Max

/-- **The caps hold.** -/
structure Capped (budget : ResourceBudget F) (s : RuntimeGovernorState F) : Prop where
  same : s.budget = budget
  chromium : s.chromiumCount ≤ max 1 budget.chromiumInstances
  captures : s.captureCount ≤ max 1 budget.concurrentCaptures

theorem Capped.noMore {budget : ResourceBudget F} (h : Capped budget s) (hless : NoMore s s') : Capped budget s' :=
  ⟨hless.budget.trans h.same, hless.chromium.trans h.chromium, hless.captures.trans h.captures⟩

variable [Binary32 F]

theorem noMore_release (x : ResourceHandle) : NoMore s (x.release s) := by
  rcases x.release_cases s with heq | heq
  · rw [heq]
    exact .refl s
  · rw [heq]
    exact noMore_releaseKey

theorem noMore_updateSample (sample : RuntimeResourceSample F) :
    NoMore s (s.updateSample sample).2 := by
  unfold updateSample
  split
  · exact ⟨rfl, le_rfl, le_rfl⟩
  · exact .refl s

theorem noMore_updateProcessMetrics (memoryMb : Nat) (cpuPercent : F) :
    NoMore s (s.updateProcessMetrics memoryMb cpuPercent).2 := by
  unfold updateProcessMetrics
  split
  · exact .refl s
  · exact ⟨rfl, le_rfl, le_rfl⟩

/-! ### Admissions -/

variable {budget : ResourceBudget F}

theorem capped_new (budget : ResourceBudget F) : Capped budget (new budget) :=
  ⟨rfl, Nat.zero_le _, Nat.zero_le _⟩

/-- A Chromium process is admitted below the cap only. -/
theorem chromium_room (hrange : CapsInRange s.budget)
    (hadmitted : ¬ deniedByDecision .chromium s.decisionForState = true) :
    s.chromiumCount < max 1 s.budget.chromiumInstances := by
  by_contra hfull
  apply hadmitted
  apply chromium_denied
  have hcap := hrange.1
  have hone : 1 ≤ u64Max := by decide
  show max s.budget.chromiumInstances 1 ≤ min s.chromiumCount u64Max
  omega

/-- A capture is admitted below the cap only. -/
theorem capture_room (hrange : CapsInRange s.budget)
    (hadmitted : ¬ deniedByDecision .nativeVisualCapture s.decisionForState = true) :
    s.captureCount < max 1 s.budget.concurrentCaptures := by
  by_contra hfull
  apply hadmitted
  apply capture_denied
  have hcap := hrange.2
  have hone : 1 ≤ u64Max := by decide
  show max s.budget.concurrentCaptures 1 ≤ min s.captureCount u64Max
  omega

/-- An admission keeps the caps: the entry it adds is of a class with room. -/
theorem capped_reserve (hrange : CapsInRange budget) (h : Capped budget s)
    (sessionId requestId : String) (workKind : ResourceWorkKind) :
    Capped budget (s.reserve sessionId requestId workKind).2 := by
  by_cases hdenied : deniedByDecision workKind s.decisionForState = true ∨
      (s.get (sessionId, requestId)).isSome
  · rw [reserve, if_pos hdenied]
    exact h
  · rw [reserve, if_neg hdenied]
    obtain ⟨hadmitted, hnew⟩ := not_or.mp hdenied
    have hnone : s.reservations.get (sessionId, requestId) = none := by
      simpa [RuntimeGovernorState.get] using hnew
    rw [← h.same] at hrange
    have hchromium := h.chromium
    have hcaptures := h.captures
    refine ⟨h.same, ?_, ?_⟩
    · show (s.reservations.insert _ _).count _ ≤ _
      rw [AssocMap.count_insert_new _ _ hnone]
      by_cases hclass : workKind = .chromium
      · subst hclass
        have hroom := chromium_room hrange hadmitted
        rw [h.same] at hroom
        exact hroom
      · have hzero : (ReservationState.pending workKind).isChromium = false := by
          cases workKind <;> first | rfl | exact absurd rfl hclass
        rw [hzero]
        exact hchromium
    · show (s.reservations.insert _ _).count _ ≤ _
      rw [AssocMap.count_insert_new _ _ hnone]
      by_cases hclass : workKind = .nativeVisualCapture
      · subst hclass
        have hroom := capture_room hrange hadmitted
        rw [h.same] at hroom
        exact hroom
      · have hzero : (ReservationState.pending workKind).isCapture = false := by
          cases workKind <;> first | rfl | exact absurd rfl hclass
        rw [hzero]
        exact hcaptures

end RuntimeGovernorState

/-! ## Runs -/

section
variable {F : Type} {h h' : Holders F} {c : GovernorCall F}
open RuntimeGovernorState

/-- The governor after an activation is the one the activation left. -/
theorem governor_activated (n : Nat)
    (result : Except ResourceActivationError LiveResourceLease × RuntimeGovernorState F) :
    (h.activated n result).governor = result.2 := by
  obtain ⟨_ | _, s⟩ := result <;> rfl

theorem governor_reserved
    (result : Except ResourceAdmissionDenial ResourceReservation × RuntimeGovernorState F) :
    (h.reserved result).governor = result.2 := by
  obtain ⟨_ | _, s⟩ := result <;> rfl

variable [Binary32 F]

/-- **Every call keeps the caps.** -/
theorem capped_step {budget : ResourceBudget F} (hrange : CapsInRange budget)
    (hcapped : Capped budget h.governor) (hs : GovernorStep h c h') :
    Capped budget h'.governor := by
  unfold GovernorStep at hs
  cases c with
  | reserve sessionId requestId workKind =>
    cases hs
    rw [governor_reserved]
    exact capped_reserve hrange hcapped sessionId requestId workKind
  | releaseSession sessionId =>
    cases hs
    exact hcapped.noMore (noMore_releaseSession sessionId)
  | activateLive n kind =>
    simp only [Holders.call] at hs
    split at hs
    · next r _ =>
      cases hs
      rw [governor_activated]
      exact hcapped.noMore (noMore_activateLive r kind)
    · cases hs
  | activateSurface n identity visibility =>
    simp only [Holders.call] at hs
    split at hs
    · next r _ =>
      cases hs
      rw [governor_activated]
      exact hcapped.noMore (noMore_activateSurface r identity visibility)
    · cases hs
  | release n =>
    obtain ⟨x, -, rfl⟩ := Option.map_eq_some_iff.mp hs
    exact hcapped.noMore (noMore_release x)
  | setSurfaceVisibility n identity visibility =>
    simp only [Holders.call] at hs
    split at hs
    · next l _ =>
      cases hs
      exact hcapped.noMore (noMore_setSurfaceVisibility l identity visibility)
    · cases hs
  | updateSample sample =>
    cases hs
    exact hcapped.noMore (noMore_updateSample sample)
  | updateProcessMetrics memoryMb cpuPercent =>
    cases hs
    exact hcapped.noMore (noMore_updateProcessMetrics memoryMb cpuPercent)

/-- **Governor caps.**  After any run of calls, pending and live Chromium entries
are at most `max(1, chromium_instances)`, and pending captures at most
`max(1, concurrent_captures)`. -/
theorem governor_caps {budget : ResourceBudget F} (hrange : CapsInRange budget)
    {tr : List (GovernorCall F)} (hrun : Run GovernorStep (.new budget) tr h) :
    h.governor.chromiumCount ≤ max 1 budget.chromiumInstances ∧
      h.governor.captureCount ≤ max 1 budget.concurrentCaptures := by
  have hcapped : Capped budget h.governor :=
    hrun.invariant (I := fun h => Capped budget h.governor) (fun _ _ _ => capped_step hrange)
      (capped_new budget)
  exact ⟨hcapped.chromium, hcapped.captures⟩

end

/-- A Chromium process is started while a capture runs; a second one is refused. -/
def chromiumRun : List (GovernorCall ℚ) :=
  [.reserve "session" "browser" .chromium, .reserve "session" "capture" .nativeVisualCapture,
    .activateLive 0 .chromiumProcess, .reserve "session" "second" .chromium]

theorem governor_caps_chromiumRun :
    ∃ h : Holders ℚ, Run GovernorStep (.new .default) chromiumRun h ∧
      h.governor.chromiumCount = 1 ∧ h.governor.chromiumCount ≤ max 1 1 ∧
        h.governor.captureCount ≤ max 1 2 := by
  have hcalls : (((Holders.new .default).calls chromiumRun).map
      fun h => h.governor.chromiumCount) = some 1 := by decide +kernel
  obtain ⟨h, hcalls, hone⟩ := Option.map_eq_some_iff.mp hcalls
  have hrun := run_of_calls hcalls
  have hrange : RuntimeGovernorState.CapsInRange (.default : ResourceBudget ℚ) := ⟨by decide, by decide⟩
  exact ⟨h, hrun, hone, governor_caps hrange hrun⟩

end Localview
