import Localview.ClaimTable
import Localview.SurfaceLiveness

/-! # One surface a label

The claims of the surface handlers as a `ClaimTable`: an activation or reattach
attempt takes its claim under the resource registry's lock, makes its lease and
its record without it, and then publishes the claim or clears it.

Two things break the table.  A request given up while its record is written ends
the attempt without clearing its claim; and a reap pass that releases an owner
with an attempt in progress takes the claim from under it.
-/
namespace Localview
open StateRun List

/-- What a claim excludes others from: session, kind and label. -/
def SurfaceClaim.surface (claim : SurfaceClaim) : SessionId × String × String :=
  (claim.session, claim.identity.surfaceKind, claim.identity.label)

open SurfaceClaim

theorem sameSurface_iff {claim : SurfaceClaim} {session : SessionId}
    {identity : LiveSurfaceIdentity} :
    claim.sameSurface session identity = true ↔
      claim.surface = (session, identity.surfaceKind, identity.label) := by
  simp [sameSurface, surface, and_assoc]

/-- The claim an attempt at this stage has. -/
def SurfaceStage.claim : SurfaceStage → Option SurfaceClaim
  | .claimed claim _ _ _ | .leased claim _ _ | .failed claim _ | .recorded claim _ => some claim
  | .begun _ | .removed _ | .done => none

def SurfaceResourceEntry.liveClaims (entry : SurfaceResourceEntry) : Finset SurfaceClaim :=
  (entry.live.entries.map Prod.fst).toFinset

section
variable {F : Type}

/-- The claims of the attempts in progress. -/
def SurfaceSystem.attempts (s : SurfaceSystem F) : List SurfaceClaim :=
  s.operations.filterMap (·.stage.claim)

def SurfaceSystem.claims (s : SurfaceSystem F) : ClaimTable SurfaceClaim :=
  { attempts := s.attempts, held := s.daemon.entry.activating, live := s.daemon.entry.liveClaims }

/-- **One surface a label.**  Two live or activating claims are of different
surfaces, none is both, and each activating one is of an attempt in progress. -/
structure OneSurfaceALabel (s : SurfaceSystem F) : Prop where
  one : ∀ c ∈ s.daemon.entry.activating ∪ s.daemon.entry.liveClaims,
    ∀ c' ∈ s.daemon.entry.activating ∪ s.daemon.entry.liveClaims, c.surface = c'.surface → c = c'
  apart : Disjoint s.daemon.entry.activating s.daemon.entry.liveClaims
  in_progress : ∀ c ∈ s.daemon.entry.activating, c ∈ s.attempts
  distinct : s.attempts.Nodup

/-- No attempt is given up while it has a claim, and no owner is released while it
has an attempt in progress. -/
def KeepsClaims (s : SurfaceSystem F) : SurfaceAct F → Prop
  | .abort operation _ =>
      ∀ op, s.operations[operation]? = some op → op.stage.claim = none
  | .releaseOwner pass =>
      ∀ owner rest, s.passes[pass]? = some (owner :: rest) → ∀ c ∈ s.attempts, c.owner ≠ owner
  | _ => True

theorem oneSurfaceALabel_of_exclusive {s : SurfaceSystem F}
    (h : s.claims.Exclusive surface) : OneSurfaceALabel s where
  one := fun _ hc _ hc' => h.eq_of_key hc hc'
  apart := h.disjoint
  in_progress := fun c hc => (h.held_iff c).mp hc
  distinct := Multiset.coe_nodup.mp h.attempts_nodup

end

/-! ## What one hold of the lock does to the claims -/

namespace SurfaceResourceEntry
variable {entry entry' : SurfaceResourceEntry} {claim c : SurfaceClaim}

theorem mem_liveClaims : c ∈ entry.liveClaims ↔ (entry.live.get c).isSome := by
  rw [liveClaims, mem_toFinset, mem_map, Option.isSome_iff_exists]
  constructor
  · rintro ⟨⟨c, lease⟩, hmem, rfl⟩
    exact ⟨lease, entry.live.mem_entries.mp hmem⟩
  · rintro ⟨lease, hget⟩
    exact ⟨(c, lease), entry.live.mem_entries.mpr hget, rfl⟩

theorem free_of_not_claimed
    (h : ¬ entry.logicallyClaimed claim.session claim.identity = true) :
    ∀ c ∈ entry.activating ∪ entry.liveClaims, c.surface ≠ claim.surface := by
  intro c hc hsame
  apply h
  rw [logicallyClaimed, Bool.or_eq_true]
  have hsurface : c.sameSurface claim.session claim.identity = true := sameSurface_iff.mpr hsame
  rcases Finset.mem_union.mp hc with hactivating | hlive
  · exact .inr (decide_eq_true ⟨c, hactivating, hsurface⟩)
  · obtain ⟨e, hmem, rfl⟩ := mem_map.mp (mem_toFinset.mp hlive)
    exact .inl (any_eq_true.mpr ⟨e, hmem, hsurface⟩)

theorem liveClaims_publish (lease : LiveResourceLease) :
    (entry.publish claim lease).liveClaims = insert claim entry.liveClaims := by
  ext c
  rw [Finset.mem_insert, mem_liveClaims, mem_liveClaims]
  show ((entry.live.insert claim lease).get c).isSome ↔ _
  rw [AssocMap.get_insert]
  by_cases hc : c = claim
  · simp [hc]
  · simp [hc]

theorem liveClaims_retain (p : SurfaceClaim → LiveResourceLease → Bool)
    (hlive : entry'.live = entry.live.retain p) : entry'.liveClaims ⊆ entry.liveClaims := by
  intro c hc
  rw [mem_liveClaims, hlive, AssocMap.get_retain] at hc
  rw [mem_liveClaims]
  cases hget : entry.live.get c with
  | none =>
    rw [hget] at hc
    cases hc
  | some lease => rfl

end SurfaceResourceEntry

/-- A handler keeps its claim while no activating one changes; or takes one on a
free surface; or ends, clearing its claim or publishing it. -/
inductive ClaimEffect (entry : SurfaceResourceEntry) :
    Option SurfaceClaim → SurfaceResourceEntry → Option SurfaceClaim → Prop
  | keep (claim : Option SurfaceClaim) (entry' : SurfaceResourceEntry) :
      entry'.activating = entry.activating → entry'.liveClaims ⊆ entry.liveClaims →
      ClaimEffect entry claim entry' claim
  | take (claim : SurfaceClaim) (entry' : SurfaceResourceEntry) :
      (∀ c ∈ entry.activating ∪ entry.liveClaims, c.surface ≠ claim.surface) →
      entry'.activating = insert claim entry.activating → entry'.liveClaims = entry.liveClaims →
      ClaimEffect entry none entry' (some claim)
  | clear (claim : SurfaceClaim) (entry' : SurfaceResourceEntry) :
      entry'.activating = entry.activating.erase claim → entry'.liveClaims = entry.liveClaims →
      ClaimEffect entry (some claim) entry' none
  | publish (claim : SurfaceClaim) (lease : LiveResourceLease) :
      ClaimEffect entry (some claim) (entry.publish claim lease) none

theorem ClaimEffect.same {entry : SurfaceResourceEntry} {claim : Option SurfaceClaim} :
    ClaimEffect entry claim entry claim := .keep claim entry rfl subset_rfl

namespace SurfaceDaemon
variable {F : Type} (d : SurfaceDaemon F) (codec : SurfaceEventCodec)

theorem entry_recordEvent (event : SurfaceRecoveryEvent) (stopped : Option (Nat × String)) :
    (d.recordEvent codec event stopped).2.entry = d.entry := by
  rw [recordEvent]
  split <;> rfl

open SurfaceResourceEntry

theorem entry_clearActivatingClaim (claim : SurfaceClaim) :
    (d.clearActivatingClaim claim).entry = d.entry.clearActivating claim := by
  rcases d with ⟨owners, _ | entry, governor, recovery⟩
  · show empty = empty.clearActivating claim
    simp [clearActivating, empty]
  · rfl

theorem beginActivation_claims (claim : SurfaceClaim) (request : String) :
    match d.beginActivation claim request with
    | (.error _, d') => d'.entry = d.entry
    | (.ok _, d') => ClaimEffect d.entry none d'.entry (some claim) := by
  unfold beginActivation
  by_cases hclaimed : d.entry.logicallyClaimed claim.session claim.identity = true
  · rw [if_pos hclaimed]
    rfl
  · rw [if_neg hclaimed]
    dsimp only
    cases d.entry.pending.get ⟨claim.owner, claim.session, request⟩ with
    | none => rfl
    | some reservation =>
      exact .take claim _ (free_of_not_claimed hclaimed) rfl rfl

theorem entry_releaseSurfaceResourceSession (session : SessionId) :
    ClaimEffect d.entry none (d.releaseSurfaceResourceSession session).2.entry none := by
  rcases d with ⟨owners, _ | entry, governor, recovery⟩
  · exact .same
  · exact .keep none _ rfl subset_rfl

theorem removeLive_claims (claim : SurfaceClaim) :
    ClaimEffect d.entry none (d.removeLive claim).2.entry none := by
  rcases d with ⟨owners, _ | entry, governor, recovery⟩
  · exact .same
  · simp only [removeLive]
    cases entry.live.get claim with
    | none => exact .same
    | some lease =>
      exact .keep none _ rfl (SurfaceResourceEntry.liveClaims_retain (fun c _ => c ≠ claim) rfl)

theorem entry_setVisibility (claim : SurfaceClaim) (visibility : SurfaceVisibility) :
    (d.setVisibility claim visibility).2.entry = d.entry := by
  rcases d with ⟨owners, _ | entry, governor, recovery⟩
  · rfl
  · simp only [setVisibility]
    split
    · rfl
    · split <;> rfl

theorem cancelPending_claims (key : SurfacePendingKey) :
    ClaimEffect d.entry none (d.cancelPending key).2.entry none := by
  rcases d with ⟨owners, _ | entry, governor, recovery⟩
  · exact .same
  · simp only [cancelPending]
    cases entry.pending.get key with
    | none => exact .same
    | some reservation => exact .keep none _ rfl subset_rfl

variable [Binary32 F]

theorem reservePending_claims (key : SurfacePendingKey) :
    ClaimEffect d.entry none (d.reservePending key).2.entry none := by
  unfold reservePending
  split
  · exact .same
  · split
    · exact .same
    · exact .keep none _ rfl subset_rfl

theorem beginReattach_claims (claim : SurfaceClaim) (request : String) :
    match d.beginReattach claim request with
    | (.error _, d') => d'.entry = d.entry
    | (.ok _, d') => ClaimEffect d.entry none d'.entry (some claim) := by
  unfold beginReattach
  by_cases hclaimed : d.entry.logicallyClaimed claim.session claim.identity = true
  · rw [if_pos hclaimed]
    rfl
  · rw [if_neg hclaimed]
    rcases d.governor.reserve claim.session.display request .nativeSurface with
      ⟨denial | reservation, governor⟩
    · rfl
    · exact .take claim _ (free_of_not_claimed hclaimed) rfl rfl

/-- The first stage of a request. -/
theorem begin_claims (sessionExists : Bool) (request : SurfaceRequest) :
    ClaimEffect d.entry none (d.begin sessionExists request).2.entry
      (d.begin sessionExists request).1.claim := by
  cases request with (simp only [begin]; split; exact .same)
  | reserve request => exact d.reservePending_claims _
  | cancel request => exact d.cancelPending_claims _
  | activate request =>
    next claim _ _ =>
    have hclaims := d.beginActivation_claims claim request.requestId
    rcases hbegin : d.beginActivation claim request.requestId with ⟨error | reservation, d'⟩
    · rw [hbegin] at hclaims
      dsimp only at hclaims ⊢
      rw [hclaims]
      exact .same
    · rw [hbegin] at hclaims
      exact hclaims
  | reattach request requestId =>
    split
    · exact .same
    · next claim journal _ =>
      split
      · exact .same
      · have hclaims := d.beginReattach_claims claim requestId
        rcases hbegin : d.beginReattach claim requestId with ⟨error | reservation, d'⟩
        · rw [hbegin] at hclaims
          dsimp only at hclaims ⊢
          rw [hclaims]
          exact .same
        · rw [hbegin] at hclaims
          exact hclaims
  | visibility request =>
    dsimp only
    rw [entry_setVisibility]
    exact .same
  | release request =>
    next identity _ =>
    have hclaims := d.removeLive_claims
      ⟨request.proof.ownerInstanceId, request.sessionId, identity⟩
    split
    · next heq =>
      rw [heq] at hclaims
      exact hclaims
    · next heq =>
      rw [heq] at hclaims
      split
      · exact hclaims
      · exact hclaims

/-- **One stage of an operation.** -/
theorem advance_claims (surroundings : SurfaceSurroundings) (stage : SurfaceStage) :
    ClaimEffect d.entry stage.claim (d.advance codec surroundings stage).2.entry
      (d.advance codec surroundings stage).1.claim := by
  cases stage with
  | begun request => exact d.begin_claims surroundings.sessionExists request
  | claimed claim visibility event reservation =>
    simp only [advance]
    split
    · exact .same
    · exact .same
  | leased claim event lease =>
    have hentry := d.entry_recordEvent codec event surroundings.stopped
    simp only [advance]
    split
    · next heq =>
      rw [heq] at hentry
      exact .keep (some claim) _ (congrArg _ hentry) (congrArg _ hentry).subset
    · next heq =>
      rw [heq] at hentry
      exact .keep (some claim) _ (congrArg _ hentry) (congrArg _ hentry).subset
  | failed claim lease =>
    have hentry := d.entry_clearActivatingClaim claim
    have hactivating : (d.clearActivatingClaim claim).entry.activating =
        d.entry.activating.erase claim := congrArg (·.activating) hentry
    have hlive := congrArg liveClaims hentry
    cases lease with
    | none => exact .clear claim _ hactivating hlive
    | some lease => exact .clear claim _ hactivating hlive
  | recorded claim lease => exact .publish claim lease
  | removed event =>
    exact .keep none _ (congrArg _ (d.entry_recordEvent codec event _))
      (congrArg _ (d.entry_recordEvent codec event _)).subset
  | done => exact .same

end SurfaceDaemon

/-! ## The handlers refine the table -/

section

/-- The attempts with the one of a stage. -/
def withClaim : Option SurfaceClaim → Multiset SurfaceClaim → Multiset SurfaceClaim
  | none, rest => rest
  | some claim, rest => claim ::ₘ rest

theorem ClaimEffect.step {entry entry' : SurfaceResourceEntry} {claim claim' : Option SurfaceClaim}
    (h : ClaimEffect entry claim entry' claim') (rest : Multiset SurfaceClaim) :
    ClaimTable.Step surface
      ⟨withClaim claim rest, entry.activating, entry.liveClaims⟩
      ⟨withClaim claim' rest, entry'.activating, entry'.liveClaims⟩ := by
  cases h with
  | keep claim entry' hactivating hlive =>
    rw [hactivating]
    exact .release _ hlive
  | take claim entry' hfree hactivating hlive =>
    rw [hactivating, hlive]
    exact .take claim hfree
  | clear claim entry' hactivating hlive =>
    have hgiven : ClaimTable.Step surface _ _ := ClaimTable.Step.giveBack
      (t := ⟨claim ::ₘ rest, entry.activating, entry.liveClaims⟩) claim (Multiset.mem_cons_self _ _)
    rw [Multiset.erase_cons_head] at hgiven
    rw [hactivating, hlive]
    exact hgiven
  | publish claim lease =>
    have hpublished : ClaimTable.Step surface _ _ := ClaimTable.Step.publish
      (t := ⟨claim ::ₘ rest, entry.activating, entry.liveClaims⟩) claim (Multiset.mem_cons_self _ _)
    rw [Multiset.erase_cons_head] at hpublished
    rw [entry.liveClaims_publish lease]
    exact hpublished

variable {F : Type} {s s' : SurfaceSystem F} {codec : SurfaceEventCodec} {a : SurfaceAct F}
  {operation : Nat} {op op' : SurfaceOperation} {d : SurfaceDaemon F}

theorem coe_filterMap_cons (op : SurfaceOperation) (operations : List SurfaceOperation) :
    (((op :: operations).filterMap (·.stage.claim) : List SurfaceClaim) : Multiset SurfaceClaim) =
      withClaim op.stage.claim (operations.filterMap (·.stage.claim) : List SurfaceClaim) := by
  rw [filterMap_cons]
  cases op.stage.claim <;> rfl

/-- The attempts, with the one of an operation first. -/
theorem attempts_eq (hop : s.operations[operation]? = some op) :
    (s.attempts : Multiset SurfaceClaim) = withClaim op.stage.claim
      ((s.operations.eraseIdx operation).filterMap (·.stage.claim) : List SurfaceClaim) := by
  obtain ⟨hlt, rfl⟩ := List.getElem?_eq_some_iff.mp hop
  rw [← coe_filterMap_cons]
  exact Multiset.coe_eq_coe.mpr ((List.getElem_cons_eraseIdx_perm hlt).symm.filterMap _)

theorem attempts_set (hop : s.operations[operation]? = some op) :
    (({ s with operations := s.operations.set operation op' } : SurfaceSystem F).attempts :
        Multiset SurfaceClaim) =
      withClaim op'.stage.claim
        ((s.operations.eraseIdx operation).filterMap (·.stage.claim) : List SurfaceClaim) := by
  obtain ⟨hlt, -⟩ := List.getElem?_eq_some_iff.mp hop
  rw [← coe_filterMap_cons]
  exact Multiset.coe_eq_coe.mpr ((List.set_perm_cons_eraseIdx hlt op').filterMap _)

/-- An operation goes on to another stage. -/
theorem claims_set (hop : s.operations[operation]? = some op)
    (h : ClaimEffect s.daemon.entry op.stage.claim d.entry op'.stage.claim) :
    ClaimTable.Step surface s.claims
      { s with daemon := d, operations := s.operations.set operation op' : SurfaceSystem F }.claims := by
  have hstep := h.step ((s.operations.eraseIdx operation).filterMap (·.stage.claim) :
    List SurfaceClaim)
  rw [← attempts_eq hop, ← attempts_set hop] at hstep
  exact hstep

/-- An operation without a claim ends. -/
theorem claims_finish {owner : Uuid} (hop : s.operations[operation]? = some op)
    (hclaim : op.stage.claim = none) (h : ClaimEffect s.daemon.entry none d.entry none) :
    ClaimTable.Step surface s.claims (s.finish operation owner d).claims := by
  have hstep := h.step ((s.operations.eraseIdx operation).filterMap (·.stage.claim) :
    List SurfaceClaim)
  have hattempts := attempts_eq hop
  rw [hclaim] at hattempts
  show ClaimTable.Step _ ⟨(s.attempts : Multiset SurfaceClaim), _, _⟩ _
  rw [hattempts]
  exact hstep

/-- An operation begins without a claim. -/
theorem filterMap_begun (operations : List SurfaceOperation) (request : SurfaceRequest) :
    (operations ++ [(⟨request.proof.ownerInstanceId, .begun request⟩ : SurfaceOperation)]).filterMap
      (fun op => op.stage.claim) = operations.filterMap fun op => op.stage.claim := by
  rw [filterMap_append]
  exact append_nil _

/-- A reap pass releases an owner none of whose attempts is in progress. -/
theorem claims_releaseOwner {owner : Uuid} (hidle : ∀ c ∈ s.attempts, c.owner ≠ owner)
    (passes : List (List Uuid)) :
    ClaimTable.Step surface s.claims
      { s with daemon := (s.daemon.releaseSurfaceResourceOwner owner).2, passes }.claims := by
  obtain ⟨⟨owners, _ | entry, governor, recovery⟩, clock, operations, passes⟩ := s
  · exact .release _ subset_rfl
  · exact .revoke (fun c : SurfaceClaim => c.owner = owner) _ hidle
      (SurfaceResourceEntry.liveClaims_retain (fun claim _ => claim.owner ≠ owner) rfl)

variable [Binary32 F]

/-- **Each act is a step of the table**, or none, while it keeps the claims. -/
theorem claims_step (hs : SurfaceSystemStep codec s a s') (hkeeps : KeepsClaims s a) :
    ClaimTable.Step surface s.claims s'.claims := by
  have hsame : ClaimTable.Step surface s.claims s.claims := .release _ subset_rfl
  unfold SurfaceSystemStep at hs
  cases a with simp only [SurfaceSystem.act] at hs
  | tick | govern =>
    cases hs
    exact hsame
  | register | heartbeat | reap =>
    split at hs
    · cases hs
    · cases hs
      exact hsame
  | releaseSession session =>
    cases hs
    exact (s.daemon.entry_releaseSurfaceResourceSession session).step s.attempts
  | releaseOwner pass =>
    split at hs
    · next owner rest hpass =>
      cases hs
      exact claims_releaseOwner (hkeeps owner rest hpass) _
    · cases hs
  | start request now =>
    split at hs
    · cases hs
    · split at hs
      · cases hs
        exact hsame
      · cases hs
        have hattempts := filterMap_begun s.operations request
        show ClaimTable.Step _ s.claims ⟨(((s.operations ++ [_]).filterMap
          (fun op : SurfaceOperation => op.stage.claim) : List SurfaceClaim) :
            Multiset SurfaceClaim), _, _⟩
        rw [hattempts]
        exact hsame
  | advance operation surroundings =>
    split at hs
    · cases hs
    · next hop =>
      cases hs
      exact claims_finish hop rfl .same
    · next hop =>
      cases hs
      exact claims_set hop (s.daemon.advance_claims codec surroundings _)
  | abort operation written =>
    split at hs
    · cases hs
    · next owner stage hop =>
      obtain ⟨d, habort, rfl⟩ := Option.map_eq_some_iff.mp hs
      have hclaim := hkeeps _ hop
      refine claims_finish hop hclaim ?_
      cases stage with
      | begun request =>
        cases habort
        exact .same
      | removed event =>
        cases habort
        rw [SurfaceDaemon.entry_recordEvent]
        exact .same
      | claimed | leased | failed | recorded => cases hclaim
      | done => cases habort

end

/-! ## Runs -/

/-- **One live surface per label.**  In a run that gives up no attempt while it has
a claim, and releases no owner while it has an attempt in progress, every state
has at most one live or activating claim of a surface, and no activating claim of
an attempt that has ended. -/
theorem one_surface_a_label {F : Type} [Binary32 F] {codec : SurfaceEventCodec}
    {budget : ResourceBudget F} {file : Bytes} {clock : Instant} {tr : List (SurfaceAct F)}
    {s : SurfaceSystem F}
    (hrun : Run (SurfaceSystemStep codec) (.new (.start codec budget file) clock) tr s)
    (hkeeps : Along (SurfaceSystemStep codec) KeepsClaims (.new (.start codec budget file) clock)
      tr) : OneSurfaceALabel s := by
  have hexclusive : s.claims.Exclusive surface := by
    refine hrun.invariant_along (I := fun s => s.claims.Exclusive surface) ?_ hkeeps
      (ClaimTable.exclusive_empty _)
    intro s a s' h hkeeps hs
    exact h.step (claims_step hs hkeeps)
  exact oneSurfaceALabel_of_exclusive hexclusive

/-- An owner registers, reserves a surface and activates it. -/
def activation : List (SurfaceAct ℚ) :=
  [.register 5 7 8 false 0, .start (.reserve ⟨3, "preview", ⟨5, 7, 8⟩⟩) 0, .advance 0 ⟨true, none⟩,
    .advance 0 ⟨true, none⟩,
    .start (.activate ⟨3, "preview", "preview_window", "preview", 1, .visible, ⟨5, 7, 8⟩⟩) 0,
    .advance 0 ⟨true, none⟩, .advance 0 ⟨true, none⟩]

/-- The owners of the activating and the live claims, and how many attempts are in
progress. -/
def SurfaceSystem.claimOwners (s : SurfaceSystem ℚ) : Finset Uuid × Finset Uuid × Nat :=
  (s.daemon.entry.activating.image (·.owner), s.daemon.entry.liveClaims.image (·.owner),
    s.attempts.length)

theorem one_surface_a_label_activation :
    ∃ s, Run (SurfaceSystemStep surfaceNumeralCodec) idleSystem
      (activation ++ [.advance 0 ⟨true, none⟩, .advance 0 ⟨true, none⟩]) s ∧
        s.claimOwners = (∅, {5}, 0) ∧ OneSurfaceALabel s := by
  have hend : (idleSystem.acts surfaceNumeralCodec
      (activation ++ [.advance 0 ⟨true, none⟩, .advance 0 ⟨true, none⟩])).map
        SurfaceSystem.claimOwners = some (∅, {5}, 0) := by decide +kernel
  obtain ⟨s, hacts, howners⟩ := Option.map_eq_some_iff.mp hend
  refine ⟨s, run_of_acts hacts, howners, one_surface_a_label (run_of_acts hacts) ?_⟩
  intro earlier a later t htr _
  have hmem : a ∈ activation ++ [.advance 0 ⟨true, none⟩, .advance 0 ⟨true, none⟩] := by
    rw [htr]
    simp
  simp only [activation, cons_append, nil_append, mem_cons, not_mem_nil,
    or_false] at hmem
  rcases hmem with rfl | rfl | rfl | rfl | rfl | rfl | rfl | rfl | rfl <;> trivial

/-- An owner whose lease a pass has taken registers again and begins an activation;
the pass releases the owner, another owner activates the same surface, and then
the first goes on. -/
def overtakenActivation : List (SurfaceAct ℚ) :=
  .register 5 7 8 false 0 :: .start (.reserve ⟨3, "preview", ⟨5, 7, 8⟩⟩) 0 :: advances 2 0 ++
    .tick 20000000000 :: .reap 20000000000 :: .register 5 7 9 false 20000000000 ::
      .start (.activate ⟨3, "preview", "preview_window", "preview", 1, .visible, ⟨5, 7, 9⟩⟩)
        20000000000 :: advances 2 0 ++
    .releaseOwner 0 :: .register 6 7 10 false 20000000000 ::
      .start (.reserve ⟨3, "other", ⟨6, 7, 10⟩⟩) 20000000000 :: advances 2 1 ++
    .start (.activate ⟨3, "other", "preview_window", "preview", 1, .visible, ⟨6, 7, 10⟩⟩)
      20000000000 :: advances 5 1 ++ advances 3 0

/-- **A claim is left behind, and a surface is live twice.**  The first run gives the
activation up while its record is written; the second has two owners activate one
surface. -/
theorem abandoned_and_overtaken :
    (∃ s, Run (SurfaceSystemStep surfaceNumeralCodec) idleSystem (activation ++ [.abort 0 0]) s ∧
      s.claimOwners = ({5}, ∅, 0) ∧ ¬ OneSurfaceALabel s) ∧
    ∃ s, Run (SurfaceSystemStep surfaceNumeralCodec) idleSystem overtakenActivation s ∧
      s.claimOwners = (∅, {5, 6}, 0) ∧ ¬ OneSurfaceALabel s := by
  constructor
  · have hend : (idleSystem.acts surfaceNumeralCodec (activation ++ [.abort 0 0])).map
        SurfaceSystem.claimOwners = some ({5}, ∅, 0) := by decide +kernel
    obtain ⟨s, hacts, howners⟩ := Option.map_eq_some_iff.mp hend
    refine ⟨s, run_of_acts hacts, howners, fun hone => ?_⟩
    simp only [SurfaceSystem.claimOwners, Prod.mk.injEq] at howners
    obtain ⟨hheld, -, hnone⟩ := howners
    obtain ⟨c, hc, -⟩ := Finset.mem_image.mp (hheld ▸ Finset.mem_singleton_self (5 : Uuid))
    have hattempt := hone.in_progress c hc
    rw [length_eq_zero_iff.mp hnone] at hattempt
    cases hattempt
  · have hend : (idleSystem.acts surfaceNumeralCodec overtakenActivation).map (fun s =>
        (s.claimOwners, s.daemon.entry.liveClaims.image (·.surface))) =
          some ((∅, {5, 6}, 0), {(3, "preview_window", "preview")}) := by decide +kernel
    obtain ⟨s, hacts, heq⟩ := Option.map_eq_some_iff.mp hend
    obtain ⟨howners, hsurface⟩ := Prod.mk.inj heq
    refine ⟨s, run_of_acts hacts, howners, fun hone => ?_⟩
    simp only [SurfaceSystem.claimOwners, Prod.mk.injEq] at howners
    obtain ⟨-, hlive, -⟩ := howners
    have hclaim : ∀ owner ∈ ({5, 6} : Finset Uuid), ∃ c ∈ s.daemon.entry.liveClaims,
        c.owner = owner ∧ c.surface = (3, "preview_window", "preview") := by
      intro owner howner
      obtain ⟨c, hc, rfl⟩ := Finset.mem_image.mp (hlive ▸ howner)
      have himage := Finset.mem_image_of_mem surface hc
      rw [hsurface] at himage
      exact ⟨c, hc, rfl, Finset.mem_singleton.mp himage⟩
    obtain ⟨c, hc, hfive, hsame⟩ := hclaim 5 (by decide)
    obtain ⟨c', hc', hsix, hsame'⟩ := hclaim 6 (by decide)
    have heq := hone.one c (Finset.mem_union_right _ hc) c' (Finset.mem_union_right _ hc')
      (hsame.trans hsame'.symm)
    rw [heq, hsix] at hfive
    exact absurd hfive (by decide)

end Localview
