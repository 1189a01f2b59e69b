import Localview.ResourceGovernor
import Localview.StateRun

/-! # Reservation handles

The callers of a resource governor: each successful `reserve` hands out one
reservation, which its holder releases, drops, or turns into a live lease.  A
handle names its entry by the key alone, and `release_session` frees pending
entries under handles that are still held.

Beside the governor, `Holders` keeps the handles that are held, each under the
number of the `reserve` call that created it, and for each key which call
created the entry last stored there.  `ActsOnOwn` says of a step with a handle
that it changes entries of the handle's own call only.
-/
namespace Localview
open StateRun Function RuntimeGovernorState Option

/-- What a successful reserve leaves its caller. -/
inductive ResourceHandle
  | reservation (r : ResourceReservation)
  | lease (l : LiveResourceLease)

def ResourceHandle.key : ResourceHandle → ReservationKey
  | .reservation r => r.key
  | .lease l => l.key

/-- The governor, and who holds its handles. -/
structure Holders (F : Type) where
  governor : RuntimeGovernorState F
  /-- The handles held, by the number of their `reserve` call. -/
  held : Nat → Option ResourceHandle
  /-- The number the next `reserve` call has. -/
  nextCall : Nat
  /-- The `reserve` call that created the last entry under a key. -/
  creator : ReservationKey → Option Nat

/-- A call of the governor, or the drop of a handle. -/
inductive GovernorCall (F : Type)
  | reserve (sessionId requestId : String) (workKind : ResourceWorkKind)
  | releaseSession (sessionId : String)
  | activateLive (handle : Nat) (kind : LiveResourceKind)
  | activateSurface (handle : Nat) (identity : LiveSurfaceIdentity)
      (visibility : SurfaceVisibility)
  /-- `release` of a handle, or its `Drop`. -/
  | release (handle : Nat)
  | setSurfaceVisibility (handle : Nat) (identity : LiveSurfaceIdentity)
      (visibility : SurfaceVisibility)
  | updateSample (sample : RuntimeResourceSample F)
  | updateProcessMetrics (memoryMb : Nat) (cpuPercent : F)

/-- The handle a call is made with. -/
def GovernorCall.handle {F : Type} : GovernorCall F → Option Nat
  | .activateLive handle _ | .activateSurface handle _ _ | .release handle
  | .setSurfaceVisibility handle _ _ => some handle
  | .reserve _ _ _ | .releaseSession _ | .updateSample _ | .updateProcessMetrics _ _ => none

/-- `release` of a handle of either kind, or its `Drop`. -/
def ResourceHandle.release {F : Type} [Binary32 F] (s : RuntimeGovernorState F) :
    ResourceHandle → RuntimeGovernorState F
  | .reservation r => r.release s
  | .lease l => l.release s

namespace Holders
variable {F : Type} [Binary32 F] (h : Holders F)

def new (budget : ResourceBudget F) : Holders F :=
  { governor := .new budget, held := fun _ => none, nextCall := 0, creator := fun _ => none }

/-- The governor, and what is held under one number, replaced. -/
def settle (handle : Nat) (held : Option ResourceHandle) (governor : RuntimeGovernorState F) :
    Holders F :=
  { h with governor, held := update h.held handle held }

/-- An activation: a lease is held in place of the reservation, or nothing. -/
def activated (handle : Nat) :
    Except ResourceActivationError LiveResourceLease × RuntimeGovernorState F → Holders F
  | (.ok lease, governor) => h.settle handle (some (.lease lease)) governor
  | (.error _, governor) => h.settle handle none governor

/-- A reservation: one more handle, and the entry is its own. -/
def reserved : Except ResourceAdmissionDenial ResourceReservation × RuntimeGovernorState F →
    Holders F
  | (.ok reservation, governor) =>
      { governor, held := update h.held h.nextCall (some (.reservation reservation))
        nextCall := h.nextCall + 1
        creator := update h.creator reservation.key (some h.nextCall) }
  | (.error _, governor) => { h with governor }

/-- Make a call; there is none with a handle that is not held, or not of the kind
the call is for. -/
def call : GovernorCall F → Option (Holders F)
  | .reserve sessionId requestId workKind =>
      some (h.reserved (h.governor.reserve sessionId requestId workKind))
  | .releaseSession sessionId =>
      some { h with governor := (h.governor.releaseSession sessionId).2 }
  | .activateLive handle kind =>
      match h.held handle with
      | some (.reservation r) => some (h.activated handle (r.activateLive h.governor kind))
      | _ => none
  | .activateSurface handle identity visibility =>
      match h.held handle with
      | some (.reservation r) =>
          some (h.activated handle (r.activateSurface h.governor identity visibility))
      | _ => none
  | .release handle =>
      (h.held handle).map fun held => h.settle handle none (held.release h.governor)
  | .setSurfaceVisibility handle identity visibility =>
      match h.held handle with
      | some (.lease l) =>
          some { h with
            governor := (l.setSurfaceVisibility h.governor identity visibility).2 }
      | _ => none
  | .updateSample sample => some { h with governor := (h.governor.updateSample sample).2 }
  | .updateProcessMetrics memoryMb cpuPercent =>
      some { h with governor := (h.governor.updateProcessMetrics memoryMb cpuPercent).2 }

end Holders

/-- One call of a run. -/
def GovernorStep {F : Type} [Binary32 F] (h : Holders F) (c : GovernorCall F) (h' : Holders F) :
    Prop :=
  h.call c = some h'

/-! ## What a call can do -/

section
variable {F : Type}

/-- A call with a handle that is held uses it up, possibly with the entry under
its key; or makes that entry live, a lease of it being held afterwards; or does
nothing. -/
inductive HandleEffect (h : Holders F) (n : Nat) (x : ResourceHandle) : Holders F → Prop
  | unchanged : HandleEffect h n x h
  | spent (s : RuntimeGovernorState F) :
      s = h.governor ∨ s = h.governor.releaseKey x.key → HandleEffect h n x (h.settle n none s)
  | leased (lease : LiveResourceLease) (live : LiveResourceState) (state : ReservationState) :
      h.governor.get x.key = some state → lease.key = x.key →
      HandleEffect h n x (h.settle n (some (.lease lease))
        (h.governor.setReservations (h.governor.reservations.insert x.key (.live live))))

/-- What a call does to the handles. -/
inductive GovernorEffect [Binary32 F] (h : Holders F) : GovernorCall F → Holders F → Prop
  | denied (sessionId requestId : String) (workKind : ResourceWorkKind) :
      GovernorEffect h (.reserve sessionId requestId workKind) h
  | reserved (sessionId requestId : String) (workKind : ResourceWorkKind) :
      h.governor.get (sessionId, requestId) = none →
      (h.governor.reserve sessionId requestId workKind).1.isOk →
      GovernorEffect h (.reserve sessionId requestId workKind)
        (h.reserved (.ok ⟨(sessionId, requestId)⟩, h.governor.setReservations
          (h.governor.reservations.insert (sessionId, requestId) (.pending workKind))))
  | sessionReleased (sessionId : String) :
      GovernorEffect h (.releaseSession sessionId)
        { h with governor := (h.governor.releaseSession sessionId).2 }
  | sampled (c : GovernorCall F) (s : RuntimeGovernorState F) : c.handle = none →
      (∀ key, s.get key = h.governor.get key) → GovernorEffect h c { h with governor := s }
  | handled (c : GovernorCall F) (n : Nat) (x : ResourceHandle) (h' : Holders F) :
      c.handle = some n → h.held n = some x → HandleEffect h n x h' → GovernorEffect h c h'

theorem HandleEffect.of_activation {h : Holders F} {n : Nat} {r : ResourceReservation}
    {result : Except ResourceActivationError LiveResourceLease × RuntimeGovernorState F}
    (hresult : h.governor.Activation r result) :
    HandleEffect h n (.reservation r) (h.activated n result) := by
  cases hresult with
  | refused error => exact .spent _ (.inr rfl)
  | activated workKind live lease hget hkey => exact .leased lease live _ hget hkey

theorem HandleEffect.of_visibility {h : Holders F} {n : Nat} {l : LiveResourceLease}
    (hheld : h.held n = some (.lease l)) (identity : LiveSurfaceIdentity)
    (visibility : SurfaceVisibility) :
    HandleEffect h n (.lease l)
      { h with governor := (l.setSurfaceVisibility h.governor identity visibility).2 } := by
  rcases h.governor.setSurfaceVisibility_cases l identity visibility with heq | ⟨hsome, live, heq⟩
  · rw [heq]
    exact .unchanged
  · rw [heq]
    obtain ⟨state, hget⟩ := isSome_iff_exists.mp hsome
    have hleased := HandleEffect.leased (h := h) (n := n) (x := .lease l) l live state hget rfl
    rwa [Holders.settle, ← hheld, update_eq_self] at hleased

variable [Binary32 F]

theorem ResourceHandle.release_cases (s : RuntimeGovernorState F) (x : ResourceHandle) :
    x.release s = s ∨ x.release s = s.releaseKey x.key := by
  cases x with
  | reservation r => exact .inr rfl
  | lease l => exact s.releaseLease_cases l

/-- Every step is one of these effects. -/
theorem governor_effect {h h' : Holders F} {c : GovernorCall F} (hs : GovernorStep h c h') :
    GovernorEffect h c h' := by
  unfold GovernorStep at hs
  cases c with
  | reserve sessionId requestId workKind =>
    cases hs
    have hspec := h.governor.reserve_spec sessionId requestId workKind
    have heffect := @GovernorEffect.reserved F _ h sessionId requestId workKind
    generalize h.governor.reserve sessionId requestId workKind = result at hspec heffect
    cases hspec with
    | denied denial => exact .denied sessionId requestId workKind
    | reserved hnone => exact heffect hnone rfl
  | releaseSession sessionId =>
    cases hs
    exact .sessionReleased sessionId
  | activateLive n kind =>
    simp only [Holders.call] at hs
    split at hs
    · next r hheld =>
      cases hs
      exact .handled _ n _ _ rfl hheld (.of_activation (h.governor.activateLive_spec r kind))
    · cases hs
  | activateSurface n identity visibility =>
    simp only [Holders.call] at hs
    split at hs
    · next r hheld =>
      cases hs
      exact .handled _ n _ _ rfl hheld
        (.of_activation (h.governor.activateSurface_spec r identity visibility))
    · cases hs
  | release n =>
    obtain ⟨x, hheld, rfl⟩ := map_eq_some_iff.mp hs
    exact .handled _ n x _ rfl hheld (.spent _ (x.release_cases _))
  | setSurfaceVisibility n identity visibility =>
    simp only [Holders.call] at hs
    split at hs
    · next l hheld =>
      cases hs
      exact .handled _ n _ _ rfl hheld (.of_visibility hheld identity visibility)
    · cases hs
  | updateSample sample =>
    cases hs
    exact .sampled _ _ rfl fun key => h.governor.get_updateSample sample
  | updateProcessMetrics memoryMb cpuPercent =>
    cases hs
    exact .sampled _ _ rfl fun key => h.governor.get_updateProcessMetrics memoryMb cpuPercent

end

/-! ## Exclusive handles -/

section
variable {F : Type}

/-- Every entry the step changed was created by the `reserve` call of the handle. -/
def ActsOnOwn (handle : Nat) (h h' : Holders F) : Prop :=
  ∀ key, h'.governor.get key ≠ h.governor.get key → h.creator key = some handle

/-- A call with a handle changes entries of the handle's own call only. -/
def Exclusive (h : Holders F) (c : GovernorCall F) (h' : Holders F) : Prop :=
  ∀ handle, c.handle = some handle → ActsOnOwn handle h h'

/-- A reserve that succeeds finds no reservation of its key held whose entry is gone. -/
def ReservesFreshKey [Binary32 F] (h : Holders F) : GovernorCall F → Prop
  | .reserve sessionId requestId workKind =>
      (h.governor.reserve sessionId requestId workKind).1.isOk →
        ∀ handle r, h.held handle = some (.reservation r) → r.key = (sessionId, requestId) →
          (h.governor.get r.key).isSome
  | _ => True

/-- Handles are numbered by their `reserve` calls. -/
def Numbered (h : Holders F) : Prop :=
  ∀ handle held, h.held handle = some held → handle < h.nextCall

/-- **Whose entry is under the key of a handle.**  No two handles share a key; a
reservation finds its own pending entry or none, a lease its own live entry. -/
structure Owned (h : Holders F) : Prop where
  numbered : Numbered h
  distinct : ∀ n m x y, h.held n = some x → h.held m = some y → x.key = y.key → n = m
  reservation : ∀ n r state, h.held n = some (.reservation r) → h.governor.get r.key = some state →
    h.creator r.key = some n ∧ state.isLive = false
  lease : ∀ n l, h.held n = some (.lease l) →
    h.creator l.key = some n ∧ ∃ live, h.governor.get l.key = some (.live live)

/-- A handle finds its own entry under its key, or none. -/
theorem Owned.creator {h : Holders F} (inv : Owned h) {n : Nat} {x : ResourceHandle}
    {state : ReservationState} (hheld : h.held n = some x)
    (hget : h.governor.get x.key = some state) : h.creator x.key = some n := by
  cases x with
  | reservation r => exact (inv.reservation n r state hheld hget).1
  | lease l => exact (inv.lease n l hheld).1

theorem owned_new [Binary32 F] (budget : ResourceBudget F) : Owned (Holders.new budget) where
  numbered := by intro n x h; cases h
  distinct := by intro n m x y h; cases h
  reservation := by intro n r state h; cases h
  lease := by intro n l h; cases h

/-! ### One step -/

section
variable {h h' : Holders F}

variable {s : RuntimeGovernorState F}

/-- What is held under the other numbers is as before. -/
theorem held_settle {n m : Nat} {x : Option ResourceHandle} {y : ResourceHandle} (hne : m ≠ n) :
    (h.settle n x s).held m = some y ↔ h.held m = some y := by
  simp [Holders.settle, hne]

/-- A handle is used up, and at most the entry under its key is gone. -/
theorem Owned.spent (inv : Owned h) {n : Nat} {x : ResourceHandle} (hheld : h.held n = some x)
    (hs : s = h.governor ∨ s = h.governor.releaseKey x.key) :
    Owned (h.settle n none s) := by
  have hother : ∀ m y, (h.settle n none s).held m = some y →
      h.held m = some y ∧ s.get y.key = h.governor.get y.key := by
    intro m y hy
    have hne : m ≠ n := by
      rintro rfl
      simp [Holders.settle] at hy
    have hy' := (held_settle hne).mp hy
    refine ⟨hy', ?_⟩
    rcases hs with rfl | rfl
    · rfl
    · rw [get_releaseKey, if_neg]
      exact fun hkey => hne (inv.distinct m n y x hy' hheld hkey)
  refine ⟨?_, ?_, ?_, ?_⟩
  · intro m y hy
    exact inv.numbered m y (hother m y hy).1
  · intro m k y z hy hz
    exact inv.distinct m k y z (hother m y hy).1 (hother k z hz).1
  · intro m r state hr hget
    obtain ⟨hr', heq⟩ := hother m _ hr
    exact inv.reservation m r state hr' (heq ▸ hget)
  · intro m l hl
    obtain ⟨hl', heq⟩ := hother m _ hl
    have hlease := inv.lease m l hl'
    exact ⟨hlease.1, heq ▸ hlease.2⟩

/-- The entry of a handle becomes live, and a lease of it is held. -/
theorem Owned.leased (inv : Owned h) {n : Nat} {x : ResourceHandle} {lease : LiveResourceLease}
    {live : LiveResourceState} {state : ReservationState} (hheld : h.held n = some x)
    (hget : h.governor.get x.key = some state) (hkey : lease.key = x.key) :
    Owned (h.settle n (some (.lease lease))
      (h.governor.setReservations (h.governor.reservations.insert x.key (.live live)))) := by
  have hcreator := inv.creator hheld hget
  set h' := h.settle n (some (.lease lease))
    (h.governor.setReservations (h.governor.reservations.insert x.key (.live live))) with hh'
  have hself : h'.held n = some (.lease lease) := by simp [hh', Holders.settle]
  -- another handle has another key, and its entry is as before
  have hother : ∀ m y, m ≠ n → h'.held m = some y → h.held m = some y ∧ y.key ≠ x.key ∧
      h'.governor.get y.key = h.governor.get y.key := by
    intro m y hne hy
    have hy' := (held_settle hne).mp hy
    have hkey' : y.key ≠ x.key := fun hk => hne (inv.distinct m n y x hy' hheld hk)
    refine ⟨hy', hkey', ?_⟩
    rw [hh', Holders.settle, get_insert, if_neg hkey']
  refine ⟨?_, ?_, ?_, ?_⟩
  · intro m y hy
    by_cases hm : m = n
    · exact hm ▸ inv.numbered n x hheld
    · exact inv.numbered m y (hother m y hm hy).1
  · intro m k y z hy hz hyz
    by_cases hm : m = n <;> by_cases hk : k = n
    · rw [hm, hk]
    · subst hm
      obtain rfl : ResourceHandle.lease lease = y := some.inj (hself ▸ hy)
      exact absurd (hyz.symm.trans hkey) (hother k z hk hz).2.1
    · subst hk
      obtain rfl : ResourceHandle.lease lease = z := some.inj (hself ▸ hz)
      exact absurd (hyz.trans hkey) (hother m y hm hy).2.1
    · exact inv.distinct m k y z (hother m y hm hy).1 (hother k z hk hz).1 hyz
  · intro m r state' hr hget'
    by_cases hm : m = n
    · subst hm
      cases hself.symm.trans hr
    · obtain ⟨hr', -, heq⟩ := hother m _ hm hr
      exact inv.reservation m r state' hr' (heq ▸ hget')
  · intro m l hl
    by_cases hm : m = n
    · subst hm
      obtain rfl : lease = l := by simpa [hself] using hl
      refine ⟨hkey ▸ hcreator, live, ?_⟩
      rw [hh', Holders.settle, get_insert, if_pos hkey]
    · obtain ⟨hl', -, heq⟩ := hother m _ hm hl
      have hlease := inv.lease m l hl'
      exact ⟨hlease.1, heq ▸ hlease.2⟩

/-- A governor that keeps what handles find keeps the invariant. -/
theorem Owned.with_governor (inv : Owned h)
    (hlive : ∀ key live, h.governor.get key = some (.live live) → s.get key = some (.live live))
    (hget : ∀ key state, s.get key = some state → h.governor.get key = some state) :
    Owned { h with governor := s } where
  numbered := inv.numbered
  distinct := inv.distinct
  reservation n r state hr hstate := inv.reservation n r state hr (hget _ _ hstate)
  lease n l hl := by
    obtain ⟨hcreator, live, hentry⟩ := inv.lease n l hl
    exact ⟨hcreator, live, hlive _ _ hentry⟩

theorem Owned.with_same_table (inv : Owned h) (hsame : ∀ key, s.get key = h.governor.get key) :
    Owned { h with governor := s } :=
  inv.with_governor (fun key _ hentry => (hsame key).trans hentry)
    (fun key _ hentry => (hsame key).symm.trans hentry)

theorem Owned.reserved (inv : Owned h) {sessionId requestId : String} {workKind : ResourceWorkKind}
    (hnone : h.governor.get (sessionId, requestId) = none)
    (hfresh : ∀ n r, h.held n = some (.reservation r) → r.key = (sessionId, requestId) →
      (h.governor.get r.key).isSome) :
    Owned (h.reserved (.ok ⟨(sessionId, requestId)⟩, h.governor.setReservations
      (h.governor.reservations.insert (sessionId, requestId) (.pending workKind)))) := by
  set key : ReservationKey := (sessionId, requestId) with hkey
  -- no handle of the key is held: its entry would be there
  have hunheld : ∀ n x, h.held n = some x → x.key ≠ key := by
    intro n x hx hxkey
    cases x with
    | reservation r =>
      have hsome := hfresh n r hx hxkey
      rw [show r.key = key from hxkey, hnone] at hsome
      cases hsome
    | lease l =>
      obtain ⟨-, live, hget⟩ := inv.lease n l hx
      rw [show l.key = key from hxkey, hnone] at hget
      cases hget
  have hold : ∀ n x, n ≠ h.nextCall →
      update h.held h.nextCall (some (.reservation ⟨key⟩)) n = some x →
      h.held n = some x ∧ x.key ≠ key := by
    intro n x hne hx
    rw [update_of_ne hne] at hx
    exact ⟨hx, hunheld n x hx⟩
  have hnew : ∀ x, update h.held h.nextCall (some (.reservation ⟨key⟩)) h.nextCall = some x →
      x = .reservation ⟨key⟩ := by
    intro x hx
    rw [update_self] at hx
    exact (some.inj hx).symm
  refine ⟨?_, ?_, ?_, ?_⟩
  · intro n x hx
    by_cases hn : n = h.nextCall
    · exact hn ▸ Nat.lt_succ_self _
    · exact Nat.lt_succ_of_lt (inv.numbered n x (hold n x hn hx).1)
  · intro n m x y hx hy hxy
    by_cases hn : n = h.nextCall <;> by_cases hm : m = h.nextCall
    · rw [hn, hm]
    · subst hn
      obtain rfl := hnew x hx
      exact absurd hxy.symm (hold m y hm hy).2
    · subst hm
      obtain rfl := hnew y hy
      exact absurd hxy (hold n x hn hx).2
    · exact inv.distinct n m x y (hold n x hn hx).1 (hold m y hm hy).1 hxy
  · intro n r state hr hget
    by_cases hn : n = h.nextCall
    · subst hn
      obtain rfl : r = ⟨key⟩ := by simpa using hnew _ hr
      simp only [Holders.reserved] at hget ⊢
      rw [get_insert, if_pos rfl] at hget
      cases hget
      exact ⟨update_self .., rfl⟩
    · obtain ⟨hr', hne⟩ := hold n _ hn hr
      change r.key ≠ key at hne
      simp only [Holders.reserved] at hget ⊢
      rw [get_insert, if_neg hne] at hget
      rw [update_of_ne hne]
      exact inv.reservation n r state hr' hget
  · intro n l hl
    by_cases hn : n = h.nextCall
    · subst hn
      cases hnew _ hl
    · obtain ⟨hl', hne⟩ := hold n _ hn hl
      change l.key ≠ key at hne
      simp only [Holders.reserved]
      rw [get_insert, if_neg hne, update_of_ne hne]
      exact inv.lease n l hl'

theorem numbered_settle (hnum : Numbered h) {n : Nat} {x : ResourceHandle}
    (hheld : h.held n = some x) (y : Option ResourceHandle) (s : RuntimeGovernorState F) :
    Numbered (h.settle n y s) := by
  intro m z hz
  by_cases hm : m = n
  · exact hm ▸ hnum n x hheld
  · exact hnum m z ((held_settle hm).mp hz)

variable [Binary32 F]

/-- What one call preserves. -/
theorem owned_step (inv : Owned h) {c : GovernorCall F} (hs : GovernorStep h c h')
    (hfresh : ReservesFreshKey h c) : Owned h' := by
  cases governor_effect hs with
  | denied => exact inv
  | reserved sessionId requestId workKind hnone hok => exact inv.reserved hnone (hfresh hok)
  | sessionReleased sessionId =>
    refine inv.with_governor ?_ ?_
    · intro key live hget
      rw [get_releaseSession, hget]
      rfl
    · intro key state hget
      rw [get_releaseSession, filter_eq_some_iff] at hget
      exact hget.1
  | sampled _ s _ hsame => exact inv.with_same_table hsame
  | handled _ n x _ _ hheld heffect =>
    cases heffect with
    | unchanged => exact inv
    | spent s hentry => exact inv.spent hheld hentry
    | leased lease live state hget hkey => exact inv.leased hheld hget hkey

/-- **A call with a handle acts on the handle's own entry.** -/
theorem exclusive_of_owned (inv : Owned h) {c : GovernorCall F} (hs : GovernorStep h c h') :
    Exclusive h c h' := by
  intro n hn key hne
  have hown : ∀ {x : ResourceHandle}, h.held n = some x → key = x.key →
      (h.governor.get key).isSome → h.creator key = some n := by
    intro x hheld hkey hsome
    obtain ⟨state, hget⟩ := isSome_iff_exists.mp hsome
    rw [hkey] at hget ⊢
    exact inv.creator hheld hget
  cases governor_effect hs with
  | denied => cases hn
  | reserved => cases hn
  | sessionReleased => cases hn
  | sampled _ s _ hsame => exact absurd (hsame key) hne
  | handled _ m x _ hm hheld heffect =>
    obtain rfl : m = n := some.inj (hm.symm.trans hn)
    cases heffect with
    | unchanged => exact absurd rfl hne
    | spent s hentry =>
      simp only [Holders.settle] at hne
      rcases hentry with rfl | rfl
      · exact absurd rfl hne
      · rw [get_releaseKey] at hne
        by_cases hkey : key = x.key
        · rw [if_pos hkey] at hne
          exact hown hheld hkey (isSome_iff_ne_none.mpr (Ne.symm hne))
        · rw [if_neg hkey] at hne
          exact absurd rfl hne
    | leased lease live state hget _ =>
      simp only [Holders.settle] at hne
      rw [get_insert] at hne
      by_cases hkey : key = x.key
      · exact hown hheld hkey (by rw [hkey, hget]; rfl)
      · rw [if_neg hkey] at hne
        exact absurd rfl hne

/-- Handles are numbered by their calls, whatever is called. -/
theorem numbered_step (hnum : Numbered h) {c : GovernorCall F} (hs : GovernorStep h c h') :
    Numbered h' := by
  cases governor_effect hs with
  | denied => exact hnum
  | reserved sessionId requestId workKind hnone =>
    intro m y hy
    by_cases hm : m = h.nextCall
    · exact hm ▸ Nat.lt_succ_self _
    · simp only [Holders.reserved, update_of_ne hm] at hy
      exact Nat.lt_succ_of_lt (hnum m y hy)
  | sessionReleased => exact hnum
  | sampled => exact hnum
  | handled _ n x _ _ hheld heffect =>
    cases heffect with
    | unchanged => exact hnum
    | spent s _ => exact numbered_settle hnum hheld none s
    | leased lease => exact numbered_settle hnum hheld _ _

/-- **A key reserved under a stale reservation** falls to the stale handle: its
drop removes the new entry. -/
theorem stale_drop_not_exclusive (hnum : Numbered h) {sessionId requestId : String}
    {workKind : ResourceWorkKind}
    (hs : GovernorStep h (.reserve sessionId requestId workKind) h')
    (hstale : ¬ ReservesFreshKey h (.reserve sessionId requestId workKind))
    (hreserved : (h'.governor.get (sessionId, requestId)).isSome) :
    ∃ n h'', GovernorStep h' (.release n) h'' ∧ ¬ Exclusive h' (.release n) h'' := by
  simp only [ReservesFreshKey, not_forall] at hstale
  obtain ⟨-, n, r, hheld, hkey, hnone⟩ := hstale
  rw [hkey] at hnone
  have hlt : n < h.nextCall := hnum n _ hheld
  cases governor_effect hs with
  | denied => exact absurd hreserved hnone
  | sampled _ s _ hsame =>
    rw [hsame] at hreserved
    exact absurd hreserved hnone
  | handled _ m x _ hm => cases hm
  | reserved =>
    set h' := h.reserved (.ok ⟨(sessionId, requestId)⟩, h.governor.setReservations
      (h.governor.reservations.insert (sessionId, requestId) (.pending workKind))) with hh'
    have hheld' : h'.held n = some (.reservation r) := by
      simp only [hh', Holders.reserved, update_of_ne hlt.ne, hheld]
    refine ⟨n, h'.settle n none (r.release h'.governor), ?_, fun hexcl => ?_⟩
    · unfold GovernorStep
      simp only [Holders.call, hheld', map_some]
      rfl
    · have hgone : (r.release h'.governor).get (sessionId, requestId) = none := by
        rw [ResourceReservation.release, get_releaseKey, if_pos hkey.symm]
      have hcreator := hexcl n rfl (sessionId, requestId) fun heq => by
        rw [← heq] at hreserved
        simp only [Holders.settle, hgone] at hreserved
        cases hreserved
      simp only [hh', Holders.reserved, update_self] at hcreator
      exact absurd (some.inj hcreator) hlt.ne'

end
end

/-! ## Runs -/

section
variable {F : Type} [Binary32 F]

/-- Every call of the run with a handle acts on the handle's own entry. -/
def ExclusiveHandles (budget : ResourceBudget F) (tr : List (GovernorCall F)) : Prop :=
  ∀ tr₁ c tr₂ h h', tr = tr₁ ++ c :: tr₂ → Run GovernorStep (.new budget) tr₁ h →
    GovernorStep h c h' → Exclusive h c h'

/-- No reserve of the run succeeds while a reservation of its key is held whose entry
`release_session` has freed. -/
def ReservesFreshKeys (budget : ResourceBudget F) (tr : List (GovernorCall F)) : Prop :=
  ∀ tr₁ c tr₂ h, tr = tr₁ ++ c :: tr₂ → Run GovernorStep (.new budget) tr₁ h →
    ReservesFreshKey h c

theorem owned_of_run {budget : ResourceBudget F} {tr : List (GovernorCall F)} {h : Holders F}
    (hrun : Run GovernorStep (.new budget) tr h) (hfresh : ReservesFreshKeys budget tr) :
    Owned h := by
  refine hrun.forward_induction (P := fun tr h => ReservesFreshKeys budget tr → Owned h) ?_ ?_
    hfresh
  · exact fun _ => owned_new budget
  · intro tr h c h' hrun ih hs hfresh
    refine owned_step (ih ?_) hs (hfresh tr c [] h rfl hrun)
    intro tr₁ d tr₂ h₁ htr hrun₁
    exact hfresh tr₁ d (tr₂ ++ [c]) h₁ (by rw [htr]; simp) hrun₁

/-- **Reservations are exclusive handles while keys are reserved fresh.**  In a
run that reserves no key under a reservation whose entry is gone, every call with
a handle acts on the handle's own entry; and after a call that does reserve such
a key, dropping the stale handle removes the new entry. -/
theorem exclusive_while_fresh (budget : ResourceBudget F) :
    (∀ tr, ReservesFreshKeys budget tr → ExclusiveHandles budget tr) ∧
    (∀ tr h h' sessionId requestId workKind, Run GovernorStep (.new budget) tr h →
      GovernorStep h (.reserve sessionId requestId workKind) h' →
      ¬ ReservesFreshKey h (.reserve sessionId requestId workKind) →
      (h'.governor.get (sessionId, requestId)).isSome →
      ∃ handle h'', GovernorStep h' (.release handle) h'' ∧
        ¬ Exclusive h' (.release handle) h'') := by
  constructor
  · intro tr hfresh tr₁ c tr₂ h h' htr hrun hs
    refine exclusive_of_owned (owned_of_run hrun ?_) hs
    intro tr₃ d tr₄ h₁ htr₁ hrun₁
    exact hfresh tr₃ d (tr₄ ++ c :: tr₂) h₁ (by rw [htr, htr₁]; simp) hrun₁
  · intro tr h h' sessionId requestId workKind hrun hs hstale hreserved
    have hnum : Numbered h :=
      hrun.invariant (fun _ _ _ hnum hs => numbered_step hnum hs) (owned_new budget).numbered
    exact stale_drop_not_exclusive hnum hs hstale hreserved

end

/-- A surface is reserved and activated, its session released, the lease released. -/
def surfaceRun : List (GovernorCall ℚ) :=
  [.reserve "session" "surface" .nativeSurface,
    .activateSurface 0 ⟨"preview_window", "preview", 1⟩ .visible, .releaseSession "session",
    .release 0]

theorem exclusive_while_fresh_surfaceRun : ExclusiveHandles .default surfaceRun := by
  refine (exclusive_while_fresh (.default : ResourceBudget ℚ)).1 surfaceRun ?_
  intro tr₁ c tr₂ h htr hrun
  rcases tr₁ with _ | ⟨_, _ | ⟨_, _ | ⟨_, _ | ⟨_, tr₁⟩⟩⟩⟩ <;>
    simp only [surfaceRun, List.nil_append, List.cons_append, List.cons.injEq] at htr
  · obtain rfl := Run.nil_iff.mp hrun
    rw [← htr.1]
    intro _ handle r hheld
    cases hheld
  · rw [← htr.2.1]
    trivial
  · rw [← htr.2.2.1]
    trivial
  · rw [← htr.2.2.2.1]
    trivial
  · exact absurd htr.2.2.2.2 (by simp)

/-! ## A stale handle -/

/-- Make the calls in order. -/
def Holders.calls {F : Type} [Binary32 F] (h : Holders F) : List (GovernorCall F) → Option (Holders F)
  | [] => some h
  | c :: tr => (h.call c).bind (·.calls tr)

theorem run_of_calls {F : Type} [Binary32 F] {tr : List (GovernorCall F)} {h h' : Holders F}
    (hcalls : h.calls tr = some h') : Run GovernorStep h tr h' := by
  induction tr generalizing h with
  | nil =>
    obtain rfl := some.inj hcalls
    exact Run.nil h
  | cons c tr ih =>
    obtain ⟨h₁, hs, hrest⟩ := bind_eq_some_iff.mp hcalls
    exact Run.cons hs (ih hrest)

/-- A capture is reserved, its session released, the same key reserved again. -/
def staleRun : List (GovernorCall ℚ) :=
  [.reserve "session" "capture" .nativeVisualCapture, .releaseSession "session",
    .reserve "session" "capture" .nativeVisualCapture]

/-- What is under the key of the run, and which call created it. -/
def Holders.captureEntry (h : Holders ℚ) : Option ReservationState × Option Nat :=
  (h.governor.get ("session", "capture"), h.creator ("session", "capture"))

theorem captureEntry_staleRun :
    ((Holders.new .default).calls staleRun).map Holders.captureEntry =
      some (some (.pending .nativeVisualCapture), some 1) := by
  decide +kernel

theorem captureEntry_after_drop :
    (((Holders.new .default).calls staleRun).bind (·.call (.release 0))).map Holders.captureEntry =
      some (none, some 1) := by
  decide +kernel

/-- **A stale handle drops its successor's reservation.**  The first handle is
still held when its key is reserved again; dropping it removes the second
reservation. -/
theorem stale_handle_drops_successor :
    ¬ ExclusiveHandles .default (staleRun ++ [.release 0]) := by
  intro hexcl
  obtain ⟨h, hcalls, hentry⟩ := map_eq_some_iff.mp captureEntry_staleRun
  obtain ⟨h', hdrop, hgone⟩ := map_eq_some_iff.mp captureEntry_after_drop
  rw [hcalls, bind_some] at hdrop
  obtain ⟨hget, hcreator⟩ := Prod.ext_iff.mp hentry
  obtain ⟨hget', -⟩ := Prod.ext_iff.mp hgone
  have hne : h'.governor.get ("session", "capture") ≠ h.governor.get ("session", "capture") := by
    rw [show h.governor.get ("session", "capture") = _ from hget,
      show h'.governor.get ("session", "capture") = _ from hget']
    exact fun heq => by cases heq
  have hown := hexcl staleRun (.release 0) [] h h' rfl (run_of_calls hcalls) hdrop 0 rfl _ hne
  rw [show h.creator ("session", "capture") = _ from hcreator] at hown
  cases hown

end Localview
