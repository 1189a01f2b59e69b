import Localview.AssocMap
import Localview.Protocol
import Localview.StateRun

/-! # The registry of desktop surfaces

`surface_registry.rs` of the desktop application: a counter of incarnations and the live
surface of each session, kind and label.  A call holds the lock from its first look at the
maps to its end, so calls from several windows make one sequence.  The owner id of a
registry never changes and is a parameter.

A created surface must carry the newest incarnation of its key.  That one has ended already
where the surface was closed since, which no map remembers: such an identity can become
live again.  In a run without it, closing is final.
-/
namespace Localview.SurfaceRegistry
open StateRun List AssocMap

/-- What a desktop surface is. -/
inductive DesktopSurfaceKind
  | previewWindow
  | workspaceChild
  deriving DecidableEq

/-- Whether a surface is shown. -/
inductive DesktopSurfaceVisibility
  | visible
  | hidden

/-- The text of a session id stands for the id. -/
structure DesktopSurfaceKey where
  sessionId : SessionId
  kind : DesktopSurfaceKind
  label : String
  deriving DecidableEq

structure DesktopSurfaceIdentity where
  sessionId : SessionId
  kind : DesktopSurfaceKind
  label : String
  incarnation : Nat
  ownerInstanceId : Uuid
  deriving DecidableEq

/-- `DesktopSurfaceKey::from_identity` -/
def DesktopSurfaceIdentity.key (identity : DesktopSurfaceIdentity) : DesktopSurfaceKey :=
  ⟨identity.sessionId, identity.kind, identity.label⟩

structure DesktopSurfaceSnapshot where
  identity : DesktopSurfaceIdentity
  visibility : DesktopSurfaceVisibility

/-- Why the registry refuses. -/
inductive DesktopSurfaceRegistryError
  | alreadyLive
  | incarnationMismatch
  | notLive

/-- The live surfaces, and the last incarnations. -/
structure RegistryState where
  incarnations : AssocMap DesktopSurfaceKey Nat
  live : AssocMap DesktopSurfaceKey DesktopSurfaceSnapshot

def RegistryState.default : RegistryState := ⟨AssocMap.empty, AssocMap.empty⟩

/-- There is no identity where the incarnations of the key are exhausted: the call panics
before it writes, and the next one recovers the lock. -/
def nextIdentity (owner : Uuid) (key : DesktopSurfaceKey) (state : RegistryState) :
    Option DesktopSurfaceIdentity × RegistryState :=
  let incarnation := match state.incarnations.get key with
    | some current => if current + 1 ≤ u64Max then some (current + 1) else none
    | none => some 1
  match incarnation with
  | none => (none, state)
  | some incarnation =>
    (some ⟨key.sessionId, key.kind, key.label, incarnation, owner⟩,
      { state with incarnations := state.incarnations.insert key incarnation })

def recordCreated (owner : Uuid) (identity : DesktopSurfaceIdentity)
    (visibility : DesktopSurfaceVisibility) (state : RegistryState) :
    Except DesktopSurfaceRegistryError Unit × RegistryState :=
  if identity.ownerInstanceId ≠ owner then (.error .incarnationMismatch, state)
  else match state.live.get identity.key with
    | some current =>
      if current.identity = identity then (.error .alreadyLive, state)
      else (.error .incarnationMismatch, state)
    | none =>
      if state.incarnations.get identity.key ≠ some identity.incarnation then
        (.error .incarnationMismatch, state)
      else
        (.ok (), { state with live := state.live.insert identity.key ⟨identity, visibility⟩ })

def setVisibility (identity : DesktopSurfaceIdentity) (visibility : DesktopSurfaceVisibility)
    (state : RegistryState) : Except DesktopSurfaceRegistryError Unit × RegistryState :=
  match state.live.get identity.key with
  | none => (.error .notLive, state)
  | some current =>
    if current.identity ≠ identity then (.error .incarnationMismatch, state)
    else
      (.ok (), { state with live := state.live.insert identity.key { current with visibility } })

def recordClosed (identity : DesktopSurfaceIdentity) (state : RegistryState) :
    Except DesktopSurfaceRegistryError Unit × RegistryState :=
  match state.live.get identity.key with
  | none => (.error .notLive, state)
  | some current =>
    if current.identity ≠ identity then (.error .incarnationMismatch, state)
    else (.ok (), { state with live := state.live.erase identity.key })

/-! ## Runs -/

/-- A call and its answer. -/
inductive RegistryEvent
  | nextIdentity (key : DesktopSurfaceKey) (answer : Option DesktopSurfaceIdentity)
  | recordCreated (identity : DesktopSurfaceIdentity) (visibility : DesktopSurfaceVisibility)
      (answer : Except DesktopSurfaceRegistryError Unit)
  | setVisibility (identity : DesktopSurfaceIdentity) (visibility : DesktopSurfaceVisibility)
      (answer : Except DesktopSurfaceRegistryError Unit)
  | recordClosed (identity : DesktopSurfaceIdentity)
      (answer : Except DesktopSurfaceRegistryError Unit)

def Step (owner : Uuid) (s : RegistryState) (e : RegistryEvent) (t : RegistryState) : Prop :=
  match e with
  | .nextIdentity key answer => nextIdentity owner key s = (answer, t)
  | .recordCreated identity visibility answer =>
    recordCreated owner identity visibility s = (answer, t)
  | .setVisibility identity visibility answer => setVisibility identity visibility s = (answer, t)
  | .recordClosed identity answer => recordClosed identity s = (answer, t)

/-- The identity a call is given. -/
def RegistryEvent.given : RegistryEvent → Option DesktopSurfaceIdentity
  | .nextIdentity _ _ => none
  | .recordCreated identity _ _ | .setVisibility identity _ _ | .recordClosed identity _ =>
    some identity

def issued (tr : List RegistryEvent) : List DesktopSurfaceIdentity :=
  tr.filterMap fun
    | .nextIdentity _ answer => answer
    | _ => none

def closed (tr : List RegistryEvent) : List DesktopSurfaceIdentity :=
  tr.filterMap fun
    | .recordClosed identity (.ok _) => some identity
    | _ => none

/-- No surface is recorded created under an identity that was closed and is still the newest
of its key. -/
def NoReopening (owner : Uuid) (tr : List RegistryEvent) : Prop :=
  ∀ earlier identity visibility answer later s,
    tr = earlier ++ .recordCreated identity visibility answer :: later →
    Run (Step owner) .default earlier s →
    identity ∈ closed earlier → s.incarnations.get identity.key ≠ some identity.incarnation

/-! ## What a call does -/

section
variable {owner : Uuid} {s t : RegistryState} {e : RegistryEvent} {tr : List RegistryEvent}

theorem issued_snoc : issued (tr ++ [e]) = issued tr ++ issued [e] := filterMap_append

theorem closed_snoc : closed (tr ++ [e]) = closed tr ++ closed [e] := filterMap_append

/-- A call that changes the maps issues, creates, shows or closes. -/
theorem step_cases (h : Step owner s e t) :
    (t = s ∧ issued [e] = [] ∧ closed [e] = []) ∨
    (∃ key n, e = .nextIdentity key (some ⟨key.sessionId, key.kind, key.label, n, owner⟩) ∧
      (∀ m, s.incarnations.get key = some m → m < n) ∧
      t = { s with incarnations := s.incarnations.insert key n }) ∨
    (∃ identity visibility, e = .recordCreated identity visibility (.ok ()) ∧
      identity.ownerInstanceId = owner ∧ s.live.get identity.key = none ∧
      s.incarnations.get identity.key = some identity.incarnation ∧
      t = { s with live := s.live.insert identity.key ⟨identity, visibility⟩ }) ∨
    (∃ current visibility, e = .setVisibility current.identity visibility (.ok ()) ∧
      s.live.get current.identity.key = some current ∧
      t = { s with live := s.live.insert current.identity.key { current with visibility } }) ∨
    (∃ current, e = .recordClosed current.identity (.ok ()) ∧
      s.live.get current.identity.key = some current ∧
      t = { s with live := s.live.erase current.identity.key }) := by
  cases e with
  | nextIdentity key answer =>
    simp only [Step, nextIdentity] at h
    split at h <;> cases h
    · exact .inl ⟨rfl, rfl, rfl⟩
    next n hn =>
    refine .inr (.inl ⟨key, n, rfl, ?_, rfl⟩)
    intro m hm
    simp only [hm, Option.ite_none_right_eq_some, Option.some.injEq] at hn
    omega
  | recordCreated identity visibility answer =>
    simp only [Step, recordCreated] at h
    split at h
    · cases h
      exact .inl ⟨rfl, rfl, rfl⟩
    next howner =>
    split at h
    · split at h <;> obtain ⟨rfl, rfl⟩ := Prod.mk.inj h <;> exact .inl ⟨rfl, rfl, rfl⟩
    next hlive =>
    split at h <;> cases h
    · exact .inl ⟨rfl, rfl, rfl⟩
    next hnewest =>
    exact .inr (.inr (.inl ⟨identity, visibility, rfl, not_not.mp howner, hlive,
      not_not.mp hnewest, rfl⟩))
  | setVisibility identity visibility answer =>
    simp only [Step, setVisibility] at h
    split at h
    · cases h
      exact .inl ⟨rfl, rfl, rfl⟩
    next current hlive =>
    split_ifs at h with hself <;> cases h
    · exact .inl ⟨rfl, rfl, rfl⟩
    obtain rfl := not_not.mp hself
    exact .inr (.inr (.inr (.inl ⟨current, visibility, rfl, hlive, rfl⟩)))
  | recordClosed identity answer =>
    simp only [Step, recordClosed] at h
    split at h
    · cases h
      exact .inl ⟨rfl, rfl, rfl⟩
    next current hlive =>
    split_ifs at h with hself <;> cases h
    · exact .inl ⟨rfl, rfl, rfl⟩
    obtain rfl := not_not.mp hself
    exact .inr (.inr (.inr (.inr ⟨current, rfl, hlive, rfl⟩)))

/-- A call that is given no identity, or another one, leaves a live entry. -/
theorem live_of_other (hstep : Step owner s e t) {key : DesktopSurfaceKey}
    {a : DesktopSurfaceSnapshot} (hlive : s.live.get key = some a)
    (hother : e.given ≠ some a.identity) : t.live.get key = some a := by
  rcases step_cases hstep with ⟨rfl, -, -⟩ | ⟨_, _, rfl, -, rfl⟩ |
      ⟨identity, _, rfl, -, hnone, -, rfl⟩ | ⟨current, _, rfl, hcurrent, rfl⟩ |
      ⟨current, rfl, hcurrent, rfl⟩
  · exact hlive
  · exact hlive
  · have hkey : key ≠ identity.key := by
      rintro rfl
      cases hnone.symm.trans hlive
    exact (s.live.get_insert_of_ne hkey).trans hlive
  all_goals
    have hkey : key ≠ current.identity.key := by
      rintro rfl
      cases hcurrent.symm.trans hlive
      exact hother rfl
  · exact (s.live.get_insert_of_ne hkey).trans hlive
  · exact (s.live.get_erase_of_ne hkey).trans hlive

/-- What the maps have to do with the identities issued and closed so far. -/
structure Fenced (owner : Uuid) (tr : List RegistryEvent) (s : RegistryState) : Prop where
  live : ∀ key a, s.live.get key = some a →
    a.identity.key = key ∧ a.identity ∈ issued tr ∧ a.identity ∉ closed tr
  counted : ∀ identity ∈ issued tr, ∃ n, s.incarnations.get identity.key = some n ∧
    identity.incarnation ≤ n
  newest : ∀ key n, s.incarnations.get key = some n →
    ⟨key.sessionId, key.kind, key.label, n, owner⟩ ∈ issued tr
  distinct : (issued tr).Nodup

/-- A call that issues nothing keeps the fence if it leaves the live entries within it. -/
theorem Fenced.of_live (h : Fenced owner tr s) {live : AssocMap _ DesktopSurfaceSnapshot}
    (hi : issued [e] = []) (hlive : ∀ key a, live.get key = some a →
      a.identity.key = key ∧ a.identity ∈ issued tr ∧ a.identity ∉ closed (tr ++ [e])) :
    Fenced owner (tr ++ [e]) { s with live } := by
  have hsame : issued (tr ++ [e]) = issued tr := by rw [issued_snoc, hi, append_nil]
  exact ⟨by rwa [hsame], by rw [hsame]; exact h.counted, by rw [hsame]; exact h.newest,
    by rw [hsame]; exact h.distinct⟩

theorem Fenced.step (h : Fenced owner tr s) (hstep : Step owner s e t)
    (hnew : ∀ identity visibility answer, e = .recordCreated identity visibility answer →
      identity ∈ closed tr → s.incarnations.get identity.key ≠ some identity.incarnation) :
    Fenced owner (tr ++ [e]) t := by
  rcases step_cases hstep with ⟨rfl, hi, hc⟩ | ⟨key, n, rfl, hfresh, rfl⟩ |
      ⟨identity, visibility, rfl, rfl, hnone, hn, rfl⟩ |
      ⟨current, visibility, rfl, hcurrent, rfl⟩ | ⟨current, rfl, hcurrent, rfl⟩
  · refine h.of_live hi fun key a ha => ?_
    rw [closed_snoc, hc, append_nil]
    exact h.live key a ha
  · have hkept : closed (tr ++ [.nextIdentity key (some ⟨key.sessionId, key.kind, key.label, n,
        owner⟩)]) = closed tr := closed_snoc.trans (append_nil _)
    constructor <;> rw [issued_snoc]
    · intro key' a ha
      obtain ⟨hkey, hmem, hopen⟩ := h.live key' a ha
      exact ⟨hkey, mem_append_left _ hmem, hkept ▸ hopen⟩
    · intro identity hmem
      rw [get_insert]
      rcases mem_append.mp hmem with hmem | hmem
      · obtain ⟨m, hm, hle⟩ := h.counted identity hmem
        split_ifs with hkey
        · have := hfresh m (hkey ▸ hm)
          exact ⟨n, rfl, by omega⟩
        · exact ⟨m, hm, hle⟩
      · obtain rfl := mem_singleton.mp hmem
        exact ⟨n, if_pos rfl, Nat.le_refl n⟩
    · intro key' m hm
      rw [get_insert] at hm
      split_ifs at hm with hkey
      · cases hm
        exact mem_append_right _ (hkey ▸ mem_singleton_self _)
      · exact mem_append_left _ (h.newest key' m hm)
    · refine h.distinct.append (nodup_singleton _) (disjoint_singleton.mpr fun hmem => ?_)
      -- An identity issued before has no later incarnation than its counter.
      obtain ⟨m, hm, hle⟩ := h.counted _ hmem
      have := hfresh m hm
      dsimp only at hle
      omega
  · refine h.of_live rfl fun key a ha => ?_
    rw [closed_snoc, show closed [_] = [] from rfl, append_nil]
    rw [get_insert] at ha
    split_ifs at ha with hkey
    · cases ha
      exact ⟨hkey.symm, h.newest _ _ hn, fun hmem => hnew _ _ _ rfl hmem hn⟩
    · exact h.live key a ha
  · refine h.of_live rfl fun key a ha => ?_
    rw [closed_snoc, show closed [_] = [] from rfl, append_nil]
    rw [get_insert] at ha
    split_ifs at ha with hkey
    · cases ha
      exact hkey ▸ h.live _ current hcurrent
    · exact h.live key a ha
  · refine h.of_live rfl fun key a ha => ?_
    rw [get_erase] at ha
    split_ifs at ha with hkey
    obtain ⟨rfl, hmem, hopen⟩ := h.live key a ha
    refine ⟨rfl, hmem, fun hclosed => ?_⟩
    rw [closed_snoc, mem_append] at hclosed
    rcases hclosed with hclosed | hclosed
    · exact hopen hclosed
    · exact hkey (congrArg DesktopSurfaceIdentity.key (mem_singleton.mp hclosed))

theorem fenced_of_run (hrun : Run (Step owner) .default tr s) (h : NoReopening owner tr) :
    Fenced owner tr s := by
  refine hrun.forward_induction (P := fun tr s => NoReopening owner tr → Fenced owner tr s)
    ?_ ?_ h
  · intro _
    exact ⟨(fun _ _ h => nomatch h), (fun _ h => nomatch h), (fun _ _ h => nomatch h),
      nodup_nil⟩
  · intro tr s e t hrun ih hstep h
    have hpast : NoReopening owner tr := by
      rintro earlier identity visibility answer later s rfl
      exact h earlier identity visibility answer (later ++ [e]) s (by simp)
    refine (ih hpast).step hstep ?_
    rintro identity visibility answer rfl
    exact h tr identity visibility answer [] s rfl hrun

/-- **Fenced incarnations.**  In a run that reopens no closed identity, a surface that is
live under a key has an identity issued for it, within its counter and never closed; the
identities issued are distinct; and a call with another identity leaves what is live. -/
theorem desktop_surfaces_fenced (hrun : Run (Step owner) .default tr s)
    (h : NoReopening owner tr) :
    (∀ key key' a b, s.live.get key = some a → s.live.get key' = some b →
      a.identity.key = b.identity.key → key = key' ∧ a = b) ∧
    (∀ key a, s.live.get key = some a → a.identity.key = key ∧ a.identity ∈ issued tr ∧
      ∃ n, s.incarnations.get key = some n ∧ a.identity.incarnation ≤ n) ∧
    (issued tr).Nodup ∧
    (∀ e t, Step owner s e t → ∀ key a, s.live.get key = some a →
      e.given ≠ some a.identity → t.live.get key = some a) ∧
    ∀ key a, s.live.get key = some a → a.identity ∉ closed tr := by
  have hfenced := fenced_of_run hrun h
  refine ⟨?_, ?_, hfenced.distinct, fun e t hstep key a => live_of_other hstep,
    fun key a ha => (hfenced.live key a ha).2.2⟩
  · intro key key' a b ha hb hsame
    obtain ⟨rfl, -⟩ := hfenced.live key a ha
    obtain ⟨rfl, -⟩ := hfenced.live key' b hb
    exact ⟨hsame, Option.some.inj (ha.symm.trans (hsame ▸ hb))⟩
  · intro key a ha
    obtain ⟨rfl, hmem, -⟩ := hfenced.live key a ha
    exact ⟨rfl, hmem, hfenced.counted _ hmem⟩

end

/-! ## A reopened identity -/

def sampleKey : DesktopSurfaceKey := ⟨11, .previewWindow, "preview"⟩

/-- The first identity of the key, of owner 7. -/
def sampleIdentity : DesktopSurfaceIdentity :=
  ⟨sampleKey.sessionId, sampleKey.kind, sampleKey.label, 1, 7⟩

def openedAndClosed : List RegistryEvent :=
  [.nextIdentity sampleKey (some sampleIdentity), .recordCreated sampleIdentity .visible (.ok ()),
    .recordClosed sampleIdentity (.ok ())]

theorem desktop_surfaces_fenced_sample : ∃ s, Run (Step 7) .default openedAndClosed s ∧
    ∀ key a, s.live.get key = some a → a.identity ∉ closed openedAndClosed := by
  have hrun : Run (Step 7) .default openedAndClosed _ := .cons rfl (.cons rfl (.cons rfl (.nil _)))
  refine ⟨_, hrun, (desktop_surfaces_fenced hrun ?_).2.2.2.2⟩
  intro earlier identity visibility answer later s htr _ hmem
  -- Nothing was closed before the one creation.
  rcases earlier with _ | ⟨e, _ | ⟨_, _ | ⟨_, _⟩⟩⟩
  · cases htr
  · obtain ⟨rfl, -⟩ := List.cons.inj htr
    cases hmem
  · cases htr
  · simp [openedAndClosed] at htr

/-- The sample is recorded created once more after it was closed. -/
theorem closed_surface_live_again : ∃ tr s a, Run (Step 7) .default tr s ∧
    s.live.get sampleKey = some a ∧ a.identity ∈ closed tr :=
  ⟨openedAndClosed ++ [.recordCreated sampleIdentity .visible (.ok ())], _, _,
    .cons rfl (.cons rfl (.cons rfl (.cons rfl (.nil _)))), rfl, .head _⟩

end Localview.SurfaceRegistry
