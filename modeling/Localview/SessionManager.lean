import Localview.SessionIdentity
import Localview.StateRun

/-! # The session manager

`SessionManager` of `sessions/src/lib.rs`: the sessions it keeps with the lineages they
were last seen under, and its two calls.  `reconcile` prepares a discovery batch, clones
the state, assigns a session to each server, and applies the assignments; a session that
no server got is disconnected, and removed once it has been for the grace period.
`set_preview_visible` may run between the clone and the apply.

The maps are hash maps: what they list comes in no order.  So the clone is given as it
lists its entries (`SnapshotOf`), and so are the ids of the final sweep.
-/
namespace Localview
open StateRun List Option Bool

/-- Where a session stands. -/
inductive SessionStatus
  | active
  | disconnected
  | hidden
  | closed
  deriving DecidableEq

/-- What discovery finds of a listener. -/
structure ListenerCandidate where
  endpoint : Endpoint
  (command cwd : Option String)

/-- `kind` is that of the classification. -/
structure DiscoveredServer where
  candidate : ListenerCandidate
  kind : ServerKind

/-- A session; its id is the key it is kept under. -/
structure Session where
  endpoint : Endpoint
  kind : ServerKind
  project : ProjectIdentity
  status : SessionStatus
  (firstSeen lastSeen : Int)
  disconnectedAt : Option Int
  previewVisible : Bool

/-- Lineages are those of sessions. -/
structure SessionState where
  sessions : AssocMap SessionId Session
  lineages : AssocMap SessionId SessionLineage
  owned : ∀ id lineage, lineages.get id = some lineage → ∃ session, sessions.get id = some session

namespace SessionState

/-- `SessionState::default` -/
def empty : SessionState := ⟨.empty, .empty, fun _ _ h => by cases h⟩

/-- A session written, its lineage as it was. -/
def putSession (state : SessionState) (id : SessionId) (session : Session) : SessionState where
  sessions := state.sessions.insert id session
  lineages := state.lineages
  owned := by
    intro id' lineage h
    rw [AssocMap.get_insert]
    by_cases hid : id' = id
    · exact ⟨session, if_pos hid⟩
    · rw [if_neg hid]
      exact state.owned id' lineage h

/-- A session written with its lineage, or without one. -/
def put (state : SessionState) (id : SessionId) (session : Session)
    (lineage : Option SessionLineage) : SessionState where
  sessions := state.sessions.insert id session
  lineages := match lineage with
    | some lineage => state.lineages.insert id lineage
    | none => state.lineages.erase id
  owned := by
    intro id' lineage' h
    rw [AssocMap.get_insert]
    by_cases hid : id' = id
    · exact ⟨session, if_pos hid⟩
    · rw [if_neg hid]
      refine state.owned id' lineage' ?_
      cases lineage with
      | some _ => rwa [AssocMap.get_insert_of_ne _ hid] at h
      | none => rwa [AssocMap.get_erase_of_ne _ hid] at h

def remove (state : SessionState) (id : SessionId) : SessionState where
  sessions := state.sessions.erase id
  lineages := state.lineages.erase id
  owned := by
    intro id' lineage h
    by_cases hid : id' = id
    · rw [hid, AssocMap.get_erase_self] at h
      cases h
    · rw [AssocMap.get_erase_of_ne _ hid] at h ⊢
      exact state.owned id' lineage h

end SessionState

/-! ## Discovery batches -/

/-- What `project_identity` reads beside the candidate: `git_root_or_cwd`, from the file
system, and what `DefaultHasher` makes of a root and a command. -/
structure ProjectHost where
  gitRootOrCwd : String → String
  hash : String → String → UInt64

/-- `{:016x}` -/
def hex16 (n : UInt64) : String :=
  String.ofList ((List.range 16).map fun i => Nat.digitChar (n.toNat / 16 ^ (15 - i) % 16))

def projectIdentity (host : ProjectHost) (candidate : ListenerCandidate) : ProjectIdentity :=
  let root := candidate.cwd.map host.gitRootOrCwd
  { key := "project-" ++ hex16 (host.hash (root.getD "") (candidate.command.getD ""))
    cwd := candidate.cwd, gitRoot := root }

/-- A server found, with its lineage. -/
structure PreparedDiscovery where
  server : DiscoveredServer
  project : ProjectIdentity
  lineage : Option SessionLineage
  ambiguous : Bool

/-- A server as `prepare_discovery_batch` first prepares it. -/
def prepareDiscovery (host : ProjectHost) (flavor : PathFlavor) (server : DiscoveredServer) :
    PreparedDiscovery :=
  let project := projectIdentity host server.candidate
  { server, project
    lineage := (sessionLineage flavor project server.candidate.endpoint server.kind).toOption
    ambiguous := false }

/-- How many servers of a batch have a lineage. -/
def lineageCount (prepared : List PreparedDiscovery) (lineage : SessionLineage) : Nat :=
  prepared.countP fun item => item.lineage = some lineage

def prepareDiscoveryBatch (host : ProjectHost) (flavor : PathFlavor)
    (discovered : List DiscoveredServer) : List PreparedDiscovery :=
  let prepared := discovered.map (prepareDiscovery host flavor)
  prepared.map fun item =>
    { item with ambiguous := item.lineage.any fun lineage => 1 < lineageCount prepared lineage }

/-! ## Assignments -/

/-- The first key listed, of those not assigned yet, whose entry will do. -/
def findUnassigned {ν : Type} (entries : List (SessionId × ν)) (p : SessionId × ν → Bool)
    (assigned : List SessionId) : Option SessionId :=
  (entries.find? fun e => p e && !assigned.contains e.1).map Prod.fst

def findLineageMatch (state : SessionState) (lineage : SessionLineage)
    (assigned : List SessionId) : Option SessionId :=
  findUnassigned state.lineages.entries (fun e => e.2 = lineage) assigned

def findLegacyProjectMatch (state : SessionState) (item : PreparedDiscovery)
    (assigned : List SessionId) : Option SessionId :=
  findUnassigned state.sessions.entries
    (fun e => e.2.project.key = item.project.key && e.2.kind = item.server.kind) assigned

def findExactEndpointMatch (state : SessionState) (endpoint : Endpoint)
    (assigned : List SessionId) : Option SessionId :=
  findUnassigned state.sessions.entries (fun e => e.2.endpoint = endpoint) assigned

def idAvailableForLineage (state : SessionState) (assigned : List SessionId)
    (sessionId : SessionId) (lineage : SessionLineage) : Bool :=
  if assigned.contains sessionId then false
  else match state.sessions.get sessionId with
  | none => true
  | some _ => state.lineages.get sessionId = some lineage

/-- `fresh_volatile_session_id`: the first of the ids drawn that will do. -/
def freshVolatileSessionId (state : SessionState) (assigned : List SessionId)
    (draws : List Uuid) : Option SessionId :=
  draws.find? fun candidate =>
    candidate ≠ 0 && !assigned.contains candidate && (state.sessions.get candidate).isNone

/-- How many sessions have a lineage. -/
def currentLineageCount (snapshot : SessionState) (lineage : SessionLineage) : Nat :=
  snapshot.lineages.count (· = lineage)

/-- Whether several servers of the batch, or several sessions, have a server's lineage. -/
def lineageAmbiguous (snapshot : SessionState) (item : PreparedDiscovery) : Bool :=
  item.ambiguous || item.lineage.any fun lineage => 1 < currentLineageCount snapshot lineage

/-- The session `resolve_assignments` finds for a server, if any. -/
def currentMatch (snapshot : SessionState) (item : PreparedDiscovery)
    (assigned : List SessionId) : Option SessionId :=
  if lineageAmbiguous snapshot item then
    findExactEndpointMatch snapshot item.server.candidate.endpoint assigned
  else
    (item.lineage.bind fun lineage => findLineageMatch snapshot lineage assigned).or
      ((findLegacyProjectMatch snapshot item assigned).or
        (findExactEndpointMatch snapshot item.server.candidate.endpoint assigned))

/-- What one server's assignment meets: the ids drawn for a volatile session, and what
`resolve_new` meets. -/
structure AssignSurroundings where
  draws : List Uuid
  resolve : ResolveSurroundings

/-- One round of the loop of `resolve_assignments`; `none` while a loop still draws. -/
def assignSession (codec : RegistryCodec) (flavor : PathFlavor) (snapshot : SessionState)
    (item : PreparedDiscovery) (assigned : List SessionId)
    (resolver : Option SessionIdentityResolver) (surroundings : AssignSurroundings) :
    Option (SessionId × Option SessionIdentityResolver) :=
  let volatile (resolver : Option SessionIdentityResolver) :=
    (freshVolatileSessionId snapshot assigned surroundings.draws).map (·, resolver)
  match currentMatch snapshot item assigned with
  | some sessionId => some (sessionId, resolver)
  | none =>
      if lineageAmbiguous snapshot item then volatile resolver
      else match resolver, item.lineage with
      | some identityResolver, some lineage =>
          (identityResolver.resolveNew codec flavor lineage surroundings.resolve).bind
            fun (resolved, identityResolver) =>
              let sessionId := resolved.identity.sessionId
              if idAvailableForLineage snapshot assigned sessionId lineage then
                some (sessionId, some identityResolver)
              else volatile (some identityResolver)
      | _, _ => volatile resolver

/-- `resolve_assignments`, what is assigned and the resolver passed on; the surroundings
are those of each server in turn. -/
def resolveAssignments (codec : RegistryCodec) (flavor : PathFlavor) (snapshot : SessionState) :
    List PreparedDiscovery → List SessionId → Option SessionIdentityResolver →
      (Nat → AssignSurroundings) → Option (List SessionId × Option SessionIdentityResolver)
  | [], _, resolver, _ => some ([], resolver)
  | item :: rest, assigned, resolver, surroundings =>
      (assignSession codec flavor snapshot item assigned resolver (surroundings 0)).bind
        fun (sessionId, resolver) =>
          (resolveAssignments codec flavor snapshot rest (sessionId :: assigned) resolver
            (fun n => surroundings (n + 1))).map fun (assignments, resolver) =>
              (sessionId :: assignments, resolver)

/-! ## Reconciliation -/

/-- What happened to which sessions. -/
structure ReconcileResult where
  (created reconnected disconnected removed : List SessionId)
  deriving DecidableEq

namespace ReconcileResult

/-- `ReconcileResult::default` -/
def empty : ReconcileResult := ⟨[], [], [], []⟩

section
variable (result : ReconcileResult) (id : SessionId)

def pushCreated : ReconcileResult :=
  { result with created := result.created ++ [id] }

def pushReconnected : ReconcileResult :=
  { result with reconnected := result.reconnected ++ [id] }

def pushDisconnected : ReconcileResult :=
  { result with disconnected := result.disconnected ++ [id] }

def pushRemoved : ReconcileResult :=
  { result with removed := result.removed ++ [id] }

end

end ReconcileResult

/-- Whether a session that is seen again is reported as reconnected. -/
def Session.reconnects (session : Session) : Bool :=
  (session.status = .disconnected ∨ session.status = .hidden) ∧ session.disconnectedAt.isSome

def Session.seenAgain (session : Session) (item : PreparedDiscovery) (now : Int) : Session :=
  { session with
    endpoint := item.server.candidate.endpoint
    kind := item.server.kind
    project := item.project
    status := if session.previewVisible then .active else .hidden
    lastSeen := now
    disconnectedAt := none }

def PreparedDiscovery.newSession (item : PreparedDiscovery) (now : Int) : Session where
  endpoint := item.server.candidate.endpoint
  kind := item.server.kind
  project := item.project
  status := .active
  firstSeen := now
  lastSeen := now
  disconnectedAt := none
  previewVisible := false

/-- One round of the first loop of `apply_reconciliation`. -/
def applyAssignment (now : Int) (acc : SessionState × ReconcileResult)
    (assignment : PreparedDiscovery × SessionId) : SessionState × ReconcileResult :=
  let (state, result) := acc
  let (item, id) := assignment
  match state.sessions.get id with
  | some session =>
      (state.put id (session.seenAgain item now) item.lineage,
        if session.reconnects then result.pushReconnected id else result)
  | none => (state.put id (item.newSession now) item.lineage, result.pushCreated id)

/-- One round of the sweep of `apply_reconciliation`. -/
def applySweep (now grace : Int) (seen : List SessionId) (acc : SessionState × ReconcileResult)
    (id : SessionId) : SessionState × ReconcileResult :=
  let (state, result) := acc
  if seen.contains id then acc
  else match state.sessions.get id with
  | none => acc
  | some session =>
      match session.disconnectedAt with
      | none =>
          (state.putSession id
            { session with disconnectedAt := some now, status := .disconnected },
            result.pushDisconnected id)
      | some disconnectedAt =>
          if grace ≤ now - disconnectedAt then (state.remove id, result.pushRemoved id) else acc

/-- The keys of the sessions after the first loop, in the order of a listing. -/
def SessionState.Lists (state : SessionState) (ids : List SessionId) : Prop :=
  ids.Perm (state.sessions.entries.map Prod.fst)

instance (state : SessionState) (ids : List SessionId) : Decidable (state.Lists ids) :=
  inferInstanceAs (Decidable (List.Perm _ _))

/-- `chrono::Duration::MAX`, in nanoseconds. -/
def maxChronoDuration : Nat := 9223372036854775807000000

/-- `chrono::Duration::from_std`, three seconds where it fails. -/
def graceDuration (grace : Nat) : Int :=
  if grace ≤ maxChronoDuration then grace else 3000000000

/-- The state after the first loop of `apply_reconciliation`, and its result so far. -/
def applyAssignments (state : SessionState) (prepared : List PreparedDiscovery)
    (assignments : List SessionId) (now : Int) : SessionState × ReconcileResult :=
  (prepared.zip assignments).foldl (applyAssignment now) (state, .empty)

/-- `apply_reconciliation`; `ids` are the keys the sweep goes over. -/
def applyReconciliation (state : SessionState) (grace : Nat) (prepared : List PreparedDiscovery)
    (assignments ids : List SessionId) (now : Int) : SessionState × ReconcileResult :=
  ids.foldl (applySweep now (graceDuration grace) assignments)
    (applyAssignments state prepared assignments now)

/-- `set_preview_visible`, and its answer. -/
def SessionState.setPreviewVisible (state : SessionState) (id : SessionId) (visible : Bool) :
    SessionState × Bool :=
  match state.sessions.get id with
  | none => (state, false)
  | some session =>
      (state.putSession id
        { session with
          previewVisible := visible
          status := if visible ∨ session.status = .active then .active else .hidden },
        true)

/-! ## The manager -/

/-- Times are nanoseconds. -/
structure SessionManager where
  state : SessionState
  grace : Nat
  identityResolver : Option SessionIdentityResolver

def SessionManager.new (grace : Nat) (identityResolver : Option SessionIdentityResolver) :
    SessionManager :=
  { state := .empty, grace, identityResolver }

/-- A session but for what `set_preview_visible` writes. -/
def Session.withoutPreview (session : Session) : Session :=
  { session with status := .hidden, previewVisible := false }

/-- A clone of the state, its entries listed in some order, taken before a while in
which preview visibility alone was set. -/
structure SnapshotOf (snapshot state : SessionState) : Prop where
  sessions : ∀ id, (snapshot.sessions.get id).map Session.withoutPreview =
    (state.sessions.get id).map Session.withoutPreview
  lineages : ∀ id, snapshot.lineages.get id = state.lineages.get id

theorem SnapshotOf.refl (state : SessionState) : SnapshotOf state state :=
  ⟨fun _ => rfl, fun _ => rfl⟩

/-- What a `reconcile` meets: the clone it makes, the host, what each assignment meets,
and how the keys are listed for the sweep. -/
structure ManagerSurroundings where
  snapshot : SessionState
  host : ProjectHost
  assign : Nat → AssignSurroundings
  ids : List SessionId

/-- A call of the manager. -/
inductive ManagerCall
  | reconcile (discovered : List DiscoveredServer) (now : Int)
      (surroundings : ManagerSurroundings)
  | setPreviewVisible (id : SessionId) (visible : Bool)

/-- What a call of the manager returns. -/
inductive ManagerAnswer
  | reconciled (result : ReconcileResult)
  | set (known : Bool)
  deriving DecidableEq

/-- `resolve_assignments` on a batch. -/
def SessionManager.assignments (manager : SessionManager) (codec : RegistryCodec)
    (flavor : PathFlavor) (host : ProjectHost) (snapshot : SessionState)
    (discovered : List DiscoveredServer) (surroundings : Nat → AssignSurroundings) :
    Option (List SessionId × Option SessionIdentityResolver) :=
  resolveAssignments codec flavor snapshot (prepareDiscoveryBatch host flavor discovered) []
    manager.identityResolver surroundings

section
variable (codec : RegistryCodec) (flavor : PathFlavor) (manager : SessionManager)

/-- A call and its answer; `none` where it does not return. -/
def SessionManager.call : ManagerCall → Option (ManagerAnswer × SessionManager)
  | .reconcile discovered now surroundings =>
      (manager.assignments codec flavor surroundings.host surroundings.snapshot discovered
        surroundings.assign).map fun (assignments, identityResolver) =>
          let prepared := prepareDiscoveryBatch surroundings.host flavor discovered
          let (state, result) := applyReconciliation manager.state manager.grace prepared
            assignments surroundings.ids now
          (.reconciled result, { manager with state, identityResolver })
  | .setPreviewVisible id visible =>
      let (state, known) := manager.state.setPreviewVisible id visible
      some (.set known, { manager with state })

/-- The clone is of the state, and the sweep goes over the keys there are. -/
def SessionManager.Fits : ManagerCall → Prop
  | .reconcile discovered now surroundings =>
      SnapshotOf surroundings.snapshot manager.state ∧
        ∀ assigned, manager.assignments codec flavor surroundings.host surroundings.snapshot
            discovered surroundings.assign = some assigned →
          (applyAssignments manager.state (prepareDiscoveryBatch surroundings.host flavor discovered)
            assigned.1 now).1.Lists surroundings.ids
  | .setPreviewVisible _ _ => True

/-- A call that returns, with its answer. -/
def ManagerStep (label : ManagerCall × ManagerAnswer) (manager' : SessionManager) : Prop :=
  manager.Fits codec flavor label.1 ∧
    manager.call codec flavor label.1 = some (label.2, manager')

end

/-! ## What the finders find -/

section
variable {state : SessionState} {assigned : List SessionId} {id : SessionId}

section
variable {ν : Type} {m : AssocMap SessionId ν} {p : SessionId × ν → Bool}

theorem findUnassigned_spec (h : findUnassigned m.entries p assigned = some id) :
    (∃ v, m.get id = some v ∧ p (id, v) = true) ∧ id ∉ assigned := by
  obtain ⟨⟨id', v⟩, hfind, rfl⟩ := Option.map_eq_some_iff.mp h
  have hkept := find?_some hfind
  rw [and_eq_true, not_eq_true', contains_eq_mem, decide_eq_false_iff_not] at hkept
  exact ⟨⟨v, m.mem_entries.mp (mem_of_find?_eq_some hfind), hkept.1⟩, hkept.2⟩

/-- What will do and is not assigned is found, or something before it. -/
theorem findUnassigned_isSome {v : ν} (hget : m.get id = some v) (hp : p (id, v) = true)
    (hfree : id ∉ assigned) : (findUnassigned m.entries p assigned).isSome := by
  rw [findUnassigned, Option.isSome_map, find?_isSome]
  refine ⟨(id, v), m.mem_entries.mpr hget, ?_⟩
  rw [hp, Bool.true_and, Bool.not_eq_true', contains_eq_mem, decide_eq_false_iff_not]
  exact hfree

/-- What is found while nothing is assigned is found as long as it is not. -/
theorem findUnassigned_keep {entries : List (SessionId × ν)}
    (h : findUnassigned entries p [] = some id) (hfree : id ∉ assigned) :
    findUnassigned entries p assigned = some id := by
  obtain ⟨e, hfind, rfl⟩ := Option.map_eq_some_iff.mp h
  refine Option.map_eq_some_iff.mpr ⟨e, ?_, rfl⟩
  obtain ⟨hp, before, after, heq, hbefore⟩ := find?_eq_some_iff_append.mp hfind
  refine find?_eq_some_iff_append.mpr ⟨?_, before, after, heq, fun e' he' => ?_⟩
  · rw [and_eq_true] at hp ⊢
    exact ⟨hp.1, by simpa using hfree⟩
  · have hnot := hbefore e' he'
    rw [contains_nil, Bool.not_false, Bool.and_true] at hnot
    rw [Bool.not_and, hnot, Bool.true_or]

theorem findUnassigned_none {entries : List (SessionId × ν)}
    (h : findUnassigned entries p [] = none) : findUnassigned entries p assigned = none := by
  rw [findUnassigned, map_eq_none_iff, find?_eq_none] at h ⊢
  intro e he hkept
  rw [and_eq_true] at hkept
  exact h e he (by rw [hkept.1]; rfl)

end

variable {item : PreparedDiscovery}

/-- A server's match is a session that no server before it got. -/
theorem currentMatch_spec (h : currentMatch state item assigned = some id) :
    (∃ session, state.sessions.get id = some session) ∧ id ∉ assigned := by
  have hsession : ∀ {p}, findUnassigned state.sessions.entries p assigned = some id →
      (∃ session, state.sessions.get id = some session) ∧ id ∉ assigned := by
    intro p hfound
    obtain ⟨⟨session, hget, -⟩, hnot⟩ := findUnassigned_spec hfound
    exact ⟨⟨session, hget⟩, hnot⟩
  rw [currentMatch] at h
  by_cases hambiguous : lineageAmbiguous state item = true
  · rw [if_pos hambiguous] at h
    exact hsession h
  · rw [if_neg hambiguous, or_eq_some_iff, or_eq_some_iff] at h
    rcases h with h | ⟨-, h | ⟨-, h⟩⟩
    · obtain ⟨lineage, -, h⟩ := Option.bind_eq_some_iff.mp h
      obtain ⟨⟨found, hget, -⟩, hnot⟩ := findUnassigned_spec h
      exact ⟨state.owned id found hget, hnot⟩
    · exact hsession h
    · exact hsession h

/-- A session that a server's lineage leads to leaves the server no other way. -/
theorem currentMatch_isSome {lineage : SessionLineage}
    (hambiguous : lineageAmbiguous state item = false) (hitem : item.lineage = some lineage)
    (hget : state.lineages.get id = some lineage) (hfree : id ∉ assigned) :
    (currentMatch state item assigned).isSome := by
  have hfound : (findLineageMatch state lineage assigned).isSome :=
    findUnassigned_isSome hget (decide_eq_true rfl) hfree
  rw [currentMatch, if_neg (Bool.eq_false_iff.mp hambiguous), hitem, Option.bind_some,
    Option.isSome_or, hfound, Bool.true_or]

/-- What a server matches while nothing is assigned it matches as long as it is not. -/
theorem currentMatch_keep (h : currentMatch state item [] = some id) (hfree : id ∉ assigned) :
    currentMatch state item assigned = some id := by
  rw [currentMatch] at h ⊢
  by_cases hambiguous : lineageAmbiguous state item = true
  · rw [if_pos hambiguous] at h ⊢
    exact findUnassigned_keep h hfree
  · rw [if_neg hambiguous, or_eq_some_iff, or_eq_some_iff] at h ⊢
    have hlineage : ∀ {lineage : Option SessionLineage},
        (lineage.bind fun lineage => findLineageMatch state lineage []) = none →
        (lineage.bind fun lineage => findLineageMatch state lineage assigned) = none := by
      intro lineage hnone
      cases lineage with
      | none => rfl
      | some lineage => exact findUnassigned_none hnone
    rcases h with h | ⟨hnone, h | ⟨hnone', h⟩⟩
    · obtain ⟨lineage, hitem, h⟩ := Option.bind_eq_some_iff.mp h
      exact .inl (Option.bind_eq_some_iff.mpr ⟨lineage, hitem, findUnassigned_keep h hfree⟩)
    · exact .inr ⟨hlineage hnone, .inl (findUnassigned_keep h hfree)⟩
    · exact .inr ⟨hlineage hnone, .inr ⟨findUnassigned_none hnone', findUnassigned_keep h hfree⟩⟩

theorem currentMatch_none (h : currentMatch state item [] = none) :
    currentMatch state item assigned = none := by
  rw [currentMatch] at h ⊢
  by_cases hambiguous : lineageAmbiguous state item = true
  · rw [if_pos hambiguous] at h ⊢
    exact findUnassigned_none h
  · rw [if_neg hambiguous, or_eq_none_iff, or_eq_none_iff] at h ⊢
    obtain ⟨hlineage, hlegacy, hendpoint⟩ := h
    refine ⟨?_, findUnassigned_none hlegacy, findUnassigned_none hendpoint⟩
    cases hitem : item.lineage with
    | none => rfl
    | some lineage =>
      rw [hitem] at hlineage
      exact findUnassigned_none hlineage

theorem freshVolatileSessionId_spec {draws : List Uuid}
    (h : freshVolatileSessionId state assigned draws = some id) :
    state.sessions.get id = none ∧ id ∉ assigned := by
  have hkept := find?_some h
  rw [and_eq_true, and_eq_true, not_eq_true', contains_eq_mem,
    decide_eq_false_iff_not, isNone_iff_eq_none] at hkept
  exact ⟨hkept.2, hkept.1.2⟩

end

section
variable {codec : RegistryCodec} {flavor : PathFlavor} {snapshot : SessionState}
  {item : PreparedDiscovery} {assigned : List SessionId}
  {resolver resolver' : Option SessionIdentityResolver} {surroundings : AssignSurroundings}
  {id : SessionId}

/-- The session a server matches; or, where it matches none, an id of no session, which
no server before it got. -/
theorem assignSession_cases
    (h : assignSession codec flavor snapshot item assigned resolver surroundings =
      some (id, resolver')) :
    currentMatch snapshot item assigned = some id ∨
      (currentMatch snapshot item assigned = none ∧ id ∉ assigned ∧
        snapshot.sessions.get id = none) := by
  have hvolatile : ∀ {r}, (freshVolatileSessionId snapshot assigned surroundings.draws).map
      (·, r) = some (id, resolver') → id ∉ assigned ∧ snapshot.sessions.get id = none := by
    intro r hr
    obtain ⟨id', hfresh, heq⟩ := Option.map_eq_some_iff.mp hr
    obtain ⟨rfl, -⟩ := Prod.mk.inj heq
    exact (freshVolatileSessionId_spec hfresh).symm
  unfold assignSession at h
  cases hcurrent : currentMatch snapshot item assigned with
  | some found =>
    simp only [hcurrent, Option.some.injEq, Prod.mk.injEq] at h
    exact .inl (congrArg some h.1)
  | none =>
    simp only [hcurrent] at h
    refine .inr ⟨rfl, ?_⟩
    by_cases hambiguous : lineageAmbiguous snapshot item = true
    · rw [if_pos hambiguous] at h
      exact hvolatile h
    · rw [if_neg hambiguous] at h
      split at h
      · next identityResolver lineage hlineage =>
        obtain ⟨⟨resolved, next⟩, -, h⟩ := Option.bind_eq_some_iff.mp h
        by_cases havailable : idAvailableForLineage snapshot assigned resolved.identity.sessionId
            lineage = true
        · simp only [if_pos havailable, Option.some.injEq, Prod.mk.injEq] at h
          obtain ⟨rfl, -⟩ := h
          rw [idAvailableForLineage] at havailable
          split_ifs at havailable with hassigned
          rw [contains_eq_mem, decide_eq_true_iff] at hassigned
          refine ⟨hassigned, ?_⟩
          split at havailable
          · next hnone => exact hnone
          · -- a session of the server's lineage would have been its match
            have hsome := currentMatch_isSome (Bool.eq_false_iff.mpr hambiguous) hlineage
              (of_decide_eq_true havailable) hassigned
            rw [hcurrent] at hsome
            cases hsome
        · simp only [if_neg havailable] at h
          exact hvolatile h
      · exact hvolatile h

/-- A server gets no id that one before it got. -/
theorem assignSession_not_mem
    (h : assignSession codec flavor snapshot item assigned resolver surroundings =
      some (id, resolver')) : id ∉ assigned := by
  rcases assignSession_cases h with hmatch | ⟨-, hnot, -⟩
  · exact (currentMatch_spec hmatch).2
  · exact hnot

/-- **Each server gets an id of its own.** -/
theorem resolveAssignments_nodup {prepared : List PreparedDiscovery} {ids : List SessionId}
    {surroundings : Nat → AssignSurroundings}
    (h : resolveAssignments codec flavor snapshot prepared assigned resolver surroundings =
      some (ids, resolver')) :
    ids.length = prepared.length ∧ ids.Nodup ∧ ∀ id ∈ ids, id ∉ assigned := by
  induction prepared generalizing assigned resolver surroundings ids with
  | nil =>
    obtain ⟨rfl, -⟩ := Prod.mk.inj (Option.some.inj h)
    exact ⟨rfl, nodup_nil, fun _ h => by cases h⟩
  | cons item rest ih =>
    obtain ⟨⟨first, between⟩, hfirst, h⟩ := Option.bind_eq_some_iff.mp h
    obtain ⟨⟨others, last⟩, hothers, heq⟩ := Option.map_eq_some_iff.mp h
    cases heq
    obtain ⟨hlength, hnodup, hnew⟩ := ih hothers
    refine ⟨congrArg Nat.succ hlength, nodup_cons.mpr ⟨?_, hnodup⟩, ?_⟩
    · intro hmem
      exact hnew first hmem mem_cons_self
    · intro id hmem
      rcases mem_cons.mp hmem with rfl | hmem
      · exact assignSession_not_mem hfirst
      · exact fun hassigned => hnew id hmem (mem_cons_of_mem first hassigned)

end

end Localview
