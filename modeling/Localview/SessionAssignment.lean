import Localview.GreedyAssignment
import Localview.SessionManager

/-! # Session assignments

When `resolve_assignments` leaves each session to the server it belongs to.  A batch is
assigned greedily: servers take turns, each matching a session that is still free.  A
server whose lineage is known to no session falls back to a session of its project, or of
its endpoint, and these fallbacks do not ask for the session's lineage: so it may take the
session of another lineage, before or instead of that lineage's server.

`IdentityKept` is what should hold of a batch in every order.  It does exactly when the
sessions the servers would each match alone are apart and of their own lineages
(`MatchesApart`).
-/
namespace Localview
open StateRun GreedyAssignment List AssocMap

/-! ## Batches in an order -/

section
variable (host : ProjectHost) (flavor : PathFlavor) (discovered : List DiscoveredServer)

/-- The lineage of a server, if it is known. -/
def serverLineage (server : DiscoveredServer) : Option SessionLineage :=
  (prepareDiscovery host flavor server).lineage

/-- A server as it is prepared in a batch. -/
def preparedIn (server : DiscoveredServer) : PreparedDiscovery :=
  { prepareDiscovery host flavor server with
    ambiguous := (serverLineage host flavor server).any fun lineage =>
      1 < discovered.countP fun other => serverLineage host flavor other = some lineage }

/-- A batch in another order. -/
def inOrder (σ : Equiv.Perm (Fin discovered.length)) : List DiscoveredServer :=
  List.ofFn fun i => discovered.get (σ i)

theorem prepareDiscoveryBatch_eq :
    prepareDiscoveryBatch host flavor discovered =
      discovered.map (preparedIn host flavor discovered) := by
  have hcount : ∀ lineage, lineageCount (discovered.map (prepareDiscovery host flavor)) lineage =
      discovered.countP fun other => serverLineage host flavor other = some lineage := by
    intro lineage
    rw [lineageCount, countP_map]
    rfl
  simp only [prepareDiscoveryBatch, map_map, hcount]
  rfl

theorem inOrder_perm (σ : Equiv.Perm (Fin discovered.length)) :
    (inOrder discovered σ).Perm discovered := by
  have h := σ.ofFn_comp_perm discovered.get
  rwa [ofFn_get] at h

/-- The order does not show in how a server is prepared. -/
theorem prepareDiscoveryBatch_inOrder (σ : Equiv.Perm (Fin discovered.length)) :
    prepareDiscoveryBatch host flavor (inOrder discovered σ) =
      List.ofFn ((fun k => preparedIn host flavor discovered (discovered.get k)) ∘ σ) := by
  have hprepared : ∀ server, preparedIn host flavor (inOrder discovered σ) server =
      preparedIn host flavor discovered server := by
    intro server
    simp only [preparedIn, (inOrder_perm discovered σ).countP_eq]
  rw [prepareDiscoveryBatch_eq, map_congr_left fun server _ => hprepared server, inOrder,
    map_ofFn]
  rfl

end

section
variable (codec : RegistryCodec) (flavor : PathFlavor) (manager : SessionManager)
  (host : ProjectHost) (snapshot : SessionState) (discovered : List DiscoveredServer)

/-- What `resolve_assignments` may assign to a batch that comes in an order, whatever it
meets. -/
def AssignsInOrder (σ : Equiv.Perm (Fin discovered.length)) (ids : List SessionId) : Prop :=
  ∃ surroundings resolver, manager.assignments codec flavor host snapshot
    (inOrder discovered σ) surroundings = some (ids, resolver)

/-- Whether a session has an id. -/
def SessionState.hasSession (state : SessionState) (id : SessionId) : Bool :=
  (state.sessions.get id).isSome

/-- **No session is hijacked**, whatever order the batch comes in: the one session of a
server's lineage is the server's, no server gets a session that is known under another
lineage, and each server gets the same session in every order. -/
structure IdentityKept : Prop where
  owner : ∀ σ ids, AssignsInOrder codec flavor manager host snapshot discovered σ ids →
    ∀ i lineage id, serverLineage host flavor (discovered.get (σ i)) = some lineage →
      (discovered.countP fun server => serverLineage host flavor server = some lineage) = 1 →
      (∀ id', manager.state.lineages.get id' = some lineage ↔ id' = id) → ids[i.val]? = some id
  foreign : ∀ σ ids, AssignsInOrder codec flavor manager host snapshot discovered σ ids →
    ∀ i id lineage lineage', ids[i.val]? = some id →
      serverLineage host flavor (discovered.get (σ i)) = some lineage →
      manager.state.lineages.get id = some lineage' → lineage' = lineage
  orderFree : OrderFree manager.state.hasSession
    (AssignsInOrder codec flavor manager host snapshot discovered)

/-- The servers' matches, each found as if its server came first, are different sessions,
and none is known under a lineage other than its server's. -/
structure MatchesApart (snapshot : SessionState) (prepared : List PreparedDiscovery) : Prop where
  own : ∀ item ∈ prepared, ∀ id lineage lineage', currentMatch snapshot item [] = some id →
    item.lineage = some lineage → snapshot.lineages.get id = some lineage' → lineage' = lineage
  apart : (ownChoices (currentMatch snapshot) prepared).Nodup

/-- The lengths of collections are `usize`. -/
structure InMemory : Prop where
  sessions : manager.state.sessions.size < 2 ^ 64
  records : ∀ resolver, manager.identityResolver = some resolver → resolver.records.size < 2 ^ 64
  discovered : discovered.length < 2 ^ 64

end

/-! ## Assigning is greedy -/

section
variable {codec : RegistryCodec} {flavor : PathFlavor} {snapshot : SessionState}
  {prepared : List PreparedDiscovery} {assigned ids : List SessionId}
  {resolver resolver' : Option SessionIdentityResolver}

theorem hasSession_iff {id : SessionId} :
    snapshot.hasSession id = true ↔ ∃ session, snapshot.sessions.get id = some session :=
  Option.isSome_iff_exists

theorem stable_currentMatch : Stable snapshot.hasSession (currentMatch snapshot) where
  slot := fun h => hasSession_iff.mpr (currentMatch_spec h).1
  free := fun h => (currentMatch_spec h).2
  keep := currentMatch_keep
  none := currentMatch_none

theorem resolveAssignments_assigns {surroundings : Nat → AssignSurroundings}
    (h : resolveAssignments codec flavor snapshot prepared assigned resolver surroundings =
      some (ids, resolver')) :
    Assigns snapshot.hasSession (currentMatch snapshot) assigned prepared ids := by
  induction prepared generalizing assigned resolver surroundings ids with
  | nil =>
    obtain ⟨rfl, -⟩ := Prod.mk.inj (Option.some.inj h)
    exact .nil assigned
  | cons item rest ih =>
    obtain ⟨⟨first, between⟩, hfirst, h⟩ := Option.bind_eq_some_iff.mp h
    obtain ⟨⟨others, last⟩, hothers, heq⟩ := Option.map_eq_some_iff.mp h
    cases heq
    rcases assignSession_cases hfirst with hmatch | ⟨hnone, -, hnew⟩
    · exact .chosen item first hmatch (ih hothers)
    · refine .fresh item first hnone ?_ (ih hothers)
      rw [SessionState.hasSession, hnew]
      rfl

end

/-! ## Assigning comes to an end

As long as ids are left, some draw is one that will do. -/

section
variable {snapshot : SessionState} {prepared : List PreparedDiscovery}
  {assigned : List SessionId} {resolver : Option SessionIdentityResolver}

theorem exists_uuid_notMem (used : List Uuid) (h : used.length < 2 ^ 128) : ∃ id, id ∉ used := by
  have hinj : Set.InjOn (BitVec.ofNat 128) (Finset.range (used.length + 1)) := by
    intro a ha b hb heq
    rw [Finset.coe_range, Set.mem_Iio] at ha hb
    have hnat := congrArg BitVec.toNat heq
    rw [BitVec.toNat_ofNat, BitVec.toNat_ofNat, Nat.mod_eq_of_lt (by omega),
      Nat.mod_eq_of_lt (by omega)] at hnat
    exact hnat
  have hcard : used.toFinset.card < ((Finset.range (used.length + 1)).image
      (BitVec.ofNat 128)).card := by
    rw [Finset.card_image_of_injOn hinj, Finset.card_range]
    have := toFinset_card_le used
    omega
  obtain ⟨id, -, hid⟩ := Finset.exists_mem_notMem_of_card_lt_card hcard
  exact ⟨id, fun hmem => hid (mem_toFinset.mpr hmem)⟩

def recordsOf (resolver : Option SessionIdentityResolver) : List (SessionLineage × SessionId) :=
  (resolver.map fun resolver => resolver.records.entries).getD []

/-- The ids that will not do. -/
def usedIds (snapshot : SessionState) (resolver : Option SessionIdentityResolver)
    (assigned : List SessionId) : List Uuid :=
  0 :: (snapshot.sessions.entries.map Prod.fst ++ (recordsOf resolver).map Prod.snd ++ assigned)

/-- One draw, and no commit. -/
def drawing (candidate : Uuid) : AssignSurroundings :=
  ⟨[candidate], ⟨[candidate], [candidate], .failed "" false⟩⟩

theorem freshVolatileSessionId_drawing {candidate : Uuid}
    (h : candidate ∉ usedIds snapshot resolver assigned) :
    freshVolatileSessionId snapshot assigned [candidate] = some candidate := by
  simp only [usedIds, mem_cons, mem_append, not_or] at h
  obtain ⟨hnil, ⟨hsessions, -⟩, hassigned⟩ := h
  have hnone : snapshot.sessions.get candidate = none := by
    cases hget : snapshot.sessions.get candidate with
    | none => rfl
    | some session =>
      exact absurd (mem_map.mpr ⟨_, snapshot.sessions.mem_entries.mpr hget, rfl⟩) hsessions
  simpa [freshVolatileSessionId, hassigned, hnone] using hnil

/-- A resolver that cannot commit answers with what is drawn, or what it has on record,
and keeps its records. -/
theorem resolveNew_drawing (codec : RegistryCodec) (flavor : PathFlavor)
    (lineage : SessionLineage) {resolver : SessionIdentityResolver} {candidate : Uuid}
    (hnil : candidate ≠ 0) (hnew : resolver.records.hasId candidate = false) :
    ∃ answer resolver', resolver.resolveNew codec flavor lineage (drawing candidate).resolve =
      some (answer, resolver') ∧ resolver'.records = resolver.records := by
  have hfresh : freshSessionId resolver.records [candidate] = some candidate := by
    simpa [freshSessionId, hnew] using hnil
  simp only [SessionIdentityResolver.resolveNew, drawing, volatileIdentity,
    SessionIdentityResolver.markDegraded, hfresh, Option.map_some, commitRegistry]
  by_cases hhealth : resolver.health ≠ .healthy
  · rw [if_pos hhealth]
    exact ⟨_, _, rfl, rfl⟩
  · rw [if_neg hhealth]
    cases resolver.records.get lineage with
    | some id => exact ⟨_, _, rfl, rfl⟩
    | none =>
      by_cases hfull : maxSessionIdentityRecords ≤ resolver.records.size ∨
          lineage.isCanonical flavor = false
      · simp only [if_pos hfull]
        exact ⟨_, _, rfl, rfl⟩
      · simp only [if_neg hfull]
        cases registryBytes codec (resolver.records.insert lineage candidate) with
        | error error => exact ⟨_, _, rfl, rfl⟩
        | ok bytes => exact ⟨_, _, rfl, rfl⟩

theorem assignSession_drawing (codec : RegistryCodec) (flavor : PathFlavor)
    (item : PreparedDiscovery) {candidate : Uuid}
    (h : candidate ∉ usedIds snapshot resolver assigned) :
    ∃ id resolver', assignSession codec flavor snapshot item assigned resolver
      (drawing candidate) = some (id, resolver') ∧ recordsOf resolver' = recordsOf resolver := by
  have hfresh := freshVolatileSessionId_drawing h
  unfold assignSession
  cases currentMatch snapshot item assigned with
  | some id => exact ⟨id, resolver, rfl, rfl⟩
  | none =>
    simp only
    rw [show (drawing candidate).draws = [candidate] from rfl, hfresh]
    by_cases hambiguous : lineageAmbiguous snapshot item = true
    · rw [if_pos hambiguous]
      exact ⟨_, _, rfl, rfl⟩
    · rw [if_neg hambiguous]
      split
      · next identityResolver lineage _ =>
        simp only [usedIds, mem_cons, mem_append, not_or] at h
        have hnew : identityResolver.records.hasId candidate = false := by
          rw [← Bool.not_eq_true, hasId_iff]
          rintro ⟨lineage, hget⟩
          exact h.2.1.2 (mem_map.mpr
            ⟨_, identityResolver.records.mem_entries.mpr hget, rfl⟩)
        obtain ⟨answer, next, hanswer, hrecords⟩ := resolveNew_drawing codec flavor lineage h.1 hnew
        rw [hanswer, Option.bind_some]
        have hsame : recordsOf (some next) = recordsOf (some identityResolver) := by
          rw [recordsOf, recordsOf, Option.map_some, Option.map_some, hrecords]
        by_cases havailable : idAvailableForLineage snapshot assigned answer.identity.sessionId
            lineage = true
        · simp only [if_pos havailable]
          exact ⟨_, _, rfl, hsame⟩
        · simp only [if_neg havailable]
          exact ⟨_, _, rfl, hsame⟩
      · exact ⟨_, _, rfl, rfl⟩

/-- **Every batch can be assigned** while ids are left. -/
theorem resolveAssignments_live (codec : RegistryCodec) (flavor : PathFlavor)
    (h : (usedIds snapshot resolver assigned).length + prepared.length < 2 ^ 128) :
    ∃ surroundings ids resolver', resolveAssignments codec flavor snapshot prepared assigned
      resolver surroundings = some (ids, resolver') := by
  induction prepared generalizing assigned resolver with
  | nil => exact ⟨fun _ => drawing 0, [], resolver, rfl⟩
  | cons item rest ih =>
    rw [length_cons] at h
    obtain ⟨candidate, hcandidate⟩ := exists_uuid_notMem
      (usedIds snapshot resolver assigned) (by omega)
    obtain ⟨id, between, hfirst, hrecords⟩ := assignSession_drawing codec flavor item hcandidate
    have hused : (usedIds snapshot between (id :: assigned)).length =
        (usedIds snapshot resolver assigned).length + 1 := by
      simp only [usedIds, hrecords, length_cons, length_append]
      omega
    have hroom : (usedIds snapshot between (id :: assigned)).length + rest.length < 2 ^ 128 := by
      omega
    obtain ⟨surroundings, ids, last, hrest⟩ := ih hroom
    -- the first server draws the candidate, the others what they need
    refine ⟨fun n => n.casesOn (drawing candidate) surroundings, id :: ids, last, ?_⟩
    show ((assignSession codec flavor snapshot item assigned resolver
        (drawing candidate)).bind fun first =>
      (resolveAssignments codec flavor snapshot rest (first.1 :: assigned) first.2
        surroundings).map fun others => (first.1 :: others.1, others.2)) = _
    simp only [hfirst, Option.bind_some, hrest, Option.map_some]

end

/-! ## When identity is kept -/

section
variable {codec : RegistryCodec} {flavor : PathFlavor} {manager : SessionManager}
  {host : ProjectHost} {snapshot state : SessionState} {discovered : List DiscoveredServer}

/-- A clone has the sessions of the state. -/
theorem SnapshotOf.hasSession (h : SnapshotOf snapshot state) (id : SessionId) :
    snapshot.hasSession id = state.hasSession id := by
  have hsame := congrArg Option.isSome (h.sessions id)
  rwa [Option.isSome_map, Option.isSome_map] at hsame

theorem SnapshotOf.size_eq (h : SnapshotOf snapshot state) :
    snapshot.sessions.size = state.sessions.size := by
  have hperm : (snapshot.sessions.entries.map Prod.fst).Perm
      (state.sessions.entries.map Prod.fst) := by
    refine (perm_ext_iff_of_nodup snapshot.sessions.nodup state.sessions.nodup).mpr ?_
    intro id
    rw [← get_isSome_iff, ← get_isSome_iff]
    exact Bool.eq_iff_iff.mp (h.hasSession id)
  have hlength := hperm.length_eq
  rwa [length_map, length_map] at hlength

/-- The one session of a lineage is the match of a server that alone has it. -/
theorem currentMatch_owner {item : PreparedDiscovery} {lineage : SessionLineage} {id : SessionId}
    (hitem : item.lineage = some lineage) (halone : item.ambiguous = false)
    (howner : ∀ id', snapshot.lineages.get id' = some lineage ↔ id' = id) :
    currentMatch snapshot item [] = some id := by
  have hget := (howner id).mpr rfl
  have hcount : currentLineageCount snapshot lineage = 1 := by
    have herase := snapshot.lineages.count_erase (k := id) (· = lineage)
    have hnone : (snapshot.lineages.erase id).count (· = lineage) = 0 := by
      rw [AssocMap.count, countP_eq_zero]
      rintro ⟨id', lineage'⟩ hmem heq
      rw [decide_eq_true_iff] at heq
      rw [mem_entries] at hmem
      simp only at heq
      by_cases hid : id' = id
      · rw [hid, get_erase_self] at hmem
        cases hmem
      · rw [get_erase_of_ne _ hid, heq] at hmem
        exact hid ((howner id').mp hmem)
    rw [hnone, hget] at herase
    simpa [currentLineageCount] using herase.symm
  have hambiguous : lineageAmbiguous snapshot item = false := by
    rw [lineageAmbiguous, halone, hitem, Option.any_some, hcount]
    rfl
  have hfound : findLineageMatch snapshot lineage [] = some id := by
    have hsome : (findLineageMatch snapshot lineage []).isSome :=
      findUnassigned_isSome hget (decide_eq_true rfl) not_mem_nil
    obtain ⟨id', hid'⟩ := Option.isSome_iff_exists.mp hsome
    obtain ⟨⟨lineage', hget', heq⟩, -⟩ := findUnassigned_spec hid'
    obtain rfl : lineage' = lineage := of_decide_eq_true heq
    rw [hid', (howner id').mp hget']
  rw [currentMatch, if_neg (Bool.eq_false_iff.mp hambiguous), hitem, Option.bind_some, hfound,
    Option.some_or]

theorem InMemory.live (h : InMemory manager discovered)
    (hsnapshot : SnapshotOf snapshot manager.state)
    (σ : Equiv.Perm (Fin discovered.length)) :
    ∃ ids, AssignsInOrder codec flavor manager host snapshot discovered σ ids := by
  have hrecords : (recordsOf manager.identityResolver).length < 2 ^ 64 := by
    cases hresolver : manager.identityResolver with
    | none => decide
    | some resolver => exact h.records resolver hresolver
  have hlength : (prepareDiscoveryBatch host flavor (inOrder discovered σ)).length =
      discovered.length := by
    rw [prepareDiscoveryBatch_eq, length_map, inOrder, length_ofFn]
  have hsessions : (snapshot.sessions.entries.map Prod.fst).length < 2 ^ 64 := by
    have hsize := h.sessions
    rw [← hsnapshot.size_eq] at hsize
    rw [length_map]
    exact hsize
  have hdiscovered := h.discovered
  have hroom : (usedIds snapshot manager.identityResolver []).length +
      (prepareDiscoveryBatch host flavor (inOrder discovered σ)).length < 2 ^ 128 := by
    rw [hlength]
    simp only [usedIds, length_cons, length_append, length_map, length_nil]
    rw [length_map] at hsessions
    omega
  obtain ⟨surroundings, ids, resolver, hassigned⟩ := resolveAssignments_live codec flavor hroom
  exact ⟨ids, surroundings, resolver, hassigned⟩

variable (codec flavor manager host snapshot discovered)

/-- **When no session is hijacked.** -/
theorem identityKept_iff (hsnapshot : SnapshotOf snapshot manager.state)
    (hmemory : InMemory manager discovered) :
    IdentityKept codec flavor manager host snapshot discovered ↔
      MatchesApart snapshot (prepareDiscoveryBatch host flavor discovered) := by
  have hslot : manager.state.hasSession = snapshot.hasSession :=
    funext fun id => (hsnapshot.hasSession id).symm
  have hassigns : ∀ σ ids, AssignsInOrder codec flavor manager host snapshot discovered σ ids →
      Assigns snapshot.hasSession (currentMatch snapshot) [] (List.ofFn
        ((fun k => preparedIn host flavor discovered (discovered.get k)) ∘ σ)) ids := by
    rintro σ ids ⟨surroundings, resolver, h⟩
    rw [SessionManager.assignments, prepareDiscoveryBatch_inOrder] at h
    exact resolveAssignments_assigns h
  have hnodup : ∀ σ ids, AssignsInOrder codec flavor manager host snapshot discovered σ ids →
      ids.Nodup := by
    rintro σ ids ⟨surroundings, resolver, h⟩
    exact (resolveAssignments_nodup h).2.1
  have hbatch : prepareDiscoveryBatch host flavor discovered =
      List.ofFn fun k => preparedIn host flavor discovered (discovered.get k) := by
    have hmap := map_ofFn (f := discovered.get) (g := preparedIn host flavor discovered)
    rw [ofFn_get] at hmap
    rw [prepareDiscoveryBatch_eq, hmap]
    rfl
  have hfree := orderFree_iff stable_currentMatch hassigns hnodup (hmemory.live hsnapshot)
  constructor
  · intro hkept
    have horder := hkept.orderFree
    rw [hslot] at horder
    refine ⟨?_, by rw [hbatch]; exact hfree.mp horder⟩
    intro item hitem id lineage lineage' hmatch hlineage hget
    rw [hbatch, mem_ofFn] at hitem
    obtain ⟨k, rfl⟩ := hitem
    -- in any order the server gets its match
    obtain ⟨ids, hids⟩ := hmemory.live hsnapshot (Equiv.refl _)
    have hown := horder.own stable_currentMatch hassigns (hmemory.live hsnapshot) hids k
    rw [Equiv.refl_apply, hmatch] at hown
    rw [hsnapshot.lineages] at hget
    exact hkept.foreign _ ids hids k id lineage lineage' (getElem?_of_given hown) hlineage hget
  · intro hmatches
    have horder := hfree.mpr (by rw [← hbatch]; exact hmatches.apart)
    have hown : ∀ σ ids, AssignsInOrder codec flavor manager host snapshot discovered σ ids →
        ∀ i, (ids[i.val]?).map (given snapshot.hasSession) = some (currentMatch snapshot
          (preparedIn host flavor discovered (discovered.get (σ i))) []) :=
      fun σ ids hids => horder.own stable_currentMatch hassigns (hmemory.live hsnapshot) hids
    rw [← hslot] at horder
    refine ⟨?_, ?_, horder⟩
    · intro σ ids hids i lineage id hlineage hcount howner
      have halone : (preparedIn host flavor discovered (discovered.get (σ i))).ambiguous = false := by
        simp only [preparedIn, hlineage, Option.any_some, hcount]
        rfl
      have hmatch : currentMatch snapshot
          (preparedIn host flavor discovered (discovered.get (σ i))) [] = some id := by
        refine currentMatch_owner hlineage halone fun id' => ?_
        rw [hsnapshot.lineages]
        exact howner id'
      have hgiven := hown σ ids hids i
      rw [hmatch] at hgiven
      exact getElem?_of_given hgiven
    · intro σ ids hids i id lineage lineage' hi hlineage hget
      obtain ⟨session, hsession⟩ := manager.state.owned id lineage' hget
      have hsome : snapshot.hasSession id = true := by
        rw [← hslot]
        exact hasSession_iff.mpr ⟨session, hsession⟩
      have hgiven := hown σ ids hids i
      rw [hi, Option.map_some, given_of_slot hsome, Option.some.injEq] at hgiven
      refine hmatches.own _ ?_ id lineage lineage' hgiven.symm hlineage ?_
      · rw [hbatch, mem_ofFn]
        exact ⟨σ i, rfl⟩
      · rw [hsnapshot.lineages]
        exact hget

end

/-- **Sessions are hijacked in no order**, at any state the manager reaches and whatever
clone of it is assigned from, exactly when the servers' own matches are apart. -/
theorem session_identity_kept {codec : RegistryCodec} {flavor : PathFlavor} {grace : Nat}
    {resolver : Option SessionIdentityResolver} {tr : List (ManagerCall × ManagerAnswer)}
    {manager : SessionManager} (_hrun : Run (ManagerStep codec flavor) (.new grace resolver) tr manager)
    {host : ProjectHost} {snapshot : SessionState} {discovered : List DiscoveredServer}
    (hsnapshot : SnapshotOf snapshot manager.state) (hmemory : InMemory manager discovered) :
    IdentityKept codec flavor manager host snapshot discovered ↔
      MatchesApart snapshot (prepareDiscoveryBatch host flavor discovered) :=
  identityKept_iff codec flavor manager host snapshot discovered hsnapshot hmemory

/-! ### Two projects and one port -/

/-- The hashes of two projects. -/
def twoProjects : ProjectHost := ⟨id, fun root _ => if root = "/a" then 1 else 2⟩

def projectServer (cwd : String) (port : UInt16) : DiscoveredServer :=
  { candidate := { endpoint := ⟨"127.0.0.1", port, "http"⟩, command := some "vite", cwd := some cwd }
    kind := .frontendDevServer }

/-- The server of the first project is found. -/
def firstProjectFound : ManagerCall :=
  .reconcile [projectServer "/a" 5173] 0
    ⟨.empty, twoProjects, fun _ => ⟨[1], ⟨[], [], .done⟩⟩, [1]⟩

def firstProjectKnown : SessionManager :=
  { SessionManager.new 1000000000 none with
    state := SessionState.empty.put 1
      ((preparedIn twoProjects .unix [] (projectServer "/a" 5173)).newSession 0)
      (some ⟨.project "/a", .frontendDevServer⟩) }

/-- The second project's server is on the port of the first's, which has moved. -/
def portTaken : List DiscoveredServer := [projectServer "/b" 5173, projectServer "/a" 5174]

theorem run_firstProjectFound :
    Run (ManagerStep unwrittenCodec .unix) (.new 1000000000 none)
      [(firstProjectFound, .reconciled ⟨[1], [], [], []⟩)] firstProjectKnown := by
  refine Run.cons ⟨⟨SnapshotOf.refl _, ?_⟩, rfl⟩ (Run.nil _)
  intro assigned hassigned
  obtain rfl : ([1], none) = assigned := Option.some.inj hassigned
  decide +kernel

/-- The first project's session goes to the second project's server. -/
theorem port_taken_hijacks :
    ∃ tr manager, Run (ManagerStep unwrittenCodec .unix) (.new 1000000000 none) tr manager ∧
      ¬ IdentityKept unwrittenCodec .unix manager twoProjects manager.state portTaken := by
  refine ⟨_, _, run_firstProjectFound, fun hkept => ?_⟩
  have hids : (firstProjectKnown.assignments unwrittenCodec .unix twoProjects
      firstProjectKnown.state (inOrder portTaken (Equiv.refl _))
      (fun _ => ⟨[2], ⟨[], [], .done⟩⟩)).map Prod.fst = some [1, 2] := by decide +kernel
  obtain ⟨⟨ids, resolver⟩, hassigned, rfl⟩ := Option.map_eq_some_iff.mp hids
  have hother : serverLineage twoProjects .unix (projectServer "/b" 5173) =
      some ⟨.project "/b", .frontendDevServer⟩ := by decide +kernel
  have hsame := hkept.foreign (Equiv.refl _) [1, 2] ⟨_, resolver, hassigned⟩ ⟨0, by decide⟩ 1
    ⟨.project "/b", .frontendDevServer⟩ ⟨.project "/a", .frontendDevServer⟩ rfl hother rfl
  exact absurd hsame (by decide +kernel)

/-- The servers of both projects are found. -/
def projectsFound : ManagerCall :=
  .reconcile [projectServer "/a" 5173, projectServer "/b" 5180] 0
    ⟨.empty, twoProjects, fun i => ⟨[if i = 0 then 1 else 2], ⟨[], [], .done⟩⟩, [1, 2]⟩

def projectsKnown : SessionManager :=
  { firstProjectKnown with
    state := firstProjectKnown.state.put 2
      ((preparedIn twoProjects .unix [] (projectServer "/b" 5180)).newSession 0)
      (some ⟨.project "/b", .frontendDevServer⟩) }

theorem run_projectsFound :
    Run (ManagerStep unwrittenCodec .unix) (.new 1000000000 none)
      [(projectsFound, .reconciled ⟨[1, 2], [], [], []⟩)] projectsKnown := by
  refine Run.cons ⟨⟨SnapshotOf.refl _, ?_⟩, rfl⟩ (Run.nil _)
  intro assigned hassigned
  obtain rfl : ([1, 2], none) = assigned := Option.some.inj hassigned
  decide +kernel

/-- Both servers keep their sessions when the first project's moves. -/
theorem session_identity_kept_serverMoved :
    IdentityKept unwrittenCodec .unix projectsKnown twoProjects projectsKnown.state
      [projectServer "/b" 5180, projectServer "/a" 5174] := by
  have hmemory : InMemory projectsKnown [projectServer "/b" 5180, projectServer "/a" 5174] :=
    ⟨by decide +kernel, (fun resolver h => by cases h), by decide +kernel⟩
  have hown : ∀ server ∈ [projectServer "/b" 5180, projectServer "/a" 5174],
      ((currentMatch projectsKnown.state (preparedIn twoProjects .unix [projectServer "/b" 5180,
        projectServer "/a" 5174] server) []).bind projectsKnown.state.lineages.get) =
          (preparedIn twoProjects .unix [projectServer "/b" 5180, projectServer "/a" 5174]
            server).lineage := by
    simp only [forall_mem_cons]
    exact ⟨by decide +kernel, by decide +kernel, by simp⟩
  refine (session_identity_kept run_projectsFound (SnapshotOf.refl _) hmemory).mpr
    ⟨fun item hitem id lineage lineage' hmatch hlineage hget => ?_, by decide +kernel⟩
  rw [prepareDiscoveryBatch_eq] at hitem
  obtain ⟨server, hserver, rfl⟩ := mem_map.mp hitem
  have hsame := hown server hserver
  rw [hmatch, hlineage, Option.bind_some, hget] at hsame
  exact Option.some.inj hsame

end Localview
