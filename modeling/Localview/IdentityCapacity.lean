import Localview.DurableIdentity

/-! # Identity capacity

What a registry that is full does to the lineages it has.  There are two limits: a number
of records, tested before anything is written, and a number of bytes, tested by the commit,
whose error degrades the resolver as any failed commit does.  A call that comes to no
commit, or whose commit succeeds, keeps every answer (`resolve_keeps`); one whose commit
fails takes them all (`capacity_contained_iff`), and at the limit of records no call comes
to a commit (`Full.commitHolds`).
-/
namespace Localview
open StateRun List SessionIdentityResolver

/-- A registration that was asked for, and what it met, with its answer. -/
abbrev RegistrationLabel := (SessionLineage × ResolveSurroundings) × ResolveAnswer

section
variable (codec : RegistryCodec) (flavor : PathFlavor) (resolver : SessionIdentityResolver)

/-- `resolve_new`, as a step of the resolver. -/
def RegistrationStep (l : RegistrationLabel)
    (resolver' : SessionIdentityResolver) : Prop :=
  resolver.resolveNew codec flavor l.1.1 l.1.2 = some (l.2, resolver')

/-- A registration comes to a commit: the resolver is healthy, the lineage is new and
canonical, and there is room for a record. -/
structure SessionIdentityResolver.Commits (flavor : PathFlavor) (resolver : SessionIdentityResolver)
    (lineage : SessionLineage) : Prop where
  healthy : resolver.health = .healthy
  unknown : resolver.records.get lineage = none
  room : resolver.records.size < maxSessionIdentityRecords
  canonical : lineage.isCanonical flavor = true

/-- The registry is encoded within its limit of bytes, and its file is replaced. -/
def CommitSucceeds (codec : RegistryCodec) (records : IdentityRecords) (replace : RegistryReplace) :
    Prop :=
  (∃ bytes, registryBytes codec records = .ok bytes) ∧ replace = .done

/-- If a registration comes to a commit, the commit succeeds. -/
def CommitHolds (l : RegistrationLabel) : Prop :=
  resolver.Commits flavor l.1.1 → ∀ candidate,
    freshSessionId resolver.records l.1.2.draws = some candidate →
      CommitSucceeds codec (resolver.records.insert l.1.1 candidate) l.1.2.replace

/-- Registrations leave the lineages alone that had an id: in every state of the run these
have the same durable answers, and a volatile answer leaves the resolver as it was. -/
structure CapacityContained (tr : List RegistrationLabel) : Prop where
  answers : ∀ earlier later resolver', tr = earlier ++ later →
    Run (RegistrationStep codec flavor) resolver earlier resolver' →
      ∀ lineage id, resolver.existing lineage = some id →
        resolver'.existing lineage = some id ∧
          ∀ surroundings, resolver'.resolveNew codec flavor lineage surroundings =
            some (⟨⟨id, .durable⟩, none⟩, resolver')
  refusals : Along (RegistrationStep codec flavor) (fun resolver l => ∀ resolver',
    RegistrationStep codec flavor resolver l resolver' → l.2.identity.durability = .volatile →
      resolver' = resolver) resolver tr

end

section
variable {codec : RegistryCodec} {flavor : PathFlavor} {resolver resolver' : SessionIdentityResolver}
  {lineage : SessionLineage} {id : SessionId} {l : RegistrationLabel}
  {tr : List RegistrationLabel} {surroundings : ResolveSurroundings}

theorem existing_eq_some : resolver.existing lineage = some id ↔
    resolver.health = .healthy ∧ resolver.records.get lineage = some id := by
  unfold SessionIdentityResolver.existing
  by_cases hhealth : resolver.health = .healthy
  · simp [hhealth]
  · simp [hhealth]

/-- A known lineage is answered from the records. -/
theorem resolveNew_of_existing (h : resolver.existing lineage = some id) :
    resolver.resolveNew codec flavor lineage surroundings =
      some (⟨⟨id, .durable⟩, none⟩, resolver) := by
  obtain ⟨hhealthy, hget⟩ := existing_eq_some.mp h
  simp only [resolveNew, hhealthy, ne_eq, not_true_eq_false, if_false, hget]

/-- A commit fails where it does not succeed, and only there. -/
theorem commitRegistry_fst {records : IdentityRecords} {replace : RegistryReplace} :
    (commitRegistry codec records replace).1 = none ↔ CommitSucceeds codec records replace := by
  unfold CommitSucceeds
  cases replace with
  | done =>
    rw [commitRegistry]
    cases registryBytes codec records with
    | error _ => simp
    | ok bytes => simp
  | failed _ replaced =>
    rw [commitRegistry]
    cases registryBytes codec records with
    | error _ => simp
    | ok bytes => simp
  | taskFailed _ replaced => simp [commitRegistry]

/-- A registry that cannot be encoded, or not within its limit, degrades the resolver. -/
theorem resolveNew_of_error {draws volatileDraws : List Uuid} {candidate volatileId : SessionId}
    {error : RegistryCommitError} (h : resolver.Commits flavor lineage)
    (hfresh : freshSessionId resolver.records draws = some candidate)
    (hbytes : registryBytes codec (resolver.records.insert lineage candidate) = .error error)
    (hvolatile : freshSessionId resolver.records volatileDraws = some volatileId) :
    resolver.resolveNew codec flavor lineage ⟨draws, volatileDraws, .done⟩ =
      some (⟨⟨volatileId, .volatile⟩, none⟩, resolver.markDegraded error.display) := by
  have hroom : ¬maxSessionIdentityRecords ≤ resolver.records.size := Nat.not_le.mpr h.room
  simp only [resolveNew, h.healthy, ne_eq, not_true_eq_false, if_false,
    h.unknown, hroom, h.canonical, Bool.true_eq_false, or_false, hfresh, commitRegistry, hbytes,
    volatileIdentity, markDegraded, hvolatile, Option.map_some]

/-- What a registration does: nothing, or a commit that extends the records, or one that
fails and degrades the resolver. -/
theorem registration_cases (h : RegistrationStep codec flavor resolver l resolver') :
    resolver' = resolver ∧ ¬resolver.Commits flavor l.1.1 ∨
      ∃ candidate, resolver.Commits flavor l.1.1 ∧
        freshSessionId resolver.records l.1.2.draws = some candidate ∧
          (CommitSucceeds codec (resolver.records.insert l.1.1 candidate) l.1.2.replace ∧
              l.2.identity.durability = .durable ∧
                resolver' = { resolver with records := resolver.records.insert l.1.1 candidate } ∨
            ¬CommitSucceeds codec (resolver.records.insert l.1.1 candidate) l.1.2.replace ∧
              l.2.identity.durability = .volatile ∧
                ∃ error, resolver' = resolver.markDegraded error) := by
  obtain ⟨⟨lineage, surroundings⟩, answer⟩ := l
  simp only [RegistrationStep, resolveNew, volatileIdentity,
    Option.map_map] at h
  by_cases hhealth : resolver.health ≠ .healthy
  · rw [if_pos hhealth] at h
    obtain ⟨id, -, heq⟩ := Option.map_eq_some_iff.mp h
    exact .inl ⟨(Prod.mk.inj heq).2.symm, fun hcommits => hhealth hcommits.healthy⟩
  rw [if_neg hhealth] at h
  cases hget : resolver.records.get lineage with
  | some id =>
    simp only [hget] at h
    refine .inl ⟨(Prod.mk.inj (Option.some.inj h)).2.symm, fun hcommits => ?_⟩
    exact Option.some_ne_none id (hget.symm.trans hcommits.unknown)
  | none =>
    simp only [hget] at h
    by_cases hfull : maxSessionIdentityRecords ≤ resolver.records.size ∨
        lineage.isCanonical flavor = false
    · rw [if_pos hfull] at h
      obtain ⟨id, -, heq⟩ := Option.map_eq_some_iff.mp h
      refine .inl ⟨(Prod.mk.inj heq).2.symm, fun hcommits => ?_⟩
      rcases hfull with hfull | hcanonical
      · exact absurd hcommits.room (Nat.not_lt.mpr hfull)
      · exact Bool.false_ne_true (hcanonical.symm.trans hcommits.canonical)
    rw [if_neg hfull] at h
    obtain ⟨hroom, hcanonical⟩ := not_or.mp hfull
    cases hfresh : freshSessionId resolver.records surroundings.draws with
    | none =>
      simp only [hfresh] at h
      cases h
    | some candidate =>
      have hcommits : resolver.Commits flavor lineage :=
        ⟨not_not.mp hhealth, hget, by omega, Bool.not_eq_false _ ▸ hcanonical⟩
      refine .inr ⟨candidate, hcommits, rfl, ?_⟩
      have hsucceeds := @commitRegistry_fst codec (resolver.records.insert lineage candidate)
        surroundings.replace
      cases hcommit : commitRegistry codec (resolver.records.insert lineage candidate)
        surroundings.replace with
      | mk error written =>
        rw [hcommit] at hsucceeds
        simp only [hfresh, hcommit] at h
        cases error with
        | none =>
          cases h
          exact .inl ⟨hsucceeds.mp rfl, rfl, rfl⟩
        | some error =>
          obtain ⟨id, -, heq⟩ := Option.map_eq_some_iff.mp h
          cases heq
          refine .inr ⟨fun hdone => ?_, rfl, error, rfl⟩
          cases hsucceeds.mpr hdone

/-- While commits succeed the answers stay. -/
theorem resolve_keeps (hholds : CommitHolds codec flavor resolver l)
    (hs : RegistrationStep codec flavor resolver l resolver')
    (h : resolver.existing lineage = some id) : resolver'.existing lineage = some id := by
  rcases registration_cases hs with ⟨rfl, -⟩ | ⟨candidate, hcommits, hfresh, hdone | ⟨hfails, -⟩⟩
  · exact h
  · obtain ⟨-, -, rfl⟩ := hdone
    obtain ⟨hhealthy, hget⟩ := existing_eq_some.mp h
    refine existing_eq_some.mpr ⟨hhealthy, ?_⟩
    have hne : lineage ≠ l.1.1 := by
      rintro rfl
      rw [hcommits.unknown] at hget
      cases hget
    rw [AssocMap.get_insert_of_ne _ hne]
    exact hget
  · exact absurd (hholds hcommits candidate hfresh) hfails

/-- A registry with as many records as it may have. -/
def Full (resolver : SessionIdentityResolver) : Prop :=
  maxSessionIdentityRecords ≤ resolver.records.size

/-- No registration comes to a commit in a full registry. -/
theorem Full.commitHolds (h : Full resolver) : CommitHolds codec flavor resolver l :=
  fun hcommits => absurd hcommits.room (Nat.not_lt.mpr h)

theorem Full.step (h : Full resolver) (hs : RegistrationStep codec flavor resolver l resolver') :
    Full resolver' := by
  rcases registration_cases hs with ⟨rfl, -⟩ | ⟨_, hcommits, -⟩
  · exact h
  · exact absurd hcommits.room (Nat.not_lt.mpr h)

theorem registration_unique (resolver : SessionIdentityResolver) (l : RegistrationLabel)
    (t t' : SessionIdentityResolver) (h : RegistrationStep codec flavor resolver l t)
    (h' : RegistrationStep codec flavor resolver l t') : t = t' :=
  (Prod.mk.inj (Option.some.inj (h.symm.trans h'))).2

/-- Every run of registrations that commit, or come to no commit, is contained. -/
theorem contained_of_commitHolds
    (h : Along (RegistrationStep codec flavor) (CommitHolds codec flavor) resolver tr) :
    CapacityContained codec flavor resolver tr := by
  refine ⟨?_, ?_⟩
  · rintro earlier later resolver' rfl hrun lineage id hexisting
    have hkept : resolver'.existing lineage = some id :=
      hrun.invariant_along (I := fun r => r.existing lineage = some id)
        (fun _ _ _ hkept hholds hs => resolve_keeps hholds hs hkept) h.left hexisting
    exact ⟨hkept, fun _ => resolveNew_of_existing hkept⟩
  · intro earlier l later r htr hrun r' hs hvolatile
    have hholds := h earlier l later r htr hrun
    rcases registration_cases hs with ⟨hsame, -⟩ | ⟨candidate, hcommits, hfresh, hdone | ⟨hfails, -⟩⟩
    · exact hsame
    · rw [hdone.2.1] at hvolatile
      cases hvolatile
    · exact absurd (hholds hcommits candidate hfresh) hfails

/-- **Exhaustion is contained exactly while commits succeed.**  In a run of registrations
every lineage that had an id keeps its durable answers and a refusal changes nothing, if
and only if each registration that comes to a commit is encoded within the limit of bytes
and written.  At the limit of records none comes to a commit. -/
theorem capacity_contained_iff (hrun : Run (RegistrationStep codec flavor) resolver tr resolver') :
    (CapacityContained codec flavor resolver tr ↔
        Along (RegistrationStep codec flavor) (CommitHolds codec flavor) resolver tr) ∧
      (maxSessionIdentityRecords ≤ resolver.records.size →
        CapacityContained codec flavor resolver tr) := by
  refine ⟨⟨?_, contained_of_commitHolds⟩, ?_⟩
  · rintro hcontained earlier l later r rfl hearlier hcommits candidate hfresh
    by_contra hfails
    obtain ⟨r₁, r₂, hrun₁, hs, -⟩ := hrun.step_of_split
    obtain rfl := hearlier.unique registration_unique hrun₁
    rcases registration_cases hs with
      ⟨-, hnone⟩ | ⟨candidate', -, hfresh', hdone | ⟨-, hvolatile, hdegraded⟩⟩
    · exact hnone hcommits
    · obtain rfl := Option.some.inj (hfresh.symm.trans hfresh')
      exact hfails hdone.1
    · obtain ⟨error, hdegraded⟩ := hdegraded
      have hsame := hcontained.refusals earlier l later r rfl hearlier r₂ hs hvolatile
      have hhealth : (r.markDegraded error).health = .healthy := by
        rw [← hdegraded, hsame]
        exact hcommits.healthy
      cases hhealth
  · intro hfull
    refine contained_of_commitHolds ?_
    exact Along.of_invariant (I := Full) (C := fun _ _ => True)
      (fun _ _ _ hfull _ hs => hfull.step hs) (fun _ _ hfull _ => hfull.commitHolds)
      (fun _ _ _ _ _ _ => trivial) hfull

end

/-! ## A registry that has room for no more records -/

/-- Records of the first lineages of a sequence, their ids in order. -/
def numbered (lineageOf : Nat → SessionLineage) (count : Nat)
    (hdistinct : ((List.range count).map lineageOf).Nodup) : IdentityRecords where
  entries := (List.range count).map fun i => (lineageOf i, BitVec.ofNat 128 (i + 1))
  nodup := by
    rw [List.map_map]
    exact hdistinct

section
variable {lineageOf : Nat → SessionLineage} {count : Nat}
  (hdistinct : ((List.range count).map lineageOf).Nodup)

theorem get_numbered {i : Nat} (hi : i < count) :
    (numbered lineageOf count hdistinct).get (lineageOf i) = some (BitVec.ofNat 128 (i + 1)) := by
  rw [← AssocMap.mem_entries]
  exact mem_map.mpr ⟨i, mem_range.mpr hi, rfl⟩

theorem get_numbered_eq_none {lineage : SessionLineage} (h : ∀ i, lineageOf i ≠ lineage) :
    (numbered lineageOf count hdistinct).get lineage = none := by
  rw [Option.eq_none_iff_forall_not_mem]
  intro id hget
  obtain ⟨i, -, heq⟩ := mem_map.mp ((numbered lineageOf count hdistinct).mem_entries.mpr hget)
  exact h i (Prod.mk.inj heq).1

/-- An id above those given is fresh. -/
theorem freshSessionId_numbered {id : SessionId} (h : count < id.toNat) :
    freshSessionId (numbered lineageOf count hdistinct) [id] = some id := by
  have hnew : (numbered lineageOf count hdistinct).hasId id = false := by
    rw [← Bool.not_eq_true, IdentityRecords.hasId, any_eq_true]
    rintro ⟨e, he, heq⟩
    obtain ⟨i, hi, rfl⟩ := mem_map.mp he
    have hid := congrArg BitVec.toNat (of_decide_eq_true heq)
    rw [BitVec.toNat_ofNat] at hid
    have hlt := mem_range.mp hi
    have hle := Nat.mod_le (i + 1) (2 ^ 128)
    omega
  have hnamed : id ≠ 0 := by
    rintro rfl
    cases h
  have htest : (decide (id ≠ 0) && !(numbered lineageOf count hdistinct).hasId id) = true := by
    rw [hnew, decide_eq_true hnamed]
    rfl
  exact find?_cons_of_pos htest

end

/-- The dev server on a port. -/
def portLineage (i : Nat) : SessionLineage :=
  ⟨.endpoint "http" "localhost" (UInt16.ofNat i), .frontendDevServer⟩

theorem nodup_portLineage :
    ((List.range maxSessionIdentityRecords).map portLineage).Nodup := by
  refine nodup_range.map_on fun i hi j hj heq => ?_
  have hport : UInt16.ofNat i = UInt16.ofNat j :=
    (SessionLineageAnchor.endpoint.inj (congrArg SessionLineage.anchor heq)).2.2
  have hnat := congrArg UInt16.toNat hport
  have hlt := mem_range.mp hi
  have hlt' := mem_range.mp hj
  have hfits : maxSessionIdentityRecords < UInt16.size := by decide
  rwa [UInt16.toNat_ofNat_of_lt' (hlt.trans hfits),
    UInt16.toNat_ofNat_of_lt' (hlt'.trans hfits)] at hnat

/-- A healthy resolver with a record for each of the first ports, as many as there may be. -/
def fullResolver : SessionIdentityResolver :=
  { health := .healthy, diagnostic := none
    records := numbered portLineage maxSessionIdentityRecords nodup_portLineage }

theorem full_fullResolver : Full fullResolver := by
  simp [Full, fullResolver, AssocMap.size, numbered]

/-- At the limit of records a new project is refused, and a port keeps its id. -/
theorem capacity_contained_iff_full : CapacityContained appRegistryCodec .unix fullResolver
      [((appLineage, ⟨[5001], [5002], .done⟩), ⟨⟨5002, .volatile⟩, none⟩),
        ((portLineage 0, ⟨[5001], [5002], .done⟩), ⟨⟨1, .durable⟩, none⟩)] := by
  have hget : fullResolver.records.get appLineage = none :=
    get_numbered_eq_none nodup_portLineage fun i heq => by cases congrArg SessionLineage.anchor heq
  have hport : fullResolver.existing (portLineage 0) = some 1 :=
    existing_eq_some.mpr ⟨rfl, get_numbered nodup_portLineage (by decide)⟩
  have hvolatile : freshSessionId fullResolver.records [5002] = some 5002 :=
    freshSessionId_numbered nodup_portLineage (by decide)
  have hrefused : RegistrationStep appRegistryCodec .unix fullResolver
      ((appLineage, ⟨[5001], [5002], .done⟩), ⟨⟨5002, .volatile⟩, none⟩) fullResolver := by
    have hhealthy : fullResolver.health = .healthy := rfl
    have hfull : maxSessionIdentityRecords ≤ fullResolver.records.size := full_fullResolver
    simp only [RegistrationStep, resolveNew, hhealthy, ne_eq,
      not_true_eq_false, if_false, hget, hfull, true_or, if_true, volatileIdentity, hvolatile,
      Option.map_some]
  have hanswered : RegistrationStep appRegistryCodec .unix fullResolver
      ((portLineage 0, ⟨[5001], [5002], .done⟩), ⟨⟨1, .durable⟩, none⟩) fullResolver :=
    resolveNew_of_existing hport
  exact (capacity_contained_iff (.cons hrefused (.cons hanswered (.nil _)))).2 full_fullResolver

/-! ## A registry that has room for no more bytes -/

/-- The path of a project, as long as a path may be or a little less. -/
def crowdedPath (i : Nat) : List Char := '/' :: List.replicate (i + 3843) 'w'

def crowdedLineage (i : Nat) : SessionLineage :=
  ⟨.project (String.ofList (crowdedPath i)), .frontendDevServer⟩

/-- Lineages whose paths differ in their lengths differ. -/
theorem ne_of_path_length {path path' : List Char} {kind kind' : ServerKind}
    (h : path.length ≠ path'.length) :
    (⟨.project (String.ofList path), kind⟩ : SessionLineage) ≠
      ⟨.project (String.ofList path'), kind'⟩ := by
  intro heq
  have hstring : String.ofList path = String.ofList path' :=
    SessionLineageAnchor.project.inj (congrArg SessionLineage.anchor heq)
  exact h (congrArg List.length (String.ofList_injective hstring))

theorem nodup_crowdedLineage : ((List.range 250).map crowdedLineage).Nodup := by
  refine nodup_range.map fun i j heq => ?_
  by_contra hne
  refine ne_of_path_length ?_ heq
  simp only [crowdedPath, length_cons, length_replicate]
  omega

/-- Two hundred and fifty projects. -/
def crowdedRecords : IdentityRecords :=
  numbered crowdedLineage 250 nodup_crowdedLineage

/-- A record's text up to the path. -/
def recordHead : List Char :=
  ("\x7b\"lineage\":\x7b\"lineage_version\":\"localview_session_lineage_v1\",\"value\":\x7b" ++
    "\"anchor\":\x7b\"anchor_type\":\"project\",\"normalized_project_path\":\"").toList

/-- A record's text between the path and the id. -/
def recordMiddle : List Char :=
  "\"\x7d,\"server_kind\":\"frontend_dev_server\"\x7d\x7d,\"session_id\":\"".toList

/-- The text of a project's record. -/
def projectRecordText (path : List Char) (id : SessionId) : List Char :=
  recordHead ++ path ++ recordMiddle ++ (Uuid.display id).toList ++ ['"', '\x7d']

/-- Records with commas between them. -/
def projectRecordsText : List (List Char × SessionId) → List Char
  | [] => []
  | [(path, id)] => projectRecordText path id
  | (path, id) :: record :: records =>
      projectRecordText path id ++ ',' :: projectRecordsText (record :: records)

/-- A registry's text up to the records. -/
def registryHead : List Char := "\x7b\"schema_version\":1,\"records\":[".toList

/-- The text of a registry of projects, all of it ASCII. -/
def projectRegistryText (records : List (List Char × SessionId)) : Bytes :=
  (registryHead ++ projectRecordsText records ++ [']', '\x7d']).map fun c => UInt8.ofNat c.toNat

theorem length_projectRecordText {path : List Char} {id : SessionId} :
    (projectRecordText path id).length = path.length + 224 := by
  have hid : (Uuid.display id).toList.length = 36 := by
    simp [Uuid.display]
  have hhead : recordHead.length = 131 := by decide +kernel
  have hmiddle : recordMiddle.length = 55 := by decide +kernel
  simp only [projectRecordText, length_append, length_cons, length_nil, hid, hhead,
    hmiddle]
  omega

theorem length_projectRecordsText {record : List Char × SessionId}
    {records : List (List Char × SessionId)} :
    (projectRecordsText (record :: records)).length + 1 =
      ((record :: records).map fun r => r.1.length + 225).sum := by
  induction records generalizing record with
  | nil => simp [projectRecordsText, length_projectRecordText]
  | cons next records ih =>
    have hrest := @ih next
    rw [projectRecordsText, length_append, length_cons, length_projectRecordText,
      map_cons, sum_cons]
    omega

theorem length_projectRegistryText {records : List (List Char × SessionId)} (h : records ≠ []) :
    (projectRegistryText records).length = (records.map fun r => r.1.length + 225).sum + 32 := by
  obtain ⟨record, rest, rfl⟩ := exists_cons_of_ne_nil h
  have hrecords := @length_projectRecordsText record rest
  have hhead : registryHead.length = 31 := by decide +kernel
  simp only [projectRegistryText, length_map, length_append, length_cons,
    length_nil, hhead]
  simp only [map_cons, sum_cons] at hrecords ⊢
  omega

/-- The projects of the crowded registry, as its text lists them. -/
def crowdedProjects : List (List Char × SessionId) :=
  (List.range 250).map fun i => (crowdedPath i, BitVec.ofNat 128 (i + 1))

/-- The projects with one more. -/
def overfullProjects : List (List Char × SessionId) := ("/work/app".toList, 251) :: crowdedProjects

/-- The registry of the crowded records and one more. -/
def overfullRegistry : SessionIdentityRegistryFile :=
  ⟨1, (crowdedRecords.insert appLineage 251).entries.map fun e => ⟨e.1, e.2⟩⟩

/-- A codec that knows this registry only. -/
def overfullCodec : RegistryCodec where
  toVec file := if file = overfullRegistry then .ok (projectRegistryText overfullProjects)
    else .error "another registry"
  fromSlice bytes :=
    if bytes = projectRegistryText overfullProjects then
      .ok ⟨some 1, some overfullRegistry.records.length, .ok overfullRegistry⟩
    else .error "another text"
  fromSlice_toVec := by
    intro file bytes h
    split_ifs at h with hfile
    cases h
    rw [hfile, if_pos rfl]
    rfl

theorem toVec_overfullRegistry :
    overfullCodec.toVec overfullRegistry = .ok (projectRegistryText overfullProjects) := by
  simp only [overfullCodec, if_true]

/-- The crowded registry is within the limit of bytes, and with one more it is not. -/
theorem length_crowded :
    (projectRegistryText crowdedProjects).length ≤ maxSessionIdentityRegistryBytes ∧
      maxSessionIdentityRegistryBytes < (projectRegistryText overfullProjects).length := by
  have hsum : (crowdedProjects.map fun r => r.1.length + 225).sum =
      ((List.range 250).map fun i => i + 4069).sum := by
    rw [crowdedProjects, map_map]
    refine congrArg List.sum (map_congr_left fun i _ => ?_)
    simp only [Function.comp_apply, crowdedPath, length_cons, length_replicate]
  have hcrowded : (projectRegistryText crowdedProjects).length =
      ((List.range 250).map fun i => i + 4069).sum + 32 := by
    rw [← hsum]
    exact length_projectRegistryText (by simp [crowdedProjects])
  have hoverfull : (projectRegistryText overfullProjects).length =
      9 + 225 + ((List.range 250).map fun i => i + 4069).sum + 32 := by
    have hpath : ("/work/app".toList).length = 9 := by decide +kernel
    rw [← hsum, overfullProjects, length_projectRegistryText (cons_ne_nil _ _), map_cons,
      sum_cons, hpath]
  rw [hcrowded, hoverfull]
  decide +kernel

/-- A healthy resolver of the crowded records. -/
def crowdedResolver : SessionIdentityResolver :=
  { health := .healthy, diagnostic := none, records := crowdedRecords }

theorem get_appLineage : crowdedRecords.get appLineage = none := by
  refine get_numbered_eq_none _ fun i => ne_of_path_length ?_
  simp [crowdedPath]

theorem registryBytes_crowded :
    registryBytes overfullCodec (crowdedRecords.insert appLineage 251) = .error .tooLarge := by
  rw [registryBytes, ← overfullRegistry, toVec_overfullRegistry]
  exact if_pos length_crowded.2

/-- The registration that is too much for the limit of bytes. -/
theorem resolveNew_crowded :
    crowdedResolver.resolveNew overfullCodec .unix appLineage ⟨[251], [252], .done⟩ =
      some (⟨⟨252, .volatile⟩, none⟩,
        crowdedResolver.markDegraded RegistryCommitError.tooLarge.display) := by
  have hfresh : freshSessionId crowdedRecords [251] = some 251 :=
    freshSessionId_numbered nodup_crowdedLineage (by decide)
  have hvolatile : freshSessionId crowdedRecords [252] = some 252 :=
    freshSessionId_numbered nodup_crowdedLineage (by decide)
  have hroom : crowdedRecords.size < maxSessionIdentityRecords := by
    simp [AssocMap.size, crowdedRecords, numbered, maxSessionIdentityRecords]
  have hcommits : crowdedResolver.Commits .unix appLineage :=
    ⟨rfl, get_appLineage, hroom, isCanonical_appLineage⟩
  exact resolveNew_of_error hcommits hfresh registryBytes_crowded hvolatile

/-- **A full registry forgets.**  A registration for one more project than the limit of
bytes has room for takes the id of a project that is registered. -/
theorem crowded_not_contained :
    ∃ resolver', Run (RegistrationStep overfullCodec .unix) crowdedResolver
        [((appLineage, ⟨[251], [252], .done⟩), ⟨⟨252, .volatile⟩, none⟩)] resolver' ∧
      crowdedResolver.existing (crowdedLineage 0) = some 1 ∧
        resolver'.existing (crowdedLineage 0) = none ∧
          ¬CapacityContained overfullCodec .unix crowdedResolver
            [((appLineage, ⟨[251], [252], .done⟩), ⟨⟨252, .volatile⟩, none⟩)] := by
  have hstep : RegistrationStep overfullCodec .unix crowdedResolver
      ((appLineage, ⟨[251], [252], .done⟩), ⟨⟨252, .volatile⟩, none⟩)
      (crowdedResolver.markDegraded RegistryCommitError.tooLarge.display) := resolveNew_crowded
  have hrun := Run.cons hstep (Run.nil _)
  have hexisting : crowdedResolver.existing (crowdedLineage 0) = some 1 :=
    existing_eq_some.mpr ⟨rfl, get_numbered nodup_crowdedLineage (by decide)⟩
  refine ⟨_, hrun, hexisting, rfl, fun hcontained => ?_⟩
  have hkept := (hcontained.answers _ [] _ rfl hrun _ _ hexisting).1
  cases hkept

end Localview
