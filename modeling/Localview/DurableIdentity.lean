import Localview.SessionIdentity
import Localview.StateRun

/-! # Durable session identity

Runs of `resolve_new` and `existing`, with restarts among them and commits that
fail.  A healthy resolver has exactly what its file maps (`Agrees`); a call keeps
what the file maps or adds an id for a lineage that had none; and a durable answer is
in the file from then on.
-/
namespace Localview
open StateRun List AssocMap SessionIdentityResolver

/-- The registry's file, and the resolver opened on it. -/
structure IdentityStore where
  file : Option Bytes
  resolver : SessionIdentityResolver

/-- Why a registry that is there is not read. -/
inductive RegistryFault
  | io (error : String)
  | task (error : String)

/-- What the loader finds. -/
def readRegistry (file : Option Bytes) : Option RegistryFault → RegistryRead
  | some (.io error) => .failed error
  | some (.task error) => .taskFailed error
  | none => file.elim .notFound .contents

/-- A call of the identity store. -/
inductive IdentityCall
  | resolveNew (lineage : SessionLineage) (surroundings : ResolveSurroundings)
  | existing (lineage : SessionLineage)
  /-- The daemon starts anew and opens the registry. -/
  | restart (fault : Option RegistryFault)

/-- What a call of the store returns. -/
inductive IdentityAnswer
  | resolved (answer : ResolveAnswer)
  | found (id : Option SessionId)
  | restarted

abbrev IdentityLabel := IdentityCall × IdentityAnswer

namespace IdentityStore

/-- The store of a daemon that starts on a file. -/
def start (codec : RegistryCodec) (flavor : PathFlavor) (file : Option Bytes)
    (fault : Option RegistryFault) : IdentityStore :=
  { file, resolver := .openFile codec flavor (readRegistry file fault) }

def call (codec : RegistryCodec) (flavor : PathFlavor) (s : IdentityStore) :
    IdentityCall → Option (IdentityAnswer × IdentityStore)
  | .resolveNew lineage surroundings =>
      (s.resolver.resolveNew codec flavor lineage surroundings).map fun (answer, resolver) =>
        (.resolved answer, { file := (answer.written.map Prod.snd).or s.file, resolver })
  | .existing lineage => some (.found (s.resolver.existing lineage), s)
  | .restart fault => some (.restarted, start codec flavor s.file fault)

/-- What the file maps. -/
def stored (codec : RegistryCodec) (flavor : PathFlavor) (s : IdentityStore) : IdentityRecords :=
  (s.file.bind fun bytes => (parseRegistry codec flavor bytes).toOption).getD .empty

end IdentityStore

def IdentityStep (codec : RegistryCodec) (flavor : PathFlavor) (s : IdentityStore)
    (l : IdentityLabel) (s' : IdentityStore) : Prop :=
  s.call codec flavor l.1 = some (l.2, s')

def durableAnswer : IdentityLabel → Option (SessionLineage × SessionId)
  | (.resolveNew lineage _, .resolved ⟨⟨id, .durable⟩, _⟩) => some (lineage, id)
  | (.existing lineage, .found (some id)) => some (lineage, id)
  | _ => none

/-- What a call wrote in place of the registry. -/
def writtenRegistry : IdentityLabel → Option WrittenRegistry
  | (_, .resolved answer) => answer.written
  | _ => none

section
variable {codec : RegistryCodec} {flavor : PathFlavor} {s s' : IdentityStore}
  {l : IdentityLabel} {tr : List IdentityLabel} {lineage lineage' : SessionLineage}
  {id id' : SessionId}

def Agrees (codec : RegistryCodec) (flavor : PathFlavor) (s : IdentityStore) : Prop :=
  s.resolver.health = .healthy →
    ∀ lineage, s.resolver.records.get lineage = (s.stored codec flavor).get lineage

theorem sound_stored (s : IdentityStore) : SoundRecords flavor (s.stored codec flavor) := by
  rcases s with ⟨_ | bytes, resolver⟩
  · exact soundRecords_empty
  · show SoundRecords flavor ((parseRegistry codec flavor bytes).toOption.getD .empty)
    cases hparse : parseRegistry codec flavor bytes with
    | error _ => exact soundRecords_empty
    | ok records => exact sound_of_parseRegistry hparse

/-- Records that read alike are sound alike. -/
theorem SoundRecords.of_get {records records' : IdentityRecords} (h : SoundRecords flavor records)
    (hget : ∀ lineage, records'.get lineage = records.get lineage) :
    SoundRecords flavor records' where
  canonical := fun lineage id hsome => h.canonical lineage id (hget lineage ▸ hsome)
  named := fun lineage id hsome => h.named lineage id (hget lineage ▸ hsome)
  distinct := fun lineage lineage' id hsome hsome' =>
    h.distinct lineage lineage' id (hget lineage ▸ hsome) (hget lineage' ▸ hsome')

theorem agrees_start (file : Option Bytes) (fault : Option RegistryFault) :
    Agrees codec flavor (.start codec flavor file fault) := by
  intro hhealthy lineage
  cases fault with
  | some fault => cases fault <;> cases hhealthy
  | none =>
    cases file with
    | none => rfl
    | some bytes =>
      show (ofLoaded (parseRegistry codec flavor bytes)).records.get _ =
        ((parseRegistry codec flavor bytes).toOption.getD .empty).get _
      cases hparse : parseRegistry codec flavor bytes with
      | ok records => rfl
      | error error =>
        have hload : (ofLoaded (parseRegistry codec flavor bytes)).health =
            .healthy := hhealthy
        rw [hparse] at hload
        cases hload

/-- A commit's registry, when the resolver agrees with its file: what it maps loads
from what it wrote. -/
theorem loads_written (h : Agrees codec flavor s) (hhealthy : s.resolver.health = .healthy)
    (hroom : s.resolver.records.size < maxSessionIdentityRecords)
    (hcanonical : lineage.isCanonical flavor = true) (hnamed : id ≠ 0)
    (hnew : s.resolver.records.hasId id = false) {bytes : Bytes}
    (hbytes : registryBytes codec (s.resolver.records.insert lineage id) = .ok bytes) :
    ∃ loaded, parseRegistry codec flavor bytes = .ok loaded ∧
      ∀ other, loaded.get other = (s.resolver.records.insert lineage id).get other := by
  have hstored : SoundRecords flavor (s.stored codec flavor) := sound_stored s
  have hsound := hstored.of_get (h hhealthy)
  refine parseRegistry_registryBytes (hsound.insert hcanonical hnamed hnew) ?_ hbytes
  have herase : (s.resolver.records.erase lineage).entries.length ≤ s.resolver.records.size :=
    length_filter_le _ _
  show ((lineage, id) :: (s.resolver.records.erase lineage).entries).length ≤ _
  rw [length_cons]
  omega

/-- What one call does to what is stored: it keeps it, or adds an id to a lineage
that had none; a durable answer is stored afterwards. -/
theorem stored_step (h : Agrees codec flavor s) (hs : IdentityStep codec flavor s l s') :
    Agrees codec flavor s' ∧
      (∀ lineage id, (s.stored codec flavor).get lineage = some id →
        (s'.stored codec flavor).get lineage = some id) ∧
      (∀ lineage id, durableAnswer l = some (lineage, id) →
        (s'.stored codec flavor).get lineage = some id) ∧
      (∀ records bytes, writtenRegistry l = some (records, bytes) →
        ∃ loaded, parseRegistry codec flavor bytes = .ok loaded ∧
          ∀ lineage, loaded.get lineage = records.get lineage) := by
  obtain ⟨call, answer⟩ := l
  unfold IdentityStep at hs
  cases call with
  | restart fault =>
    cases hs
    refine ⟨agrees_start s.file fault, fun _ _ hget => hget, ?_, ?_⟩
    · intro lineage id hdurable
      cases hdurable
    · intro records bytes hwritten
      cases hwritten
  | existing lineage =>
    cases hs
    refine ⟨h, fun _ _ hget => hget, ?_, (fun _ _ hwritten => by cases hwritten)⟩
    intro lineage' id hdurable
    by_cases hhealthy : s.resolver.health = .healthy
    · cases hget : s.resolver.records.get lineage with
      | none =>
        rw [SessionIdentityResolver.existing, if_neg (not_not.mpr hhealthy), hget] at hdurable
        cases hdurable
      | some found =>
        rw [SessionIdentityResolver.existing, if_neg (not_not.mpr hhealthy), hget] at hdurable
        cases hdurable
        exact (h hhealthy lineage).symm.trans hget
    · rw [SessionIdentityResolver.existing, if_pos hhealthy] at hdurable
      cases hdurable
  | resolveNew lineage surroundings =>
    obtain ⟨⟨resolved, resolver⟩, hresolve, heq⟩ := Option.map_eq_some_iff.mp hs
    cases heq
    -- what the call wrote, if anything, loads as the records with the new id
    have hwritten : ∀ {candidate bytes}, s.resolver.health = .healthy →
        s.resolver.records.get lineage = none →
        (∃ loaded, parseRegistry codec flavor bytes = .ok loaded ∧ ∀ other, loaded.get other =
          (s.resolver.records.insert lineage candidate).get other) →
        ∀ resolver lineage' id, (s.stored codec flavor).get lineage' = some id →
          (IdentityStore.stored codec flavor ⟨some bytes, resolver⟩).get lineage' = some id := by
      intro candidate bytes hhealthy hnone hloads resolver lineage' id hget
      obtain ⟨loaded, hparse, hloaded⟩ := hloads
      rw [← h hhealthy] at hget
      have hne : lineage' ≠ lineage := fun heq => by
        rw [heq, hnone] at hget
        cases hget
      show ((parseRegistry codec flavor bytes).toOption.getD .empty).get lineage' = some id
      rw [hparse]
      exact (hloaded lineage').trans ((get_insert_of_ne _ hne).trans hget)
    cases resolve_effect hresolve with
    | unresolved id =>
      refine ⟨h, fun _ _ hget => hget, ?_, ?_⟩
      · intro lineage' id' hdurable
        cases hdurable
      · intro records bytes hwritten
        cases hwritten
    | known id hhealthy hget =>
      refine ⟨h, fun _ _ hget => hget, ?_, (fun _ _ hwritten => by cases hwritten)⟩
      intro lineage' id' hdurable
      cases hdurable
      exact (h hhealthy lineage).symm.trans hget
    | committed candidate bytes hhealthy hnone hroom hcanonical hnamed hnew hbytes =>
      have hloads := loads_written h hhealthy hroom hcanonical hnamed hnew hbytes
      obtain ⟨loaded, hparse, hloaded⟩ := hloads
      have hstored : ∀ other, (IdentityStore.stored codec flavor ⟨some bytes,
          { s.resolver with records := s.resolver.records.insert lineage candidate }⟩).get other =
            (s.resolver.records.insert lineage candidate).get other := by
        intro other
        show ((parseRegistry codec flavor bytes).toOption.getD .empty).get other = _
        rw [hparse]
        exact hloaded other
      refine ⟨fun _ other => (hstored other).symm,
        hwritten hhealthy hnone ⟨loaded, hparse, hloaded⟩ _, ?_, ?_⟩
      · intro lineage' id' hdurable
        cases hdurable
        exact (hstored lineage).trans (get_insert_self _)
      · intro records bytes' hw
        cases hw
        exact ⟨loaded, hparse, hloaded⟩
    | failed candidate id error written hhealthy hnone hroom hcanonical hnamed hnew hw =>
      have hloads : ∀ w, written = some w → ∃ loaded, parseRegistry codec flavor w.2 = .ok loaded ∧
          ∀ other, loaded.get other = (s.resolver.records.insert lineage candidate).get other := by
        intro w hw'
        obtain ⟨hrecords, hbytes⟩ := hw w hw'
        rw [hrecords] at hbytes
        exact loads_written h hhealthy hroom hcanonical hnamed hnew hbytes
      refine ⟨(fun hdegraded => by cases hdegraded), ?_, (fun _ _ hdurable => by cases hdurable), ?_⟩
      · intro lineage' id' hget
        cases written with
        | none => exact hget
        | some w => exact hwritten hhealthy hnone (hloads w rfl) _ lineage' id' hget
      · intro records bytes hw'
        obtain ⟨loaded, hparse, hloaded⟩ := hloads _ hw'
        refine ⟨loaded, hparse, fun other => ?_⟩
        rw [hloaded, ← (hw _ hw').1]

theorem answers_stored {file : Option Bytes} {fault : Option RegistryFault}
    (hrun : Run (IdentityStep codec flavor) (.start codec flavor file fault) tr s) :
    Agrees codec flavor s ∧ ∀ l ∈ tr, ∀ lineage id, durableAnswer l = some (lineage, id) →
      (s.stored codec flavor).get lineage = some id := by
  refine hrun.forward_induction (P := fun tr s => Agrees codec flavor s ∧ ∀ l ∈ tr,
    ∀ lineage id, durableAnswer l = some (lineage, id) →
      (s.stored codec flavor).get lineage = some id) ⟨agrees_start file fault, by simp⟩ ?_
  intro tr s l s' _ ih hs
  obtain ⟨hagrees, hkept, hanswered, -⟩ := stored_step ih.1 hs
  refine ⟨hagrees, ?_⟩
  intro m hm lineage id hdurable
  rcases mem_append.mp hm with hm | hm
  · exact hkept lineage id (ih.2 m hm lineage id hdurable)
  · rw [mem_singleton.mp hm] at hdurable
    exact hanswered lineage id hdurable

/-- **Durable session identity.**  In any run, durable answers for one lineage are
one id, durable answers for two lineages are two ids, and every registry a commit
wrote is read back as exactly the map that was committed. -/
theorem durable_session_identity {file : Option Bytes} {fault : Option RegistryFault}
    (hrun : Run (IdentityStep codec flavor) (.start codec flavor file fault) tr s) :
    (∀ l ∈ tr, ∀ l' ∈ tr, ∀ lineage id id', durableAnswer l = some (lineage, id) →
      durableAnswer l' = some (lineage, id') → id = id') ∧
    (∀ l ∈ tr, ∀ l' ∈ tr, ∀ lineage lineage' id, durableAnswer l = some (lineage, id) →
      durableAnswer l' = some (lineage', id) → lineage = lineage') ∧
    (∀ l ∈ tr, ∀ records bytes, writtenRegistry l = some (records, bytes) →
      let resolver := openFile codec flavor (.contents bytes)
      resolver.health = .healthy ∧
        ∀ lineage, resolver.records.get lineage = records.get lineage) := by
  have hstored := (answers_stored hrun).2
  refine ⟨?_, ?_, ?_⟩
  · intro l hl l' hl' lineage id id' hanswer hanswer'
    exact Option.some.inj
      ((hstored l hl lineage id hanswer).symm.trans (hstored l' hl' lineage id' hanswer'))
  · intro l hl l' hl' lineage lineage' id hanswer hanswer'
    exact (sound_stored s).distinct lineage lineage' id (hstored l hl lineage id hanswer)
      (hstored l' hl' lineage' id hanswer')
  · intro l hl records bytes hwritten
    obtain ⟨earlier, later, rfl⟩ := append_of_mem hl
    obtain ⟨s₁, s₂, hrun₁, hs, -⟩ := hrun.step_of_split
    obtain ⟨-, -, -, hloads⟩ := stored_step (answers_stored hrun₁).1 hs
    obtain ⟨loaded, hparse, hloaded⟩ := hloads records bytes hwritten
    simp only [openFile, hparse]
    exact ⟨rfl, hloaded⟩

end

/-! ## A registry of one project -/

def appLineage : SessionLineage := ⟨.project "/work/app", .frontendDevServer⟩

/-- The registry that maps one project to one session. -/
def appRegistry : SessionIdentityRegistryFile := ⟨1, [⟨appLineage, 7⟩]⟩

def appRegistryText : Bytes :=
  ("\x7b\"schema_version\":1,\"records\":[\x7b\"lineage\":\x7b\"lineage_version\":" ++
    "\"localview_session_lineage_v1\",\"value\":\x7b\"anchor\":\x7b\"anchor_type\":\"project\"," ++
    "\"normalized_project_path\":\"/work/app\"\x7d,\"server_kind\":\"frontend_dev_server\"\x7d\x7d," ++
    "\"session_id\":\"00000000-0000-0000-0000-000000000007\"\x7d]\x7d").toUTF8.toList

/-- A codec that knows this registry only. -/
def appRegistryCodec : RegistryCodec where
  toVec file := if file = appRegistry then .ok appRegistryText else .error "another registry"
  fromSlice bytes :=
    if bytes = appRegistryText then .ok ⟨some 1, some 1, .ok appRegistry⟩
    else .error "another text"
  fromSlice_toVec := by
    intro file bytes h
    split_ifs at h with hfile
    cases h
    rw [hfile, if_pos rfl]
    rfl

/-- A project gets its id, the daemon starts anew, and the project is looked up. -/
def returningProject : List IdentityLabel :=
  [(.resolveNew appLineage ⟨[7], [], .done⟩,
      .resolved ⟨⟨7, .durable⟩, some (AssocMap.empty.insert appLineage 7, appRegistryText)⟩),
    (.restart none, .restarted), (.existing appLineage, .found (some 7))]

theorem isCanonical_appLineage : appLineage.isCanonical .unix = true := by decide +kernel

theorem registryBytes_appRegistry :
    registryBytes appRegistryCodec (AssocMap.empty.insert appLineage 7) = .ok appRegistryText := by
  have hfits : ¬ maxSessionIdentityRegistryBytes < appRegistryText.length := by decide +kernel
  have hvec : appRegistryCodec.toVec appRegistry = .ok appRegistryText := by
    simp only [appRegistryCodec, if_true]
  exact registryBytes_of_toVec hvec hfits

/-- The daemon that starts on the text knows the project. -/
theorem existing_appLineage :
    (IdentityStore.start appRegistryCodec .unix (some appRegistryText) none).resolver.existing
      appLineage = some 7 := by
  have hsound : SoundRecords .unix (AssocMap.empty.insert appLineage 7) :=
    soundRecords_empty.insert isCanonical_appLineage (by decide) rfl
  obtain ⟨loaded, hparse, hget⟩ :=
    parseRegistry_registryBytes hsound (by decide) registryBytes_appRegistry
  show (ofLoaded (parseRegistry appRegistryCodec .unix
    appRegistryText)).existing appLineage = some 7
  rw [hparse]
  exact (hget appLineage).trans (get_insert_self _)

theorem resolveNew_appLineage :
    (IdentityStore.start appRegistryCodec .unix none none).resolver.resolveNew appRegistryCodec .unix
        appLineage ⟨[7], [], .done⟩ =
      some (⟨⟨7, .durable⟩, some (AssocMap.empty.insert appLineage 7, appRegistryText)⟩,
        ⟨.healthy, none, AssocMap.empty.insert appLineage 7⟩) := by
  have hfresh : freshSessionId .empty [7] = some 7 := by decide
  have hroom : ¬ maxSessionIdentityRecords ≤ (AssocMap.empty : IdentityRecords).size := by decide
  simp only [resolveNew, IdentityStore.start, readRegistry,
    Option.elim_none, openFile, ofLoaded,
    get_empty, ne_eq, not_true_eq_false, if_false, isCanonical_appLineage, hroom,
    Bool.true_eq_false, or_false, hfresh, commitRegistry, registryBytes_appRegistry]

theorem durable_session_identity_returningProject :
    ∃ s, Run (IdentityStep appRegistryCodec .unix) (.start appRegistryCodec .unix none none)
        returningProject s ∧
      (openFile appRegistryCodec .unix
        (.contents appRegistryText)).health = .healthy := by
  have hrun : Run (IdentityStep appRegistryCodec .unix)
      (.start appRegistryCodec .unix none none) returningProject
      (.start appRegistryCodec .unix (some appRegistryText) none) := by
    refine Run.cons (t := ⟨some appRegistryText,
      ⟨.healthy, none, AssocMap.empty.insert appLineage 7⟩⟩) ?_
      (Run.cons rfl (Run.cons ?_ (Run.nil _)))
    · exact Option.map_eq_some_iff.mpr ⟨_, resolveNew_appLineage, rfl⟩
    · exact congrArg some (Prod.ext (congrArg IdentityAnswer.found existing_appLineage) rfl)
  have hwritten := (durable_session_identity hrun).2.2 _ mem_cons_self _ _ rfl
  exact ⟨_, hrun, hwritten.1⟩

end Localview
