import Localview.AssocMap
import Localview.SessionLineage

/-! # Durable session identities

The identity registry of `sessions/src/identity.rs`: a file that maps lineages to
session ids, and the resolver opened on it.  A resolver answers `Durable` with an id
it has just committed, or has had since; where a commit fails it answers `Volatile`,
and so does every later call until the next restart.

`ResolveEffect` says what `resolve_new` can do, and `parseRegistry_registryBytes`
that the loader reads back what a commit wrote.
-/
namespace Localview
open EarlyReturn List AssocMap

def maxSessionIdentityRegistryBytes : Nat := 1048576
def maxSessionIdentityRecords : Nat := 4096

/-- Whether new identities can be stored. -/
inductive SessionIdentityHealth
  | healthy
  | volatileDegraded
  deriving DecidableEq

/-- Whether an identity outlives the process. -/
inductive SessionIdentityDurability
  | durable
  | volatile

/-- An id, and whether it is stored. -/
structure ResolvedSessionIdentity where
  sessionId : SessionId
  durability : SessionIdentityDurability

/-- The id of a lineage. -/
structure SessionIdentityRecord where
  lineage : SessionLineage
  sessionId : SessionId
  deriving DecidableEq

/-- The registry as it is on disk. -/
structure SessionIdentityRegistryFile where
  schemaVersion : Nat
  records : List SessionIdentityRecord
  deriving DecidableEq

/-- Why a registry file is not read. -/
inductive RegistryLoadError
  | io (error : String)
  | tooLarge
  | invalidJson (error : String)
  | invalidSchemaVersion
  | unsupportedSchemaVersion (version : Nat)
  | tooManyRecords
  | nonCanonicalLineage
  | nilSessionId
  | duplicateLineage
  | duplicateSessionId

def RegistryLoadError.display : RegistryLoadError → String
  | .io error => "session identity registry I/O failed: " ++ error
  | .tooLarge =>
      "session identity registry exceeds " ++ toString maxSessionIdentityRegistryBytes ++ " bytes"
  | .invalidJson error => "session identity registry is not valid JSON: " ++ error
  | .invalidSchemaVersion =>
      "session identity registry schema version is missing or invalid"
  | .unsupportedSchemaVersion version =>
      "session identity registry schema version " ++ toString version ++ " is unsupported"
  | .tooManyRecords => "session identity registry contains too many records"
  | .nonCanonicalLineage => "session identity registry contains a noncanonical lineage"
  | .nilSessionId => "session identity registry contains a nil session UUID"
  | .duplicateLineage => "session identity registry maps one lineage more than once"
  | .duplicateSessionId =>
      "session identity registry maps one session UUID to multiple lineages"

/-- Why a registry is not written. -/
inductive RegistryCommitError
  | serialization (error : String)
  | tooLarge
  | io (error : String)

def RegistryCommitError.display : RegistryCommitError → String
  | .serialization error => "session identity registry serialization failed: " ++ error
  | .tooLarge =>
      "session identity registry commit would exceed " ++
        toString maxSessionIdentityRegistryBytes ++ " bytes"
  | .io error => "session identity registry commit I/O failed: " ++ error

/-- What the loader reads of a JSON value: its schema version, how many records it
lists, and the registry it is, if it is one. -/
structure RegistryDocument where
  (schemaVersion recordCount : Option Nat)
  registry : Except String SessionIdentityRegistryFile

/-- `serde_json` on registry files: what it has written it reads back. -/
structure RegistryCodec where
  toVec : SessionIdentityRegistryFile → Except String Bytes
  fromSlice : Bytes → Except String RegistryDocument
  fromSlice_toVec : ∀ {file bytes}, toVec file = .ok bytes →
    fromSlice bytes = .ok ⟨some file.schemaVersion, some file.records.length, .ok file⟩

theorem unwritten_fromSlice {file : SessionIdentityRegistryFile} {bytes : Bytes}
    (h : (.error "no registry" : Except String Bytes) = .ok bytes) :
    (.error "no registry" : Except String RegistryDocument) =
      .ok ⟨some file.schemaVersion, some file.records.length, .ok file⟩ := by
  cases h

/-- A registry that nothing is written to. -/
def unwrittenCodec : RegistryCodec where
  toVec _ := .error "no registry"
  fromSlice _ := .error "no registry"
  fromSlice_toVec := @unwritten_fromSlice

/-- `BTreeMap<SessionLineage, SessionId>` -/
abbrev IdentityRecords := AssocMap SessionLineage SessionId

/-- An id is some lineage's. -/
def IdentityRecords.hasId (records : IdentityRecords) (id : SessionId) : Bool :=
  records.entries.any fun e => e.2 = id

/-- The loop of `validate_records`. -/
def validateRecordsFrom (flavor : PathFlavor) :
    List SessionIdentityRecord → IdentityRecords → Except RegistryLoadError IdentityRecords
  | [], byLineage => .ok byLineage
  | record :: rest, byLineage => do
      rejectIf (record.lineage.isCanonical flavor = false) .nonCanonicalLineage
      rejectIf (record.sessionId = 0) .nilSessionId
      rejectIf (byLineage.hasId record.sessionId = true) .duplicateSessionId
      rejectIf ((byLineage.get record.lineage).isSome) .duplicateLineage
      validateRecordsFrom flavor rest (byLineage.insert record.lineage record.sessionId)

def validateRecords (flavor : PathFlavor) (records : List SessionIdentityRecord) :
    Except RegistryLoadError IdentityRecords := do
  rejectIf (maxSessionIdentityRecords < records.length) .tooManyRecords
  validateRecordsFrom flavor records .empty

/-- What the loader finds at the path: nothing, an error, or a file.  The task that
loads may fail before it is done. -/
inductive RegistryRead
  | notFound
  | failed (error : String)
  | contents (bytes : Bytes)
  | taskFailed (error : String)

/-- `load_registry` once the file is read. -/
def parseRegistry (codec : RegistryCodec) (flavor : PathFlavor) (bytes : Bytes) :
    Except RegistryLoadError IdentityRecords := do
  rejectIf (maxSessionIdentityRegistryBytes < bytes.length) .tooLarge
  match codec.fromSlice bytes with
  | .error error => .error (.invalidJson error)
  | .ok value =>
      match value.schemaVersion with
      | none => .error .invalidSchemaVersion
      | some version =>
          if version ≠ 1 then .error (.unsupportedSchemaVersion version)
          else match value.recordCount with
          | none => .error (.invalidJson "records must be an array")
          | some recordCount =>
              if maxSessionIdentityRecords < recordCount then .error .tooManyRecords
              else match value.registry with
              | .error error => .error (.invalidJson error)
              | .ok registry =>
                  if registry.schemaVersion ≠ 1 then
                    .error (.unsupportedSchemaVersion registry.schemaVersion)
                  else validateRecords flavor registry.records

/-- The registry in memory. -/
structure SessionIdentityResolver where
  health : SessionIdentityHealth
  diagnostic : Option String
  records : IdentityRecords

namespace SessionIdentityResolver

def degraded (diagnostic : String) : SessionIdentityResolver :=
  { health := .volatileDegraded, diagnostic := some diagnostic, records := .empty }

/-- What `open_file` makes of the registry it has loaded. -/
def ofLoaded : Except RegistryLoadError IdentityRecords → SessionIdentityResolver
  | .ok records => { health := .healthy, diagnostic := none, records }
  | .error error => degraded error.display

def openFile (codec : RegistryCodec) (flavor : PathFlavor) : RegistryRead → SessionIdentityResolver
  | .notFound => ofLoaded (.ok .empty)
  | .failed error => ofLoaded (.error (.io error))
  | .contents bytes => ofLoaded (parseRegistry codec flavor bytes)
  | .taskFailed error =>
      degraded ("session identity registry loader task failed: " ++ error)

def existing (resolver : SessionIdentityResolver) (lineage : SessionLineage) : Option SessionId :=
  if resolver.health ≠ .healthy then none else resolver.records.get lineage

def markDegraded (resolver : SessionIdentityResolver) (diagnostic : String) :
    SessionIdentityResolver :=
  { resolver with health := .volatileDegraded, diagnostic := some diagnostic }

end SessionIdentityResolver

/-- `fresh_session_id`: the first of the ids drawn that is neither nil nor taken. -/
def freshSessionId (records : IdentityRecords) (draws : List Uuid) : Option SessionId :=
  draws.find? fun candidate => candidate ≠ 0 && !records.hasId candidate

def volatileIdentity (records : IdentityRecords) (draws : List Uuid) :
    Option ResolvedSessionIdentity :=
  (freshSessionId records draws).map (⟨·, .volatile⟩)

/-- The bytes `commit_registry` writes. -/
def registryBytes (codec : RegistryCodec) (records : IdentityRecords) :
    Except RegistryCommitError Bytes :=
  match codec.toVec ⟨1, records.entries.map fun e => ⟨e.1, e.2⟩⟩ with
  | .error error => .error (.serialization error)
  | .ok bytes => if maxSessionIdentityRegistryBytes < bytes.length then .error .tooLarge
      else .ok bytes

/-- How the replace of the file goes: it is done; or it, or the task that makes it,
fails, the file replaced or as before. -/
inductive RegistryReplace
  | done
  | failed (error : String) (replaced : Bool)
  | taskFailed (error : String) (replaced : Bool)

/-- What `resolve_new` meets: the ids drawn, first for a new identity, then for a
volatile one, and how a replace of the file goes. -/
structure ResolveSurroundings where
  (draws volatileDraws : List Uuid)
  replace : RegistryReplace

/-- A registry that is written: what it maps, and its bytes. -/
abbrev WrittenRegistry := IdentityRecords × Bytes

/-- `commit_registry` under `spawn_blocking`: why it failed, and what is at the path
if it was replaced. -/
def commitRegistry (codec : RegistryCodec) (records : IdentityRecords) :
    RegistryReplace → Option String × Option WrittenRegistry
  | .done =>
      match registryBytes codec records with
      | .error error => (some error.display, none)
      | .ok bytes => (none, some (records, bytes))
  | .failed error replaced =>
      match registryBytes codec records with
      | .error error => (some error.display, none)
      | .ok bytes =>
          (some (RegistryCommitError.io error).display,
            if replaced then some (records, bytes) else none)
  | .taskFailed error replaced =>
      (some ("session identity registry commit task failed: " ++ error),
        match registryBytes codec records with
        | .error _ => none
        | .ok bytes => if replaced then some (records, bytes) else none)

/-- What `resolve_new` answers, and what it wrote. -/
structure ResolveAnswer where
  identity : ResolvedSessionIdentity
  written : Option WrittenRegistry

/-- `resolve_new`; `none` while its loop still draws. -/
def SessionIdentityResolver.resolveNew (codec : RegistryCodec) (flavor : PathFlavor)
    (resolver : SessionIdentityResolver) (lineage : SessionLineage)
    (surroundings : ResolveSurroundings) : Option (ResolveAnswer × SessionIdentityResolver) :=
  let volatileAnswer (written : Option WrittenRegistry) (resolver : SessionIdentityResolver) :=
    (volatileIdentity resolver.records surroundings.volatileDraws).map fun identity =>
      ((⟨identity, written⟩ : ResolveAnswer), resolver)
  if resolver.health ≠ .healthy then volatileAnswer none resolver
  else match resolver.records.get lineage with
  | some sessionId => some (⟨⟨sessionId, .durable⟩, none⟩, resolver)
  | none =>
      if maxSessionIdentityRecords ≤ resolver.records.size ∨ lineage.isCanonical flavor = false then
        volatileAnswer none resolver
      else match freshSessionId resolver.records surroundings.draws with
      | none => none
      | some candidate =>
          let nextRecords := resolver.records.insert lineage candidate
          match commitRegistry codec nextRecords surroundings.replace with
          | (none, written) =>
              some (⟨⟨candidate, .durable⟩, written⟩, { resolver with records := nextRecords })
          | (some error, written) => volatileAnswer written (resolver.markDegraded error)

/-! ## Records that pass the checks -/

section
variable {codec : RegistryCodec} {flavor : PathFlavor} {records : IdentityRecords}
  {lineage lineage' : SessionLineage} {id : SessionId} {bytes : Bytes}

theorem hasId_iff : records.hasId id = true ↔ ∃ lineage, records.get lineage = some id := by
  rw [IdentityRecords.hasId, any_eq_true]
  constructor
  · rintro ⟨⟨lineage, id'⟩, hmem, heq⟩
    obtain rfl : id' = id := of_decide_eq_true heq
    exact ⟨lineage, records.mem_entries.mp hmem⟩
  · rintro ⟨lineage, hget⟩
    exact ⟨(lineage, id), records.mem_entries.mpr hget, decide_eq_true rfl⟩

/-- Canonical lineages with ids of their own. -/
structure SoundRecords (flavor : PathFlavor) (records : IdentityRecords) : Prop where
  canonical : ∀ lineage id, records.get lineage = some id → lineage.isCanonical flavor = true
  named : ∀ lineage id, records.get lineage = some id → id ≠ 0
  distinct : ∀ lineage lineage' id, records.get lineage = some id →
    records.get lineage' = some id → lineage = lineage'

theorem soundRecords_empty : SoundRecords flavor .empty where
  canonical := fun _ _ h => by cases h
  named := fun _ _ h => by cases h
  distinct := fun _ _ _ h => by cases h

theorem SoundRecords.insert (h : SoundRecords flavor records)
    (hcanonical : lineage.isCanonical flavor = true) (hnamed : id ≠ 0)
    (hnew : records.hasId id = false) : SoundRecords flavor (records.insert lineage id) := by
  have hother : ∀ {other}, records.get other ≠ some id := fun {other} hget => by
    rw [hasId_iff.mpr ⟨other, hget⟩] at hnew
    cases hnew
  refine ⟨?_, ?_, ?_⟩
  · intro other id' hget
    rw [get_insert] at hget
    by_cases heq : other = lineage
    · rw [heq]
      exact hcanonical
    · rw [if_neg heq] at hget
      exact h.canonical other id' hget
  · intro other id' hget
    rw [get_insert] at hget
    rcases ite_eq_iff.mp hget with ⟨heq, hget⟩ | ⟨heq, hget⟩
    · rw [← Option.some.inj hget]
      exact hnamed
    · exact h.named other id' hget
  · intro one other id' hone hget
    rw [get_insert] at hone hget
    by_cases h₁ : one = lineage
    · by_cases h₂ : other = lineage
      · rw [h₁, h₂]
      · rw [if_pos h₁] at hone
        rw [if_neg h₂, ← Option.some.inj hone] at hget
        exact absurd hget hother
    · rw [if_neg h₁] at hone
      rcases ite_eq_iff.mp hget with ⟨h₂, hget⟩ | ⟨h₂, hget⟩
      · rw [← Option.some.inj hget] at hone
        exact absurd hone hother
      · exact h.distinct one other id' hone hget

/-- What the checks let through is sound. -/
theorem sound_of_validateRecordsFrom {list : List SessionIdentityRecord}
    {byLineage : IdentityRecords} (h : SoundRecords flavor byLineage)
    (hok : validateRecordsFrom flavor list byLineage = .ok records) :
    SoundRecords flavor records := by
  induction list generalizing byLineage with
  | nil =>
    cases hok
    exact h
  | cons record rest ih =>
    simp only [validateRecordsFrom, rejectIf_bind_eq_ok, Bool.not_eq_false,
      Bool.not_eq_true] at hok
    obtain ⟨hcanonical, hnamed, hnew, -, hrest⟩ := hok
    exact ih (h.insert hcanonical hnamed hnew) hrest

theorem sound_of_parseRegistry (hok : parseRegistry codec flavor bytes = .ok records) :
    SoundRecords flavor records := by
  simp only [parseRegistry, rejectIf_bind_eq_ok] at hok
  obtain ⟨-, hok⟩ := hok
  split at hok
  · cases hok
  · split at hok
    · cases hok
    · split_ifs at hok
      split at hok
      · cases hok
      · split_ifs at hok
        split at hok
        · cases hok
        · split_ifs at hok
          simp only [validateRecords, rejectIf_bind_eq_ok] at hok
          exact sound_of_validateRecordsFrom soundRecords_empty hok.2

/-- Entries that meet the checks pass them, and are what the result maps. -/
theorem validateRecordsFrom_entries {entries : List (SessionLineage × SessionId)}
    {byLineage : IdentityRecords} (hkeys : (entries.map Prod.fst).Nodup)
    (hids : (entries.map Prod.snd).Nodup)
    (hentries : ∀ e ∈ entries, e.1.isCanonical flavor = true ∧ e.2 ≠ 0 ∧
      byLineage.get e.1 = none ∧ byLineage.hasId e.2 = false) :
    ∃ result, validateRecordsFrom flavor (entries.map fun e => ⟨e.1, e.2⟩) byLineage =
        .ok result ∧
      ∀ lineage id, result.get lineage = some id ↔
        (lineage, id) ∈ entries ∨ byLineage.get lineage = some id := by
  induction entries generalizing byLineage with
  | nil => exact ⟨byLineage, rfl, by simp⟩
  | cons e rest ih =>
    rw [map_cons, nodup_cons] at hkeys hids
    obtain ⟨hcanonical, hnamed, hnone, hnew⟩ := hentries e mem_cons_self
    -- the rest is checked against the entries so far and this one
    have hrest : ∀ e' ∈ rest, e'.1.isCanonical flavor = true ∧ e'.2 ≠ 0 ∧
        (byLineage.insert e.1 e.2).get e'.1 = none ∧
          IdentityRecords.hasId (byLineage.insert e.1 e.2) e'.2 = false := by
      intro e' hmem
      obtain ⟨hcanonical', hnamed', hnone', hnew'⟩ := hentries e' (mem_cons_of_mem e hmem)
      have hkey : e'.1 ≠ e.1 := fun heq => hkeys.1 (mem_map.mpr ⟨e', hmem, heq⟩)
      have hid : e'.2 ≠ e.2 := fun heq => hids.1 (mem_map.mpr ⟨e', hmem, heq⟩)
      refine ⟨hcanonical', hnamed', ?_, ?_⟩
      · rw [get_insert_of_ne _ hkey]
        exact hnone'
      · rw [← Bool.not_eq_true, hasId_iff]
        rintro ⟨lineage, hget⟩
        rw [get_insert] at hget
        rcases ite_eq_iff.mp hget with ⟨heq, hget⟩ | ⟨heq, hget⟩
        · exact hid (Option.some.inj hget).symm
        · rw [hasId_iff.mpr ⟨lineage, hget⟩] at hnew'
          cases hnew'
    obtain ⟨result, hresult, hget⟩ := ih hkeys.2 hids.2 hrest
    refine ⟨result, ?_, ?_⟩
    · simp only [map_cons, validateRecordsFrom, rejectIf_bind_eq_ok, Bool.not_eq_false,
        Bool.not_eq_true]
      exact ⟨hcanonical, hnamed, hnew, by rw [hnone]; rfl, hresult⟩
    · intro lineage id
      rw [hget, get_insert, mem_cons]
      by_cases heq : lineage = e.1
      · rw [if_pos heq]
        subst heq
        constructor
        · rintro (hmem | hsome)
          · exact .inl (.inr hmem)
          · exact .inl (.inl (Prod.ext rfl (Option.some.inj hsome).symm))
        · rintro ((hhead | hmem) | hsome)
          · exact .inr (congrArg some (Prod.ext_iff.mp hhead).2.symm)
          · exact .inl hmem
          · rw [hnone] at hsome
            cases hsome
      · rw [if_neg heq]
        have hhead : (lineage, id) ≠ e := fun hhead => heq (congrArg Prod.fst hhead)
        constructor
        · rintro (hmem | hsome)
          · exact .inl (.inr hmem)
          · exact .inr hsome
        · rintro ((hmem | hmem) | hsome)
          · exact absurd hmem hhead
          · exact .inl hmem
          · exact .inr hsome

theorem registryBytes_of_toVec
    (hvec : codec.toVec ⟨1, records.entries.map fun e => ⟨e.1, e.2⟩⟩ = .ok bytes)
    (hfits : ¬ maxSessionIdentityRegistryBytes < bytes.length) :
    registryBytes codec records = .ok bytes := by
  rw [registryBytes, hvec]
  exact if_neg hfits

/-- **What is written reads back** as the map that was written. -/
theorem parseRegistry_registryBytes (h : SoundRecords flavor records)
    (hsize : records.size ≤ maxSessionIdentityRecords)
    (hbytes : registryBytes codec records = .ok bytes) :
    ∃ loaded, parseRegistry codec flavor bytes = .ok loaded ∧
      ∀ lineage, loaded.get lineage = records.get lineage := by
  have hkeys := records.nodup
  have hids : (records.entries.map Prod.snd).Nodup := by
    refine List.Nodup.map_on ?_ (List.Nodup.of_map _ hkeys)
    intro e he e' he' heq
    have hlineage := h.distinct e.1 e'.1 e.2 (records.mem_entries.mp he)
      (heq ▸ records.mem_entries.mp he')
    exact Prod.ext hlineage heq
  have hentries : ∀ e ∈ records.entries, e.1.isCanonical flavor = true ∧ e.2 ≠ 0 ∧
      (AssocMap.empty : IdentityRecords).get e.1 = none ∧
        IdentityRecords.hasId .empty e.2 = false := by
    intro e he
    have hget := records.mem_entries.mp he
    exact ⟨h.canonical e.1 e.2 hget, h.named e.1 e.2 hget, rfl, rfl⟩
  obtain ⟨loaded, hloaded, hget⟩ := validateRecordsFrom_entries hkeys hids hentries
  refine ⟨loaded, ?_, fun lineage => Option.ext fun id => ?_⟩
  · rw [registryBytes] at hbytes
    split at hbytes
    · cases hbytes
    · next written hvec =>
      split_ifs at hbytes with hfits
      cases hbytes
      have hcount : ¬ maxSessionIdentityRecords < (records.entries.map fun e =>
          (⟨e.1, e.2⟩ : SessionIdentityRecord)).length := by
        rw [length_map]
        exact Nat.not_lt.mpr hsize
      simp only [parseRegistry, rejectIf_bind_eq_ok, codec.fromSlice_toVec hvec, ne_eq,
        not_true_eq_false, if_false, if_neg hcount, validateRecords]
      exact ⟨hfits, hcount, hloaded⟩
  · rw [hget, records.mem_entries]
    simp

end

/-- A volatile answer changes nothing; a known lineage is answered from the records;
a new one is committed, or its commit fails, the file replaced or not. -/
inductive ResolveEffect (codec : RegistryCodec) (flavor : PathFlavor)
    (resolver : SessionIdentityResolver) (lineage : SessionLineage) :
    ResolveAnswer → SessionIdentityResolver → Prop
  | unresolved (id : SessionId) :
      ResolveEffect codec flavor resolver lineage ⟨⟨id, .volatile⟩, none⟩ resolver
  | known (id : SessionId) : resolver.health = .healthy → resolver.records.get lineage = some id →
      ResolveEffect codec flavor resolver lineage ⟨⟨id, .durable⟩, none⟩ resolver
  | committed (candidate : SessionId) (bytes : Bytes) : resolver.health = .healthy →
      resolver.records.get lineage = none → resolver.records.size < maxSessionIdentityRecords →
      lineage.isCanonical flavor = true → candidate ≠ 0 →
      resolver.records.hasId candidate = false →
      registryBytes codec (resolver.records.insert lineage candidate) = .ok bytes →
      ResolveEffect codec flavor resolver lineage
        ⟨⟨candidate, .durable⟩, some (resolver.records.insert lineage candidate, bytes)⟩
        { resolver with records := resolver.records.insert lineage candidate }
  | failed (candidate id : SessionId) (error : String) (written : Option WrittenRegistry) :
      resolver.health = .healthy → resolver.records.get lineage = none →
      resolver.records.size < maxSessionIdentityRecords →
      lineage.isCanonical flavor = true → candidate ≠ 0 →
      resolver.records.hasId candidate = false →
      (∀ w, written = some w → w.1 = resolver.records.insert lineage candidate ∧
        registryBytes codec w.1 = .ok w.2) →
      ResolveEffect codec flavor resolver lineage ⟨⟨id, .volatile⟩, written⟩
        (resolver.markDegraded error)

section
variable {codec : RegistryCodec} {flavor : PathFlavor} {resolver : SessionIdentityResolver}
  {lineage : SessionLineage} {surroundings : ResolveSurroundings} {records : IdentityRecords}

/-- What is written is the registry of the records, and a commit that succeeds
writes it. -/
theorem commitRegistry_spec {replace : RegistryReplace} {error : Option String}
    {written : Option WrittenRegistry}
    (h : commitRegistry codec records replace = (error, written)) :
    (∀ w, written = some w → w.1 = records ∧ registryBytes codec w.1 = .ok w.2) ∧
      (error = none → ∃ bytes, written = some (records, bytes)) := by
  cases replace with
  | done =>
    rw [commitRegistry] at h
    cases hbytes : registryBytes codec records with
    | error _ =>
      simp only [hbytes, Prod.mk.injEq] at h
      obtain ⟨rfl, rfl⟩ := h
      simp
    | ok bytes =>
      simp only [hbytes, Prod.mk.injEq] at h
      obtain ⟨rfl, rfl⟩ := h
      refine ⟨fun w hw => ?_, fun _ => ⟨bytes, rfl⟩⟩
      cases hw
      exact ⟨rfl, hbytes⟩
  | failed _ replaced | taskFailed _ replaced =>
    rw [commitRegistry] at h
    cases hbytes : registryBytes codec records with
    | error _ =>
      simp only [hbytes, Prod.mk.injEq] at h
      obtain ⟨rfl, rfl⟩ := h
      simp
    | ok bytes =>
      simp only [hbytes, Prod.mk.injEq] at h
      obtain ⟨rfl, rfl⟩ := h
      refine ⟨fun w hw => ?_, (fun he => by cases he)⟩
      split_ifs at hw
      cases hw
      exact ⟨rfl, hbytes⟩

theorem resolve_effect {result : ResolveAnswer × SessionIdentityResolver}
    (h : resolver.resolveNew codec flavor lineage surroundings = some result) :
    ResolveEffect codec flavor resolver lineage result.1 result.2 := by
  simp only [SessionIdentityResolver.resolveNew, volatileIdentity, Option.map_map] at h
  rcases ite_eq_iff.mp h with ⟨hhealth, h⟩ | ⟨hhealth, h⟩
  · obtain ⟨id, -, rfl⟩ := Option.map_eq_some_iff.mp h
    exact .unresolved id
  · rw [not_not] at hhealth
    cases hget : resolver.records.get lineage with
    | some id =>
      simp only [hget] at h
      cases h
      exact .known id hhealth hget
    | none =>
      simp only [hget] at h
      rcases ite_eq_iff.mp h with ⟨hfull, h⟩ | ⟨hfull, h⟩
      · obtain ⟨id, -, rfl⟩ := Option.map_eq_some_iff.mp h
        exact .unresolved id
      · obtain ⟨hroom, hcanonical⟩ := not_or.mp hfull
        cases hfresh : freshSessionId resolver.records surroundings.draws with
        | none =>
          simp only [hfresh] at h
          cases h
        | some candidate =>
          have hcandidate := find?_some hfresh
          rw [Bool.and_eq_true, decide_eq_true_iff, Bool.not_eq_true'] at hcandidate
          cases hcommit : commitRegistry codec (resolver.records.insert lineage candidate)
            surroundings.replace with
          | mk error written =>
            obtain ⟨hwritten, hdone⟩ := commitRegistry_spec hcommit
            simp only [hfresh, hcommit] at h
            cases error with
            | none =>
              cases h
              obtain ⟨bytes, rfl⟩ := hdone rfl
              exact .committed candidate bytes hhealth hget (by omega)
                (Bool.not_eq_false _ ▸ hcanonical) hcandidate.1 hcandidate.2 (hwritten _ rfl).2
            | some error =>
              obtain ⟨id, -, rfl⟩ := Option.map_eq_some_iff.mp h
              exact .failed candidate id error written hhealth hget (by omega)
                (Bool.not_eq_false _ ▸ hcanonical) hcandidate.1 hcandidate.2 hwritten

end

end Localview
