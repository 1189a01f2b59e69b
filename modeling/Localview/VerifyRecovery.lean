import Localview.SoloCall
import Localview.NamedFiles
import Localview.AssocMap
import Localview.JournalFile

/-! # Recovering Trusted Verify records

The desktop's `VerificationStore` on a ready persistence root: what it has in memory, and
the files in which `persist_record` and `consume_record` keep it so that `load_records`
finds it after a crash.  A record is its metadata file, committed by a rename, and before
that its visual and its Wave 9 companion.

The store's lock is held over the file system steps, so that the requests come one by one;
each step may fail, and then it is without effect, and the process may stop after any.
-/
namespace Localview.TrustedVerify
open Interleaving Interleaving.Call EarlyReturn

/-! ## Records -/

/-- Where a verification stands. -/
inductive VerificationStatus
  | pending
  | verifying
  | verified
  | expired
  | invalidated
  deriving DecidableEq

/-- What a verification looks at. -/
inductive VerificationScope
  | semanticVisual
  | semanticOnly
  deriving DecidableEq

/-- The baseline; `rest` is the selected node and the issues. -/
structure VerifySemanticBaseline (S : Type) where
  contextVersion : Nat
  rest : S
  deriving DecidableEq

/-- What a record, in memory and persisted, says of the change. -/
structure RecordFields (S : Type) where
  (verificationId proposalId sessionId reference canonicalRoute canonicalFile projectRoot : String)
  displayFile : String
  sourceLine : Nat
  (postimageSha256 instruction : String)
  semanticBefore : VerifySemanticBaseline S
  scope : VerificationScope
  deriving DecidableEq

/-- The captured image; `frame` is the viewport, the size, the target and the time. -/
structure VerifyVisualBaseline (V : Type) where
  png : Bytes
  frame : V

structure VerificationRecord (S V W : Type) extends RecordFields S where
  visualBefore : Option (VerifyVisualBaseline V)
  wave9Preflight : Option W
  (createdAt expiresAt : Nat)
  status : VerificationStatus

/-- A frame kept by the hash of its file. -/
structure PersistedVisualBaselineV1 (V : Type) where
  pngSha256 : String
  frame : V
  deriving DecidableEq

structure PersistedVerificationRecordV1 (S V : Type) extends RecordFields S where
  schemaVersion : Nat
  visualBefore : Option (PersistedVisualBaselineV1 V)
  (createdAtUnixMs expiresAtUnixMs : Nat)
  deriving DecidableEq

structure PersistedVerificationRecordV2 (S V W : Type) extends
    PersistedVerificationRecordV1 S V where
  wave9Preflight : Option W

def PersistedVerificationRecordV2.ofV1 {S V W : Type} (r : PersistedVerificationRecordV1 S V) :
    PersistedVerificationRecordV2 S V W :=
  { r with schemaVersion := 1, wave9Preflight := none }

structure PersistedWave9PreflightV1 (W : Type) where
  schemaVersion : Nat
  verificationId : String
  wave9Preflight : W
  deriving DecidableEq

/-- `sha256_bytes`, the form of an id, and `serde_json` at the persisted types: what is
written has its version, and the companion, which holds no floats, is read back as it was. -/
structure RecoveryCodec (S V W : Type) where
  sha256 : Bytes → String
  validVerificationId : String → Bool
  toVec : PersistedVerificationRecordV1 S V → Except String Bytes
  schemaVersion : Bytes → Except String (Option Nat)
  fromV1 : Bytes → Except String (PersistedVerificationRecordV1 S V)
  fromV2 : Bytes → Except String (PersistedVerificationRecordV2 S V W)
  toVecWave9 : PersistedWave9PreflightV1 W → Except String Bytes
  fromSliceWave9 : Bytes → Except String (PersistedWave9PreflightV1 W)
  schemaVersion_toVec : ∀ {r bytes}, toVec r = .ok bytes →
    schemaVersion bytes = .ok (some r.schemaVersion)
  fromSliceWave9_toVec : ∀ {r bytes}, toVecWave9 r = .ok bytes → fromSliceWave9 bytes = .ok r

def verifyContextVersion : Nat := 1
def recoverySchemaVersion : Nat := 1
def wave9RecoverySchemaVersion : Nat := 1
def maxVerificationRecords : Nat := 16
def maxVerifyVisualBytesPerRecord : Nat := 16 * 1024 * 1024
def maxVerifyTotalVisualBytes : Nat := 64 * 1024 * 1024
def maxRecoveryMetadataBytes : Nat := 256 * 1024
def maxRecoveryWave9Bytes : Nat := 256 * 1024

/-! ## Files -/

/-- The suffix of a file's name. -/
inductive FileKind
  | json
  | png
  | wave9
  | consumed
  | jsonTmp
  | wave9Tmp
  deriving DecidableEq

/-- A file of the root: its name is the id and the suffix. -/
structure RecoveryFile where
  id : String
  kind : FileKind
  deriving DecidableEq

abbrev Disk : Type := NamedFiles RecoveryFile Bytes

abbrev DiskCall (α : Type) : Type := Call Disk Empty String α

/-- `fs::remove_file`, its result dropped. -/
def removeFile (succeeds : Bool) (file : RecoveryFile) : DiskCall Unit :=
  update fun disk => ((), if succeeds = true then disk.erase file else disk, [])

/-- A step on a file that is open for writing. -/
def onFile (succeeds : Bool) (change : Disk → Disk) : DiskCall Unit :=
  locked fun disk =>
    if succeeds then (.ok (), change disk, [])
    else (.error "persist trusted Verify recovery file", disk, [])

/-- `fs::rename` -/
def renameFile (succeeds : Bool) (source destination : RecoveryFile) (error : String) :
    DiskCall Unit :=
  locked fun disk =>
    if succeeds ∧ (disk source).isSome then
      (.ok (), disk.move source destination, [])
    else (.error error, disk, [])

/-- The steps of `write_new_private_file` that succeed. -/
structure WriteOutcomes where
  (create write sync remove : Bool)

def writeNewPrivateFile (o : WriteOutcomes) (file : RecoveryFile) (bytes : Bytes) :
    DiskCall Unit := do
  locked fun disk =>
    if o.create ∧ (disk file).isNone then (.ok (), disk.put file [], [])
    else (.error "create trusted Verify recovery file", disk, [])
  match ← ((do
      onFile o.write fun disk => disk.put file bytes
      onFile o.sync id : DiskCall Unit).attempt : DiskCall (Except String Unit)) with
  | .ok () => pure ()
  | .error e => do
      removeFile o.remove file
      .fail e

/-- `read_bounded_regular_file` -/
def readBounded (disk : Disk) (file : RecoveryFile) (maxBytes : Nat) : Except String Bytes := do
  let bytes ← okOr (disk file) "inspect trusted Verify recovery file"
  rejectIf (maxBytes < bytes.length)
    "trusted Verify recovery file is unsafe or exceeds its bound"
  return bytes

/-! ## Persisting and consuming -/

section
variable {S V W : Type} (codec : RecoveryCodec S V W)

/-- `now_unix_ms`, the clocks in nanoseconds on one scale. -/
def nowUnixMs (now : Nat) : Nat := min (now / 1000000) u64Max

/-- `persisted_record`, its two clocks read one after the other. -/
def persistedRecord (record : VerificationRecord S V W) (wallNow now : Nat) :
    PersistedVerificationRecordV1 S V :=
  let nowMs := nowUnixMs wallNow
  let remainingMs := min ((record.expiresAt - now) / 1000000) u64Max
  { record with
    schemaVersion := recoverySchemaVersion
    visualBefore := record.visualBefore.map fun visual =>
      { pngSha256 := codec.sha256 visual.png, frame := visual.frame }
    createdAtUnixMs := nowMs
    expiresAtUnixMs := min (nowMs + remainingMs) u64Max }

/-- The steps of `persist_record` that succeed. -/
structure PersistOutcomes where
  (directory looks : Bool)
  visual : WriteOutcomes
  wave9Clean : Bool
  wave9 : WriteOutcomes
  (wave9Rename wave9Undo wave9UndoVisual metadataClean : Bool)
  metadata : WriteOutcomes
  (metadataRename metadataUndo metadataUndoVisual metadataUndoWave9 : Bool)

/-- The bytes of the Wave 9 companion. -/
def wave9Bytes (record : VerificationRecord S V W) : Except String (Option Bytes) :=
  match record.wave9Preflight with
  | none => .ok none
  | some wave9Preflight => do
      let bytes ← codec.toVecWave9
        { schemaVersion := wave9RecoverySchemaVersion, verificationId := record.verificationId
          wave9Preflight }
      return some bytes

def writeVisual (o : PersistOutcomes) (record : VerificationRecord S V W) : DiskCall Unit :=
  match record.visualBefore with
  | none => pure ()
  | some before => do
      reject (maxVerifyVisualBytesPerRecord < before.png.length)
        "trusted Verify recovery visual baseline exceeds its bound"
      writeNewPrivateFile o.visual ⟨record.verificationId, .png⟩ before.png

/-- A temporary file that is left goes first. -/
def removeLeft (succeeds : Bool) (file : RecoveryFile) : DiskCall Unit :=
  update fun disk =>
    ((), if succeeds ∧ (disk file).isSome then disk.erase file else disk, [])

def writeWave9 (o : PersistOutcomes) (id : String) : Option Bytes → DiskCall Unit
  | none => pure ()
  | some bytes => do
      removeLeft o.wave9Clean ⟨id, .wave9Tmp⟩
      match ← ((do
          writeNewPrivateFile o.wave9 ⟨id, .wave9Tmp⟩ bytes
          renameFile o.wave9Rename ⟨id, .wave9Tmp⟩ ⟨id, .wave9⟩
            "commit trusted Verify Wave 9 recovery context" : DiskCall Unit).attempt :
              DiskCall (Except String Unit)) with
      | .ok () => pure ()
      | .error e => do
          removeFile o.wave9Undo ⟨id, .wave9Tmp⟩
          removeFile o.wave9UndoVisual ⟨id, .png⟩
          .fail e

def writeMetadata (o : PersistOutcomes) (id : String) (bytes : Bytes) : DiskCall Unit := do
  removeLeft o.metadataClean ⟨id, .jsonTmp⟩
  match ← ((do
      writeNewPrivateFile o.metadata ⟨id, .jsonTmp⟩ bytes
      renameFile o.metadataRename ⟨id, .jsonTmp⟩ ⟨id, .json⟩
        "commit trusted Verify recovery metadata" : DiskCall Unit).attempt :
          DiskCall (Except String Unit)) with
  | .ok () => pure ()
  | .error e => do
      removeFile o.metadataUndo ⟨id, .jsonTmp⟩
      removeFile o.metadataUndoVisual ⟨id, .png⟩
      removeFile o.metadataUndoWave9 ⟨id, .wave9⟩
      .fail e

def persistRecord (record : VerificationRecord S V W) (o : PersistOutcomes) (wallNow now : Nat) :
    DiskCall Unit := do
  reject (o.directory = false) "trusted Verify recovery directory identity is unsafe"
  reject (record.status ≠ .pending) "trusted Verify can persist only pending recovery records"
  let metadataBytes ← ofExcept (codec.toVec (persistedRecord codec record wallNow now))
  reject (maxRecoveryMetadataBytes < metadataBytes.length)
    "trusted Verify recovery metadata exceeds its bound"
  let wave9Bytes ← ofExcept (wave9Bytes codec record)
  reject (∃ bytes ∈ wave9Bytes, maxRecoveryWave9Bytes < bytes.length)
    "trusted Verify Wave 9 recovery context exceeds its bound"
  reject (codec.validVerificationId record.verificationId = false)
    "trusted Verify recovery id is malformed"
  locked fun disk =>
    if o.looks = true ∧ ∃ kind ∈ [FileKind.json, .png, .wave9, .consumed],
        (disk ⟨record.verificationId, kind⟩).isSome then
      (.error "trusted Verify recovery record already exists", disk, [])
    else (.ok (), disk, [])
  writeVisual o record
  writeWave9 o record.verificationId wave9Bytes
  writeMetadata o record.verificationId metadataBytes

/-- The steps of `consume_record` that succeed. -/
structure ConsumeOutcomes where
  (rename looks removeVisual removeWave9 removeConsumed : Bool)

def consumeRecord (id : String) (o : ConsumeOutcomes) : DiskCall Unit := do
  reject (codec.validVerificationId id = false) "trusted Verify recovery id is malformed"
  locked fun disk =>
    if o.rename ∧ (disk ⟨id, .json⟩).isSome then
      (.ok (), disk.move ⟨id, .json⟩ ⟨id, .consumed⟩, [])
    else if (disk ⟨id, .json⟩).isNone ∧ o.looks = true ∧
        (disk ⟨id, .consumed⟩).isSome then (.ok (), disk, [])
    else (.error "retire trusted Verify recovery metadata before consumption", disk, [])
  removeFile o.removeVisual ⟨id, .png⟩
  removeFile o.removeWave9 ⟨id, .wave9⟩
  removeFile o.removeConsumed ⟨id, .consumed⟩

/-! ## Loading -/

def decodePersistedRecord (bytes : Bytes) :
    Except String (PersistedVerificationRecordV2 S V W) := do
  let version ← codec.schemaVersion bytes
  match version with
  | none => .error "trusted Verify recovery metadata is missing schema version"
  | some 1 => do
      let record ← codec.fromV1 bytes
      return .ofV1 record
  | some 2 => do
      let record ← codec.fromV2 bytes
      return { record with schemaVersion := recoverySchemaVersion }
  | some version =>
      .error ("trusted Verify recovery schema version " ++ toString version ++ " is unsupported")

def loadWave9Preflight (disk : Disk) (id : String) : Except String (Option W) :=
  if (disk ⟨id, .wave9⟩).isNone then .ok none
  else do
    let bytes ← readBounded disk ⟨id, .wave9⟩ maxRecoveryWave9Bytes
    let persisted ← codec.fromSliceWave9 bytes
    rejectIf (persisted.schemaVersion ≠ wave9RecoverySchemaVersion ∨ persisted.verificationId ≠ id)
      "trusted Verify Wave 9 recovery context version or identity mismatch"
    return some persisted.wave9Preflight

abbrev Records (S V W : Type) : Type := AssocMap String (VerificationRecord S V W)

/-- What `load_records` has so far. -/
structure LoadState (S V W : Type) where
  disk : Disk
  records : Records S V W
  retainedVisualBytes : Nat
  activeIds : List String

/-- What `load_records` reads of the clocks, which files it can remove, and the order in
which it lists them. -/
structure LoadAnswers where
  (wallNow now : Nat)
  removes : RecoveryFile → Bool
  listing : List RecoveryFile

/-- `let _ = fs::remove_file(..)` -/
def LoadAnswers.remove (a : LoadAnswers) (disk : Disk) (file : RecoveryFile) : Disk :=
  if a.removes file then disk.erase file else disk

def loadVisual (disk : Disk) (id : String) (retained : Nat) :
    Option (PersistedVisualBaselineV1 V) →
      Except String (Option (VerifyVisualBaseline V) × Nat)
  | none => .ok (none, retained)
  | some visual => do
      let png ← readBounded disk ⟨id, .png⟩ maxVerifyVisualBytesPerRecord
      rejectIf (codec.sha256 png ≠ visual.pngSha256)
        "trusted Verify recovery visual baseline digest mismatch"
      rejectIf (u64Max < retained + png.length) "trusted Verify recovery visual budget overflow"
      rejectIf (maxVerifyTotalVisualBytes < retained + png.length)
        "trusted Verify recovery total visual budget exceeded"
      return (some { png, frame := visual.frame }, retained + png.length)

/-- One metadata file. -/
def loadMetadata (a : LoadAnswers) (st : LoadState S V W) (id : String) :
    Except String (LoadState S V W) := do
  rejectIf (codec.validVerificationId id = false)
    "trusted Verify recovery contains an invalid metadata filename"
  let bytes ← readBounded st.disk ⟨id, .json⟩ maxRecoveryMetadataBytes
  let persisted ← decodePersistedRecord codec bytes
  let companionWave9 ← loadWave9Preflight codec st.disk id
  rejectIf (persisted.wave9Preflight.isSome ∧ companionWave9.isSome)
    "trusted Verify recovery contains ambiguous Wave 9 context"
  let wave9Preflight := persisted.wave9Preflight.or companionWave9
  rejectIf (persisted.schemaVersion ≠ recoverySchemaVersion ∨ persisted.verificationId ≠ id ∨
      persisted.semanticBefore.contextVersion ≠ verifyContextVersion ∨
      persisted.expiresAtUnixMs < persisted.createdAtUnixMs)
    "trusted Verify recovery metadata version or identity mismatch"
  let nowMs := nowUnixMs a.wallNow
  if persisted.expiresAtUnixMs ≤ nowMs then
    return { st with
      disk := a.remove (a.remove (a.remove st.disk ⟨id, .json⟩) ⟨id, .png⟩) ⟨id, .wave9⟩ }
  else do
    rejectIf (maxVerificationRecords ≤ st.records.size)
      "trusted Verify recovery exceeds the retained record bound"
    let visual ← loadVisual codec st.disk id st.retainedVisualBytes persisted.visualBefore
    let record : VerificationRecord S V W :=
      { toRecordFields := persisted.toRecordFields, visualBefore := visual.1, wave9Preflight
        createdAt := a.now, expiresAt := a.now + (persisted.expiresAtUnixMs - nowMs) * 1000000
        status := .pending }
    return { st with
      records := st.records.insert record.verificationId record
      retainedVisualBytes := visual.2
      activeIds := record.verificationId :: st.activeIds }

/-- The first loop of `load_records`. -/
def loadEntry (a : LoadAnswers) (st : LoadState S V W) (file : RecoveryFile) :
    Except String (LoadState S V W) :=
  match file.kind with
  | .consumed | .jsonTmp | .wave9Tmp => .ok { st with disk := a.remove st.disk file }
  | .png | .wave9 => .ok st
  | .json => loadMetadata codec a st file.id

/-- The second loop: companions without a record go. -/
def dropOrphan (a : LoadAnswers) (activeIds : List String) (disk : Disk) (file : RecoveryFile) :
    Disk :=
  match file.kind with
  | .png | .wave9 =>
      if codec.validVerificationId file.id ∧ file.id ∉ activeIds then a.remove disk file
      else disk
  | _ => disk

/-- `load_records`: the records, and the disk then. -/
def loadRecords (disk : Disk) (a : LoadAnswers) : Except String (Records S V W × Disk) := do
  let st ← a.listing.foldlM (loadEntry codec a)
    { disk, records := AssocMap.empty, retainedVisualBytes := 0, activeIds := [] }
  return (st.records, a.listing.foldl (dropOrphan codec a st.activeIds) st.disk)

/-! ## The store -/

def retainedVisualBytes (records : Records S V W) : Nat :=
  (records.entries.map fun e => (e.2.visualBefore.map fun visual => visual.png.length).getD 0).sum

/-- The first pass of `reap_expired_locked` on a record. -/
def VerificationRecord.expire (now : Nat) (r : VerificationRecord S V W) :
    VerificationRecord S V W :=
  if r.status = .pending ∧ r.expiresAt ≤ now then { r with status := .expired } else r

/-- `reap_expired_locked`; the records that the first pass changes do not stay. -/
def reapExpiredLocked (records : Records S V W) (now : Nat) : Records S V W :=
  records.retain fun _ r =>
    (r.expire now).status ≠ .expired && (r.expire now).status ≠ .invalidated

/-- The clock's readings of a request, in their order. -/
structure Readings where
  (reap wall now : Nat)
  wall_le : reap ≤ wall
  now_le : wall ≤ now

/-- A request's answer and the records then. -/
abbrev Answered (S V W : Type) : Type := Except String Unit × Records S V W

abbrev StoreCall (α : Type) : Type := Call Disk Empty Empty α

def insert (record : VerificationRecord S V W) (o : PersistOutcomes) (t : Readings)
    (memory : Records S V W) : StoreCall (Answered S V W) := do
  let records := reapExpiredLocked memory t.reap
  let visualBytes := (record.visualBefore.map fun visual => visual.png.length).getD 0
  if maxVerificationRecords ≤ records.size then
    return (.error "trusted Verify capacity exceeded", records)
  else if maxVerifyVisualBytesPerRecord < visualBytes then
    return (.error "trusted Verify visual baseline exceeds per-record bound", records)
  else if u64Max < retainedVisualBytes records + visualBytes then
    return (.error "trusted Verify visual baseline budget overflow", records)
  else if maxVerifyTotalVisualBytes < retainedVisualBytes records + visualBytes then
    return (.error "trusted Verify visual baseline budget exceeded", records)
  else do
    match ← (persistRecord codec record o t.wall t.now).attempt with
    | .error e => return (.error e, records)
    | .ok () => return (.ok (), records.insert record.verificationId record)

def beginVerify (id : String) (t : Readings) (memory : Records S V W) : StoreCall (Answered S V W) :=
  match memory.get id with
  | none => return (.error "trusted Verify record is unavailable", memory)
  | some record =>
      if record.expiresAt ≤ t.wall then
        return (.error "trusted Verify record expired",
          reapExpiredLocked (memory.insert id { record with status := .expired }) t.now)
      else if record.status ≠ .pending then
        return (.error "trusted Verify record is not pending", reapExpiredLocked memory t.now)
      else return (.ok (), memory.insert id { record with status := .verifying })

def releaseRetryable (id : String) (t : Readings) (memory : Records S V W) : StoreCall (Answered S V W) :=
  let records := reapExpiredLocked memory t.reap
  match records.get id with
  | none => return (.error "trusted Verify record is unavailable", records)
  | some record =>
      if record.status = .verifying then
        return (.ok (), records.insert id { record with status := .pending })
      else return (.ok (), records)

def complete (id : String) (o : ConsumeOutcomes) (t : Readings) (memory : Records S V W) :
    StoreCall (Answered S V W) :=
  let records := reapExpiredLocked memory t.reap
  match records.get id with
  | none => return (.error "trusted Verify record is unavailable", records)
  | some record =>
      if record.status ≠ .verifying then
        return (.error "trusted Verify record is not verifying", records)
      else do
        match ← (consumeRecord codec id o).attempt with
        | .error e => return (.error e, records.insert id { record with status := .pending })
        | .ok () => return (.ok (), records.erase id)

def discardVerification (id : String) (o : ConsumeOutcomes) (t : Readings)
    (memory : Records S V W) : StoreCall (Answered S V W) :=
  let records := reapExpiredLocked memory t.reap
  match records.get id with
  | none => return (.ok (), records.erase id)
  | some _ => do
      match ← (consumeRecord codec id o).attempt with
      | .error e => return (.error e, records)
      | .ok () => return (.ok (), records.erase id)

end
end Localview.TrustedVerify
