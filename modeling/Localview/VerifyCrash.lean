import Localview.VerifyRecovery

/-! # Trusted Verify records after a crash

What `load_records` finds is related to what was written: a record whose three files are
as `persist_record` left them is loaded as it was, one that has expired goes, and the
bounds hold because whatever is loaded was in memory before.  `Sound` says this of the
store's memory, its files and a ledger of what was acknowledged.
-/
namespace Localview.TrustedVerify
open Interleaving Interleaving.Call EarlyReturn StateRun List Option AssocMap NamedFiles

section
variable {S V W : Type}

/-- A record as it was inserted, and the clocks that persisting it read. -/
structure Kept (S V W : Type) where
  record : VerificationRecord S V W
  (wallNow now : Nat)

def Kept.id (k : Kept S V W) : String := k.record.verificationId

def Kept.persisted (codec : RecoveryCodec S V W) (k : Kept S V W) :
    PersistedVerificationRecordV1 S V := persistedRecord codec k.record k.wallNow k.now

/-- The time until which it is loaded. -/
def Kept.expiresMs (k : Kept S V W) : Nat :=
  min (nowUnixMs k.wallNow + min ((k.record.expiresAt - k.now) / 1000000) u64Max) u64Max

def VerificationRecord.visualBytes (r : VerificationRecord S V W) : Nat :=
  (r.visualBefore.map fun visual => visual.png.length).getD 0

def Kept.restored (a : LoadAnswers) (k : Kept S V W) : VerificationRecord S V W :=
  { k.record with
    createdAt := a.now
    expiresAt := a.now + (k.expiresMs - nowUnixMs a.wallNow) * 1000000
    status := .pending }

/-- A record with the context version that the code gives every baseline, which is read back
as it was.  The second is asked of the records inserted only: `serde_json` may read a float
back a last place off. -/
structure Kept.Persistable (codec : RecoveryCodec S V W) (k : Kept S V W) : Prop where
  context : k.record.semanticBefore.contextVersion = verifyContextVersion
  readsBack : ∀ bytes, codec.toVec (k.persisted codec) = .ok bytes →
    codec.fromV1 bytes = .ok (k.persisted codec)

/-- The record has these bytes, and they are such as can be loaded. -/
structure Written (codec : RecoveryCodec S V W) (k : Kept S V W) (bytes : Bytes)
    (companion : Option Bytes) : Prop where
  valid : codec.validVerificationId k.id = true
  persistable : k.Persistable codec
  metadata : codec.toVec (k.persisted codec) = .ok bytes
  metadata_le : bytes.length ≤ maxRecoveryMetadataBytes
  wave9 : wave9Bytes codec k.record = .ok companion
  wave9_le : ∀ b ∈ companion, b.length ≤ maxRecoveryWave9Bytes
  visual_le : k.record.visualBytes ≤ maxVerifyVisualBytesPerRecord

/-- The metadata is there, and the companion is as it was written or gone. -/
def Remains (codec : RecoveryCodec S V W) (disk : Disk) (k : Kept S V W) : Prop :=
  ∃ bytes companion, Written codec k bytes companion ∧ disk ⟨k.id, .json⟩ = some bytes ∧
    (disk ⟨k.id, .wave9⟩ = companion ∨ disk ⟨k.id, .wave9⟩ = none)

/-- All the record's files are there. -/
def Intact (codec : RecoveryCodec S V W) (disk : Disk) (k : Kept S V W) : Prop :=
  ∃ bytes companion, Written codec k bytes companion ∧ disk ⟨k.id, .json⟩ = some bytes ∧
    disk ⟨k.id, .wave9⟩ = companion ∧
      ∀ visual ∈ k.record.visualBefore, disk ⟨k.id, .png⟩ = some visual.png

variable {codec : RecoveryCodec S V W} {k : Kept S V W} {disk disk' : Disk} {a : LoadAnswers}
  {st : LoadState S V W} {bytes : Bytes} {companion : Option Bytes}

theorem Intact.remains (h : Intact codec disk k) : Remains codec disk k := by
  obtain ⟨bytes, companion, hwritten, hjson, hwave9, -⟩ := h
  exact ⟨bytes, companion, hwritten, hjson, .inl hwave9⟩

theorem Intact.congr (h : Intact codec disk k)
    (hsame : ∀ kind, kind = .json ∨ kind = .png ∨ kind = .wave9 →
      disk' ⟨k.id, kind⟩ = disk ⟨k.id, kind⟩) : Intact codec disk' k := by
  obtain ⟨bytes, companion, hwritten, hjson, hwave9, hpng⟩ := h
  refine ⟨bytes, companion, hwritten, ?_, ?_, ?_⟩
  · rw [hsame _ (by simp)]
    exact hjson
  · rw [hsame _ (by simp)]
    exact hwave9
  · rw [hsame _ (by simp)]
    exact hpng

theorem Remains.congr (h : Remains codec disk k)
    (hjson : disk' ⟨k.id, .json⟩ = disk ⟨k.id, .json⟩)
    (hwave9 : disk' ⟨k.id, .wave9⟩ = disk ⟨k.id, .wave9⟩ ∨ disk' ⟨k.id, .wave9⟩ = none) :
    Remains codec disk' k := by
  obtain ⟨bytes, companion, hwritten, hj, hw⟩ := h
  refine ⟨bytes, companion, hwritten, hjson.trans hj, ?_⟩
  rcases hwave9 with heq | hnone
  · rw [heq]
    exact hw
  · exact .inr hnone

/-! ## Reading one record -/

theorem readBounded_ok {file : RecoveryFile} {maxBytes : Nat} (hfile : disk file = some bytes)
    (hle : bytes.length ≤ maxBytes) : readBounded disk file maxBytes = .ok bytes := by
  simp only [readBounded, okOr_bind_eq_ok, rejectIf_bind_eq_ok]
  exact ⟨bytes, hfile, Nat.not_lt.mpr hle, rfl⟩

theorem decode_written (h : Written codec k bytes companion) :
    decodePersistedRecord codec bytes = .ok (.ofV1 (k.persisted codec)) := by
  have hversion : codec.schemaVersion bytes = .ok (some 1) := codec.schemaVersion_toVec h.metadata
  unfold decodePersistedRecord
  rw [bind_eq_ok]
  refine ⟨some 1, hversion, ?_⟩
  show (codec.fromV1 bytes >>= _) = _
  rw [bind_eq_ok]
  exact ⟨_, h.persistable.readsBack _ h.metadata, rfl⟩

/-- The companion, where it is: what was written into it. -/
theorem loadWave9_companion (h : Written codec k bytes companion)
    (hfile : disk ⟨k.id, .wave9⟩ = companion) :
    loadWave9Preflight codec disk k.id = .ok k.record.wave9Preflight := by
  have hbytes := h.wave9
  have hle := h.wave9_le
  unfold wave9Bytes at hbytes
  unfold loadWave9Preflight
  split at hbytes
  · rename_i hnone
    cases hbytes
    rw [hfile, hnone]
    rfl
  · rename_i wave9Preflight hsome
    obtain ⟨b, hb, heq⟩ := bind_eq_ok.mp hbytes
    cases heq
    rw [hfile, if_neg (by simp), bind_eq_ok]
    refine ⟨b, readBounded_ok hfile (hle b rfl), ?_⟩
    rw [bind_eq_ok]
    refine ⟨_, codec.fromSliceWave9_toVec hb, ?_⟩
    rw [rejectIf_bind_eq_ok, hsome]
    exact ⟨by simp [Kept.id], rfl⟩

theorem loadWave9_remains (h : Remains codec disk k) :
    ∃ wave9, loadWave9Preflight codec disk k.id = .ok wave9 := by
  obtain ⟨bytes, companion, hwritten, -, hwave9⟩ := h
  rcases hwave9 with hfile | hnone
  · exact ⟨_, loadWave9_companion hwritten hfile⟩
  · exact ⟨none, by rw [loadWave9Preflight, hnone]; rfl⟩

/-- What every written record passes before its expiry is looked at. -/
theorem metadata_accepted (h : Written codec k bytes companion) :
    ¬ ((k.persisted codec).schemaVersion ≠ recoverySchemaVersion ∨
      (k.persisted codec).verificationId ≠ k.id ∨
        (k.persisted codec).semanticBefore.contextVersion ≠ verifyContextVersion ∨
          (k.persisted codec).expiresAtUnixMs < (k.persisted codec).createdAtUnixMs) := by
  have hcreated : nowUnixMs k.wallNow ≤ u64Max := Nat.min_le_right _ _
  have hcontext : k.record.semanticBefore.contextVersion = verifyContextVersion := h.persistable.context
  simp only [Kept.persisted, persistedRecord, Kept.id, hcontext, ne_eq, not_true_eq_false, false_or]
  omega

/-- The beginning of `loadMetadata` on a written record. -/
theorem loadMetadata_written {wave9 : Option W} {st' : LoadState S V W}
    (h : Written codec k bytes companion) (hjson : st.disk ⟨k.id, .json⟩ = some bytes)
    (hwave9 : loadWave9Preflight codec st.disk k.id = .ok wave9)
    (hrest : (if k.expiresMs ≤ nowUnixMs a.wallNow then
        .ok { st with
          disk := a.remove (a.remove (a.remove st.disk ⟨k.id, .json⟩) ⟨k.id, .png⟩) ⟨k.id, .wave9⟩ }
      else do
        rejectIf (maxVerificationRecords ≤ st.records.size)
          "trusted Verify recovery exceeds the retained record bound"
        let visual ← loadVisual codec st.disk k.id st.retainedVisualBytes
          (k.persisted codec).visualBefore
        return { st with
          records := st.records.insert k.id
            { k.restored a with visualBefore := visual.1, wave9Preflight := wave9 }
          retainedVisualBytes := visual.2
          activeIds := k.id :: st.activeIds }) = .ok st') :
    loadMetadata codec a st k.id = .ok st' := by
  unfold loadMetadata
  rw [rejectIf_bind_eq_ok]
  refine ⟨by simp [h.valid], ?_⟩
  rw [bind_eq_ok]
  refine ⟨bytes, readBounded_ok hjson h.metadata_le, ?_⟩
  rw [bind_eq_ok]
  refine ⟨_, decode_written h, ?_⟩
  rw [bind_eq_ok]
  refine ⟨wave9, hwave9, ?_⟩
  rw [rejectIf_bind_eq_ok]
  refine ⟨by simp [PersistedVerificationRecordV2.ofV1], ?_⟩
  rw [rejectIf_bind_eq_ok]
  exact ⟨metadata_accepted h, hrest⟩

/-- An expired record goes. -/
theorem loadMetadata_expired (h : Remains codec st.disk k)
    (hexpired : k.expiresMs ≤ nowUnixMs a.wallNow) :
    loadMetadata codec a st k.id = .ok { st with
      disk := a.remove (a.remove (a.remove st.disk ⟨k.id, .json⟩) ⟨k.id, .png⟩) ⟨k.id, .wave9⟩ } := by
  obtain ⟨wave9, hwave9⟩ := loadWave9_remains h
  obtain ⟨bytes, companion, hwritten, hjson, -⟩ := h
  refine loadMetadata_written hwritten hjson hwave9 ?_
  rw [if_pos hexpired]

/-- A record whose files are there is loaded as it was, where there is room. -/
theorem loadMetadata_intact (h : Intact codec st.disk k)
    (hlive : nowUnixMs a.wallNow < k.expiresMs) (hroom : st.records.size < maxVerificationRecords)
    (hbytes : st.retainedVisualBytes + k.record.visualBytes ≤ maxVerifyTotalVisualBytes) :
    loadMetadata codec a st k.id = .ok { st with
      records := st.records.insert k.id (k.restored a)
      retainedVisualBytes := st.retainedVisualBytes + k.record.visualBytes
      activeIds := k.id :: st.activeIds } := by
  obtain ⟨bytes, companion, hwritten, hjson, hwave9, hpng⟩ := h
  have hvisual : loadVisual codec st.disk k.id st.retainedVisualBytes
      (k.persisted codec).visualBefore =
        .ok (k.record.visualBefore, st.retainedVisualBytes + k.record.visualBytes) := by
    have hle := hwritten.visual_le
    unfold VerificationRecord.visualBytes at hle hbytes ⊢
    cases hbefore : k.record.visualBefore with
    | none =>
      simp only [Kept.persisted, persistedRecord, hbefore]
      rfl
    | some visual =>
      rw [hbefore] at hle hbytes
      simp only [map_some, getD_some] at hle hbytes
      simp only [Kept.persisted, persistedRecord, hbefore, map_some, loadVisual]
      rw [bind_eq_ok]
      refine ⟨visual.png, readBounded_ok (hpng visual hbefore) hle, ?_⟩
      have htotal : maxVerifyTotalVisualBytes ≤ u64Max := by decide
      simp only [rejectIf_bind_eq_ok]
      exact ⟨fun hne => hne rfl, by omega, by omega, rfl⟩
  refine loadMetadata_written hwritten hjson (loadWave9_companion hwritten hwave9) ?_
  rw [if_neg (Nat.not_le.mpr hlive), rejectIf_bind_eq_ok]
  refine ⟨Nat.not_le.mpr hroom, ?_⟩
  rw [bind_eq_ok]
  exact ⟨_, hvisual, rfl⟩

/-! ## Reading them all -/

/-- What is on the disk can be loaded: the records `live`, all of which are among those in
`memory`, and others that have expired. -/
structure Loadable (codec : RecoveryCodec S V W) (disk : Disk) (nowMs : Nat)
    (live : String → Option (Kept S V W)) (memory : Records S V W) : Prop where
  json : ∀ id bytes, disk ⟨id, .json⟩ = some bytes → (live id).isSome ∨
    ∃ k : Kept S V W, k.id = id ∧ Remains codec disk k ∧ k.expiresMs ≤ nowMs
  intact : ∀ id k, live id = some k → k.id = id ∧ Intact codec disk k ∧ nowMs < k.expiresMs
  backed : ∀ id k, live id = some k → ∃ r, memory.get id = some r ∧
    k.record.visualBytes ≤ r.visualBytes
  capacity : memory.size ≤ maxVerificationRecords
  visual : memory.total VerificationRecord.visualBytes ≤ maxVerifyTotalVisualBytes

/-- What `load_records` has after the files `seen`. -/
structure Progress (a : LoadAnswers) (disk : Disk) (live : String → Option (Kept S V W))
    (seen : List RecoveryFile) (st : LoadState S V W) : Prop where
  files : ∀ f, st.disk f = disk f ∨ st.disk f = none
  unread : ∀ id kind, kind = .json ∨ kind = .png ∨ kind = .wave9 →
    (live id).isSome ∨ ⟨id, .json⟩ ∉ seen → st.disk ⟨id, kind⟩ = disk ⟨id, kind⟩
  records : ∀ id, st.records.get id =
    if ⟨id, .json⟩ ∈ seen then (live id).map (Kept.restored a) else none
  retained : st.retainedVisualBytes =
    (st.activeIds.map fun id => ((live id).map fun k => k.record.visualBytes).getD 0).sum
  nodup : st.activeIds.Nodup
  active : ∀ id, id ∈ st.activeIds ↔ ⟨id, .json⟩ ∈ seen ∧ (live id).isSome
  size : st.records.size ≤ st.activeIds.length

section
variable {live : String → Option (Kept S V W)} {memory : Records S V W}
  {seen : List RecoveryFile} {file : RecoveryFile}

theorem remove_cases (a : LoadAnswers) (disk : Disk) (file f : RecoveryFile) :
    a.remove disk file f = disk f ∨ f = file ∧ a.remove disk file f = none := by
  unfold LoadAnswers.remove
  split
  · by_cases hf : f = file
    · exact .inr ⟨hf, by rw [hf, erase_self]⟩
    · exact .inl (erase_of_ne hf)
  · exact .inl rfl

theorem remove_of_ne (a : LoadAnswers) (disk : Disk) {f : RecoveryFile} (h : f ≠ file) :
    a.remove disk file f = disk f :=
  (remove_cases a disk file f).resolve_right fun hf => h hf.1

/-- A file that is not metadata changes nothing but, perhaps, that it is removed. -/
theorem Progress.other (h : Progress a disk live seen st) (hkind : file.kind ≠ .json)
    {disk' : Disk} (hdisk : disk' = st.disk ∨
      file.kind ≠ .png ∧ file.kind ≠ .wave9 ∧ disk' = a.remove st.disk file) :
    Progress a disk live (file :: seen) { st with disk := disk' } := by
  have hmem : ∀ id, (⟨id, .json⟩ : RecoveryFile) ∈ file :: seen ↔
      (⟨id, .json⟩ : RecoveryFile) ∈ seen := by
    intro id
    rw [mem_cons]
    refine or_iff_right fun heq => ?_
    rw [← heq] at hkind
    exact hkind rfl
  refine ⟨?_, ?_, ?_, h.retained, h.nodup, ?_, h.size⟩
  · intro f
    rcases hdisk with rfl | ⟨-, -, rfl⟩
    · exact h.files f
    · show a.remove st.disk file f = disk f ∨ a.remove st.disk file f = none
      rcases remove_cases a st.disk file f with heq | ⟨-, hnone⟩
      · rw [heq]
        exact h.files f
      · exact .inr hnone
  · intro id kind hk hcase
    rw [hmem] at hcase
    rcases hdisk with rfl | ⟨hpng, hwave9, rfl⟩
    · exact h.unread id kind hk hcase
    · refine (remove_of_ne a st.disk ?_).trans (h.unread id kind hk hcase)
      rintro rfl
      rcases hk with rfl | rfl | rfl
      · exact hkind rfl
      · exact hpng rfl
      · exact hwave9 rfl
  · intro id
    simp only [hmem]
    exact h.records id
  · intro id
    rw [hmem]
    exact h.active id

/-- An expired record. -/
theorem Progress.expired {id : String} (h : Progress a disk live seen st)
    (hlive : live id = none) :
    Progress a disk live (⟨id, .json⟩ :: seen) { st with
      disk := a.remove (a.remove (a.remove st.disk ⟨id, .json⟩) ⟨id, .png⟩) ⟨id, .wave9⟩ } := by
  have hother : ∀ id' kind, id' ≠ id →
      a.remove (a.remove (a.remove st.disk ⟨id, .json⟩) ⟨id, .png⟩) ⟨id, .wave9⟩ ⟨id', kind⟩ =
        st.disk ⟨id', kind⟩ := by
    intro id' kind hne
    rw [remove_of_ne, remove_of_ne, remove_of_ne]
    all_goals exact fun heq => hne (RecoveryFile.mk.inj heq).1
  have hmem : ∀ id', id' ≠ id → ((⟨id', .json⟩ : RecoveryFile) ∈ ⟨id, .json⟩ :: seen ↔
      (⟨id', .json⟩ : RecoveryFile) ∈ seen) := by
    intro id' hne
    rw [mem_cons]
    exact or_iff_right fun heq => hne (RecoveryFile.mk.inj heq).1
  refine ⟨?_, ?_, ?_, h.retained, h.nodup, ?_, h.size⟩
  · intro f
    have hstep : ∀ (d : Disk) g, (d f = disk f ∨ d f = none) →
        a.remove d g f = disk f ∨ a.remove d g f = none := by
      intro d g hd
      rcases remove_cases a d g f with heq | ⟨-, hnone⟩
      · rw [heq]
        exact hd
      · exact .inr hnone
    exact hstep _ _ (hstep _ _ (hstep _ _ (h.files f)))
  · intro id' kind hk hcase
    by_cases hne : id' = id
    · subst hne
      rw [hlive] at hcase
      simp at hcase
    · rw [hmem id' hne] at hcase
      exact (hother id' kind hne).trans (h.unread id' kind hk hcase)
  · intro id'
    show st.records.get id' = _
    rw [h.records id']
    by_cases hne : id' = id
    · rw [hne, hlive]
      simp
    · simp only [hmem id' hne]
  · intro id'
    show id' ∈ st.activeIds ↔ _
    rw [h.active id']
    by_cases hne : id' = id
    · rw [hne, hlive]
      simp
    · rw [hmem id' hne]

theorem Progress.loaded {id : String} (h : Progress a disk live seen st)
    (hlive : live id = some k) (hnew : (⟨id, .json⟩ : RecoveryFile) ∉ seen) :
    Progress a disk live (⟨id, .json⟩ :: seen) { st with
      records := st.records.insert id (k.restored a)
      retainedVisualBytes := st.retainedVisualBytes + k.record.visualBytes
      activeIds := id :: st.activeIds } := by
  have hmem : ∀ id', id' ≠ id → ((⟨id', .json⟩ : RecoveryFile) ∈ ⟨id, .json⟩ :: seen ↔
      (⟨id', .json⟩ : RecoveryFile) ∈ seen) := by
    intro id' hne
    rw [mem_cons]
    exact or_iff_right fun heq => hne (RecoveryFile.mk.inj heq).1
  have habsent : st.records.get id = none := by
    rw [h.records id, if_neg hnew]
  refine ⟨h.files, ?_, ?_, ?_, ?_, ?_, ?_⟩
  · intro id' kind hk hcase
    refine h.unread id' kind hk (hcase.imp_right fun hnot hm => hnot (mem_cons_of_mem _ hm))
  · intro id'
    rw [get_insert]
    by_cases hne : id' = id
    · rw [if_pos hne, hne, hlive, if_pos mem_cons_self]
      rfl
    · rw [if_neg hne, h.records id']
      simp only [hmem id' hne]
  · show st.retainedVisualBytes + _ = _
    rw [map_cons, sum_cons, ← h.retained, hlive]
    exact Nat.add_comm _ _
  · refine nodup_cons.mpr ⟨fun hm => hnew ((h.active id).mp hm).1, h.nodup⟩
  · intro id'
    rw [mem_cons, h.active id']
    by_cases hne : id' = id
    · rw [hne, hlive]
      simp
    · rw [hmem id' hne]
      exact or_iff_right hne
  · have hsize := count_insert_new st.records (v := k.restored a) (fun _ => true) habsent
    rw [← size_eq_count, ← size_eq_count] at hsize
    have hle := h.size
    show (st.records.insert id (k.restored a)).size ≤ (id :: st.activeIds).length
    rw [hsize, length_cons]
    exact Nat.succ_le_succ hle

/-- **One entry** of the listing. -/
theorem loadEntry_progress (hdisk : Loadable codec disk (nowUnixMs a.wallNow) live memory)
    (h : Progress a disk live seen st) (hnew : file ∉ seen) (hfile : (disk file).isSome) :
    ∃ st', loadEntry codec a st file = .ok st' ∧ Progress a disk live (file :: seen) st' := by
  obtain ⟨id, kind⟩ := file
  cases kind with
  | consumed => exact ⟨_, rfl, h.other (by simp) (.inr ⟨by simp, by simp, rfl⟩)⟩
  | jsonTmp => exact ⟨_, rfl, h.other (by simp) (.inr ⟨by simp, by simp, rfl⟩)⟩
  | wave9Tmp => exact ⟨_, rfl, h.other (by simp) (.inr ⟨by simp, by simp, rfl⟩)⟩
  | png => exact ⟨_, rfl, h.other (by simp) (.inl rfl)⟩
  | wave9 => exact ⟨_, rfl, h.other (by simp) (.inl rfl)⟩
  | json =>
    have hsame : ∀ kind, kind = .json ∨ kind = .png ∨ kind = .wave9 →
        st.disk ⟨id, kind⟩ = disk ⟨id, kind⟩ := fun kind hk => h.unread id kind hk (.inr hnew)
    obtain ⟨bytes, hbytes⟩ := Option.isSome_iff_exists.mp hfile
    cases hlive : live id with
    | some k =>
      obtain ⟨rfl, hintact, hunexpired⟩ := hdisk.intact id k hlive
      -- the records loaded so far and this one are all in memory
      have hids : (k.id :: st.activeIds).Nodup :=
        nodup_cons.mpr ⟨fun hm => hnew ((h.active _).mp hm).1, h.nodup⟩
      have hlive' : ∀ id ∈ k.id :: st.activeIds, ∃ k', live id = some k' := by
        intro id hm
        rcases mem_cons.mp hm with rfl | hm
        · exact ⟨k, hlive⟩
        · exact Option.isSome_iff_exists.mp ((h.active id).mp hm).2
      have hcount := memory.length_le_size hids fun id hm => by
        obtain ⟨k', hk'⟩ := hlive' id hm
        obtain ⟨r, hr, -⟩ := hdisk.backed id k' hk'
        rw [hr]
        rfl
      have htotal := memory.sum_le_total VerificationRecord.visualBytes
        (f := fun id => ((live id).map fun k => k.record.visualBytes).getD 0) hids fun id hm => by
        obtain ⟨k', hk'⟩ := hlive' id hm
        obtain ⟨r, hr, hle⟩ := hdisk.backed id k' hk'
        exact ⟨r, hr, by simpa [hk'] using hle⟩
      have hcapacity := hdisk.capacity
      have hvisual := hdisk.visual
      have hsize := h.size
      rw [length_cons] at hcount
      rw [map_cons, sum_cons, ← h.retained, hlive] at htotal
      simp only [map_some, getD_some] at htotal
      exact ⟨_, loadMetadata_intact (hintact.congr hsame) hunexpired (by omega) (by omega),
        h.loaded hlive hnew⟩
    | none =>
      rcases hdisk.json id bytes hbytes with hsome | ⟨k, rfl, hremains, hexpired⟩
      · rw [hlive] at hsome
        cases hsome
      · exact ⟨_, loadMetadata_expired (hremains.congr (hsame _ (by simp))
          (.inl (hsame _ (by simp)))) hexpired, h.expired hlive⟩

theorem loadEntries_progress (hdisk : Loadable codec disk (nowUnixMs a.wallNow) live memory)
    (listing : List RecoveryFile) (hnodup : listing.Nodup)
    (hlisting : ∀ f ∈ listing, f ∉ seen ∧ (disk f).isSome)
    (h : Progress a disk live seen st) :
    ∃ st', listing.foldlM (loadEntry codec a) st = .ok st' ∧
      Progress a disk live (listing.reverse ++ seen) st' := by
  induction listing generalizing seen st with
  | nil => exact ⟨st, rfl, h⟩
  | cons file rest ih =>
    obtain ⟨hfile, hrest⟩ := nodup_cons.mp hnodup
    obtain ⟨hnew, hpresent⟩ := hlisting file mem_cons_self
    obtain ⟨st₁, hstep, h₁⟩ := loadEntry_progress hdisk h hnew hpresent
    obtain ⟨st', hfold, h'⟩ := ih hrest (fun f hf => by
      obtain ⟨hnot, hsome⟩ := hlisting f (mem_cons_of_mem _ hf)
      refine ⟨fun hm => ?_, hsome⟩
      rcases mem_cons.mp hm with rfl | hm
      · exact hfile hf
      · exact hnot hm) h₁
    refine ⟨st', ?_, by simpa using h'⟩
    rw [foldlM_cons, bind_eq_ok]
    exact ⟨st₁, hstep, hfold⟩

/-- The orphans go, and what is not one stays. -/
theorem dropOrphans (activeIds : List String) (listing : List RecoveryFile) (disk : Disk)
    (f : RecoveryFile) :
    listing.foldl (dropOrphan codec a activeIds) disk f = disk f ∨
      listing.foldl (dropOrphan codec a activeIds) disk f = none ∧
        (f.kind = .png ∨ f.kind = .wave9) ∧ f.id ∉ activeIds := by
  induction listing generalizing disk with
  | nil => exact .inl rfl
  | cons file rest ih =>
    have hone : dropOrphan codec a activeIds disk file f = disk f ∨
        dropOrphan codec a activeIds disk file f = none ∧
          (f.kind = .png ∨ f.kind = .wave9) ∧ f.id ∉ activeIds := by
      by_cases horphan : (file.kind = .png ∨ file.kind = .wave9) ∧
          codec.validVerificationId file.id = true ∧ file.id ∉ activeIds
      · have hremove : dropOrphan codec a activeIds disk file = a.remove disk file := by
          unfold dropOrphan
          rcases horphan.1 with hkind | hkind
          · rw [hkind]
            exact if_pos horphan.2
          · rw [hkind]
            exact if_pos horphan.2
        rw [hremove]
        refine (remove_cases a disk file f).imp_right ?_
        rintro ⟨rfl, hnone⟩
        exact ⟨hnone, horphan.1, horphan.2.2⟩
      · have hkeep : dropOrphan codec a activeIds disk file = disk := by
          unfold dropOrphan
          cases hkind : file.kind with
          | png => exact if_neg fun h => horphan ⟨.inl hkind, h⟩
          | wave9 => exact if_neg fun h => horphan ⟨.inr hkind, h⟩
          | _ => rfl
        exact .inl (by rw [hkeep])
    rw [foldl_cons]
    rcases ih (dropOrphan codec a activeIds disk file) with heq | hgone
    · rw [heq]
      exact hone
    · exact .inr hgone

/-- The listing names the files that are there. -/
def Lists (a : LoadAnswers) (disk : Disk) : Prop :=
  a.listing.Nodup ∧ ∀ f, f ∈ a.listing ↔ (disk f).isSome

/-- **Loading**: it succeeds, with the live records as they were, within the bounds, and it
leaves their files. -/
theorem loadRecords_ok (hdisk : Loadable codec disk (nowUnixMs a.wallNow) live memory)
    (hlists : Lists a disk) :
    ∃ records disk', loadRecords codec disk a = .ok (records, disk') ∧
      (∀ id, records.get id = (live id).map (Kept.restored a)) ∧
        (∀ f, disk' f = disk f ∨ disk' f = none) ∧
          ∀ id kind, kind = .json ∨ kind = .png ∨ kind = .wave9 → (live id).isSome →
            disk' ⟨id, kind⟩ = disk ⟨id, kind⟩ := by
  have hstart : Progress a disk live [] ⟨disk, AssocMap.empty, 0, []⟩ := by
    refine ⟨fun _ => .inl rfl, fun _ _ _ _ => rfl, ?_, rfl, nodup_nil, ?_, Nat.le_refl _⟩
    · simp
    · simp
  obtain ⟨st, hfold, h⟩ := loadEntries_progress hdisk a.listing hlists.1
    (fun f hf => ⟨by simp, (hlists.2 f).mp hf⟩) hstart
  have hseen : ∀ id, (live id).isSome →
      (⟨id, .json⟩ : RecoveryFile) ∈ a.listing.reverse ++ [] := by
    intro id hlive
    obtain ⟨k, hk⟩ := Option.isSome_iff_exists.mp hlive
    obtain ⟨rfl, ⟨bytes, -, -, hjson, -⟩, -⟩ := hdisk.intact id k hk
    have hmem := (hlists.2 ⟨k.id, .json⟩).mpr (by rw [hjson]; rfl)
    simpa using hmem
  have hdropped : ∀ f, a.listing.foldl (dropOrphan codec a st.activeIds) st.disk f = st.disk f ∨
      a.listing.foldl (dropOrphan codec a st.activeIds) st.disk f = none ∧
        (f.kind = .png ∨ f.kind = .wave9) ∧ f.id ∉ st.activeIds :=
    dropOrphans st.activeIds a.listing st.disk
  refine ⟨st.records, a.listing.foldl (dropOrphan codec a st.activeIds) st.disk, ?_, ?_, ?_, ?_⟩
  · unfold loadRecords
    rw [bind_eq_ok]
    exact ⟨st, hfold, rfl⟩
  · intro id
    rw [h.records id]
    by_cases hlive : (live id).isSome
    · rw [if_pos (hseen id hlive)]
    · rw [Option.not_isSome_iff_eq_none.mp hlive]
      simp
  · intro f
    rcases hdropped f with heq | hgone
    · rw [heq]
      exact h.files f
    · exact .inr hgone.1
  · intro id kind hk hlive
    rcases hdropped ⟨id, kind⟩ with heq | ⟨-, -, hactive⟩
    · rw [heq]
      exact h.unread id kind hk (.inl hlive)
    · exact absurd ((h.active id).mpr ⟨hseen id hlive, hlive⟩) hactive

end
end
end Localview.TrustedVerify
