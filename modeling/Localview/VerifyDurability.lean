import Localview.VerifyCrash

/-! # Trusted Verify records over runs

What `persist_record` and `consume_record` leave wherever they are stopped, what each
request of the store keeps, and from that what every run with crashes keeps.
-/
namespace Localview.TrustedVerify
open Interleaving Interleaving.Call EarlyReturn StateRun NamedFiles

/-! ## Single steps -/

section
variable {disk disk' disk'' : Disk} {files files' : List RecoveryFile} {file : RecoveryFile}
  {bytes : Bytes} {id : String} {I : Disk → Prop} {err : String → Disk → Prop}

/-- The disks agree on all files but these. -/
def AllBut (files : List RecoveryFile) (disk disk' : Disk) : Prop :=
  ∀ f, f ∉ files → disk' f = disk f

theorem AllBut.refl (files : List RecoveryFile) (disk : Disk) : AllBut files disk disk :=
  fun _ _ => rfl

theorem AllBut.trans (h : AllBut files disk disk') (h' : AllBut files disk' disk'') :
    AllBut files disk disk'' := fun f hf => (h' f hf).trans (h f hf)

theorem AllBut.mono (h : AllBut files disk disk') (hsub : ∀ f ∈ files, f ∈ files') :
    AllBut files' disk disk' := fun f hf => h f fun hm => hf (hsub f hm)

theorem allBut_put : AllBut [file] disk (disk.put file bytes) := by
  intro f hf
  exact put_of_ne (by simpa using hf)

theorem allBut_erase : AllBut [file] disk (disk.erase file) := by
  intro f hf
  exact erase_of_ne (by simpa using hf)

theorem solo_removeFile {succeeds : Bool} (hI : ∀ d, AllBut [file] disk d → I d) :
    Solo I (fun _ d => AllBut [file] disk d) err (removeFile succeeds file) disk := by
  refine solo_update fun _ d _ hf => ?_
  cases hf
  have hall : AllBut [file] disk (if succeeds then disk.erase file else disk) := by
    split
    · exact allBut_erase
    · exact AllBut.refl _ _
  exact ⟨hI _ hall, hall⟩

theorem solo_removeLeft {succeeds : Bool} (hI : ∀ d, AllBut [file] disk d → I d) :
    Solo I (fun _ d => AllBut [file] disk d) err (removeLeft succeeds file) disk := by
  refine solo_update fun _ d _ hf => ?_
  cases hf
  have hall : AllBut [file] disk
      (if succeeds ∧ (disk file).isSome then disk.erase file else disk) := by
    split
    · exact allBut_erase
    · exact AllBut.refl _ _
  exact ⟨hI _ hall, hall⟩

/-- A new file: it has the bytes, or nothing is known of it. -/
theorem solo_writeNewPrivateFile {o : WriteOutcomes} (hI : ∀ d, AllBut [file] disk d → I d) :
    Solo I (fun _ d => AllBut [file] disk d ∧ d file = some bytes)
      (fun _ d => AllBut [file] disk d) (writeNewPrivateFile o file bytes) disk := by
  have hcreate : Solo I (fun _ d => AllBut [file] disk d) (fun _ d => AllBut [file] disk d)
      (locked fun disk =>
        if o.create ∧ (disk file).isNone then (.ok (), disk.put file [], [])
        else (.error "create trusted Verify recovery file", disk, []) : DiskCall Unit) disk := by
    refine solo_locked fun result d _ hf => ?_
    split at hf
    · cases hf
      exact ⟨hI _ allBut_put, allBut_put⟩
    · cases hf
      exact ⟨hI _ (AllBut.refl _ _), AllBut.refl _ _⟩
  refine solo_bind.mpr (hcreate.mono ?_ fun _ _ h => h)
  rintro - d hd
  have hfill : Solo I (fun _ d => AllBut [file] disk d ∧ d file = some bytes)
      (fun _ d => AllBut [file] disk d) (do
        onFile o.write fun disk => disk.put file bytes
        onFile o.sync id : DiskCall Unit) d := by
    refine solo_bind.mpr (solo_locked fun result d' _ hf => ?_)
    split at hf
    · cases hf
      have hput : AllBut [file] disk (d.put file bytes) := hd.trans allBut_put
      refine ⟨hI _ hput, ?_⟩
      show Solo I _ _ (onFile o.sync id) _
      refine solo_locked fun result d'' _ hf => ?_
      split at hf
      · cases hf
        exact ⟨hI _ hput, hput, put_self⟩
      · cases hf
        exact ⟨hI _ hput, hput⟩
    · cases hf
      exact ⟨hI _ hd, hd⟩
  refine solo_bind.mpr (solo_attempt.mpr (hfill.mono (fun _ _ h => h) fun e d' hd' => ?_))
  refine solo_bind.mpr ((solo_removeFile fun d'' h => hI _ (hd'.trans h)).mono ?_ fun _ _ h => h)
  exact fun _ d'' h => hd'.trans h

theorem solo_renameFile {succeeds : Bool} {destination : RecoveryFile} {error : String}
    (hI : I disk) (hdone : (disk file).isSome → I (disk.move file destination)) :
    Solo I (fun _ d => d = disk.move file destination) (fun _ d => d = disk)
      (renameFile succeeds file destination error) disk := by
  refine solo_locked fun result d _ hf => ?_
  split at hf
  · rename_i h
    cases hf
    exact ⟨hdone h.2, rfl⟩
  · cases hf
    exact ⟨hI, rfl⟩

/-- A file written under another name and then renamed: the new name has the bytes, or the
step has failed and it has what it had. -/
theorem solo_writeRenamed {o : WriteOutcomes} {succeeds : Bool} {destination : RecoveryFile}
    {error : String} (hne : file ≠ destination) (hI : ∀ d, AllBut [file] disk d → I d)
    (hdone : ∀ d, AllBut [file, destination] disk d → d destination = some bytes → I d) :
    Solo I (fun _ d => AllBut [file, destination] disk d ∧ d destination = some bytes)
      (fun _ d => AllBut [file] disk d)
      (do
        writeNewPrivateFile o file bytes
        renameFile succeeds file destination error : DiskCall Unit) disk := by
  refine solo_bind.mpr ((solo_writeNewPrivateFile hI).mono ?_ fun _ _ h => h)
  rintro - d ⟨hd, hbytes⟩
  have hmoved : AllBut [file, destination] disk (d.move file destination) ∧
      (d.move file destination) destination = some bytes := by
    refine ⟨fun f hf => ?_, ?_⟩
    · rw [List.mem_cons, List.mem_singleton, not_or] at hf
      rw [move_of_ne hf.1 hf.2]
      exact hd f (by simpa using hf.1)
    · rw [move_destination hne.symm]
      exact hbytes
  refine (solo_renameFile (hI d hd) fun _ => hdone _ hmoved.1 hmoved.2).mono ?_ ?_
  · rintro _ d' rfl
    exact hmoved
  · rintro _ d' rfl
    exact hd

end

/-! ## Persisting a record -/

section
variable {S V W : Type} {codec : RecoveryCodec S V W} {k : Kept S V W} {disk : Disk} {id : String}
  {o : PersistOutcomes} {companion : Option Bytes} {bytes : Bytes}

/-- The files of other records are as they were. -/
def Elsewhere (id : String) (disk disk' : Disk) : Prop := ∀ f, f.id ≠ id → disk' f = disk f

theorem Elsewhere.refl (id : String) (disk : Disk) : Elsewhere id disk disk := fun _ _ => rfl

theorem Elsewhere.allBut {files : List RecoveryFile} {d d' : Disk} (h : Elsewhere id disk d)
    (h' : AllBut files d d') (hfiles : ∀ f ∈ files, f.id = id) : Elsewhere id disk d' :=
  fun f hf => (h' f fun hm => hf (hfiles f hm)).trans (h f hf)

/-- Wherever `persist_record` is: the metadata is not there, or everything is. -/
def Persisting (codec : RecoveryCodec S V W) (k : Kept S V W) (disk d : Disk) : Prop :=
  Elsewhere k.id disk d ∧ (d ⟨k.id, .json⟩ = none ∨ Intact codec d k)

/-- Before the metadata: the visual is there, and the companion as far as it is written. -/
structure Staged (k : Kept S V W) (companion : Option Bytes) (disk d : Disk) : Prop where
  elsewhere : Elsewhere k.id disk d
  json : d ⟨k.id, .json⟩ = none
  png : ∀ visual ∈ k.record.visualBefore, d ⟨k.id, .png⟩ = some visual.png
  wave9 : d ⟨k.id, .wave9⟩ = companion

/-- The metadata is not there, and the files of other records are as they were. -/
def Uncommitted (id : String) (disk d : Disk) : Prop := Elsewhere id disk d ∧ d ⟨id, .json⟩ = none

/-- A step on files of the record other than the metadata. -/
theorem Uncommitted.allBut {files : List RecoveryFile} {d d' : Disk} (h : Uncommitted id disk d)
    (h' : AllBut files d d') (hfiles : ∀ f ∈ files, f.id = id ∧ f.kind ≠ .json) :
    Uncommitted id disk d' := by
  refine ⟨h.1.allBut h' fun f hf => (hfiles f hf).1, ?_⟩
  rw [h' _ fun hm => (hfiles _ hm).2 rfl]
  exact h.2

theorem Uncommitted.persisting {d : Disk} (h : Uncommitted k.id disk d) :
    Persisting codec k disk d := ⟨h.1, .inl h.2⟩

theorem solo_undo {d : Disk} {kind : FileKind} {succeeds : Bool} {err : String → Disk → Prop}
    (h : Uncommitted k.id disk d) (hkind : kind ≠ .json) :
    Solo (Persisting codec k disk) (fun _ => Uncommitted k.id disk) err
      (removeFile succeeds ⟨k.id, kind⟩) d := by
  have hstep : ∀ d', AllBut [⟨k.id, kind⟩] d d' → Uncommitted k.id disk d' :=
    fun d' hd' => h.allBut hd' (by simpa using hkind)
  exact (solo_removeFile fun d' hd' => (hstep d' hd').persisting).mono (fun _ => hstep)
    fun _ _ h => h

theorem solo_writeVisual (hfresh : ∀ kind, disk ⟨k.id, kind⟩ = none) :
    Solo (Persisting codec k disk) (fun _ => Staged k none disk)
      (fun _ => Uncommitted k.id disk) (writeVisual o k.record) disk := by
  have hnone : Uncommitted k.id disk disk := ⟨Elsewhere.refl _ _, hfresh _⟩
  unfold writeVisual
  cases hvisual : k.record.visualBefore with
  | none => exact ⟨Elsewhere.refl _ _, hfresh _, by simp [hvisual], hfresh _⟩
  | some before =>
    have hstep : ∀ d, AllBut [⟨k.id, .png⟩] disk d → Uncommitted k.id disk d :=
      fun d hd => hnone.allBut hd (by simp)
    refine solo_bind.mpr (solo_reject.mpr ⟨fun _ => hnone, fun _ => ?_⟩)
    refine (solo_writeNewPrivateFile fun d hd => (hstep d hd).persisting).mono ?_ ?_
    · rintro _ d ⟨hd, hbytes⟩
      refine ⟨(hstep d hd).1, (hstep d hd).2, ?_, ?_⟩
      · rw [hvisual]
        rintro visual ⟨⟩
        exact hbytes
      · rw [hd _ (by simp)]
        exact hfresh _
    · exact fun _ d hd => hstep d hd

/-- A file of the record is written under another name and renamed, and where that fails the
record is undone. -/
theorem solo_writeFile {d : Disk} {ok : Disk → Prop} {tmp destination : FileKind}
    {cleans succeeds : Bool} {o : WriteOutcomes} {error : String} {undo : String → DiskCall Unit}
    (h : Uncommitted k.id disk d) (htmp : tmp ≠ .json) (hne : tmp ≠ destination)
    (hok : ∀ d', AllBut [⟨k.id, tmp⟩, ⟨k.id, destination⟩] d d' →
      d' ⟨k.id, destination⟩ = some bytes → ok d' ∧ Persisting codec k disk d')
    (hundo : ∀ e d', Uncommitted k.id disk d' →
      Solo (Persisting codec k disk) (fun _ => ok) (fun _ => Uncommitted k.id disk) (undo e) d') :
    Solo (Persisting codec k disk) (fun _ => ok) (fun _ => Uncommitted k.id disk)
      (do
        removeLeft cleans ⟨k.id, tmp⟩
        match ← ((do
            writeNewPrivateFile o ⟨k.id, tmp⟩ bytes
            renameFile succeeds ⟨k.id, tmp⟩ ⟨k.id, destination⟩ error : DiskCall Unit).attempt :
              DiskCall (Except String Unit)) with
        | .ok () => pure ()
        | .error e => undo e) d := by
  have hstep : ∀ d', AllBut [⟨k.id, tmp⟩] d d' → Uncommitted k.id disk d' :=
    fun d' hd' => h.allBut hd' (by simpa using htmp)
  refine solo_bind.mpr ((solo_removeLeft fun d' hd' => (hstep d' hd').persisting).mono ?_
    fun _ _ h => h)
  rintro _ d₁ h₁
  have hboth : ∀ d', AllBut [⟨k.id, tmp⟩, ⟨k.id, destination⟩] d₁ d' →
      AllBut [⟨k.id, tmp⟩, ⟨k.id, destination⟩] d d' := fun d' hd' => (h₁.mono (by simp)).trans hd'
  refine solo_bind.mpr (solo_attempt.mpr ((solo_writeRenamed (by simpa using hne)
    (fun d' hd' => (hstep d' (h₁.trans hd')).persisting)
    fun d' hd' hbytes => (hok d' (hboth d' hd') hbytes).2).mono ?_ ?_))
  · rintro _ d' ⟨hd', hbytes⟩
    exact (hok d' (hboth d' hd') hbytes).1
  · exact fun e d' hd' => hundo e d' (hstep d' (h₁.trans hd'))

theorem solo_writeWave9 {d : Disk} (h : Staged k none disk d) :
    Solo (Persisting codec k disk) (fun _ => Staged k companion disk)
      (fun _ => Uncommitted k.id disk) (writeWave9 o k.id companion) d := by
  have hnone : Uncommitted k.id disk d := ⟨h.elsewhere, h.json⟩
  cases companion with
  | none => exact h
  | some bytes =>
    refine solo_writeFile hnone (by simp) (by simp) (fun d' hd' hbytes => ?_) fun e d₁ h₁ => ?_
    · have hstep := hnone.allBut hd' (by simp)
      refine ⟨⟨hstep.1, hstep.2, fun visual hv => ?_, hbytes⟩, hstep.persisting⟩
      rw [hd' _ (by simp)]
      exact h.png visual hv
    · refine solo_bind.mpr ((solo_undo h₁ (by simp)).mono ?_ fun _ _ h => h)
      rintro _ d₂ h₂
      exact solo_bind.mpr ((solo_undo h₂ (by simp)).mono (fun _ _ h => h) fun _ _ h => h)

/-- The metadata commits the record. -/
theorem solo_writeMetadata {d : Disk} (h : Staged k companion disk d)
    (hwritten : Written codec k bytes companion) :
    Solo (Persisting codec k disk) (fun _ d => Elsewhere k.id disk d ∧ Intact codec d k)
      (fun _ => Uncommitted k.id disk) (writeMetadata o k.id bytes) d := by
  refine solo_writeFile ⟨h.elsewhere, h.json⟩ (by simp) (by simp) (fun d' hd' hjson => ?_) fun e d₁ h₁ => ?_
  · have helsewhere := h.elsewhere.allBut hd' (by simp)
    have hintact : Intact codec d' k := by
      refine ⟨bytes, companion, hwritten, hjson, ?_, ?_⟩
      · rw [hd' _ (by simp)]
        exact h.wave9
      · intro visual hv
        rw [hd' _ (by simp)]
        exact h.png visual hv
    exact ⟨⟨helsewhere, hintact⟩, helsewhere, .inr hintact⟩
  · refine solo_bind.mpr ((solo_undo h₁ (by simp)).mono ?_ fun _ _ h => h)
    rintro _ d₂ h₂
    refine solo_bind.mpr ((solo_undo h₂ (by simp)).mono ?_ fun _ _ h => h)
    rintro _ d₃ h₃
    exact solo_bind.mpr ((solo_undo h₃ (by simp)).mono (fun _ _ h => h) fun _ _ h => h)

/-- **Persisting**, stopped anywhere, leaves the record whole or without metadata, and the
other records' files alone. -/
theorem solo_persistRecord (hfresh : ∀ kind, disk ⟨k.id, kind⟩ = none)
    (hpersistable : k.Persistable codec)
    (hvisual : k.record.visualBytes ≤ maxVerifyVisualBytesPerRecord) :
    Solo (Persisting codec k disk)
      (fun _ d => Elsewhere k.id disk d ∧ Intact codec d k ∧ k.record.status = .pending)
      (fun _ => Uncommitted k.id disk)
      (persistRecord codec k.record o k.wallNow k.now) disk := by
  have hrefused : Uncommitted k.id disk disk := ⟨Elsewhere.refl _ _, hfresh _⟩
  simp only [persistRecord, solo_bind, solo_reject]
  refine ⟨fun _ => hrefused, fun _ => ⟨fun _ => hrefused, fun hstatus => ?_⟩⟩
  cases hmetadata : codec.toVec (persistedRecord codec k.record k.wallNow k.now) with
  | error e => exact hrefused
  | ok metadataBytes =>
    simp only [solo_ofExcept_ok, solo_bind, solo_reject]
    refine ⟨fun _ => hrefused, fun hlength => ?_⟩
    cases hwave9 : wave9Bytes codec k.record with
    | error e => exact hrefused
    | ok companion =>
      simp only [solo_ofExcept_ok, solo_bind, solo_reject]
      refine ⟨fun _ => hrefused, fun hbound => ⟨fun _ => hrefused, fun hvalid => ?_⟩⟩
      have hwritten : Written codec k metadataBytes companion := by
        refine ⟨(Bool.not_eq_false _).mp hvalid, hpersistable, hmetadata,
          Nat.not_lt.mp hlength, hwave9, ?_, hvisual⟩
        intro b hb
        exact Nat.not_lt.mp fun hlt => hbound ⟨b, hb, hlt⟩
      refine solo_locked fun result d _ hf => ?_
      split at hf
      · cases hf
        exact ⟨hrefused.persisting, hrefused⟩
      · cases hf
        refine ⟨hrefused.persisting, ?_⟩
        rw [solo_ofExcept_ok, solo_bind]
        refine (solo_writeVisual hfresh).mono ?_ fun _ _ h => h
        rintro - d₁ h₁
        refine solo_bind.mpr ((solo_writeWave9 h₁).mono ?_ fun _ _ h => h)
        rintro - d₂ h₂
        refine (solo_writeMetadata h₂ hwritten).mono ?_ fun _ _ h => h
        rintro - d₃ ⟨helsewhere, hintact⟩
        exact ⟨helsewhere, hintact, by simpa using hstatus⟩

/-- The metadata of a record that has files has been taken away. -/
structure Taken (id : String) (disk d : Disk) : Prop where
  elsewhere : Elsewhere id disk d
  json : d ⟨id, .json⟩ = none
  known : ∃ kind, (disk ⟨id, kind⟩).isSome

theorem Taken.remove {d d' : Disk} {kind : FileKind} (h : Taken id disk d) (hkind : kind ≠ .json)
    (hd' : AllBut [⟨id, kind⟩] d d') : Taken id disk d' := by
  refine ⟨h.elsewhere.allBut hd' (by simp), ?_, h.known⟩
  rw [hd' _ (by simpa using hkind.symm)]
  exact h.json

/-- **Consuming**, stopped anywhere, has changed nothing or taken the metadata away. -/
theorem solo_consumeRecord {o : ConsumeOutcomes} :
    Solo (fun d => d = disk ∨ Taken id disk d) (fun _ d => Taken id disk d) (fun _ d => d = disk)
      (consumeRecord codec id o) disk := by
  refine solo_bind.mpr (solo_reject.mpr ⟨fun _ => rfl, fun _ => ?_⟩)
  rw [solo_bind]
  have hrest : ∀ d, Taken id disk d →
      Solo (fun d => d = disk ∨ Taken id disk d) (fun _ d => Taken id disk d) (fun _ d => d = disk)
        (do
          removeFile o.removeVisual ⟨id, .png⟩
          removeFile o.removeWave9 ⟨id, .wave9⟩
          removeFile o.removeConsumed ⟨id, .consumed⟩ : DiskCall Unit) d := by
    intro d hd
    refine solo_bind.mpr ((solo_removeFile fun d' h' => .inr (hd.remove (by simp) h')).mono ?_
      fun _ _ h => h)
    rintro - d₁ h₁
    have hd₁ := hd.remove (by simp) h₁
    refine solo_bind.mpr ((solo_removeFile fun d' h' => .inr (hd₁.remove (by simp) h')).mono ?_
      fun _ _ h => h)
    rintro - d₂ h₂
    have hd₂ := hd₁.remove (by simp) h₂
    refine (solo_removeFile fun d' h' => .inr (hd₂.remove (by simp) h')).mono ?_ fun _ _ h => h
    exact fun _ d₃ h₃ => hd₂.remove (by simp) h₃
  refine solo_locked fun result d _ hf => ?_
  split at hf
  · rename_i hpresent
    cases hf
    have hmoved : Taken id disk (disk.move ⟨id, .json⟩ ⟨id, .consumed⟩) := by
      refine ⟨fun f hf => move_of_ne ?_ ?_, move_source, _, hpresent.2⟩
      · rintro rfl
        exact hf rfl
      · rintro rfl
        exact hf rfl
    exact ⟨.inr hmoved, hrest _ hmoved⟩
  · split at hf
    · rename_i hgone
      cases hf
      have hnone : disk ⟨id, .json⟩ = none := Option.isNone_iff_eq_none.mp hgone.1
      exact ⟨.inl rfl, hrest _ ⟨Elsewhere.refl _ _, hnone, _, hgone.2.2⟩⟩
    · cases hf
      exact ⟨.inl rfl, rfl⟩

end
end Localview.TrustedVerify
