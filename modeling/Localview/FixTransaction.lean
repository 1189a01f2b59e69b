import Localview.Interleaving
import Localview.JournalFile
import Localview.NamedFiles

/-! # Applying a fix

`apply_fix_transaction` of the desktop's `trusted_fix`: the proposed contents go to a
temporary file, the source is moved aside to a backup, the temporary file takes its
place and is read back; on a failure a rollback puts the backup back.

Every call of the file system is an access of its own that may fail, and fails without
effect.  The log notes when the source is moved aside and how that ends; the code does
not see it.

`Facts` is where the source's contents are as long as nobody writes the source path
while it is moved aside.
-/
namespace Localview.TrustedFix
open Interleaving Interleaving.Call StateRun List NamedFiles Shared

/-! ## The transaction -/

/-- The faults the tests put in. -/
inductive FixTransactionFault
  | none
  | afterBackupRename
  | afterTargetReplace
  deriving DecidableEq

/-- The source path and the two names of `unique_transaction_path` beside it. -/
structure FixPaths where
  (target temp backup : String)
  temp_ne : temp ≠ target
  backup_ne : backup ≠ target
  temp_ne_backup : temp ≠ backup

/-- Which calls of a rollback succeed. -/
structure RollbackOutcomes where
  (removeTemp targetExists removeTarget backupExists restore : Bool)

/-- Which calls of the transaction succeed, and whether the source is a regular file and
has a parent. -/
structure FixOutcomes where
  (readTarget metadata regular parent createTemp writeTemp flushTemp syncTemp setPermissions : Bool)
  (readAgain moveAside readBackup replace verify removeTemp removeBackup : Bool)
  rollback : RollbackOutcomes

/-- What the log notes: that the temporary file has been written and that it is given up,
that the source is moved aside, and how that ends; the answer; and an edit from outside. -/
inductive FixEvent
  | written
  | tempGivenUp
  | movedAside
  | committed
  | restored
  | stranded
  | ended (answer : Except String Unit)
  | edited
  deriving DecidableEq

abbrev Files : Type := NamedFiles String Bytes

abbrev FixCall (α : Type) : Type := Call Files FixEvent String α

/-- `fs::read`; `seen` is what the log notes of the contents. -/
def read (succeeds : Bool) (path : String) (error : String)
    (seen : Bytes → List FixEvent) : FixCall Bytes :=
  locked fun files =>
    match files path with
    | some content =>
        if succeeds then (.ok content, files, seen content) else (.error error, files, [])
    | none => (.error error, files, [])

/-- `fs::remove_file`, its result dropped. -/
def discardFile (succeeds : Bool) (path : String) (noted : List FixEvent) : FixCall Unit :=
  update fun files => ((), if succeeds = true then files.erase path else files, noted)

/-- `fs::rename`; `done` and `failed` are what the log notes. -/
def rename (succeeds : Bool) (source destination : String) (error : String)
    (done failed : List FixEvent) : FixCall Unit :=
  locked fun files =>
    if succeeds ∧ (files source).isSome then
      (.ok (), files.move source destination, done)
    else (.error error, files, failed)

/-- A step on the file that is open for writing. -/
def onTemp (succeeds : Bool) (change : Files → Files) (error : String) (done : List FixEvent) :
    FixCall Unit :=
  locked fun files =>
    if succeeds then (.ok (), change files, done) else (.error error, files, [])

/-- `path.exists()`, which a failing call makes false; `missing` is what the log then notes. -/
def pathExists (succeeds : Bool) (path : String) (missing : List FixEvent) : FixCall Bool :=
  update fun files =>
    if succeeds ∧ (files path).isSome then (true, files, [])
    else (false, files, missing)

/-- The step; where it fails the temporary file goes first. -/
def orDiscard (succeeds : Bool) (temp : String) {α : Type} (step : FixCall α) : FixCall α := do
  match ← (step.attempt : FixCall (Except String α)) with
  | .ok a => pure a
  | .error e => do
      discardFile succeeds temp [.tempGivenUp]
      .fail e

def rollback (p : FixPaths) (o : RollbackOutcomes) : FixCall Unit := do
  discardFile o.removeTemp p.temp [.tempGivenUp]
  let targetExists ← pathExists o.targetExists p.target []
  if targetExists then discardFile o.removeTarget p.target []
  let backupExists ← pathExists o.backupExists p.backup [.stranded]
  if backupExists then
    rename o.restore p.backup p.target "trusted Fix apply failed and rollback failed"
      [.restored] [.stranded]

def failAfterRollback (p : FixPaths) (o : RollbackOutcomes) {α : Type} (error : String) :
    FixCall α := do
  rollback p o
  .fail error

section
variable (p : FixPaths) (o : FixOutcomes) (preimage postimage : Bytes)

/-- The part of the transaction after the source is moved aside. -/
def replaceSource (fault : FixTransactionFault) : FixCall Unit := do
  match ← ((read o.readBackup p.backup "" fun _ => []).attempt : FixCall (Except String Bytes)) with
  | .error _ =>
      failAfterRollback p o.rollback
        "trusted Fix could not verify the write transaction preimage"
  | .ok backupPreimage => do
      if backupPreimage ≠ preimage then
        failAfterRollback p o.rollback "trusted Fix source changed during apply"
      else if fault = .afterBackupRename then
        failAfterRollback p o.rollback "trusted Fix injected transaction failure"
      else do
        match ← ((rename o.replace p.temp p.target "" [.tempGivenUp] []).attempt :
            FixCall (Except String Unit)) with
        | .error _ => failAfterRollback p o.rollback "trusted Fix could not replace the source file"
        | .ok () => do
            if fault = .afterTargetReplace then
              failAfterRollback p o.rollback "trusted Fix injected transaction failure"
            else do
              let verified ← ((read o.verify p.target "trusted Fix post-write verification failed"
                fun bytes => if bytes = postimage then [.committed] else []).attempt :
                  FixCall (Except String Bytes))
              if verified = .ok postimage then
                -- the backup is cleaned up where that is possible
                discardFile o.removeBackup p.backup []
              else failAfterRollback p o.rollback "trusted Fix post-write verification failed"

def applyFixTransactionInner (fault : FixTransactionFault) : FixCall Unit := do
  let currentBytes ← read o.readTarget p.target "trusted Fix source is unavailable" fun _ => []
  reject (currentBytes ≠ preimage) "trusted Fix source changed since proposal"
  let _ ← read o.metadata p.target "trusted Fix source is unavailable" fun _ => []
  reject (o.regular = false) "trusted Fix source is not a regular file"
  reject (o.parent = false) "trusted Fix source parent is unavailable"
  locked fun files =>
    if o.createTemp ∧ (files p.temp).isNone then (.ok (), files.put p.temp [], [])
    else (.error "trusted Fix temporary write is unavailable", files, [])
  orDiscard o.removeTemp p.temp do
    onTemp o.writeTemp (fun files => files.put p.temp postimage) "trusted Fix temporary write failed"
      [.written]
  orDiscard o.removeTemp p.temp do
    onTemp o.flushTemp id "trusted Fix temporary write failed" []
  orDiscard o.removeTemp p.temp do
    onTemp o.syncTemp id "trusted Fix temporary write failed" []
  orDiscard o.removeTemp p.temp do
    onTemp o.setPermissions id "trusted Fix could not preserve file permissions" []
  let finalPreimage ← orDiscard o.removeTemp p.temp do
    read o.readAgain p.target "trusted Fix source is unavailable" fun _ => []
  orDiscard o.removeTemp p.temp do
    reject (finalPreimage ≠ preimage) "trusted Fix source changed since proposal"
  orDiscard o.removeTemp p.temp do
    rename o.moveAside p.target p.backup "trusted Fix could not begin the write transaction"
      [.movedAside] []
  replaceSource p o preimage postimage fault

def applyFixTransaction : FixCall Unit := applyFixTransactionInner p o preimage postimage .none

/-- The transaction, its answer noted. -/
def transaction (fault : FixTransactionFault) : Call Files FixEvent Empty Unit := do
  let answer ← (applyFixTransactionInner p o preimage postimage fault).attempt
  tell (.ended answer)

end

/-- Another program replaces the source, or creates it. -/
def edit (p : FixPaths) (content : Bytes) : Call Files FixEvent Empty Unit :=
  update fun files => ((), files.put p.target content, [.edited])

/-! ## Where the source's contents are -/

section

abbrev FixWorld : Type := Shared Files FixEvent

/-- The transaction, call 0, has noted the event. -/
def Noted (w : FixWorld) (e : FixEvent) : Prop := (0, e) ∈ w.log

/-- The source will not be touched any more. -/
def Settled (log : List (Nat × FixEvent)) : Prop :=
  (0, .committed) ∈ log ∨ (0, .restored) ∈ log ∨ (0, .stranded) ∈ log

/-- No edit falls where the source is moved aside and that has not been settled. -/
def Undisturbed (log : List (Nat × FixEvent)) : Prop :=
  ∀ before after, log = before ++ (1, .edited) :: after → (0, .movedAside) ∈ before →
    Settled before

/-- The other program, call 1, has edited the source. -/
def Edited (w : FixWorld) : Prop := (1, FixEvent.edited) ∈ w.log

variable (p : FixPaths) (o : FixOutcomes) (preimage postimage : Bytes) (initial : Option Bytes)
  (content : Bytes)

/-- What the source path would have without the transaction. -/
def Stands (w : FixWorld) (x : Option Bytes) : Prop :=
  Edited w ∧ x = some content ∨ ¬ Edited w ∧ x = initial

/-- Where the contents are, by what the log says of the transaction. -/
structure Facts (w : FixWorld) : Prop where
  temp : Noted w .written → ¬ Noted w .tempGivenUp → w.state p.temp = some postimage
  before : ¬ Noted w .movedAside →
    Stands initial content w (w.state p.target) ∧ w.state p.backup = none
  preimage : Noted w .movedAside → initial = some preimage ∨ Edited w
  aside : Noted w .movedAside → ¬ Settled w.log → Stands initial content w (w.state p.backup) ∧
    (w.state p.target = none ∨ w.state p.target = some postimage)
  settled : Settled w.log → Noted w .movedAside
  committed : Noted w .committed → Edited w ∧ w.state p.target = some content ∨
    ¬ Edited w ∧ w.state p.target = some postimage
  restored : Noted w .restored → Stands initial content w (w.state p.target)
  stranded : Noted w .stranded → Edited w ∧ w.state p.target = some content ∨
    Stands initial content w (w.state p.backup) ∧
      (w.state p.target = none ∨ w.state p.target = some postimage)
  rollback : Noted w .stranded → o.rollback.backupExists = false ∨ o.rollback.restore = false
  ok : Noted w (.ended (.ok ())) → Noted w .committed
  error : ∀ e, Noted w (.ended (.error e)) → ¬ Noted w .committed ∧
    (Noted w .movedAside → Settled w.log)

/-- The invariant of runs. -/
def Sound (w : FixWorld) : Prop :=
  Undisturbed w.log → Facts p o preimage postimage initial content w

end

/-! ## What each step keeps -/

section
variable {p : FixPaths} {o : FixOutcomes} {preimage postimage : Bytes} {initial : Option Bytes}
  {content : Bytes} {w w' : FixWorld} {files : Files} {entries : List FixEvent} {e : FixEvent}

@[simp] theorem noted_next : Noted (w.next 0 files entries) e ↔ Noted w e ∨ e ∈ entries := by
  show (0, e) ∈ w.log ++ entries.map (fun e => (0, e)) ↔ _
  rw [mem_append, mem_map]
  simp [Noted]

@[simp] theorem settled_next : Settled (w.next 0 files entries).log ↔ Settled w.log ∨
    .committed ∈ entries ∨ .restored ∈ entries ∨ .stranded ∈ entries := by
  have hnoted : ∀ e, (0, e) ∈ (w.next 0 files entries).log ↔ (0, e) ∈ w.log ∨ e ∈ entries :=
    fun e => noted_next
  unfold Settled
  rw [hnoted, hnoted, hnoted]
  tauto

@[simp] theorem edited_next : Edited (w.next 0 files entries) ↔ Edited w := by
  show (1, _) ∈ w.log ++ entries.map (fun e => (0, e)) ↔ _
  rw [mem_append, mem_map]
  simp [Edited]

@[simp] theorem stands_next {x : Option Bytes} :
    Stands initial content (w.next 0 files entries) x ↔ Stands initial content w x := by
  unfold Stands
  rw [edited_next]

theorem Undisturbed.left {log more : List (Nat × FixEvent)} (h : Undisturbed (log ++ more)) :
    Undisturbed log := by
  intro before after hlog
  exact h before (after ++ more) (by rw [hlog]; simp)

/-- Where the source has not been moved aside, no edit can have fallen there. -/
theorem undisturbed_of_before (h : ¬ Noted w .movedAside) : Undisturbed w.log := by
  intro before after hlog hmoved
  refine absurd ?_ h
  show (0, FixEvent.movedAside) ∈ w.log
  rw [hlog]
  exact mem_append_left _ hmoved

/-- An edit that fell while the source was not aside was before it was moved. -/
theorem unedited_later (hlater : Later 0 w w') (hmoved : Noted w .movedAside)
    (hunsettled : ¬ Settled w.log) (hundisturbed : Undisturbed w'.log)
    (hunedited : ¬ Edited w) : ¬ Edited w' := by
  obtain ⟨more, hlog, hothers⟩ := hlater
  intro hu
  unfold Edited at hu
  rw [hlog] at hu hundisturbed
  rcases mem_append.mp hu with hu | hu
  · exact hunedited hu
  · obtain ⟨before, after, rfl⟩ := append_of_mem hu
    have hsettled := hundisturbed (w.log ++ before) after (by simp)
      (mem_append_left _ hmoved)
    -- none but the transaction could have settled it
    have hown : ∀ e, (0, e) ∈ w.log ++ before → (0, e) ∈ w.log := by
      intro e he
      rcases mem_append.mp he with he | he
      · exact he
      · exact absurd rfl (hothers (0, e) (mem_append_left _ he))
    exact hunsettled (hsettled.imp (hown _) (Or.imp (hown _) (hown _)))

/-- A step that leaves the backup, and the source where it is not aside, and notes at most
what becomes of the temporary file. -/
theorem Facts.quiet (h : Facts p o preimage postimage initial content w)
    (hentries : ∀ e ∈ entries, e = .written ∨ e = .tempGivenUp)
    (htarget : files p.target = w.state p.target ∨ Noted w .movedAside ∧ ¬ Settled w.log ∧
      (files p.target = none ∨ files p.target = some postimage))
    (hbackup : files p.backup = w.state p.backup)
    (htemp : Noted w .written ∨ .written ∈ entries → ¬ Noted w .tempGivenUp →
      .tempGivenUp ∉ entries → files p.temp = some postimage) :
    Facts p o preimage postimage initial content (w.next 0 files entries) := by
  have hnone : ∀ e, e ≠ .written → e ≠ .tempGivenUp → e ∉ entries :=
    fun e h₁ h₂ he => (hentries e he).elim h₁ h₂
  have hnoted : ∀ e, e ≠ .written → e ≠ .tempGivenUp →
      (Noted (w.next 0 files entries) e ↔ Noted w e) := by
    intro e h₁ h₂
    rw [noted_next]
    exact or_iff_left (hnone e h₁ h₂)
  have hsettled : Settled (w.next 0 files entries).log ↔ Settled w.log := by
    rw [settled_next]
    simp [hnone]
  -- where the source is not aside, or through with, its path has what it had
  have hsame : ¬ Noted w .movedAside ∨ Settled w.log → files p.target = w.state p.target := by
    intro hnot
    rcases htarget with htarget | ⟨hmoved, hunsettled, -⟩
    · exact htarget
    · exact absurd hnot (not_or.mpr ⟨not_not.mpr hmoved, hunsettled⟩)
  refine ⟨?_, ?_, ?_, ?_, ?_, ?_, ?_, ?_, ?_, ?_, ?_⟩
  · intro hwritten hkept
    rw [noted_next] at hwritten hkept
    exact htemp hwritten (fun h => hkept (.inl h)) fun h => hkept (.inr h)
  · rw [hnoted _ (by simp) (by simp), stands_next, next_state, hbackup]
    intro hnot
    rw [hsame (.inl hnot)]
    exact h.before hnot
  · rw [hnoted _ (by simp) (by simp), edited_next]
    exact h.preimage
  · rw [hnoted _ (by simp) (by simp), hsettled, stands_next, next_state, hbackup]
    intro hmoved hunsettled
    obtain ⟨hstands, hbefore⟩ := h.aside hmoved hunsettled
    rcases htarget with htarget | ⟨-, -, htarget⟩
    · exact ⟨hstands, htarget ▸ hbefore⟩
    · exact ⟨hstands, htarget⟩
  · rw [hnoted _ (by simp) (by simp), hsettled]
    exact h.settled
  · rw [hnoted _ (by simp) (by simp), edited_next, next_state]
    intro hc
    rw [hsame (.inr (.inl hc))]
    exact h.committed hc
  · rw [hnoted _ (by simp) (by simp), stands_next, next_state]
    intro hr
    rw [hsame (.inr (.inr (.inl hr)))]
    exact h.restored hr
  · rw [hnoted _ (by simp) (by simp), stands_next, edited_next, next_state, hbackup]
    intro hs
    rw [hsame (.inr (.inr (.inr hs)))]
    exact h.stranded hs
  · rw [hnoted _ (by simp) (by simp)]
    exact h.rollback
  · rw [hnoted _ (by simp) (by simp), hnoted _ (by simp) (by simp)]
    exact h.ok
  · intro e
    rw [hnoted _ (by simp) (by simp), hnoted _ (by simp) (by simp), hnoted _ (by simp) (by simp),
      hsettled]
    exact h.error e

section
variable (h : Facts p o preimage postimage initial content w)
include h

/-- What is not noted before the source is moved aside. -/
theorem Facts.unsettled (hmoved : ¬ Noted w .movedAside) : ¬ Settled w.log :=
  fun hsettled => hmoved (h.settled hsettled)

/-- The source is moved aside. -/
theorem Facts.moveAside (hmoved : ¬ Noted w .movedAside)
    (hpreimage : initial = some preimage ∨ Edited w) (hopen : ∀ answer, ¬ Noted w (.ended answer)) :
    Facts p o preimage postimage initial content
      (w.next 0 (w.state.move p.target p.backup) [.movedAside]) := by
  have hunsettled := h.unsettled hmoved
  have hnot : ¬ Noted w .committed ∧ ¬ Noted w .restored ∧ ¬ Noted w .stranded :=
    ⟨fun hc => hunsettled (.inl hc), fun hr => hunsettled (.inr (.inl hr)),
      fun hs => hunsettled (.inr (.inr hs))⟩
  refine ⟨?_, ?_, ?_, ?_, ?_, ?_, ?_, ?_, ?_, ?_, ?_⟩
  · simp only [noted_next, mem_singleton, reduceCtorEq, or_false]
    intro hwritten hkept
    rw [next_state, move_of_ne p.temp_ne p.temp_ne_backup]
    exact h.temp hwritten hkept
  · simp
  · intro _
    simpa using hpreimage
  · intro _ _
    rw [stands_next, next_state, move_destination p.backup_ne,
      move_source]
    exact ⟨(h.before hmoved).1, .inl rfl⟩
  · simp
  · simp [hnot]
  · simp [hnot]
  · simp [hnot]
  · simp [hnot]
  · simp [hopen]
  · simp [hopen]

/-- The source is committed, put back, or left aside. -/
theorem Facts.settle (hmoved : Noted w .movedAside) (hunsettled : ¬ Settled w.log)
    (hopen : ∀ answer, ¬ Noted w (.ended answer)) (htemp : files p.temp = w.state p.temp)
    (hend : e = .committed ∧ ¬ Edited w ∧ files p.target = some postimage ∨
      e = .restored ∧ files p.target = w.state p.backup ∨
      e = .stranded ∧ files = w.state ∧
        (o.rollback.backupExists = false ∨ o.rollback.restore = false)) :
    Facts p o preimage postimage initial content (w.next 0 files [e]) := by
  have hnot : ¬ Noted w .committed ∧ ¬ Noted w .restored ∧ ¬ Noted w .stranded :=
    ⟨fun hc => hunsettled (.inl hc), fun hr => hunsettled (.inr (.inl hr)),
      fun hs => hunsettled (.inr (.inr hs))⟩
  have haside := h.aside hmoved hunsettled
  refine ⟨?_, ?_, ?_, ?_, ?_, ?_, ?_, ?_, ?_, ?_, ?_⟩
  · rw [next_state, htemp]
    rcases hend with ⟨rfl, -⟩ | ⟨rfl, -⟩ | ⟨rfl, -⟩ <;> simpa using h.temp
  · simp [hmoved]
  · simpa using fun _ => h.preimage hmoved
  · rcases hend with ⟨rfl, -⟩ | ⟨rfl, -⟩ | ⟨rfl, -⟩ <;> simp
  · simp [hmoved]
  · rcases hend with ⟨rfl, hcommitted⟩ | ⟨rfl, -⟩ | ⟨rfl, -⟩
    · exact fun _ => .inr (by rwa [edited_next])
    all_goals simp [hnot]
  · rcases hend with ⟨rfl, -⟩ | ⟨rfl, hrestored⟩ | ⟨rfl, -⟩
    · simp [hnot]
    · rw [stands_next, next_state, hrestored]
      exact fun _ => haside.1
    · simp [hnot]
  · rcases hend with ⟨rfl, -⟩ | ⟨rfl, -⟩ | ⟨rfl, rfl, -⟩
    · simp [hnot]
    · simp [hnot]
    · rw [stands_next]
      exact fun _ => .inr haside
  · rcases hend with ⟨rfl, -⟩ | ⟨rfl, -⟩ | ⟨rfl, -, hwhy⟩
    · simp [hnot]
    · simp [hnot]
    · exact fun _ => hwhy
  · rcases hend with ⟨rfl, -⟩ | ⟨rfl, -⟩ | ⟨rfl, -⟩ <;> simp [hopen]
  · rcases hend with ⟨rfl, -⟩ | ⟨rfl, -⟩ | ⟨rfl, -⟩ <;> simp [hopen]

/-- The backup of a committed source goes. -/
theorem Facts.dropBackup (hcommitted : Noted w .committed)
    (hnot : ¬ Noted w .restored ∧ ¬ Noted w .stranded) (hbackup : ∀ path, path ≠ p.backup →
      files path = w.state path) :
    Facts p o preimage postimage initial content (w.next 0 files []) := by
  have hmoved := h.settled (.inl hcommitted)
  refine ⟨?_, ?_, ?_, ?_, ?_, ?_, ?_, ?_, ?_, ?_, ?_⟩
  · simp only [noted_next, not_mem_nil, or_false]
    rw [next_state, hbackup _ p.temp_ne_backup]
    exact h.temp
  · simp [hmoved]
  · simpa using fun _ => h.preimage hmoved
  · intro _ hunsettled
    refine absurd ?_ hunsettled
    rw [settled_next]
    exact .inl (.inl hcommitted)
  · simpa using fun _ => hmoved
  · intro _
    rw [edited_next, next_state, hbackup _ p.backup_ne.symm]
    exact h.committed hcommitted
  · simp [hnot]
  · simp [hnot]
  · simp [hnot]
  · simpa using h.ok
  · simpa using h.error

/-- The transaction answers. -/
theorem Facts.answer {answer : Except String Unit} (hok : answer = .ok () → Noted w .committed)
    (herror : ∀ e, answer = .error e → ¬ Noted w .committed ∧
      (Noted w .movedAside → Settled w.log)) :
    Facts p o preimage postimage initial content (w.next 0 w.state [.ended answer]) := by
  refine ⟨?_, ?_, ?_, ?_, ?_, ?_, ?_, ?_, ?_, ?_, ?_⟩
  · simpa using h.temp
  · simpa [stands_next] using h.before
  · simpa using h.preimage
  · simpa [stands_next] using h.aside
  · simpa using h.settled
  · simpa using h.committed
  · simpa [stands_next] using h.restored
  · simpa [stands_next] using h.stranded
  · simpa using h.rollback
  · simp only [noted_next, mem_singleton, FixEvent.ended.injEq, reduceCtorEq, or_false]
    rintro (hend | hend)
    · exact h.ok hend
    · exact hok hend.symm
  · intro e
    simp only [noted_next, mem_singleton, FixEvent.ended.injEq, reduceCtorEq, or_false,
      settled_next]
    rintro (hend | hend)
    · exact h.error e hend
    · exact herror e hend.symm

end

/-- A step of the transaction on the sound states of an undisturbed run. -/
theorem Sound.step (h : Sound p o preimage postimage initial content w)
    (hstep : Facts p o preimage postimage initial content w →
      Facts p o preimage postimage initial content (w.next 0 files entries)) :
    Sound p o preimage postimage initial content (w.next 0 files entries) :=
  fun hundisturbed => hstep (h hundisturbed.left)

/-! ## The transaction, step by step -/

theorem noted_later (h : Later 0 w w') : Noted w' e ↔ Noted w e := h.own

/-- The transaction has noted these events and no others. -/
def Has (events : List FixEvent) (w : FixWorld) : Prop := ∀ e, Noted w e ↔ e ∈ events

variable {events : List FixEvent}

theorem Has.later (h : Has events w) (hlater : Later 0 w w') :
    Has events w' := fun e => (noted_later hlater).trans (h e)

theorem Has.next (h : Has events w) :
    Has (events ++ entries) (w.next 0 files entries) := by
  intro e
  rw [noted_next, h e, mem_append]

theorem Has.look (h : Has events w) :
    Has events (w.next 0 files []) := by
  have hnext : Has (events ++ []) (w.next 0 files []) := h.next
  simpa using hnext

/-- The transaction has not answered, and the source is aside. -/
structure Aside (w : FixWorld) : Prop where
  moved : Noted w .movedAside
  unsettled : ¬ Settled w.log
  opened : ∀ answer, ¬ Noted w (.ended answer)

/-- The transaction has not answered, has not committed, and is through with the source. -/
structure Failed (w : FixWorld) : Prop where
  uncommitted : ¬ Noted w .committed
  settled : Noted w .movedAside → Settled w.log
  opened : ∀ answer, ¬ Noted w (.ended answer)

theorem settled_later (h : Later 0 w w') : Settled w'.log ↔ Settled w.log :=
  or_congr (noted_later h) (or_congr (noted_later h) (noted_later h))

theorem Aside.later (h : Aside w) (hlater : Later 0 w w') : Aside w' :=
  ⟨(noted_later hlater).mpr h.moved, fun hs => h.unsettled ((settled_later hlater).mp hs),
    fun answer ha => h.opened answer ((noted_later hlater).mp ha)⟩

theorem Failed.later (h : Failed w) (hlater : Later 0 w w') : Failed w' :=
  ⟨fun hc => h.uncommitted ((noted_later hlater).mp hc),
    fun hm => (settled_later hlater).mpr (h.settled ((noted_later hlater).mp hm)),
    fun answer ha => h.opened answer ((noted_later hlater).mp ha)⟩

/-- Where the source was not moved, there is nothing to settle. -/
theorem Has.failed (h : Has events w) (hevents : ∀ e ∈ events, e = .written ∨ e = .tempGivenUp) :
    Failed w := by
  have hnot : ∀ e, e ≠ .written → e ≠ .tempGivenUp → ¬ Noted w e :=
    fun e h₁ h₂ he => (hevents e ((h e).mp he)).elim h₁ h₂
  exact ⟨hnot _ (by simp) (by simp), fun hm => absurd hm (hnot _ (by simp) (by simp)),
    fun _ => hnot _ (by simp) (by simp)⟩

theorem Has.aside (h : Has events w) (hmoved : .movedAside ∈ events)
    (hevents : ∀ e ∈ events, e = .written ∨ e = .tempGivenUp ∨ e = .movedAside) : Aside w := by
  have hnot : ∀ e, e ≠ .written → e ≠ .tempGivenUp → e ≠ .movedAside → ¬ Noted w e :=
    fun e h₁ h₂ h₃ he => (hevents e ((h e).mp he)).elim h₁ fun he => he.elim h₂ h₃
  refine ⟨(h _).mpr hmoved, ?_, fun _ => hnot _ (by simp) (by simp) (by simp)⟩
  rintro (hs | hs | hs)
  · exact hnot _ (by simp) (by simp) (by simp) hs
  · exact hnot _ (by simp) (by simp) (by simp) hs
  · exact hnot _ (by simp) (by simp) (by simp) hs

section
variable {α : Type} {ok : α → FixWorld → Prop} {err : String → FixWorld → Prop}

/-- What the transaction's calls meet. -/
abbrev Achieves (p : FixPaths) (o : FixOutcomes) (preimage postimage : Bytes)
    (initial : Option Bytes) (content : Bytes) (ok : α → FixWorld → Prop)
    (err : String → FixWorld → Prop) (call : FixCall α) (w : FixWorld) : Prop :=
  Meets (Sound p o preimage postimage initial content) 0 ok err call w

variable {events : List FixEvent} {succeeds : Bool}

/-- Reading the source before it is moved: somebody edited it, or it is as it was. -/
theorem achieves_readSource {error : String} (h : Has events w) (hmoved : .movedAside ∉ events) :
    Achieves p o preimage postimage initial content
      (fun bytes w' => Has events w' ∧ (initial = some bytes ∨ Edited w'))
      (fun _ w' => Has events w') (read succeeds p.target error fun _ => []) w := by
  refine meets_locked fun w' result files entries hlater hw hf => ?_
  have hhas := h.later hlater
  have hbefore : ¬ Noted w' .movedAside := fun hm => hmoved ((hhas _).mp hm)
  split at hf
  · rename_i bytes hbytes
    split at hf
    · cases hf
      rw [next_nothing]
      refine ⟨hw, hhas, ?_⟩
      obtain ⟨hstands, -⟩ := (hw (undisturbed_of_before hbefore)).before hbefore
      rcases hstands with ⟨hedited, -⟩ | ⟨-, hinitial⟩
      · exact .inr hedited
      · exact .inl (hinitial.symm.trans hbytes)
    · cases hf
      rw [next_nothing]
      exact ⟨hw, hhas⟩
  · cases hf
    rw [next_nothing]
    exact ⟨hw, hhas⟩

/-- A step on the temporary file before the source is moved. -/
theorem achieves_onTemp {events done : List FixEvent} {change : Files → Files}
    {error : String} (h : Has events w) (hgone : .tempGivenUp ∉ events)
    (hdone : ∀ e ∈ done, e = .written)
    (hchange : ∀ files path, path ≠ p.temp → change files path = files path)
    (htemp : ∀ files, .written ∈ done ∧ change files p.temp = some postimage ∨
      done = [] ∧ change files p.temp = files p.temp) :
    Achieves p o preimage postimage initial content (fun _ w' => Has (events ++ done) w')
      (fun _ w' => Has events w') (onTemp succeeds change error done) w := by
  refine meets_locked fun w' result files entries hlater hw hf => ?_
  have hhas := h.later hlater
  split at hf
  · cases hf
    refine ⟨hw.step fun hfacts => hfacts.quiet (fun e he => .inl (hdone e he))
      (.inl (hchange _ _ p.temp_ne.symm)) (hchange _ _ p.temp_ne_backup.symm) ?_, hhas.next⟩
    intro hwritten _ _
    rcases htemp w'.state with ⟨-, htemp⟩ | ⟨hnil, htemp⟩
    · exact htemp
    · rw [hnil] at hwritten
      rw [htemp]
      exact hfacts.temp (hwritten.resolve_right (by simp)) fun hg => hgone ((hhas _).mp hg)
  · cases hf
    rw [next_nothing]
    exact ⟨hw, hhas⟩

/-- The temporary file is given up: nothing that matters is lost. -/
theorem achieves_discardTemp {ok : Unit → FixWorld → Prop}
    (hok : ∀ w' files, Later 0 w w' → ok () (w'.next 0 files [.tempGivenUp])) :
    Achieves p o preimage postimage initial content ok err
      (discardFile succeeds p.temp [.tempGivenUp]) w := by
  refine meets_update fun w' hlater hw => ⟨?_, hok w' _ hlater⟩
  refine hw.step fun hfacts => hfacts.quiet (by simp) (.inl ?_) ?_ (by simp)
  · cases succeeds with
    | false => rfl
    | true => exact erase_of_ne p.temp_ne.symm
  · cases succeeds with
    | false => rfl
    | true => exact erase_of_ne p.temp_ne_backup.symm

/-- A step before the source is moved, the temporary file going where it fails. -/
theorem achieves_orDiscard {step : FixCall α} (hevents : ∀ e ∈ events, e = .written)
    (h : Achieves p o preimage postimage initial content ok (fun _ w' => Has events w') step w) :
    Achieves p o preimage postimage initial content ok (fun _ => Failed)
      (orDiscard succeeds p.temp step) w := by
  unfold orDiscard Achieves
  rw [meets_bind, meets_attempt]
  refine h.mono (fun a w' ha => ha) fun e w' hhas => ?_
  refine meets_bind.mpr (achieves_discardTemp fun w'' files hlater => ?_)
  refine (hhas.later hlater).next.failed fun e he => ?_
  rcases mem_append.mp he with he | he
  · exact .inl (hevents e he)
  · exact .inr (mem_singleton.mp he)

/-! ### The rollback -/

theorem Aside.quiet (h : Aside w) (hentries : ∀ e ∈ entries, e = .tempGivenUp) :
    Aside (w.next 0 files entries) := by
  have hnone : ∀ e, e ≠ .tempGivenUp → e ∉ entries := fun e hne he => hne (hentries e he)
  refine ⟨noted_next.mpr (.inl h.moved), ?_, ?_⟩
  · rw [settled_next]
    simp [h.unsettled, hnone]
  · intro answer
    simp [h.opened answer, hnone]

/-- The backup is there while the source is aside. -/
theorem Facts.backup_isSome (h : Facts p o preimage postimage initial content w)
    (haside : Aside w) : (w.state p.backup).isSome := by
  rcases (h.aside haside.moved haside.unsettled).1 with ⟨-, heq⟩ | ⟨hunedited, heq⟩
  · rw [heq]
    rfl
  · rw [heq, (h.preimage haside.moved).resolve_right hunedited]
    rfl

/-- The source cannot be put back: the transaction is through with it. -/
theorem Aside.strand (h : Aside w) (hw : Sound p o preimage postimage initial content w)
    (hwhy : (w.state p.backup).isSome →
      o.rollback.backupExists = false ∨ o.rollback.restore = false) :
    Sound p o preimage postimage initial content (w.next 0 w.state [.stranded]) ∧
      Failed (w.next 0 w.state [.stranded]) := by
  refine ⟨hw.step fun hfacts => hfacts.settle h.moved h.unsettled h.opened rfl
    (.inr (.inr ⟨rfl, rfl, hwhy (hfacts.backup_isSome h)⟩)), ?_, ?_, ?_⟩
  · simp only [noted_next, mem_singleton, reduceCtorEq, or_false]
    exact fun hc => h.unsettled (.inl hc)
  · intro _
    simp
  · simpa using h.opened

theorem achieves_rollback (h : Aside w) :
    Achieves p o preimage postimage initial content (fun _ => Failed) (fun _ => Failed)
      (rollback p o.rollback) w := by
  have hdiscard : Achieves p o preimage postimage initial content (fun _ => Aside) (fun _ => Failed)
      (discardFile o.rollback.removeTemp p.temp [.tempGivenUp]) w :=
    achieves_discardTemp fun w' files hlater => (h.later hlater).quiet (by simp)
  refine meets_bind.mpr (hdiscard.mono ?_ fun _ _ h => h)
  rintro _ w₁ h₁
  have hexists : Achieves p o preimage postimage initial content (fun _ => Aside)
      (fun _ => Failed) (pathExists o.rollback.targetExists p.target []) w₁ := by
    refine meets_update_cases fun w' found files entries hlater hw hf => ?_
    split at hf
    all_goals
      cases hf
      rw [next_nothing]
      exact ⟨hw, h₁.later hlater⟩
  refine meets_bind.mpr (hexists.mono ?_ fun _ _ h => h)
  rintro targetExists w₂ h₂
  have hremove : Achieves p o preimage postimage initial content (fun _ => Aside) (fun _ => Failed)
      (discardFile o.rollback.removeTarget p.target []) w₂ := by
    refine meets_update fun w' hlater hw => ?_
    have haside := h₂.later hlater
    refine ⟨hw.step fun hfacts => ?_, haside.quiet (by simp)⟩
    have hremain : ∀ path, path ≠ p.target →
        (if o.rollback.removeTarget then w'.state.erase p.target else w'.state) path =
          w'.state path := by
      intro path hpath
      split
      · exact erase_of_ne hpath
      · rfl
    refine hfacts.quiet (by simp) (.inr ⟨haside.moved, haside.unsettled, ?_⟩)
      (hremain _ p.backup_ne) fun hwritten hkept _ => ?_
    · cases o.rollback.removeTarget with
      | false => exact (hfacts.aside haside.moved haside.unsettled).2
      | true => exact .inl erase_self
    · exact (hremain _ p.temp_ne).trans
        (hfacts.temp (hwritten.resolve_right (by simp)) hkept)
  have hlook : ∀ w, Aside w → Achieves p o preimage postimage initial content
      (fun found w' => found = true ∧ Aside w' ∨ found = false ∧ Failed w') (fun _ => Failed)
      (pathExists o.rollback.backupExists p.backup [.stranded]) w := by
    intro w hw₀
    refine meets_update_cases fun w' found files entries hlater hw hf => ?_
    have haside := hw₀.later hlater
    split at hf
    · cases hf
      rw [next_nothing]
      exact ⟨hw, .inl ⟨rfl, haside⟩⟩
    · rename_i hmissing
      cases hf
      obtain ⟨hsound, hfailed⟩ := haside.strand hw fun hsome => by
        left
        by_contra hexists
        exact hmissing ⟨by simpa using hexists, hsome⟩
      exact ⟨hsound, .inr ⟨rfl, hfailed⟩⟩
  have hrestore : ∀ w, Aside w → Achieves p o preimage postimage initial content
      (fun _ => Failed) (fun _ => Failed)
      (rename o.rollback.restore p.backup p.target "trusted Fix apply failed and rollback failed"
        [.restored] [.stranded]) w := by
    intro w hw₀
    refine meets_locked fun w' result files entries hlater hw hf => ?_
    have haside := hw₀.later hlater
    split at hf
    · cases hf
      refine ⟨hw.step fun hfacts => hfacts.settle haside.moved haside.unsettled haside.opened
        (move_of_ne p.temp_ne_backup p.temp_ne)
        (.inr (.inl ⟨rfl, move_destination p.backup_ne.symm⟩)), ?_, ?_, ?_⟩
      · simp only [noted_next, mem_singleton, reduceCtorEq, or_false]
        exact fun hc => haside.unsettled (.inl hc)
      · intro _
        simp
      · simpa using haside.opened
    · rename_i hfails
      cases hf
      exact haside.strand hw fun hsome => by
        right
        by_contra hrestore
        exact hfails ⟨by simpa using hrestore, hsome⟩
  have htail : ∀ w, Aside w → Achieves p o preimage postimage initial content
      (fun _ => Failed) (fun _ => Failed) (do
        let backupExists ← pathExists o.rollback.backupExists p.backup [.stranded]
        if backupExists then
          rename o.rollback.restore p.backup p.target
            "trusted Fix apply failed and rollback failed" [.restored] [.stranded]) w := by
    intro w hw₀
    refine meets_bind.mpr ((hlook w hw₀).mono ?_ fun _ _ h => h)
    rintro backupExists w₄ (⟨rfl, h₄⟩ | ⟨rfl, h₄⟩)
    · exact hrestore w₄ h₄
    · exact h₄
  cases targetExists with
  | false => exact htail w₂ h₂
  | true => exact meets_bind.mpr (hremove.mono (fun _ w₃ h₃ => htail w₃ h₃) fun _ _ h => h)

theorem achieves_failAfterRollback {error : String} (h : Aside w) :
    Achieves p o preimage postimage initial content ok (fun _ => Failed)
      (failAfterRollback p o.rollback error : FixCall α) w :=
  meets_bind.mpr ((achieves_rollback h).mono (fun _ _ h => h) fun _ _ h => h)

/-! ### The source replaced -/

/-- Nobody has edited the source, in an undisturbed run. -/
def Clean (w : FixWorld) : Prop := Undisturbed w.log → ¬ Edited w

theorem Clean.later (h : Clean w) (haside : Aside w) (hlater : Later 0 w w') : Clean w' := by
  intro hundisturbed
  have hbefore : Undisturbed w.log := by
    obtain ⟨more, hlog, -⟩ := hlater
    rw [hlog] at hundisturbed
    exact hundisturbed.left
  exact unedited_later hlater haside.moved haside.unsettled hundisturbed (h hbefore)

theorem Clean.next (h : Clean w) : Clean (w.next 0 files entries) := by
  intro hundisturbed
  rw [edited_next]
  exact h hundisturbed.left

/-- The contents that were committed. -/
structure Succeeded (w : FixWorld) : Prop where
  committed : Noted w .committed
  opened : ∀ answer, ¬ Noted w (.ended answer)

/-- Reading the backup: with the preimage in it nobody has edited the source. -/
theorem achieves_readBackup (h : Has events w) (haside : Aside w) (hcontent : content ≠ preimage) :
    Achieves p o preimage postimage initial content
      (fun bytes w' => Has events w' ∧ (bytes = preimage → Clean w')) (fun _ w' => Has events w')
      (read o.readBackup p.backup "" fun _ => []) w := by
  refine meets_locked fun w' result files entries hlater hw hf => ?_
  split at hf
  · rename_i bytes hbytes
    split at hf
    · cases hf
      rw [next_nothing]
      refine ⟨hw, h.later hlater, ?_⟩
      rintro rfl hundisturbed hedited
      have haside' := haside.later hlater
      rcases ((hw hundisturbed).aside haside'.moved haside'.unsettled).1 with ⟨-, heq⟩ | ⟨hnot, -⟩
      · exact hcontent (Option.some.inj (heq.symm.trans hbytes))
      · exact hnot hedited
    · cases hf
      rw [next_nothing]
      exact ⟨hw, h.later hlater⟩
  · cases hf
    rw [next_nothing]
    exact ⟨hw, h.later hlater⟩

/-- The temporary file takes the source's place. -/
theorem achieves_replace (h : Has [.written, .movedAside] w) (hclean : Clean w) :
    Achieves p o preimage postimage initial content
      (fun _ w' => Has [.written, .movedAside, .tempGivenUp] w' ∧ Clean w')
      (fun _ w' => Has [.written, .movedAside] w')
      (rename o.replace p.temp p.target "" [.tempGivenUp] []) w := by
  have haside := h.aside (by simp) (by simp)
  refine meets_locked fun w' result files entries hlater hw hf => ?_
  have hhas := h.later hlater
  have haside' := haside.later hlater
  split at hf
  · cases hf
    refine ⟨hw.step fun hfacts => ?_, hhas.next, (hclean.later haside hlater).next⟩
    have htemp : w'.state p.temp = some postimage :=
      hfacts.temp ((hhas _).mpr (by simp)) fun hg => by simpa using (hhas _).mp hg
    refine hfacts.quiet (by simp) (.inr ⟨haside'.moved, haside'.unsettled, .inr ?_⟩)
      (move_of_ne p.temp_ne_backup.symm p.backup_ne) (by simp)
    rw [move_destination p.temp_ne.symm]
    exact htemp
  · cases hf
    rw [next_nothing]
    exact ⟨hw, hhas⟩

/-- The new contents are read back. -/
theorem achieves_verify (h : Has [.written, .movedAside, .tempGivenUp] w) (hclean : Clean w) :
    Achieves p o preimage postimage initial content
      (fun bytes w' => bytes = postimage ∧
          Has [.written, .movedAside, .tempGivenUp, .committed] w' ∨
        bytes ≠ postimage ∧ Has [.written, .movedAside, .tempGivenUp] w')
      (fun _ w' => Has [.written, .movedAside, .tempGivenUp] w')
      (read o.verify p.target "trusted Fix post-write verification failed"
        fun bytes => if bytes = postimage then [.committed] else []) w := by
  have haside := h.aside (by simp) (by simp)
  refine meets_locked fun w' result files entries hlater hw hf => ?_
  have hhas := h.later hlater
  have haside' := haside.later hlater
  split at hf
  · rename_i bytes hbytes
    split at hf
    · cases hf
      by_cases heq : bytes = postimage
      · simp only [if_pos heq]
        refine ⟨fun hundisturbed => ?_, .inl ⟨heq, hhas.next⟩⟩
        have hbefore : Undisturbed w'.log := hundisturbed.left
        exact (hw hbefore).settle haside'.moved haside'.unsettled haside'.opened rfl
          (.inl ⟨rfl, hclean.later haside hlater hbefore, by rw [hbytes, heq]⟩)
      · simp only [if_neg heq, next_nothing]
        exact ⟨hw, .inr ⟨heq, hhas⟩⟩
    · cases hf
      rw [next_nothing]
      exact ⟨hw, hhas⟩
  · cases hf
    rw [next_nothing]
    exact ⟨hw, hhas⟩

/-- The backup of the committed source is cleaned up. -/
theorem achieves_dropBackup (h : Has [.written, .movedAside, .tempGivenUp, .committed] w) :
    Achieves p o preimage postimage initial content (fun _ => Succeeded) err
      (discardFile o.removeBackup p.backup []) w := by
  refine meets_update fun w' hlater hw => ?_
  have hhas := h.later hlater
  have hnot : ¬ Noted w' .restored ∧ ¬ Noted w' .stranded := by
    rw [hhas, hhas]
    simp
  refine ⟨hw.step fun hfacts => hfacts.dropBackup ((hhas _).mpr (by simp)) hnot ?_, ?_, ?_⟩
  · intro path hpath
    cases o.removeBackup with
    | false => rfl
    | true => exact erase_of_ne hpath
  · exact (hhas.look _).mpr (by simp)
  · intro answer ha
    simpa using (hhas.look _).mp ha

variable {fault : FixTransactionFault}

theorem achieves_replaceSource (h : Has [.written, .movedAside] w) (hcontent : content ≠ preimage) :
    Achieves p o preimage postimage initial content (fun _ => Succeeded) (fun _ => Failed)
      (replaceSource p o preimage postimage fault) w := by
  have haside : ∀ {v}, Has [.written, .movedAside] v → Aside v := fun hv => hv.aside (by simp) (by simp)
  have haside' : ∀ {v}, Has [.written, .movedAside, .tempGivenUp] v → Aside v :=
    fun hv => hv.aside (by simp) (by simp)
  refine meets_bind.mpr (meets_attempt.mpr
    ((achieves_readBackup h (haside h) hcontent).mono ?_ ?_))
  · rintro bytes w₁ ⟨h₁, hclean⟩
    by_cases hbytes : bytes = preimage
    · simp only [hbytes, ne_eq, not_true_eq_false, if_false]
      split
      · exact achieves_failAfterRollback (haside h₁)
      refine meets_bind.mpr (meets_attempt.mpr ((achieves_replace h₁ (hclean hbytes)).mono ?_ ?_))
      · rintro - w₂ ⟨h₂, hclean₂⟩
        simp only
        split
        · exact achieves_failAfterRollback (haside' h₂)
        refine meets_bind.mpr (meets_attempt.mpr ((achieves_verify h₂ hclean₂).mono ?_ ?_))
        · rintro verified w₃ (⟨rfl, h₃⟩ | ⟨hne, h₃⟩)
          · simp only [if_true]
            exact achieves_dropBackup h₃
          · rw [if_neg fun heq => hne (Except.ok.inj heq)]
            exact achieves_failAfterRollback (haside' h₃)
        · intro e w₃ h₃
          rw [if_neg (by simp)]
          exact achieves_failAfterRollback (haside' h₃)
      · intro e w₂ h₂
        exact achieves_failAfterRollback (haside h₂)
    · simp only [ne_eq, hbytes, not_false_eq_true, if_true]
      exact achieves_failAfterRollback (haside h₁)
  · intro e w₁ h₁
    exact achieves_failAfterRollback (haside h₁)

/-! ### The whole transaction -/

theorem achieves_createTemp (h : Has [] w) :
    Achieves p o preimage postimage initial content (fun _ => Has []) (fun _ => Has [])
      (locked fun files => if o.createTemp = true ∧ (files p.temp).isNone = true then
        (.ok (), files.put p.temp [], [])
        else (.error "trusted Fix temporary write is unavailable", files, [])) w := by
  refine meets_locked fun w' result files entries hlater hw hf => ?_
  have hhas := h.later hlater
  split at hf
  · cases hf
    refine ⟨hw.step fun hfacts => hfacts.quiet (by simp)
      (.inl (put_of_ne p.temp_ne.symm)) (put_of_ne p.temp_ne_backup.symm) ?_, hhas.look⟩
    intro hwritten _ _
    simp [hhas _] at hwritten
  · cases hf
    rw [next_nothing]
    exact ⟨hw, hhas⟩

/-- The source is moved aside. -/
theorem achieves_moveAside (h : Has [.written] w)
    (hpreimage : initial = some preimage ∨ Edited w) :
    Achieves p o preimage postimage initial content (fun _ => Has [.written, .movedAside])
      (fun _ => Has [.written])
      (rename o.moveAside p.target p.backup "trusted Fix could not begin the write transaction"
        [.movedAside] []) w := by
  refine meets_locked fun w' result files entries hlater hw hf => ?_
  have hhas := h.later hlater
  split at hf
  · cases hf
    refine ⟨hw.step fun hfacts => hfacts.moveAside ?_ (hpreimage.imp_right hlater.grows.mem) ?_,
      hhas.next⟩
    · rw [hhas]
      simp
    · intro answer
      rw [hhas]
      simp
  · cases hf
    rw [next_nothing]
    exact ⟨hw, hhas⟩

theorem achieves_applyFixTransactionInner (h : Has [] w) (hcontent : content ≠ preimage) :
    Achieves p o preimage postimage initial content (fun _ => Succeeded) (fun _ => Failed)
      (applyFixTransactionInner p o preimage postimage fault) w := by
  have hfailed : ∀ {v}, Has [] v → Failed v := fun hv => hv.failed (by simp)
  have hwritten : ∀ e ∈ [FixEvent.written], e = .written := by simp
  have hsame : ∀ (done : List FixEvent) (files : Files), done = [] →
      (.written ∈ done ∧ id files p.temp = some postimage ∨
        done = [] ∧ id files p.temp = files p.temp) := fun _ _ hnil => .inr ⟨hnil, rfl⟩
  refine meets_bind.mpr ((achieves_readSource h (by simp)).mono ?_ fun _ _ h => hfailed h)
  rintro bytes w₁ ⟨h₁, -⟩
  simp only [meets_bind, meets_reject]
  refine ⟨fun _ => hfailed h₁, fun _ => ?_⟩
  refine (achieves_readSource h₁ (by simp)).mono ?_ fun _ _ h => hfailed h
  rintro _ w₂ ⟨h₂, -⟩
  simp only [meets_bind, meets_reject]
  refine ⟨fun _ => hfailed h₂, fun _ => ⟨fun _ => hfailed h₂, fun _ => ?_⟩⟩
  refine (achieves_createTemp h₂).mono ?_ fun _ _ h => hfailed h
  rintro _ w₃ h₃
  -- the temporary file is written
  refine meets_bind.mpr ((achieves_orDiscard (by simp) (achieves_onTemp h₃ (by simp) (by simp)
    (fun files path hpath => put_of_ne hpath)
    fun files => .inl ⟨by simp, put_self⟩)).mono ?_ fun _ _ h => h)
  rintro _ w₄ h₄
  refine meets_bind.mpr ((achieves_orDiscard hwritten (achieves_onTemp h₄ (by simp) (by simp)
    (fun _ _ _ => rfl) fun files => hsame [] files rfl)).mono ?_ fun _ _ h => h)
  rintro _ w₅ h₅
  refine meets_bind.mpr ((achieves_orDiscard hwritten (achieves_onTemp h₅ (by simp) (by simp)
    (fun _ _ _ => rfl) fun files => hsame [] files rfl)).mono ?_ fun _ _ h => h)
  rintro _ w₆ h₆
  refine meets_bind.mpr ((achieves_orDiscard hwritten (achieves_onTemp h₆ (by simp) (by simp)
    (fun _ _ _ => rfl) fun files => hsame [] files rfl)).mono ?_ fun _ _ h => h)
  rintro _ w₇ h₇
  -- the source is compared again and moved aside
  refine meets_bind.mpr ((achieves_orDiscard hwritten
    (achieves_readSource h₇ (by simp))).mono ?_ fun _ _ h => h)
  rintro final w₈ ⟨h₈, hsource⟩
  have hcompare : Achieves p o preimage postimage initial content
      (fun _ v => Has [.written] v ∧ (initial = some preimage ∨ Edited v))
      (fun _ => Has [.written])
      (reject (final ≠ preimage) "trusted Fix source changed since proposal") w₈ := by
    refine meets_reject.mpr ⟨fun _ => h₈, fun heq => ⟨h₈, ?_⟩⟩
    rw [not_not] at heq
    rw [← heq]
    exact hsource
  refine meets_bind.mpr ((achieves_orDiscard hwritten hcompare).mono ?_ fun _ _ h => h)
  rintro _ w₉ ⟨h₉, hpreimage⟩
  refine meets_bind.mpr ((achieves_orDiscard hwritten (achieves_moveAside h₉ hpreimage)).mono ?_
    fun _ _ h => h)
  rintro _ w₁₀ h₁₀
  exact achieves_replaceSource h₁₀ hcontent

/-- The transaction, from the beginning to its answer. -/
theorem goes_transaction (h : Has [] w) (hcontent : content ≠ preimage) :
    Goes (Sound p o preimage postimage initial content) 0
      (transaction p o preimage postimage fault) w := by
  refine meets_bind.mpr (meets_attempt.mpr
    ((achieves_applyFixTransactionInner h hcontent).mono ?_ ?_))
  · rintro - w₁ h₁
    refine meets_tell fun w' hlater hw => ⟨hw.step fun hfacts => hfacts.answer ?_ ?_, trivial⟩
    · exact fun _ => (noted_later hlater).mpr h₁.committed
    · exact fun e he => nomatch he
  · rintro e w₁ h₁
    have hfailed : ∀ {v}, Later 0 w₁ v → Failed v := fun hlater => h₁.later hlater
    refine meets_tell fun w' hlater hw => ⟨hw.step fun hfacts => hfacts.answer ?_ ?_, trivial⟩
    · exact fun hanswer => nomatch hanswer
    · exact fun _ _ => ⟨(hfailed hlater).uncommitted, (hfailed hlater).settled⟩

/-! ### The other program -/

@[simp] theorem noted_edit : Noted (w.next 1 files [.edited]) e ↔ Noted w e := by
  show (0, e) ∈ w.log ++ [(1, FixEvent.edited)] ↔ _
  rw [mem_append]
  simp [Noted]

@[simp] theorem settled_edit : Settled (w.next 1 files [.edited]).log ↔ Settled w.log :=
  or_congr noted_edit (or_congr noted_edit noted_edit)

@[simp] theorem edited_edit : Edited (w.next 1 files [.edited]) := by
  show (1, _) ∈ w.log ++ [(1, FixEvent.edited)]
  exact mem_append_right _ mem_cons_self

/-- Where the source is not aside, an edit is what the source then has. -/
theorem Facts.edit (h : Facts p o preimage postimage initial content w)
    (hsettled : Noted w .movedAside → Settled w.log) :
    Facts p o preimage postimage initial content
      (w.next 1 (w.state.put p.target content) [.edited]) := by
  have htarget : (w.state.put p.target content) p.target = some content := put_self
  have hnow : ∀ {x : Option Bytes}, x = some content →
      Stands initial content (w.next 1 (w.state.put p.target content) [.edited]) x :=
    fun hx => .inl ⟨edited_edit, hx⟩
  refine ⟨?_, ?_, ?_, ?_, ?_, ?_, ?_, ?_, ?_, ?_, ?_⟩
  · rw [noted_edit, noted_edit, next_state, put_of_ne p.temp_ne]
    exact h.temp
  · rw [noted_edit, next_state, put_of_ne p.backup_ne]
    exact fun hmoved => ⟨hnow htarget, (h.before hmoved).2⟩
  · exact fun _ => .inr edited_edit
  · rw [noted_edit, settled_edit]
    exact fun hmoved hunsettled => absurd (hsettled hmoved) hunsettled
  · rw [settled_edit, noted_edit]
    exact h.settled
  · exact fun _ => .inl ⟨edited_edit, htarget⟩
  · exact fun _ => hnow htarget
  · exact fun _ => .inl ⟨edited_edit, htarget⟩
  · rw [noted_edit]
    exact h.rollback
  · rw [noted_edit, noted_edit]
    exact h.ok
  · intro e
    rw [noted_edit, noted_edit, noted_edit, settled_edit]
    exact h.error e

theorem goes_edit : Goes (Sound p o preimage postimage initial content) 1 (edit p content) w := by
  refine meets_update fun w' _ hw => ⟨fun hundisturbed => ?_, trivial⟩
  exact (hw hundisturbed.left).edit (hundisturbed w'.log [] rfl)

end
end

/-! ## Runs -/

/-- Nothing begins during a run: the calls are there at its start. -/
def fixSystem : System Files FixEvent Unit where
  admits := fun _ _ => false
  body := fun _ => .done ()

/-- The transaction is call 0; the other program, where there is one, call 1. -/
def begun (files : Files) (p : FixPaths) (o : FixOutcomes) (preimage postimage : Bytes)
    (fault : FixTransactionFault) (written : Option Bytes) : Config Files FixEvent where
  state := files
  log := []
  calls := fun t =>
    if t = 0 then some (transaction p o preimage postimage fault)
    else if t = 1 then written.map (edit p)
    else none

section
variable {p : FixPaths} {o : FixOutcomes} {preimage postimage : Bytes} {fault : FixTransactionFault}
  {files : Files} {content : Bytes} {written : Option Bytes} {c : Config Files FixEvent}
  {tr : List (Move Unit)}

theorem fixSystem_keeps (I : FixWorld → Prop) : fixSystem.Keeps I := by
  intro w t request _ hadmits
  cases hadmits

theorem facts_begun (hbackup : files p.backup = none) :
    Facts p o preimage postimage (files p.target) content { state := files, log := [] } := by
  have hnot : ∀ e, ¬ Noted { state := files, log := [] } e := fun e he => nomatch he
  have hunsettled : ¬ Settled [] := by simp [Settled]
  have hunedited : ¬ Edited { state := files, log := [] } := fun hu => nomatch hu
  refine ⟨fun h => absurd h (hnot _), fun _ => ⟨.inr ⟨hunedited, rfl⟩, hbackup⟩,
    fun h => absurd h (hnot _), fun h => absurd h (hnot _), fun h => absurd h hunsettled,
    fun h => absurd h (hnot _), fun h => absurd h (hnot _), fun h => absurd h (hnot _),
    fun h => absurd h (hnot _), fun h => absurd h (hnot _), fun _ h => absurd h (hnot _)⟩

theorem kept_begun (hbackup : files p.backup = none) (hne : content ≠ preimage)
    (hwritten : ∀ x, written = some x → x = content) :
    Kept (Sound p o preimage postimage (files p.target) content)
      (begun files p o preimage postimage fault written) := by
  refine ⟨fun _ => facts_begun hbackup, ?_, fun _ _ e he => nomatch he⟩
  intro t call hcall
  have hnew : Has [] { state := files, log := [] } := fun e => by simp [Noted]
  simp only [begun] at hcall ⊢
  rcases ite_eq_iff.mp hcall with ⟨h₀, hcall⟩ | ⟨h₀, hcall⟩
  · cases hcall
    rw [h₀]
    exact goes_transaction hnew hne
  · rcases ite_eq_iff.mp hcall with ⟨h₁, hcall⟩ | ⟨h₁, hcall⟩
    · obtain ⟨x, hx, rfl⟩ := Option.map_eq_some_iff.mp hcall
      rw [h₁, hwritten x hx]
      exact goes_edit
    · cases hcall

/-- **An edit survives** where it does not fall while the source is moved aside: at each
moment, so too when the transaction has ended, it is the source's contents or those of the
backup. -/
theorem edit_survives (hrun : Run fixSystem.Step
      (begun files p o preimage postimage fault (some content)) tr c)
    (hbackup : files p.backup = none) (hne : content ≠ preimage) (hundisturbed : Undisturbed c.log)
    (hedited : Edited c.toShared) :
    c.state p.target = some content ∨ c.state p.backup = some content := by
  have hkept := (kept_begun hbackup hne fun _ h => (Option.some.inj h).symm).run
    (fixSystem_keeps _) hrun
  have hfacts := hkept.invariant hundisturbed
  have hstands : ∀ {x : Option Bytes}, Stands (files p.target) content c.toShared x →
      x = some content := by
    rintro x (⟨-, hx⟩ | ⟨hnot, -⟩)
    · exact hx
    · exact absurd hedited hnot
  by_cases hmoved : Noted c.toShared .movedAside
  · by_cases hsettled : Settled c.log
    · rcases hsettled with hcommitted | hrestored | hstranded
      · exact .inl ((hfacts.committed hcommitted).resolve_right fun h => h.1 hedited).2
      · exact .inl (hstands (hfacts.restored hrestored))
      · rcases hfacts.stranded hstranded with ⟨-, htarget⟩ | ⟨hkeeps, -⟩
        · exact .inl htarget
        · exact .inr (hstands hkeeps)
    · exact .inr (hstands (hfacts.aside hmoved hsettled).1)
  · exact .inl (hstands (hfacts.before hmoved).1)

/-- With no other program there is no edit. -/
theorem unedited_of_alone (hkept : Kept (Sound p o preimage postimage (files p.target) content) c)
    (hrun : Run fixSystem.Step (begun files p o preimage postimage fault none) tr c) :
    ¬ Edited c.toShared ∧ Undisturbed c.log := by
  have hnone : c.calls 1 = none := by
    refine calls_none hrun ?_ rfl
    intro request hr
    obtain ⟨before, after, rfl⟩ := append_of_mem hr
    obtain ⟨_, _, -, hs, -⟩ := hrun.step_of_split
    simp [System.Step, System.act, fixSystem] at hs
  have hsilent : ∀ e ∈ c.log, e.1 ≠ 1 := hkept.silent 1 hnone
  refine ⟨fun hu => hsilent _ hu rfl, ?_⟩
  intro before after hlog _
  exact absurd rfl (hsilent (1, .edited) (by rw [hlog]; simp))

/-- **The source stays complete.**  At every moment the source path has what it had or the
postimage, or it is missing, and then the backup beside it has exactly the preimage: while
the source is moved aside and that is not over, or where the rollback could not put it
back.  A success leaves the postimage, and an error whose rollback can look for the backup
and rename it leaves what was there. -/
theorem source_complete
    (hrun : Run fixSystem.Step (begun files p o preimage postimage fault none) tr c)
    (hbackup : files p.backup = none) :
    (c.state p.target = files p.target ∨ c.state p.target = some postimage ∨
      c.state p.target = none ∧ files p.target = some preimage ∧
        c.state p.backup = some preimage ∧ (0, .movedAside) ∈ c.log ∧
          (¬ Settled c.log ∨ o.rollback.backupExists = false ∨ o.rollback.restore = false)) ∧
      ((0, .ended (.ok ())) ∈ c.log → c.state p.target = some postimage) ∧
        ∀ e, (0, .ended (.error e)) ∈ c.log → o.rollback.backupExists = true →
          o.rollback.restore = true → c.state p.target = files p.target := by
  have hnobody : ∀ x : Bytes, (none : Option Bytes) = some x → x = 0 :: preimage :=
    fun _ h => nomatch h
  have hkept : Kept (Sound p o preimage postimage (files p.target) (0 :: preimage)) c :=
    (kept_begun hbackup (by simp) hnobody).run (fixSystem_keeps _) hrun
  obtain ⟨hunedited, hundisturbed⟩ := unedited_of_alone hkept hrun
  have hfacts := hkept.invariant hundisturbed
  have hstands : ∀ {x : Option Bytes}, Stands (files p.target) (0 :: preimage) c.toShared x →
      x = files p.target := by
    rintro x (⟨hedited, -⟩ | ⟨-, hx⟩)
    · exact absurd hedited hunedited
    · exact hx
  have hpreimage : Noted c.toShared .movedAside → files p.target = some preimage :=
    fun hmoved => (hfacts.preimage hmoved).resolve_right hunedited
  have hmissing : Stands (files p.target) (0 :: preimage) c.toShared (c.state p.backup) →
      (c.state p.target = none ∨ c.state p.target = some postimage) →
      Noted c.toShared .movedAside →
      (¬ Settled c.log ∨ o.rollback.backupExists = false ∨ o.rollback.restore = false) →
      c.state p.target = files p.target ∨ c.state p.target = some postimage ∨
        c.state p.target = none ∧ files p.target = some preimage ∧
          c.state p.backup = some preimage ∧ (0, .movedAside) ∈ c.log ∧
            (¬ Settled c.log ∨ o.rollback.backupExists = false ∨ o.rollback.restore = false) := by
    intro hkeeps htarget hmoved hwhy
    rcases htarget with htarget | htarget
    · exact .inr (.inr ⟨htarget, hpreimage hmoved, (hstands hkeeps).trans (hpreimage hmoved),
        hmoved, hwhy⟩)
    · exact .inr (.inl htarget)
  refine ⟨?_, ?_, ?_⟩
  · by_cases hmoved : Noted c.toShared .movedAside
    · by_cases hsettled : Settled c.log
      · rcases hsettled with hcommitted | hrestored | hstranded
        · exact .inr (.inl ((hfacts.committed hcommitted).resolve_left fun h =>
            hunedited h.1).2)
        · exact .inl (hstands (hfacts.restored hrestored))
        · obtain ⟨hkeeps, htarget⟩ :=
            (hfacts.stranded hstranded).resolve_left fun h => hunedited h.1
          exact hmissing hkeeps htarget hmoved (.inr (hfacts.rollback hstranded))
      · obtain ⟨hkeeps, htarget⟩ := hfacts.aside hmoved hsettled
        exact hmissing hkeeps htarget hmoved (.inl hsettled)
    · exact .inl (hstands (hfacts.before hmoved).1)
  · intro hok
    exact ((hfacts.committed (hfacts.ok hok)).resolve_left fun h => hunedited h.1).2
  · intro e herror hexists hrestore
    obtain ⟨huncommitted, hsettled⟩ := hfacts.error e herror
    by_cases hmoved : Noted c.toShared .movedAside
    · rcases hsettled hmoved with hcommitted | hrestored | hstranded
      · exact absurd hcommitted huncommitted
      · exact hstands (hfacts.restored hrestored)
      · rcases hfacts.rollback hstranded with h | h
        · rw [h] at hexists
          cases hexists
        · rw [h] at hrestore
          cases hrestore
    · exact hstands (hfacts.before hmoved).1

end

/-! ## Runs that go wrong -/

def samplePaths : FixPaths where
  target := "main.rs"
  temp := "main.rs.tmp"
  backup := "main.rs.bak"
  temp_ne := by decide
  backup_ne := by decide
  temp_ne_backup := by decide

/-- Every call of the file system succeeds. -/
def allSucceed : FixOutcomes :=
  { readTarget := true, metadata := true, regular := true, parent := true, createTemp := true,
    writeTemp := true, flushTemp := true, syncTemp := true, setPermissions := true,
    readAgain := true, moveAside := true, readBackup := true, replace := true, verify := true,
    removeTemp := true, removeBackup := true,
    rollback := { removeTemp := true, targetExists := true, removeTarget := true,
                  backupExists := true, restore := true } }

/-- The source, and no other file. -/
def sampleFiles : Files := fun path => if path = "main.rs" then some [1] else none

def accesses (n : Nat) : List (Move Unit) := List.replicate n (.advance 0)

/-- A run of a sample transaction, with its log and the three files after it. -/
theorem exists_run_of_files (o : FixOutcomes) (written : Option Bytes) (moves : List (Move Unit))
    (log : List (Nat × FixEvent)) (contents : List (Option Bytes))
    (h : (perform fixSystem.act (begun sampleFiles samplePaths o [1] [2] .none written) moves).map
      (fun c => (c.log, ["main.rs", "main.rs.tmp", "main.rs.bak"].map c.state)) =
        some (log, contents)) :
    ∃ c, Run fixSystem.Step (begun sampleFiles samplePaths o [1] [2] .none written) moves c ∧
      c.log = log ∧ ["main.rs", "main.rs.tmp", "main.rs.bak"].map c.state = contents := by
  obtain ⟨c, hc, heq⟩ := Option.map_eq_some_iff.mp h
  obtain ⟨hlog, hcontents⟩ := Prod.mk.inj heq
  exact ⟨c, run_of_perform hc, hlog, hcontents⟩

/-- The source is missing after a crash that follows the first rename, and after an error
whose rollback could not rename the backup. -/
theorem source_missing :
    (∃ c, Run fixSystem.Step (begun sampleFiles samplePaths allSucceed [1] [2] .none none)
        (accesses 9) c ∧ c.state "main.rs" = none) ∧
      ∃ c o, Run fixSystem.Step (begun sampleFiles samplePaths o [1] [2] .none none)
          (accesses 16) c ∧
        (0, .ended (.error "trusted Fix apply failed and rollback failed")) ∈ c.log ∧
          c.state "main.rs" = none := by
  constructor
  · obtain ⟨c, hrun, -, hfiles⟩ := exists_run_of_files allSucceed none (accesses 9)
      [(0, .written), (0, .movedAside)] [none, some [2], some [1]] (by decide +kernel)
    exact ⟨c, hrun, (List.cons.inj hfiles).1⟩
  · obtain ⟨c, hrun, hlog, hfiles⟩ := exists_run_of_files
      { allSucceed with replace := false, rollback := { allSucceed.rollback with restore := false } }
      none (accesses 16)
      [(0, .written), (0, .movedAside), (0, .tempGivenUp), (0, .stranded),
        (0, .ended (.error "trusted Fix apply failed and rollback failed"))]
      [none, none, some [1]] (by decide +kernel)
    refine ⟨c, _, hrun, ?_, (List.cons.inj hfiles).1⟩
    rw [hlog]
    simp

theorem source_complete_sample :
    ∃ c, Run fixSystem.Step (begun sampleFiles samplePaths allSucceed [1] [2] .none none)
        (accesses 14) c ∧ c.state "main.rs" = some [2] := by
  obtain ⟨c, hrun, hlog, -⟩ := exists_run_of_files allSucceed none (accesses 14)
    [(0, .written), (0, .movedAside), (0, .tempGivenUp), (0, .committed), (0, .ended (.ok ()))]
    [some [2], none, none] (by decide +kernel)
  have h : c.state samplePaths.target = some [2] :=
    (source_complete hrun (by decide)).2.1 (by rw [hlog]; simp)
  exact ⟨c, hrun, h⟩

/-- An edit that creates the source while it is moved aside is overwritten, and the
transaction succeeds. -/
theorem edit_overwritten :
    ∃ c, Run fixSystem.Step (begun sampleFiles samplePaths allSucceed [1] [2] .none (some [3]))
        (accesses 9 ++ .advance 1 :: accesses 5) c ∧
      (0, .ended (.ok ())) ∈ c.log ∧ Edited c.toShared ∧
        c.state samplePaths.target ≠ some [3] ∧ c.state samplePaths.temp = none ∧
          c.state samplePaths.backup = none := by
  obtain ⟨c, hrun, hlog, hfiles⟩ := exists_run_of_files allSucceed (some [3])
    (accesses 9 ++ .advance 1 :: accesses 5)
    [(0, .written), (0, .movedAside), (1, .edited), (0, .tempGivenUp), (0, .committed),
      (0, .ended (.ok ()))] [some [2], none, none] (by decide +kernel)
  obtain ⟨htarget, hrest⟩ := List.cons.inj hfiles
  obtain ⟨htemp, hrest⟩ := List.cons.inj hrest
  refine ⟨c, hrun, ?_, ?_, ?_, htemp, (List.cons.inj hrest).1⟩
  · rw [hlog]
    simp
  · unfold Edited
    rw [hlog]
    simp
  · rw [show c.state samplePaths.target = some [2] from htarget]
    decide

/-- An edit between the second reading and the first rename is found and put back. -/
theorem edit_survives_sample :
    ∃ c, Run fixSystem.Step (begun sampleFiles samplePaths allSucceed [1] [2] .none (some [3]))
        (accesses 8 ++ .advance 1 :: accesses 7) c ∧
      (c.state "main.rs" = some [3] ∨ c.state "main.rs.bak" = some [3]) := by
  obtain ⟨c, hrun, hlog, -⟩ := exists_run_of_files allSucceed (some [3])
    (accesses 8 ++ .advance 1 :: accesses 7)
    [(0, .written), (1, .edited), (0, .movedAside), (0, .tempGivenUp), (0, .restored),
      (0, .ended (.error "trusted Fix source changed during apply"))] [some [3], none, none]
    (by decide +kernel)
  refine ⟨c, hrun, edit_survives hrun (by decide) (by decide) ?_ ?_⟩
  · intro before after heq hmoved
    rw [hlog] at heq
    rcases before with _ | ⟨e₁, _ | ⟨e₂, before⟩⟩
    · cases hmoved
    · cases heq
      simp at hmoved
    · -- the edit comes but once
      obtain ⟨-, hrest⟩ := List.cons.inj heq
      obtain ⟨-, hrest⟩ := List.cons.inj hrest
      have hmem : (1, FixEvent.edited) ∈ before.append ((1, FixEvent.edited) :: after) :=
        mem_append_right _ mem_cons_self
      rw [← hrest] at hmem
      simp at hmem
  · unfold Edited
    rw [hlog]
    simp

end Localview.TrustedFix
