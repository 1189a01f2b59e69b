import Localview.AppendLog
import Localview.JournalHistory

/-! # The journal file

One JSON object per line, each line ended by a newline byte that belongs to the
record: a record without its newline is not durable.  `loadAndRepair` cuts an
incomplete tail off the file and replays the remaining lines; `appendDurable`
writes one encoded line and may fail after any prefix of it has reached the
file.

`serde_json` stands outside the repository: an `EntryCodec` is any encoder and
decoder with the three properties the journal relies on.
-/
namespace Localview
open EarlyReturn RecordLog List

abbrev Bytes := List UInt8

/-- The newline byte. -/
def newline : UInt8 := 10

/-- `serde_json::to_vec` and `serde_json::from_slice` at journal entries.
Decoding undoes encoding, compact JSON holds no raw newline, and the empty
input is not a JSON value. -/
structure EntryCodec where
  toVec : ConsequentialJournalEntry → Except String Bytes
  fromSlice : Bytes → Except String ConsequentialJournalEntry
  fromSlice_toVec : ∀ {e line}, toVec e = .ok line → fromSlice line = .ok e
  newline_not_mem : ∀ {e line}, toVec e = .ok line → newline ∉ line
  fromSlice_nil : ∀ e, fromSlice [] ≠ .ok e

/-- How one append can fail, and how many bytes of the encoded line have
reached the file by then. -/
inductive AppendFault
  | appendOpen (message : String)
  | appendWrite (written : Nat) (message : String)
  | appendFlush (message : String)
  | appendSync (message : String)
  | worker (written : Nat) (message : String)

/-- The part of the encoded line in the file after the failure. -/
def AppendFault.residue (encoded : Bytes) : AppendFault → Bytes
  | .appendOpen _ => []
  | .appendWrite written _ => encoded.take written
  | .appendFlush _ => encoded
  | .appendSync _ => encoded
  | .worker written _ => encoded.take written

def AppendFault.error : AppendFault → ConsequentialJournalError
  | .appendOpen message => .io "append_open" message
  | .appendWrite _ message => .io "append_write" message
  | .appendFlush message => .io "append_flush" message
  | .appendSync message => .io "append_sync" message
  | .worker _ message => .worker message

/-- `append_durable`, run by a blocking worker: the answer, and the file. -/
def appendDurable (file encoded : Bytes) :
    Option AppendFault → Except ConsequentialJournalError Unit × Bytes
  | none => (.ok (), file ++ encoded)
  | some fault => (.error fault.error, file ++ fault.residue encoded)

theorem AppendFault.residue_prefix (encoded : Bytes) (fault : AppendFault) :
    fault.residue encoded <+: encoded := by
  cases fault with
  | appendOpen => exact nil_prefix
  | appendWrite written => exact take_prefix _ _
  | appendFlush => exact prefix_refl _
  | appendSync => exact prefix_refl _
  | worker written => exact take_prefix _ _

/-! ## Loading the file -/

/-- The I/O steps of `load_and_repair`. -/
inductive LoadStage
  | createParent
  | openFile
  | read
  | truncateIncompleteTail
  | syncTruncatedTail
  | syncCreatedJournal

def LoadStage.operation : LoadStage → String
  | .createParent => "create_parent"
  | .openFile => "open"
  | .read => "read"
  | .truncateIncompleteTail => "truncate_incomplete_tail"
  | .syncTruncatedTail => "sync_truncated_tail"
  | .syncCreatedJournal => "sync_created_journal"

/-- Which stages fail in one call, and with which message. -/
abbrev LoadFaults := LoadStage → Option String

/-- No stage fails. -/
def LoadFaults.none : LoadFaults := fun _ => Option.none

def LoadFaults.run (faults : LoadFaults) (stage : LoadStage) :
    Except ConsequentialJournalError Unit :=
  match faults stage with
  | some message => .error (.io stage.operation message)
  | Option.none => .ok ()

/-- Creating the directory, opening the file and reading it to its end. -/
def LoadFaults.openAndRead (faults : LoadFaults) : Except ConsequentialJournalError Unit := do
  faults.run .createParent
  faults.run .openFile
  faults.run .read

/-- The loop over the durable lines: decode, check schema and sequence, validate
against the entries read so far. -/
def replayRecords (codec : EntryCodec) : List Bytes → Nat → List ConsequentialJournalEntry →
    Except ConsequentialJournalError (List ConsequentialJournalEntry)
  | [], _, entries => .ok entries
  | line :: lines, lineNumber, entries => do
      rejectIf (line = []) (.corruptRecord lineNumber "empty durable record")
      let entry ← (codec.fromSlice line).mapError (.corruptRecord lineNumber ·)
      let expectedSequence := entries.length + 1
      rejectIf (entry.schemaVersion ≠ journalSchemaVersion)
        (.corruptRecord lineNumber ("unsupported schema version " ++ toString entry.schemaVersion ++
          "; expected " ++ toString journalSchemaVersion))
      rejectIf (entry.journalSequence ≠ expectedSequence)
        (.corruptRecord lineNumber ("journal sequence " ++ toString entry.journalSequence ++
          "; expected " ++ toString expectedSequence))
      (validateTransition entries entry.actionId entry.transition .replay).mapError
        (fun error => .corruptRecord lineNumber error.display)
      replayRecords codec lines (lineNumber + 1) (entries ++ [entry])

/-- `load_and_repair`: the entries, and the file as it is left. -/
def loadAndRepair (codec : EntryCodec) (faults : LoadFaults) (file : Bytes) :
    Except ConsequentialJournalError (List ConsequentialJournalEntry) × Bytes :=
  match faults.openAndRead with
  | .error error => (.error error, file)
  | .ok () =>
      if durableLen newline file ≠ file.length then
        match faults.run .truncateIncompleteTail with
        | .error error => (.error error, file)
        | .ok () =>
            let file := file.take (durableLen newline file)
            match faults.run .syncTruncatedTail with
            | .error error => (.error error, file)
            | .ok () => (replayRecords codec (split newline file).1 1 [], file)
      else if file = [] then
        match faults.run .syncCreatedJournal with
        | .error error => (.error error, file)
        | .ok () => (replayRecords codec (split newline file).1 1 [], file)
      else (replayRecords codec (split newline file).1 1 [], file)

/-! ## What loading does -/

/-- The durable part of a file is its terminated records. -/
theorem take_durableLen_eq_render (file : Bytes) :
    file.take (durableLen newline file) = render newline (split newline file).1 := by
  have h : (render newline (split newline file).1 ++ (split newline file).2).take
      (durableLen newline (render newline (split newline file).1 ++ (split newline file).2)) =
        render newline (split newline file).1 :=
    take_durableLen (not_mem_split_tail newline file)
  rwa [render_split] at h

/-- **Without I/O errors, loading replays the terminated records and leaves the
file equal to them.** -/
theorem loadAndRepair_none (codec : EntryCodec) (file : Bytes) :
    loadAndRepair codec .none file =
      (replayRecords codec (split newline file).1 1 [], render newline (split newline file).1) := by
  have hdurable := take_durableLen_eq_render file
  have hnot : ∀ r ∈ (split newline file).1, newline ∉ r := fun _ => not_mem_of_mem_split
  have hsplit : split newline (render newline (split newline file).1) =
      ((split newline file).1, []) := by
    simpa using split_render_append hnot (not_mem_nil (a := newline))
  have hopen : LoadFaults.none.openAndRead = .ok () := rfl
  unfold loadAndRepair
  simp only [hopen]
  by_cases hlen : durableLen newline file = file.length
  · rw [if_neg (not_not.mpr hlen)]
    rw [hlen, take_length] at hdurable
    by_cases hempty : file = []
    · rw [if_pos hempty]
      exact congrArg (Prod.mk _) hdurable
    · rw [if_neg hempty]
      exact congrArg (Prod.mk _) hdurable
  · rw [if_pos hlen]
    simp only [LoadFaults.run, LoadFaults.none, hdurable, hsplit]

/-- The lines are the encodings of the entries, in order. -/
def Encodes (codec : EntryCodec) : List ConsequentialJournalEntry → List Bytes → Prop :=
  List.Forall₂ fun entry line => codec.toVec entry = .ok line

namespace Encodes
variable {codec : EntryCodec} {entries : List ConsequentialJournalEntry} {lines : List Bytes}

theorem newline_not_mem (h : Encodes codec entries lines) : ∀ line ∈ lines, newline ∉ line := by
  induction h with
  | nil => intro line hline; cases hline
  | cons henc _ ih =>
    intro line hline
    rcases mem_cons.mp hline with rfl | hline
    · exact codec.newline_not_mem henc
    · exact ih line hline

theorem take (h : Encodes codec entries lines) (n : Nat) :
    Encodes codec (entries.take n) (lines.take n) :=
  List.forall₂_take n h

theorem snoc (h : Encodes codec entries lines) {entry : ConsequentialJournalEntry} {line : Bytes}
    (henc : codec.toVec entry = .ok line) : Encodes codec (entries ++ [entry]) (lines ++ [line]) :=
  rel_append h (List.Forall₂.cons henc .nil)

/-- The entries determine their lines. -/
theorem unique {lines' : List Bytes} (h : Encodes codec entries lines)
    (h' : Encodes codec entries lines') : lines = lines' := by
  induction h generalizing lines' with
  | nil => cases h'; rfl
  | cons henc _ ih =>
    cases h' with
    | cons henc' hrest' =>
      have hline := Except.ok.inj (henc.symm.trans henc')
      rw [hline, ih hrest']

end Encodes

variable {codec : EntryCodec}

/-- One line of the loop: the encoding of the next entry of a history is read
back as that entry. -/
theorem replayRecords_cons {entries : List ConsequentialJournalEntry}
    {e : ConsequentialJournalEntry} {line : Bytes} (henc : codec.toVec e = .ok line)
    (h : History .replay (entries ++ [e])) (lines : List Bytes) (lineNumber : Nat) :
    replayRecords codec (line :: lines) lineNumber entries =
      replayRecords codec lines (lineNumber + 1) (entries ++ [e]) := by
  obtain ⟨-, hschema, hseq, hadm⟩ := History.snoc_iff.mp h
  have hne : line ≠ [] := by
    rintro rfl
    exact codec.fromSlice_nil e (codec.fromSlice_toVec henc)
  rw [replayRecords]
  simp [rejectIf, hne, codec.fromSlice_toVec henc, hschema, hseq,
    validateTransition_iff.mpr hadm, mapError_ok, bind, Except.bind]

variable {entries result : List ConsequentialJournalEntry}

/-- Replay goes line by line: what follows the lines that replayed is replayed
after the entries they gave. -/
theorem replayRecords_append {lines : List Bytes} {lineNumber : Nat}
    (h : replayRecords codec lines lineNumber entries = .ok result) (later : List Bytes) :
    replayRecords codec (lines ++ later) lineNumber entries =
      replayRecords codec later (lineNumber + lines.length) result := by
  induction lines generalizing entries lineNumber with
  | nil =>
    obtain rfl : entries = result := by simpa [replayRecords] using h
    rfl
  | cons line lines ih =>
    rw [replayRecords] at h
    simp only [bind_eq_ok] at h
    obtain ⟨_, h₁, e, h₂, _, h₃, _, h₄, _, h₅, hrest⟩ := h
    have hlater := ih hrest
    rw [cons_append, replayRecords, h₁, h₂]
    simp only [bind, Except.bind, h₃, h₄, h₅, hlater, length_cons]
    rw [Nat.add_assoc, Nat.add_comm 1]

/-- **The written lines of a history replay to it.** -/
theorem replayRecords_of_history {entries later : List ConsequentialJournalEntry}
    {lines : List Bytes} (henc : Encodes codec later lines) (h : History .replay (entries ++ later))
    (lineNumber : Nat) :
    replayRecords codec lines lineNumber entries = .ok (entries ++ later) := by
  induction henc generalizing entries lineNumber with
  | nil => rw [replayRecords, append_nil]
  | cons hline _ ih =>
    rw [append_cons] at h
    rw [replayRecords_cons hline h.of_append, ih h, ← append_cons]

/-- **What replay returns is a history**, of the entries before and one entry
for each line. -/
theorem replayRecords_history {lines : List Bytes} {lineNumber : Nat} (h : History .replay entries)
    (hrun : replayRecords codec lines lineNumber entries = .ok result) :
    History .replay result ∧ result.length = entries.length + lines.length := by
  induction lines generalizing entries lineNumber with
  | nil =>
    obtain rfl : entries = result := by simpa [replayRecords] using hrun
    exact ⟨h, rfl⟩
  | cons line lines ih =>
    rw [replayRecords] at hrun
    simp only [bind_eq_ok, rejectIf_eq_ok, not_not] at hrun
    obtain ⟨_, -, e, -, _, hschema, _, hseq, _, hval, hrest⟩ := hrun
    have hadm : Admits .replay entries e.actionId e.transition := by
      rw [← validateTransition_iff]
      cases hv : validateTransition entries e.actionId e.transition .replay with
      | error error => rw [hv] at hval; cases hval
      | ok u => rfl
    obtain ⟨hist, hlen⟩ := ih (h.snoc hschema hseq hadm) hrest
    refine ⟨hist, ?_⟩
    simp only [hlen, length_append, length_cons, length_nil]
    omega

end Localview
