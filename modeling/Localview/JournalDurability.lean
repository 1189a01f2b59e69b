import Localview.JournalReplay

/-! # Appends that fail

Runs of `append_validated_locked` in which any append may fail after any part
of its line has reached the file.  The instance does not look at the file
again, so what a failed append leaves there stays in front of the next line.

`survives_of_no_line_behind_debris`: if no whole line is written behind such
debris, reopening returns every acknowledged entry, and at most one complete
line whose append reported an error.  `append_after_failed_sync_corrupts`: one retry after
a failed sync is enough to make the file unreadable.
-/
namespace Localview
open EarlyReturn RecordLog StateRun List

/-- One append: what was asked, how its I/O went, what was answered. -/
structure AppendLabel where
  actionId : Uuid
  transition : ConsequentialJournalTransition
  io : AppendIo
  result : Except ConsequentialJournalError ConsequentialJournalEntry

def AppendStep (codec : EntryCodec) (j : ConsequentialJournal) (l : AppendLabel)
    (j' : ConsequentialJournal) : Prop :=
  j.appendValidatedLocked codec l.actionId l.transition l.io = (l.result, j')

/-- The entries a run acknowledged, in order. -/
def acknowledged (tr : List AppendLabel) : List ConsequentialJournalEntry :=
  tr.filterMap fun l => l.result.toOption

/-- The append puts its whole line, newline included, into the file. -/
def WritesLine (codec : EntryCodec) (j : ConsequentialJournal) (l : AppendLabel) : Prop :=
  Admits .append j.entries l.actionId l.transition ∧
    ∃ line, codec.toVec (j.nextEntry l.actionId l.transition l.io) = .ok line ∧
      (appendDurable j.file (line ++ [newline]) l.io.fault).2 = j.file ++ (line ++ [newline])

/-- The append fails with at least one byte of its line in the file. -/
def LeavesBytes (codec : EntryCodec) (j : ConsequentialJournal) (l : AppendLabel) : Prop :=
  Admits .append j.entries l.actionId l.transition ∧
    ∃ line fault, codec.toVec (j.nextEntry l.actionId l.transition l.io) = .ok line ∧
      l.io.fault = some fault ∧ fault.residue (line ++ [newline]) ≠ []

section
variable (codec : EntryCodec) (j₀ : ConsequentialJournal) (tr : List AppendLabel)

/-- Some append of the run failed and left bytes in the file. -/
def LeftDebris : Prop :=
  ∃ tr₁ l tr₂ j, tr = tr₁ ++ l :: tr₂ ∧ Run (AppendStep codec) j₀ tr₁ j ∧ LeavesBytes codec j l

/-- Once a failed append has left bytes in the file, no later append of the
instance writes its whole line. -/
def NoLineBehindDebris : Prop :=
  ∀ tr₁ l tr₂ j, tr = tr₁ ++ l :: tr₂ → Run (AppendStep codec) j₀ tr₁ j →
    LeftDebris codec j₀ tr₁ → ¬ WritesLine codec j l

/-- `e` is a complete line whose append reported an error. -/
def FailedComplete (e : ConsequentialJournalEntry) : Prop :=
  ∃ tr₁ l tr₂ j, tr = tr₁ ++ l :: tr₂ ∧ Run (AppendStep codec) j₀ tr₁ j ∧
    (∃ error, l.result = .error error) ∧ WritesLine codec j l ∧
    e = j.nextEntry l.actionId l.transition l.io

/-- **Surviving failed appends**: reopening succeeds and returns every
acknowledged entry in order, numbered consecutively from 1, and every other
entry is a complete line whose append reported an error. -/
def Survives (j : ConsequentialJournal) : Prop :=
  ∃ entries, (loadAndRepair codec .none j.file).1 = .ok entries ∧
    (j₀.entries ++ acknowledged tr).Sublist entries ∧
    (∀ (i : Nat) (hi : i < entries.length), entries[i].journalSequence = i + 1) ∧
    ∀ e ∈ entries, e ∈ j₀.entries ++ acknowledged tr ∨ FailedComplete codec j₀ tr e

/-! ## The invariant -/

/-- Memory is the acknowledged history; the file is its lines, then at most one
complete line of a failed append (`extra`), then an unterminated tail.  Without
debris there is neither. -/
structure Durable (j : ConsequentialJournal) : Prop where
  entries : j.entries = j₀.entries ++ acknowledged tr
  nextSequence : j.nextSequence = j.entries.length + 1
  file : ∃ lines extra tail, (∀ line ∈ lines, newline ∉ line) ∧ newline ∉ tail ∧
    j.file = render newline lines ++ tail ∧
    replayRecords codec lines 1 [] = .ok (j.entries ++ extra) ∧
    History .replay (j.entries ++ extra) ∧
    (∀ e ∈ extra, FailedComplete codec j₀ tr e) ∧
    (LeftDebris codec j₀ tr ∨ extra = [] ∧ tail = [])

end

section
variable {codec : EntryCodec} {j₀ j j' : ConsequentialJournal} {tr : List AppendLabel}
  {l : AppendLabel}

theorem Durable.history (h : Durable codec j₀ tr j) : History .replay j.entries := by
  obtain ⟨_, _, _, _, _, _, _, hist, _⟩ := h.file
  exact hist.of_append

/-- Without debris the file is exactly the acknowledged entries, as lines. -/
theorem Durable.lines (h : Durable codec j₀ tr j) (hclean : ¬ LeftDebris codec j₀ tr) :
    ∃ lines, (∀ line ∈ lines, newline ∉ line) ∧ j.file = render newline lines ∧
      replayRecords codec lines 1 [] = .ok j.entries := by
  obtain ⟨lines, extra, tail, hlines, _, hfile, hreplay, _, _, hdebris⟩ := h.file
  obtain ⟨rfl, rfl⟩ := hdebris.resolve_left hclean
  exact ⟨lines, hlines, by simpa using hfile, by simpa using hreplay⟩

/-- What was failed and complete stays so as the run goes on. -/
theorem FailedComplete.snoc {e : ConsequentialJournalEntry} (h : FailedComplete codec j₀ tr e)
    (l : AppendLabel) : FailedComplete codec j₀ (tr ++ [l]) e := by
  obtain ⟨tr₁, m, tr₂, j, rfl, hrun, hrest⟩ := h
  exact ⟨tr₁, m, tr₂ ++ [l], j, by simp, hrun, hrest⟩

theorem LeftDebris.snoc (h : LeftDebris codec j₀ tr) (l : AppendLabel) :
    LeftDebris codec j₀ (tr ++ [l]) := by
  obtain ⟨tr₁, m, tr₂, j, rfl, hrun, hbytes⟩ := h
  exact ⟨tr₁, m, tr₂ ++ [l], j, by simp, hrun, hbytes⟩

/-- One more whole line behind a file without debris. -/
theorem Durable.line (h : Durable codec j₀ tr j) (hclean : ¬ LeftDebris codec j₀ tr)
    {line : Bytes} (hadm : Admits .append j.entries l.actionId l.transition)
    (henc : codec.toVec (j.nextEntry l.actionId l.transition l.io) = .ok line) :
    ∃ lines, (∀ r ∈ lines, newline ∉ r) ∧ j.file ++ (line ++ [newline]) = render newline lines ∧
      replayRecords codec lines 1 [] =
        .ok (j.entries ++ [j.nextEntry l.actionId l.transition l.io]) ∧
      History .replay (j.entries ++ [j.nextEntry l.actionId l.transition l.io]) := by
  obtain ⟨lines, hlines, hfile, hreplay⟩ := h.lines hclean
  have hist : History .replay (j.entries ++ [j.nextEntry l.actionId l.transition l.io]) :=
    h.history.snoc rfl h.nextSequence hadm.replay
  refine ⟨lines ++ [line], ?_, ?_, ?_, hist⟩
  · intro r hr
    rcases mem_append.mp hr with hr | hr
    · exact hlines r hr
    · rw [mem_singleton.mp hr]
      exact codec.newline_not_mem henc
  · simp only [hfile, render_append, render_cons, render_nil]
  · rw [replayRecords_append hreplay, replayRecords_cons henc hist]
    rfl

/-- What one step preserves. -/
theorem durable_step (hrun : Run (AppendStep codec) j₀ tr j) (h : Durable codec j₀ tr j)
    (hs : AppendStep codec j l j') (hclean : LeftDebris codec j₀ tr → ¬ WritesLine codec j l) :
    Durable codec j₀ (tr ++ [l]) j' := by
  obtain ⟨lines, extra, tail, hlines, htail, hfile, hreplay, hist, hextra, hdebris⟩ := h.file
  have hextra' : ∀ e ∈ extra, FailedComplete codec j₀ (tr ++ [l]) e :=
    fun e he => (hextra e he).snoc l
  have hdebris' : LeftDebris codec j₀ (tr ++ [l]) ∨ extra = [] ∧ tail = [] :=
    hdebris.imp_left fun h => h.snoc l
  have hspec := appendValidatedLocked_spec codec j l.actionId l.transition l.io
  rw [AppendStep] at hs
  rw [hs] at hspec
  generalize hres : l.result = result at hspec
  -- an append that answers an error acknowledges nothing
  have hsilent : ∀ {error}, l.result = .error error →
      j.entries = j₀.entries ++ acknowledged (tr ++ [l]) := by
    intro error herr
    rw [h.entries, acknowledged, acknowledged, filterMap_append]
    simp [herr, Except.toOption]
  cases hspec with
  | rejected _ _ =>
    exact ⟨hsilent hres, h.nextSequence,
      lines, extra, tail, hlines, htail, hfile, hreplay, hist, hextra', hdebris'⟩
  | unencodable _ _ =>
    exact ⟨hsilent hres, h.nextSequence,
      lines, extra, tail, hlines, htail, hfile, hreplay, hist, hextra', hdebris'⟩
  | @failed line fault hadm henc hfault =>
    refine ⟨hsilent hres, h.nextSequence, ?_⟩
    rcases prefix_concat_iff.mp (fault.residue_prefix (line ++ [newline])) with hwhole | hpart
    · -- the whole line is in the file although the append failed
      have hwrites : WritesLine codec j l := by
        refine ⟨hadm, line, henc, ?_⟩
        simp only [appendDurable, hfault, hwhole]
      obtain ⟨lines', hlines', hfile', hreplay', hist'⟩ :=
        h.line (fun hleft => hclean hleft hwrites) hadm henc
      refine ⟨lines', [j.nextEntry l.actionId l.transition l.io], [], hlines',
        not_mem_nil, ?_, hreplay', hist', ?_, .inl ?_⟩
      · simp only [hwhole, hfile', append_nil]
      · intro e he
        rw [mem_singleton] at he
        exact ⟨tr, l, [], j, rfl, hrun, ⟨_, hres⟩, hwrites, he⟩
      · exact ⟨tr, l, [], j, rfl, hrun, hadm, line, fault, henc, hfault, by simp [hwhole]⟩
    · -- a proper part of the line lengthens the unterminated tail
      have hresidue : newline ∉ fault.residue (line ++ [newline]) :=
        fun hmem => codec.newline_not_mem henc (hpart.subset hmem)
      refine ⟨lines, extra, tail ++ fault.residue (line ++ [newline]), hlines, ?_, ?_, hreplay,
        hist, hextra', ?_⟩
      · rw [mem_append, not_or]
        exact ⟨htail, hresidue⟩
      · simp only [hfile, append_assoc]
      · by_cases hnil : fault.residue (line ++ [newline]) = []
        · rw [hnil, append_nil]
          exact hdebris'
        · exact .inl ⟨tr, l, [], j, rfl, hrun, hadm, line, fault, henc, hfault, hnil⟩
  | @recorded line hadm henc hfault =>
    have hwrites : WritesLine codec j l := by
      refine ⟨hadm, line, henc, ?_⟩
      simp only [appendDurable, hfault]
    obtain ⟨lines', hlines', hfile', hreplay', hist'⟩ :=
      h.line (fun hleft => hclean hleft hwrites) hadm henc
    refine ⟨?_, ?_, lines', [], [], hlines', not_mem_nil, ?_, ?_, ?_, ?_, .inr ⟨rfl, rfl⟩⟩
    · rw [h.entries, acknowledged, acknowledged, filterMap_append, ← append_assoc]
      simp [hres, Except.toOption]
    · simp only [h.nextSequence, length_append, length_singleton]
    · simpa using hfile'
    · simpa using hreplay'
    · simpa using hist'
    · intro e he
      cases he

end

/-- What `open` returns, from any file: the instance holds the replayed lines. -/
theorem durable_open {codec : EntryCodec} {ref : Uuid} {file₀ : Bytes}
    {j₀ : ConsequentialJournal} (h : (openJournal codec .none ref file₀).1 = .ok j₀) :
    Durable codec j₀ [] j₀ := by
  have hnot : ∀ r ∈ (split newline file₀).1, newline ∉ r := fun _ => not_mem_of_mem_split
  unfold openJournal at h
  rw [loadAndRepair_none] at h
  rcases hreplay : replayRecords codec (split newline file₀).1 1 [] with error | entries
  · rw [hreplay] at h
    cases h
  · rw [hreplay] at h
    cases h
    obtain ⟨hist, -⟩ := replayRecords_history .nil hreplay
    refine ⟨by simp [acknowledged], nextSequenceAfter_of_history hist, _, [], [], hnot,
      not_mem_nil, (append_nil _).symm, ?_, ?_, ?_, .inr ⟨rfl, rfl⟩⟩
    · simpa using hreplay
    · simpa using hist
    · intro e he
      cases he

/-- The invariant in every run. -/
theorem durable_of_run {codec : EntryCodec} {j₀ j : ConsequentialJournal} {tr : List AppendLabel}
    (hopen : Durable codec j₀ [] j₀) (hrun : Run (AppendStep codec) j₀ tr j)
    (hclean : NoLineBehindDebris codec j₀ tr) : Durable codec j₀ tr j := by
  refine hrun.forward_induction
    (P := fun tr j => NoLineBehindDebris codec j₀ tr → Durable codec j₀ tr j) ?_ ?_ hclean
  · exact fun _ => hopen
  · intro tr j l j' hrun ih hs hclean
    refine durable_step hrun (ih ?_) hs (hclean tr l [] j rfl hrun)
    intro tr₁ m tr₂ i htr hrun₁
    exact hclean tr₁ m (tr₂ ++ [l]) i (by rw [htr]; simp) hrun₁

/-- **Failed appends are survived while no whole line follows their debris**,
from any file the instance was opened on. -/
theorem survives_of_no_line_behind_debris (codec : EntryCodec) (ref : Uuid) (file₀ : Bytes)
    (j₀ : ConsequentialJournal) (hopen : (openJournal codec .none ref file₀).1 = .ok j₀)
    (tr : List AppendLabel) (j : ConsequentialJournal) (hrun : Run (AppendStep codec) j₀ tr j)
    (hclean : NoLineBehindDebris codec j₀ tr) : Survives codec j₀ tr j := by
  have h := durable_of_run (durable_open hopen) hrun hclean
  obtain ⟨lines, extra, tail, hlines, htail, hfile, hreplay, hist, hextra, -⟩ := h.file
  refine ⟨j.entries ++ extra, ?_, ?_, fun i hi => hist.journalSequence_getElem i hi, ?_⟩
  · rw [loadAndRepair_none, hfile, split_render_append hlines htail]
    exact hreplay
  · rw [← h.entries]
    exact sublist_append_left _ _
  · intro e he
    rcases mem_append.mp he with he | he
    · exact .inl (h.entries ▸ he)
    · exact .inr (hextra e he)

/-- Admitting the sample action, with the given end of its I/O. -/
def intentLabel (fault : Option AppendFault)
    (result : Except ConsequentialJournalError ConsequentialJournalEntry) : AppendLabel :=
  { actionId := 7, transition := .intentAdmitted sampleEnvelope
    io := { recordedAt := 0, fault }
    result }

/-- The sample action's first entry. -/
def intentEntry : ConsequentialJournalEntry :=
  (freshJournal 1).nextEntry 7 (.intentAdmitted sampleEnvelope) soundIo

theorem history_intentEntry : History .replay ([] ++ [intentEntry]) :=
  .snoc .nil rfl rfl (.intent rfl rfl)

/-- An authorization of the sample action that is not acknowledged. -/
def failedAuthorization (fault : AppendFault) : AppendLabel :=
  { actionId := 7, transition := .authorizationRecorded "authorization:1" true
    io := { recordedAt := 0, fault := some fault }
    result := .error fault.error }

/-- An acknowledged admission, an authorization whose line is in the file although its sync
failed, and a retry that cannot open the file. -/
theorem survives_failed_sync : ∃ j, Survives numeralCodec (freshJournal 1)
    [intentLabel none (.ok intentEntry), failedAuthorization (.appendSync "EIO"),
      failedAuthorization (.appendOpen "EROFS")] j := by
  refine ⟨_, survives_of_no_line_behind_debris numeralCodec 1 [] (freshJournal 1)
    (by rw [openJournal_empty]) _ _ (Run.cons rfl (Run.cons rfl (Run.cons rfl (Run.nil _)))) ?_⟩
  rintro tr₁ l tr₂ j htr - ⟨tr₃, m, tr₄, _, rfl, -, hadm, line, fault, -, hfault, -⟩ hwrites
  rcases tr₃ with - | ⟨first, tr₃⟩
  · obtain ⟨rfl, -⟩ := cons.inj htr
    cases hfault
  · -- the debris is that of the failed sync, and the retry writes nothing
    obtain ⟨-, htr⟩ := cons.inj htr
    rcases tr₃ with - | ⟨second, tr₃⟩
    · rcases tr₄ with - | ⟨third, tr₄⟩
      · obtain ⟨-, htr⟩ := cons.inj htr
        obtain ⟨rfl, -⟩ := cons.inj htr
        obtain ⟨-, line', -, hfile⟩ := hwrites
        have hline : [] = line' ++ [newline] := append_cancel_left hfile
        exact absurd hline.symm (by simp)
      · exact absurd (congrArg length htr) (by simp)
    · exact absurd (congrArg length htr) (by simp; omega)

/-- **A retry after a failed sync corrupts the file.**  The first append writes
its line and fails in `sync_all`; the second succeeds; the file then holds two
lines numbered 1 and cannot be opened again. -/
theorem append_after_failed_sync_corrupts : ∃ j, Run (AppendStep numeralCodec) (freshJournal 1)
        [intentLabel (some (.appendSync "EIO")) (.error (.io "append_sync" "EIO")),
          intentLabel none (.ok intentEntry)] j ∧
      (loadAndRepair numeralCodec .none j.file).1 =
        .error (.corruptRecord 2 "journal sequence 1; expected 2") ∧
      ¬ Survives numeralCodec (freshJournal 1)
        [intentLabel (some (.appendSync "EIO")) (.error (.io "append_sync" "EIO")),
          intentLabel none (.ok intentEntry)] j := by
  have henc : numeralCodec.toVec intentEntry = .ok (numeralLine (Encodable.encode intentEntry)) :=
    rfl
  generalize hline : numeralLine (Encodable.encode intentEntry) = line at henc
  have hnot : ∀ r ∈ [line, line], newline ∉ r := by
    intro r hr
    rw [show r = line by simpa using hr]
    exact numeralCodec.newline_not_mem henc
  have hload : (loadAndRepair numeralCodec .none (render newline [line, line])).1 =
      .error (.corruptRecord 2 "journal sequence 1; expected 2") := by
    have hsplit := split_render_append hnot (not_mem_nil (a := newline))
    rw [append_nil] at hsplit
    rw [loadAndRepair_none, hsplit]
    simp only
    rw [replayRecords_cons henc history_intentEntry, replayRecords,
      numeralCodec.fromSlice_toVec henc]
    have hne : line ≠ [] := by
      rintro rfl
      exact numeralCodec.fromSlice_nil _ (numeralCodec.fromSlice_toVec henc)
    simp only [rejectIf, if_neg hne]
    rfl
  have hfile : ([] ++ (line ++ [newline])) ++ (line ++ [newline]) =
      render newline [line, line] := by
    simp
  refine ⟨{ freshJournal 1 with
      nextSequence := 2
      entries := [intentEntry]
      file := ([] ++ (line ++ [newline])) ++ (line ++ [newline]) }, ?_, ?_, ?_⟩
  · subst hline
    exact Run.cons rfl (Run.cons rfl (Run.nil _))
  · rw [hfile]
    exact hload
  · rintro ⟨entries, hopened, -⟩
    rw [hfile, hload] at hopened
    cases hopened

end Localview
