import Localview.JournalCall
import Localview.NumeralCodec

/-! # Crash and replay

A journal system takes calls whose I/O does not fail, and may crash between
them: the file is cut at any byte and reopened.  `Written` says that file and
memory agree; every step keeps it, so every reached journal can be cut anywhere
and reopens to one of its own earlier states (`reopen_after_cut`).
-/
namespace Localview
open EarlyReturn RecordLog StateRun List

/-- The instance that opening a path without a file gives. -/
def freshJournal (journalInstanceRef : Uuid) : ConsequentialJournal :=
  { nextSequence := 1, entries := [], liveDispatchPrepared := fun _ => none
    liveDispatchExecution := fun _ => none, livePostconditionObservation := fun _ => none
    journalInstanceRef, file := [] }

theorem openJournal_empty (codec : EntryCodec) (ref : Uuid) :
    openJournal codec .none ref [] = (.ok (freshJournal ref), []) := by
  unfold openJournal
  rw [loadAndRepair_none]
  rfl

/-! ## The system -/

/-- A call, or a crash. -/
inductive JournalLabel
  | call (c : JournalCall) (ans : JournalAnswer)
  /-- A crash that leaves the first `cut` bytes, and the reopened instance. -/
  | reopen (cut : Nat) (journalInstanceRef : Uuid)

/-- One step of a journal whose I/O does not fail. -/
inductive SystemStep (codec : EntryCodec) :
    ConsequentialJournal → JournalLabel → ConsequentialJournal → Prop
  | call {j c ans j'} : c.fault = none → c.run codec j = (ans, j') →
      SystemStep codec j (.call c ans) j'
  | reopen {j cut ref j'} : (openJournal codec .none ref (j.file.take cut)).1 = .ok j' →
      SystemStep codec j (.reopen cut ref) j'

/-- File and memory agree: the file is the encoded entries, and they are a
history that the next sequence continues. -/
structure Written (codec : EntryCodec) (j : ConsequentialJournal) : Prop where
  history : History .append j.entries
  nextSequence : j.nextSequence = j.entries.length + 1
  file : ∃ lines, Encodes codec j.entries lines ∧ j.file = render newline lines

theorem written_freshJournal (codec : EntryCodec) (ref : Uuid) :
    Written codec (freshJournal ref) :=
  { history := .nil, nextSequence := rfl, file := ⟨[], .nil, rfl⟩ }

variable {codec : EntryCodec}

/-- **Cutting and reopening**: the terminated lines of the first `k` bytes are
replayed, and nothing else is kept. -/
theorem openJournal_cut {entries : List ConsequentialJournalEntry} {lines : List Bytes}
    (hist : History .replay entries) (henc : Encodes codec entries lines) (ref : Uuid) (k : Nat) :
    openJournal codec .none ref ((render newline lines).take k) =
      (.ok { freshJournal ref with
              nextSequence := (entries.take (fitting lines k)).length + 1
              entries := entries.take (fitting lines k)
              file := render newline (lines.take (fitting lines k)) },
        render newline (lines.take (fitting lines k))) := by
  obtain ⟨tail, htail, hcut⟩ := take_render henc.newline_not_mem k
  have henck := henc.take (fitting lines k)
  have hsplit : split newline ((render newline lines).take k) =
      (lines.take (fitting lines k), tail) := by
    rw [hcut]
    exact split_render_append henck.newline_not_mem htail
  have hreplay : replayRecords codec (lines.take (fitting lines k)) 1 [] =
      .ok (entries.take (fitting lines k)) :=
    replayRecords_of_history henck (hist.take _) 1
  unfold openJournal
  rw [loadAndRepair_none, hsplit, hreplay]
  simp only [nextSequenceAfter_of_history (hist.take _)]
  rfl

variable {j j' : ConsequentialJournal}

/-- What one step preserves. -/
theorem written_step {l : JournalLabel} (h : Written codec j) (hs : SystemStep codec j l j') :
    Written codec j' := by
  obtain ⟨lines, henc, hfile⟩ := h.file
  have hunrecorded : ∀ {j'}, Unrecorded none j j' → Written codec j' := by
    intro j' hun
    refine ⟨by rw [hun.entries]; exact h.history, ?_, lines, ?_, ?_⟩
    · rw [hun.nextSequence, hun.entries, h.nextSequence]
    · rw [hun.entries]; exact henc
    · rw [hun.file rfl, hfile]
  have hrecorded : ∀ {e j'}, Recorded codec j e j' → Written codec j' := by
    intro e j' hrec
    obtain ⟨line, hline, hfile'⟩ := hrec.file
    refine ⟨?_, ?_, lines ++ [line], ?_, ?_⟩
    · rw [hrec.entries]
      exact h.history.snoc hrec.schemaVersion (hrec.journalSequence.trans h.nextSequence)
        hrec.admitted
    · rw [hrec.nextSequence, hrec.entries, h.nextSequence, length_append,
        length_singleton]
    · rw [hrec.entries]
      exact henc.snoc hline
    · rw [hfile', hfile, render_append]
      simp
  cases hs with
  | @call c ans j' hfault hrun =>
    have hstep := c.run_step codec j
    rw [hrun, hfault] at hstep
    cases hstep with
    | refused _ _ _ hun _ => exact hunrecorded hun
    | recorded _ _ _ hrec _ _ _ => exact hrecorded hrec
    | prepared hrec _ _ _ _ => exact hrecorded hrec
    | dispatch _ _ _ hun _ _ _ _ => exact hunrecorded hun
    | observation _ _ _ hun _ _ _ _ => exact hunrecorded hun
  | @reopen cut ref j' hopen =>
    rw [hfile, openJournal_cut h.history.replay henc ref cut] at hopen
    cases hopen
    exact ⟨h.history.take _, rfl, lines.take _, henc.take _, rfl⟩

/-- **File and memory agree in every reached journal.** -/
theorem written_of_run {ref : Uuid} {tr : List JournalLabel} {j : ConsequentialJournal}
    (h : Run (SystemStep codec) (freshJournal ref) tr j) :
    Written codec j :=
  h.invariant (fun _ _ _ hw hs => written_step hw hs) (written_freshJournal codec ref)

/-- What a step does to the entries: one more, or a prefix of them. -/
theorem entries_step {l : JournalLabel} (h : Written codec j) (hs : SystemStep codec j l j') :
    (∃ e, j'.entries = j.entries ++ [e]) ∨ ∃ n, j'.entries = j.entries.take n := by
  have hsame : ∀ {fault j'}, Unrecorded fault j j' → ∃ n, j'.entries = j.entries.take n :=
    fun hun => ⟨j.entries.length, by rw [hun.entries, take_length]⟩
  cases hs with
  | @call c ans j' hfault hrun =>
    have hstep := c.run_step codec j
    rw [hrun] at hstep
    cases hstep with
    | refused _ _ _ hun _ => exact .inr (hsame hun)
    | recorded _ _ _ hrec _ _ _ => exact .inl ⟨_, hrec.entries⟩
    | prepared hrec _ _ _ _ => exact .inl ⟨_, hrec.entries⟩
    | dispatch _ _ _ hun _ _ _ _ => exact .inr (hsame hun)
    | observation _ _ _ hun _ _ _ _ => exact .inr (hsame hun)
  | @reopen cut ref j' hopen =>
    obtain ⟨lines, henc, hfile⟩ := h.file
    rw [hfile, openJournal_cut h.history.replay henc ref cut] at hopen
    cases hopen
    exact .inr ⟨_, rfl⟩

/-- Every prefix of the entries was the whole of them at some point of the run. -/
theorem prefix_was_live {ref : Uuid} {tr : List JournalLabel} {j : ConsequentialJournal}
    (h : Run (SystemStep codec) (freshJournal ref) tr j) (n : Nat) :
    ∃ tr₁ tr₂ before, tr = tr₁ ++ tr₂ ∧ Run (SystemStep codec) (freshJournal ref) tr₁ before ∧
      Run (SystemStep codec) before tr₂ j ∧ before.entries = j.entries.take n := by
  refine h.forward_induction (P := fun tr j => ∀ n, ∃ tr₁ tr₂ before, tr = tr₁ ++ tr₂ ∧
    Run (SystemStep codec) (freshJournal ref) tr₁ before ∧
    Run (SystemStep codec) before tr₂ j ∧ before.entries = j.entries.take n) ?_ ?_ n
  · intro n
    exact ⟨[], [], freshJournal ref, rfl, Run.nil _, Run.nil _, by simp [freshJournal]⟩
  · intro tr j l j' hrun ih hs n
    have hlater : ∀ m, j'.entries.take n = j.entries.take m →
        ∃ tr₁ tr₂ before, tr ++ [l] = tr₁ ++ tr₂ ∧
          Run (SystemStep codec) (freshJournal ref) tr₁ before ∧
          Run (SystemStep codec) before tr₂ j' ∧ before.entries = j'.entries.take n := by
      intro m hm
      obtain ⟨tr₁, tr₂, before, rfl, h₁, h₂, he⟩ := ih m
      exact ⟨tr₁, tr₂ ++ [l], before, append_assoc _ _ _, h₁, h₂.snoc hs, he.trans hm.symm⟩
    rcases entries_step (written_of_run hrun) hs with ⟨e, he⟩ | ⟨m, he⟩
    · by_cases hn : n ≤ j.entries.length
      · exact hlater n (by rw [he, take_append_of_le_length hn])
      · refine ⟨tr ++ [l], [], j', by simp, hrun.snoc hs, Run.nil _, ?_⟩
        rw [take_of_length_le]
        rw [he, length_append, length_singleton]
        omega
    · exact hlater (min n m) (by rw [he, take_take])

/-! ## The round trip -/

/-- What reopening a cut file has to give: `n` records lie within the first `k`
bytes, and the reopened instance and the repaired file hold exactly these. -/
structure ReopensTo (codec : EntryCodec) (j : ConsequentialJournal) (k n : Nat)
    (reopened : ConsequentialJournal) (file : Bytes) : Prop where
  records : ∃ lines, Encodes codec j.entries lines ∧ j.file = render newline lines ∧
    n ≤ lines.length ∧
    (∀ m ≤ lines.length, m ≤ n ↔ (render newline (lines.take m)).length ≤ k) ∧
    file = render newline (lines.take n)
  entries : reopened.entries = j.entries.take n
  file : reopened.file = file
  nextSequence : reopened.nextSequence = reopened.entries.length + 1

/-- **Crash and replay round trip.**  In every run of calls without I/O failure
(crashes in between allowed), cutting the file at any byte `k` and reopening it
succeeds, keeps exactly the records within the first `k` bytes, and gives back
the entries, the file and every recovery state the live journal had at an
earlier point of the run. -/
theorem reopen_after_cut (codec : EntryCodec) (ref ref' : Uuid) (tr : List JournalLabel)
    (j : ConsequentialJournal) (h : Run (SystemStep codec) (freshJournal ref) tr j) (k : Nat) :
    ∃ n reopened file, openJournal codec .none ref' (j.file.take k) = (.ok reopened, file) ∧
      ReopensTo codec j k n reopened file ∧
      ∃ tr₁ tr₂ before, tr = tr₁ ++ tr₂ ∧
        Run (SystemStep codec) (freshJournal ref) tr₁ before ∧
        Run (SystemStep codec) before tr₂ j ∧
        reopened.entries = before.entries ∧ reopened.file = before.file ∧
        reopened.nextSequence = before.nextSequence ∧
        ∀ a, recoveryStateFor reopened.entries a = recoveryStateFor before.entries a := by
  have hw := written_of_run h
  obtain ⟨lines, henc, hfile⟩ := hw.file
  have hopen := openJournal_cut hw.history.replay henc ref' k
  rw [← hfile] at hopen
  refine ⟨fitting lines k, _, _, hopen, ⟨⟨lines, henc, hfile, fitting_le_length lines k, ?_, rfl⟩,
    rfl, rfl, rfl⟩, ?_⟩
  · intro m hm
    exact le_fitting_iff newline lines k m hm
  · obtain ⟨tr₁, tr₂, before, htr, h₁, h₂, he⟩ := prefix_was_live h (fitting lines k)
    have hb := written_of_run h₁
    obtain ⟨lines', henc', hfile'⟩ := hb.file
    -- both files are the encodings of the same entries
    have hlines : lines' = lines.take (fitting lines k) := by
      rw [he] at henc'
      exact henc'.unique (henc.take _)
    refine ⟨tr₁, tr₂, before, htr, h₁, h₂, he.symm, ?_, ?_, fun a => by rw [he]⟩
    · rw [hfile', hlines]
    · rw [hb.nextSequence, he]

/-- An action used in closed statements. -/
def sampleEnvelope : CanonicalActionEnvelope :=
  { envelopeId := 11, transportActionId := 7, sessionId := 3
    metadata :=
      { decisionPrincipalRef := ⟨"principal:user"⟩, actingPrincipalRef := ⟨"principal:agent"⟩
        authorizationRevision := "authorization:1", preconditionSnapshotCutRef := "cut:1"
        providerIncarnationRef := ⟨"provider:1"⟩, targetIncarnationRef := ⟨"target:1"⟩
        riskClass := .localDataMutation, idempotencyClass := .unknown
        expectedPostconditionContractRefs := ["contract:saved"] } }

/-- An append whose I/O succeeds. -/
def soundIo : AppendIo := { recordedAt := 0, fault := none }

/-- The sample action from its admission to its execution permit. -/
def sampleCalls : List JournalCall :=
  [.recordIntentAdmitted sampleEnvelope soundIo,
    .recordAuthorization 7 "authorization:1" true soundIo,
    .recordDispatchPrepared 7
      { receiptRef := "prepared:1", authorizationJournalSequence := 2
        preconditionSnapshotCutRef := "cut:1", providerIncarnationRef := ⟨"provider:1"⟩
        targetIncarnationRef := ⟨"target:1"⟩ } 21 soundIo,
    .beginDispatch
      { journalInstanceRef := 1, actionId := 7, preparationJournalSequence := 3
        preparationReceiptRef := "prepared:1", capabilityRef := 21 } 22]

/-- A run of calls without I/O failure, as a run of the system. -/
theorem run_system_of_calls {tr : List CallLabel} (h : Run (CallStep codec) j tr j')
    (hsound : ∀ l ∈ tr, l.1.fault = none) :
    Run (SystemStep codec) j (tr.map fun l => .call l.1 l.2) j' := by
  induction h with
  | nil => exact Run.nil _
  | cons hs _ ih =>
    refine Run.cons (.call (hsound _ mem_cons_self) hs) ?_
    exact ih fun l hl => hsound l (mem_cons_of_mem _ hl)

def sampleRun : List CallLabel × ConsequentialJournal :=
  runCalls numeralCodec (freshJournal 1) sampleCalls

theorem run_sampleRun : Run (SystemStep numeralCodec) (freshJournal 1)
    (sampleRun.1.map fun l => .call l.1 l.2) sampleRun.2 := by
  refine run_system_of_calls (run_runCalls _ _ _) ?_
  intro l hl
  have hcalls : sampleRun.1.map (·.1) = sampleCalls := rfl
  have hmem : l.1 ∈ sampleCalls := hcalls ▸ mem_map_of_mem hl
  simp only [sampleCalls, mem_cons, not_mem_nil, or_false] at hmem
  rcases hmem with h | h | h | h <;> rw [h] <;> rfl

theorem reopen_after_cut_sampleRun :
    ∃ n reopened file, openJournal numeralCodec .none 2 (sampleRun.2.file.take 7) =
        (.ok reopened, file) ∧ ReopensTo numeralCodec sampleRun.2 7 n reopened file := by
  obtain ⟨n, reopened, file, hopen, hto, -⟩ :=
    reopen_after_cut numeralCodec 1 2 _ sampleRun.2 run_sampleRun 7
  exact ⟨n, reopened, file, hopen, hto⟩

end Localview
