import Localview.StateRun
import Localview.SurfaceNumeralCodec

/-! # Interrupted recovery records

A `record` may stop after any part of its line has reached the file, by a crash
or by an I/O error, and the journal may be opened again at any time.  The file is
then the concatenation of what each attempt wrote (`file_of_run`), and it can be
opened exactly where every attempt left its whole line or nothing, but for the
newline of the last, and the lines fit the bounds (`crashConsistent_iff`).
-/
namespace Localview
open EarlyReturn RecordLog StateRun List

section
variable (codec : SurfaceEventCodec)

/-- The line `record` appends for an event. -/
def SurfaceEventCodec.encoded (event : SurfaceRecoveryEvent) : Bytes :=
  match codec.toVec event with
  | .ok line => line ++ [newline]
  | .error _ => []

/-- A `record` that got as far as writing: its event, what reached the file, and
whether it was acknowledged. -/
structure RecordAttempt where
  event : SurfaceRecoveryEvent
  written : Bytes
  acknowledged : Bool
  deriving DecidableEq

/-- What happens to the journal file. -/
inductive SurfaceRecoveryLabel
  | record (event : SurfaceRecoveryEvent) (stopped : Option (Nat × String))
      (result : Except SurfaceRecoveryError Unit)
  /-- The daemon starts anew. -/
  | reopen

/-- One record, stopped or not, or a restart. -/
inductive SurfaceRecoveryStep (codec : SurfaceEventCodec) :
    SurfaceRecoveryStore → SurfaceRecoveryLabel → SurfaceRecoveryStore → Prop
  | record (s : SurfaceRecoveryStore) (journal journal' : SurfaceRecoveryJournal) (file' : Bytes)
      (event : SurfaceRecoveryEvent) (stopped : Option (Nat × String))
      (result : Except SurfaceRecoveryError Unit) :
      s.journal = some journal →
      journal.record codec event stopped s.file = (result, journal', file') →
      SurfaceRecoveryStep codec s (.record event stopped result) ⟨file', some journal'⟩
  | reopen (s : SurfaceRecoveryStore) :
      SurfaceRecoveryStep codec s .reopen
        ⟨s.file, (SurfaceRecoveryJournal.openJournal codec none s.file).toOption⟩

/-- The attempt a label tells of, unless the record was refused before it. -/
def SurfaceRecoveryLabel.attempt : SurfaceRecoveryLabel → Option RecordAttempt
  | .record event none (.ok ()) => some ⟨event, codec.encoded event, true⟩
  | .record event (some (written, _)) (.error (.io _)) =>
      some ⟨event, (codec.encoded event).take written, false⟩
  | _ => none

def attempts (tr : List SurfaceRecoveryLabel) : List RecordAttempt :=
  tr.filterMap (·.attempt codec)

/-! ## Crash consistency -/

/-- The attempts that left something in the file. -/
def left (as : List RecordAttempt) : List RecordAttempt := as.filter fun a => a.written ≠ []

/-- **Crash consistency**: the file can be opened, and its outstanding keys are
those of the acknowledged events in order, with some of the interrupted ones
among them. -/
def CrashConsistent (as : List RecordAttempt) (file : Bytes) : Prop :=
  ∃ journal kept, SurfaceRecoveryJournal.openJournal codec none file = .ok journal ∧
    List.Sublist kept as ∧ kept.filter (·.acknowledged) = as.filter (·.acknowledged) ∧
    journal.outstanding = replayEvents ∅ (kept.map (·.event))

/-- What is in the file is whole lines, but for the newline of the last. -/
def LeavesWholeLines (as : List RecordAttempt) : Prop :=
  ∃ whole last, left as = whole ++ last ∧ (∀ a ∈ whole, a.written = codec.encoded a.event) ∧
    (last = [] ∨ ∃ a, last = [a] ∧ a.written ++ [newline] = codec.encoded a.event)

/-- The lines in the file are no more than the journal may have. -/
def WithinLimits (as : List RecordAttempt) : Prop :=
  (left as).length ≤ maxJournalEvents ∧ (as.flatMap (·.written)).length ≤ maxJournalBytes

/-- The record is a line of its own. -/
structure RecordAttempt.Admitted (a : RecordAttempt) : Prop where
  valid : a.event.key.validate = .ok ()
  line : ∃ line, codec.toVec a.event = .ok line ∧ line.length < maxEventBytes
  written : a.written <+: codec.encoded a.event
  whole : a.acknowledged = true → a.written = codec.encoded a.event

end

section
variable {codec : SurfaceEventCodec} {a : RecordAttempt} {as : List RecordAttempt}

variable {event : SurfaceRecoveryEvent}

theorem SurfaceEventCodec.line_ne_nil (codec : SurfaceEventCodec) {line : Bytes}
    (h : codec.toVec event = .ok line) : line ≠ [] := by
  rintro rfl
  obtain ⟨_, _, -, hnil⟩ := @SurfaceEventCodec.glued codec [] event (by simp) (codec.fromStr_toVec h)
  cases hnil

theorem encoded_eq {line : Bytes} (h : codec.toVec event = .ok line) :
    codec.encoded event = line ++ [newline] := by
  rw [SurfaceEventCodec.encoded, h]

/-- What was written of a line is the whole line, or a beginning of it without
newline. -/
theorem RecordAttempt.Admitted.cases (h : a.Admitted codec) {line : Bytes}
    (hline : codec.toVec a.event = .ok line) :
    a.written = line ++ [newline] ∨ a.written <+: line := by
  have hwritten := h.written
  rw [encoded_eq hline] at hwritten
  exact prefix_concat_iff.mp hwritten

theorem not_newline_of_part {line part : Bytes} (hline : codec.toVec event = .ok line)
    (hpart : part <+: line) :
    (∀ b ∈ part, 32 ≤ b.toNat) ∧ newline ∉ part := by
  have hprintable : ∀ b ∈ part, 32 ≤ b.toNat :=
    fun b hb => codec.printable hline b (hpart.subset hb)
  exact ⟨hprintable, newline_not_mem_of_printable hprintable⟩

/-- **A torn line is never read over.**  If the lines of a text that begins with
fragments of encodings, none of them terminated, are all events, the fragments
are one whole encoding and nothing follows. -/
theorem fragments_whole {chunks : List (SurfaceRecoveryEvent × Bytes)}
    (hchunks : ∀ c ∈ chunks, c.2 ≠ [] ∧ ∃ line, codec.toVec c.1 = .ok line ∧ c.2 <+: line)
    (hne : chunks ≠ []) (has : ∀ a ∈ as, a.Admitted codec ∧ a.written ≠ []) {count : Nat}
    {outstanding : Finset SurfaceRecoveryKey} {result : Finset SurfaceRecoveryKey × Nat}
    (hread : replayLines codec (textLines (chunks.flatMap (·.2) ++ as.flatMap (·.written))) count
      outstanding = .ok result) :
    as = [] ∧ ∃ e line, codec.toVec e = .ok line ∧ chunks = [(e, line)] := by
  have hprintable : ∀ b ∈ chunks.flatMap (·.2), 32 ≤ b.toNat := by
    intro b hb
    obtain ⟨c, hc, hb⟩ := mem_flatMap.mp hb
    obtain ⟨-, line, hline, hpart⟩ := hchunks c hc
    exact (not_newline_of_part hline hpart).1 b hb
  have hnonempty : chunks.flatMap (·.2) ≠ [] := by
    obtain ⟨c, rest, rfl⟩ := exists_cons_of_ne_nil hne
    simp [(hchunks c mem_cons_self).1]
  induction as generalizing chunks with
  | nil =>
    rw [flatMap_nil, append_nil,
      textLines_unterminated (newline_not_mem_of_printable hprintable) hnonempty,
      replayLines_cons_iff] at hread
    obtain ⟨-, -, -, event, hdecode, -⟩ := hread
    exact ⟨rfl, codec.glued hchunks hdecode⟩
  | cons a as ih =>
    obtain ⟨hadm, hwritten⟩ := has a mem_cons_self
    obtain ⟨line, hline, -⟩ := hadm.line
    exfalso
    rcases hadm.cases hline with hwhole | hpart
    · -- the fragments and one more end the line
      have hline_printable := (not_newline_of_part hline (prefix_refl line)).1
      have htext : ∀ b ∈ chunks.flatMap (·.2) ++ line, 32 ≤ b.toNat := by
        intro b hb
        rcases mem_append.mp hb with hb | hb
        · exact hprintable b hb
        · exact hline_printable b hb
      rw [flatMap_cons, hwhole, append_assoc, singleton_append, ← append_assoc,
        textLines_cons (newline_not_mem_of_printable htext),
        stripCarriageReturn_of_printable htext, replayLines_cons_iff] at hread
      obtain ⟨-, -, -, event, hdecode, -⟩ := hread
      have hall : ∀ c ∈ chunks ++ [(a.event, line)],
          c.2 ≠ [] ∧ ∃ line, codec.toVec c.1 = .ok line ∧ c.2 <+: line := by
        intro c hc
        rcases mem_append.mp hc with hc | hc
        · exact hchunks c hc
        · obtain rfl := mem_singleton.mp hc
          exact ⟨codec.line_ne_nil hline, line, hline, prefix_refl line⟩
      have hglued : codec.fromStr ((chunks ++ [(a.event, line)]).flatMap (·.2)) = .ok event := by
        simpa [flatMap_append] using hdecode
      obtain ⟨e, l, -, hone⟩ := codec.glued hall hglued
      have hlen := congrArg List.length hone
      simp only [length_append, length_singleton] at hlen
      exact hne (length_eq_zero_iff.mp (by omega))
    · -- one more fragment
      have hchunks' : ∀ c ∈ chunks ++ [(a.event, a.written)],
          c.2 ≠ [] ∧ ∃ line, codec.toVec c.1 = .ok line ∧ c.2 <+: line := by
        intro c hc
        rcases mem_append.mp hc with hc | hc
        · exact hchunks c hc
        · obtain rfl := mem_singleton.mp hc
          exact ⟨hwritten, line, hline, hpart⟩
      have hflat : (chunks ++ [(a.event, a.written)]).flatMap (·.2) =
          chunks.flatMap (·.2) ++ a.written := by
        simp [flatMap_append]
      obtain ⟨-, e, l, -, hone⟩ := ih hchunks' (by simp)
        (fun b hb => has b (mem_cons_of_mem _ hb))
        (by rw [hflat, append_assoc]; exact hread)
        (by
          rw [hflat]
          intro b hb
          rcases mem_append.mp hb with hb | hb
          · exact hprintable b hb
          · exact (not_newline_of_part hline hpart).1 b hb)
        (by rw [hflat]; simp [hnonempty])
      have hlen := congrArg List.length hone
      simp only [length_append, length_singleton] at hlen
      exact hne (length_eq_zero_iff.mp (by omega))

/-- What the lines read back as, when they are read at all. -/
theorem whole_of_replayed (has : ∀ a ∈ as, a.Admitted codec ∧ a.written ≠ []) {count : Nat}
    {outstanding : Finset SurfaceRecoveryKey} {result : Finset SurfaceRecoveryKey × Nat}
    (hcount : count ≤ maxJournalEvents)
    (hread : replayLines codec (textLines (as.flatMap (·.written))) count outstanding =
      .ok result) :
    count + as.length ≤ maxJournalEvents ∧
      result = (replayEvents outstanding (as.map (·.event)), count + as.length) ∧
      ∃ whole last, as = whole ++ last ∧ (∀ a ∈ whole, a.written = codec.encoded a.event) ∧
        (last = [] ∨ ∃ a, last = [a] ∧ a.written ++ [newline] = codec.encoded a.event) := by
  induction as generalizing count outstanding with
  | nil =>
    cases hread
    exact ⟨hcount, rfl, [], [], rfl, by simp, .inl rfl⟩
  | cons a as ih =>
    obtain ⟨hadm, hwritten⟩ := has a mem_cons_self
    have hrest : ∀ b ∈ as, b.Admitted codec ∧ b.written ≠ [] :=
      fun b hb => has b (mem_cons_of_mem _ hb)
    obtain ⟨line, hline, -⟩ := hadm.line
    rw [flatMap_cons] at hread
    rcases hadm.cases hline with hwhole | hpart
    · obtain ⟨hprintable, hnot⟩ := not_newline_of_part hline (prefix_refl line)
      rw [hwhole, append_assoc, singleton_append, textLines_cons hnot,
        stripCarriageReturn_of_printable hprintable, replayLines_cons_iff] at hread
      obtain ⟨-, -, hcount', event, hdecode, -, hread⟩ := hread
      rw [codec.fromStr_toVec hline] at hdecode
      cases hdecode
      obtain ⟨hlen, hresult, whole, last, has, hwholes, hlast⟩ := ih hrest hcount' hread
      rw [show count + 1 + as.length = count + (a :: as).length by rw [length_cons]; omega]
        at hlen hresult
      refine ⟨hlen, hresult, a :: whole, last, by rw [has]; rfl, ?_, hlast⟩
      intro b hb
      rcases mem_cons.mp hb with rfl | hb
      · rw [hwhole, encoded_eq hline]
      · exact hwholes b hb
    · have hchunks : ∀ c ∈ [(a.event, a.written)],
          c.2 ≠ [] ∧ ∃ line, codec.toVec c.1 = .ok line ∧ c.2 <+: line := by
        intro c hc
        obtain rfl := mem_singleton.mp hc
        exact ⟨hwritten, line, hline, hpart⟩
      obtain ⟨rfl, e, l, hl, hone⟩ := fragments_whole hchunks (by simp) hrest
        (by simpa using hread)
      obtain ⟨rfl, hwhole⟩ : a.event = e ∧ a.written = l := by simpa using hone
      have hprintable := not_newline_of_part hl (prefix_refl l)
      rw [flatMap_nil, append_nil, textLines_unterminated (hwhole ▸ hprintable.2) hwritten,
        replayLines_cons_iff] at hread
      obtain ⟨-, -, hcount', event, hdecode, -, hread⟩ := hread
      rw [hwhole, codec.fromStr_toVec hl] at hdecode
      cases hdecode
      cases hread
      exact ⟨hcount', rfl, [], [a], rfl, by simp, .inr ⟨a, rfl, by rw [hwhole, encoded_eq hl]⟩⟩

/-- Whole lines read back as their events, with or without the last newline. -/
theorem replayed_of_whole {whole last : List RecordAttempt}
    (has : ∀ a ∈ whole ++ last, a.Admitted codec)
    (hwhole : ∀ a ∈ whole, a.written = codec.encoded a.event)
    (hlast : last = [] ∨ ∃ a, last = [a] ∧ a.written ++ [newline] = codec.encoded a.event)
    {count : Nat} (hcount : count + (whole ++ last).length ≤ maxJournalEvents)
    (outstanding : Finset SurfaceRecoveryKey) :
    replayLines codec (textLines ((whole ++ last).flatMap (·.written))) count outstanding =
      .ok (replayEvents outstanding ((whole ++ last).map (·.event)),
        count + (whole ++ last).length) := by
  induction whole generalizing count outstanding with
  | nil =>
    rcases hlast with rfl | ⟨a, rfl, hnewline⟩
    · rfl
    · have hadm := has a (by simp)
      obtain ⟨line, hline, hlen⟩ := hadm.line
      rw [encoded_eq hline] at hnewline
      have hwritten : a.written = line := append_cancel_right hnewline
      obtain ⟨-, hnot⟩ := not_newline_of_part hline (prefix_refl line)
      simp only [nil_append, flatMap_cons, flatMap_nil, append_nil, hwritten]
      simp only [nil_append, length_singleton] at hcount
      rw [textLines_unterminated hnot (codec.line_ne_nil hline), replayLines_cons_iff]
      exact ⟨codec.line_ne_nil hline, by omega, by omega, a.event, codec.fromStr_toVec hline, hadm.valid,
        rfl⟩
  | cons a whole ih =>
    have hadm := has a (by simp)
    obtain ⟨line, hline, hlen⟩ := hadm.line
    obtain ⟨hprintable, hnot⟩ := not_newline_of_part hline (prefix_refl line)
    have hwritten := hwhole a mem_cons_self
    rw [encoded_eq hline] at hwritten
    simp only [cons_append, length_cons] at hcount ⊢
    rw [flatMap_cons, hwritten, append_assoc, singleton_append,
      textLines_cons hnot, stripCarriageReturn_of_printable hprintable, replayLines_cons_iff]
    refine ⟨codec.line_ne_nil hline, by omega, by omega, a.event, codec.fromStr_toVec hline, hadm.valid, ?_⟩
    rw [ih (fun b hb => has b (by simp only [cons_append]; exact mem_cons_of_mem _ hb))
      (fun b hb => hwhole b (mem_cons_of_mem _ hb)) (by omega)]
    simp only [replayEvents, map_cons, foldl_cons]
    rw [show count + 1 + (whole ++ last).length = count + ((whole ++ last).length + 1) by omega]

/-! ### The whole file -/

theorem validateUTF8_of_whole {whole last : List RecordAttempt}
    (has : ∀ a ∈ whole ++ last, a.Admitted codec)
    (hwhole : ∀ a ∈ whole, a.written = codec.encoded a.event)
    (hlast : last = [] ∨ ∃ a, last = [a] ∧ a.written ++ [newline] = codec.encoded a.event) :
    ((whole ++ last).flatMap (·.written)).toByteArray.IsValidUTF8 := by
  have hnewline : [newline].toByteArray.IsValidUTF8 := .intro ['\n'] rfl
  induction whole with
  | nil =>
    rcases hlast with rfl | ⟨a, rfl, hwritten⟩
    · exact ByteArray.isValidUTF8_empty
    · obtain ⟨line, hline, -⟩ := (has a (by simp)).line
      rw [encoded_eq hline] at hwritten
      rw [nil_append, flatMap_singleton, append_cancel_right hwritten]
      exact codec.utf8 hline
  | cons a whole ih =>
    obtain ⟨line, hline, -⟩ := (has a (by simp)).line
    rw [cons_append, flatMap_cons, hwhole a mem_cons_self, encoded_eq hline,
      toByteArray_append, toByteArray_append]
    refine ((codec.utf8 hline).append hnewline).append (ih ?_ ?_)
    · exact fun b hb => has b (by simp only [cons_append]; exact mem_cons_of_mem _ hb)
    · exact fun b hb => hwhole b (mem_cons_of_mem _ hb)

theorem flatMap_left (as : List RecordAttempt) :
    (left as).flatMap (·.written) = as.flatMap (·.written) := by
  induction as with
  | nil => rfl
  | cons a as ih =>
    by_cases ha : a.written = []
    · simpa [left, ha] using ih
    · simpa [left, ha] using ih

/-- **Which files open.**  What is acknowledged is read back where the file opens. -/
theorem openJournal_iff (has : ∀ a ∈ as, a.Admitted codec) {journal : SurfaceRecoveryJournal} :
    SurfaceRecoveryJournal.openJournal codec none (as.flatMap (·.written)) = .ok journal ↔
      (LeavesWholeLines codec as ∧ WithinLimits as) ∧
        journal = ⟨replayEvents ∅ ((left as).map (·.event)), (left as).length,
          (as.flatMap (·.written)).length⟩ := by
  have hleft : ∀ a ∈ left as, a.Admitted codec ∧ a.written ≠ [] := by
    intro a ha
    obtain ⟨hmem, hne⟩ := mem_filter.mp ha
    exact ⟨has a hmem, by simpa using hne⟩
  simp only [SurfaceRecoveryJournal.openJournal, bind_eq_ok, rejectIf_eq_ok, not_lt]
  constructor
  · rintro ⟨⟨⟩, hbytes, ⟨⟩, -, ⟨outstanding, count⟩, hread, hjournal⟩
    rw [← flatMap_left] at hread
    obtain ⟨hlen, hresult, hwhole⟩ := whole_of_replayed hleft (Nat.zero_le _) hread
    rw [Nat.zero_add] at hlen hresult
    cases hresult
    exact ⟨⟨hwhole, hlen, hbytes⟩, (Except.ok.inj hjournal).symm⟩
  · rintro ⟨⟨⟨whole, last, hsplit, hwhole, hlast⟩, hlines, hbytes⟩, rfl⟩
    have hadm : ∀ a ∈ whole ++ last, a.Admitted codec := fun a ha => (hleft a (hsplit ▸ ha)).1
    have hcount : 0 + (whole ++ last).length ≤ maxJournalEvents := by rw [← hsplit]; omega
    have hread := replayed_of_whole hadm hwhole hlast hcount ∅
    have hutf8 := validateUTF8_of_whole hadm hwhole hlast
    rw [← hsplit, flatMap_left, Nat.zero_add] at hread
    rw [← hsplit, flatMap_left] at hutf8
    exact ⟨(), hbytes, (), by simp [hutf8], _, hread, rfl⟩

/-- **Crash consistency is whole lines within the limits.** -/
theorem crashConsistent_iff (has : ∀ a ∈ as, a.Admitted codec) :
    CrashConsistent codec as (as.flatMap (·.written)) ↔
      LeavesWholeLines codec as ∧ WithinLimits as := by
  constructor
  · rintro ⟨journal, _, hopen, -⟩
    exact ((openJournal_iff has).mp hopen).1
  · intro h
    refine ⟨_, left as, (openJournal_iff has).mpr ⟨h, rfl⟩, filter_sublist, ?_, rfl⟩
    rw [left, filter_filter]
    refine filter_congr fun a ha => ?_
    -- what was acknowledged left its line
    cases hack : a.acknowledged with
    | false => simp
    | true =>
      obtain ⟨line, hline, -⟩ := (has a ha).line
      simp [(has a ha).whole hack, encoded_eq hline]

end

/-! ## Runs -/

section
variable {codec : SurfaceEventCodec}

variable {event : SurfaceRecoveryEvent} {journal : SurfaceRecoveryJournal}

/-- What `record` checked of the line it appends. -/
theorem admitRecord_eq_ok {encoded : Bytes} (h : journal.admitRecord codec event = .ok encoded) :
    event.key.validate = .ok () ∧ encoded = codec.encoded event ∧
      ∃ line, codec.toVec event = .ok line ∧ line.length < maxEventBytes := by
  simp only [SurfaceRecoveryJournal.admitRecord, bind_eq_ok, rejectIf_eq_ok, mapError_eq_ok,
    not_lt] at h
  obtain ⟨⟨⟩, hkey, line, hline, ⟨⟩, hlen, ⟨⟩, -, hencoded⟩ := h
  cases hencoded
  refine ⟨hkey, (encoded_eq hline).symm, line, hline, ?_⟩
  rw [length_append, length_singleton] at hlen
  omega

theorem record_admitted {encoded : Bytes} (h : journal.admitRecord codec event = .ok encoded)
    (file : Bytes) :
    journal.record codec event none file = (.ok (),
      ⟨event.apply journal.outstanding, journal.eventCount + 1,
        journal.byteCount + encoded.length⟩, file ++ encoded) := by
  rw [SurfaceRecoveryJournal.record, h]

theorem record_stopped {encoded : Bytes} (h : journal.admitRecord codec event = .ok encoded)
    (written : Nat) (message : String) (file : Bytes) :
    journal.record codec event (some (written, message)) file =
      (.error (.io message), journal, file ++ encoded.take written) := by
  rw [SurfaceRecoveryJournal.record, h]

/-- What a `record` adds to the file. -/
theorem record_written {journal journal' : SurfaceRecoveryJournal} {stopped : Option (Nat × String)}
    {file file' : Bytes} {result : Except SurfaceRecoveryError Unit}
    (h : journal.record codec event stopped file = (result, journal', file')) :
    (result ≠ .ok () ∧ file' = file) ∨
      ∃ written, file' = file ++ written ∧
        RecordAttempt.Admitted codec ⟨event, written, decide (result = .ok ())⟩ := by
  rcases hadmitted : journal.admitRecord codec event with error | encoded
  · rw [SurfaceRecoveryJournal.record, hadmitted] at h
    obtain ⟨rfl, hrest⟩ := Prod.mk.inj h
    obtain ⟨-, rfl⟩ := Prod.mk.inj hrest
    exact .inl ⟨by simp, rfl⟩
  · obtain ⟨hkey, hencoded, hline⟩ := admitRecord_eq_ok hadmitted
    rcases stopped with _ | ⟨written, message⟩
    · rw [record_admitted hadmitted] at h
      obtain ⟨rfl, hrest⟩ := Prod.mk.inj h
      obtain ⟨-, rfl⟩ := Prod.mk.inj hrest
      exact .inr ⟨encoded, rfl, hkey, hline, hencoded ▸ prefix_refl _, fun _ => hencoded⟩
    · rw [record_stopped hadmitted] at h
      obtain ⟨rfl, hrest⟩ := Prod.mk.inj h
      obtain ⟨-, rfl⟩ := Prod.mk.inj hrest
      exact .inr ⟨encoded.take written, rfl, hkey, hline, hencoded ▸ take_prefix _ _,
        fun hack => by simp at hack⟩

/-- A record that is acknowledged, and one that stops. -/
theorem run_of_admitted {e e' : SurfaceRecoveryEvent} {encoded encoded' : Bytes}
    (h : SurfaceRecoveryJournal.admitRecord ⟨∅, 0, 0⟩ codec e = .ok encoded)
    (h' : SurfaceRecoveryJournal.admitRecord ⟨e.apply ∅, 0 + 1, 0 + encoded.length⟩ codec e' =
      .ok encoded') (written : Nat) (message : String) :
    ∃ s, Run (SurfaceRecoveryStep codec) .new
      [.record e none (.ok ()), .record e' (some (written, message)) (.error (.io message))] s :=
  ⟨_, Run.cons (.record _ _ _ _ _ _ _ rfl (record_admitted h _))
    (Run.cons (.record _ _ _ _ _ _ _ rfl (record_stopped h' _ _ _)) (Run.nil _))⟩

/-- `record` refuses with errors of its own. -/
theorem admitRecord_ne_io {message : String} :
    journal.admitRecord codec event ≠ .error (.io message) := by
  intro h
  simp only [SurfaceRecoveryJournal.admitRecord, SurfaceRecoveryKey.validate, bind_eq_error,
    rejectIf_eq_error, mapError_eq_error] at h
  rcases h with ⟨-, h⟩ | ⟨_, -, ⟨_, -, h⟩ | ⟨line, -, ⟨-, h⟩ | ⟨_, -, ⟨-, h⟩ | ⟨_, -, h⟩⟩⟩⟩
  all_goals cases h

/-- What one step adds to the file. -/
theorem file_of_step {s s' : SurfaceRecoveryStore} {l : SurfaceRecoveryLabel}
    (hs : SurfaceRecoveryStep codec s l s') :
    (∀ a, l.attempt codec = some a → a.Admitted codec ∧ s'.file = s.file ++ a.written) ∧
      (l.attempt codec = none → s'.file = s.file) := by
  cases hs with
  | reopen => exact ⟨fun a ha => (by cases ha), fun _ => rfl⟩
  | record journal journal' file' event stopped result hjournal hrecord =>
    rw [SurfaceRecoveryJournal.record] at hrecord
    rcases hadmitted : journal.admitRecord codec event with error | encoded
    · rw [hadmitted] at hrecord
      obtain ⟨rfl, hrest⟩ := Prod.mk.inj hrecord
      obtain ⟨-, rfl⟩ := Prod.mk.inj hrest
      refine ⟨fun a ha => ?_, fun _ => rfl⟩
      rcases stopped with _ | ⟨written, message⟩
      · cases ha
      · cases error with
        | io m => exact absurd hadmitted admitRecord_ne_io
        | _ => cases ha
    · obtain ⟨hkey, rfl, hline⟩ := admitRecord_eq_ok hadmitted
      rw [hadmitted] at hrecord
      rcases stopped with _ | ⟨written, message⟩
      · obtain ⟨rfl, hrest⟩ := Prod.mk.inj hrecord
        obtain ⟨-, rfl⟩ := Prod.mk.inj hrest
        refine ⟨fun a ha => ?_, fun hnone => by cases hnone⟩
        cases ha
        exact ⟨⟨hkey, hline, prefix_refl _, fun _ => rfl⟩, rfl⟩
      · obtain ⟨rfl, hrest⟩ := Prod.mk.inj hrecord
        obtain ⟨-, rfl⟩ := Prod.mk.inj hrest
        refine ⟨fun a ha => ?_, fun hnone => by cases hnone⟩
        cases ha
        exact ⟨⟨hkey, hline, take_prefix _ _, fun hack => by cases hack⟩, rfl⟩

/-- What steps append to a file is what their attempts have written. -/
theorem file_of_attempts {S L : Type} {step : S → L → S → Prop}
    (attempt : L → Option RecordAttempt) (file : S → Bytes) {start s : S} {tr : List L} (hstart : file start = [])
    (hstep : ∀ s l s', step s l s' →
      (∀ a, attempt l = some a → a.Admitted codec ∧ file s' = file s ++ a.written) ∧
        (attempt l = none → file s' = file s))
    (hrun : Run step start tr s) :
    (∀ a ∈ tr.filterMap attempt, a.Admitted codec) ∧
      file s = (tr.filterMap attempt).flatMap (·.written) := by
  refine hrun.forward_induction (P := fun tr s => (∀ a ∈ tr.filterMap attempt, a.Admitted codec) ∧
    file s = (tr.filterMap attempt).flatMap (·.written)) ⟨by simp, hstart⟩ ?_
  rintro tr s l s' - ⟨hadm, hfile⟩ hs
  obtain ⟨hsome, hnone⟩ := hstep s l s' hs
  rw [filterMap_append]
  rcases ha : attempt l with _ | a
  · simpa [ha, hnone ha, hfile] using hadm
  · obtain ⟨hadm', hfile'⟩ := hsome a ha
    simp only [filterMap_cons, ha, filterMap_nil, flatMap_append, flatMap_cons,
      flatMap_nil, append_nil]
    refine ⟨fun b hb => ?_, by rw [hfile', hfile]⟩
    rcases mem_append.mp hb with hb | hb
    · exact hadm b hb
    · exact mem_singleton.mp hb ▸ hadm'

/-- **The file is what the attempts wrote**, one after the other. -/
theorem file_of_run {tr : List SurfaceRecoveryLabel} {s : SurfaceRecoveryStore}
    (hrun : Run (SurfaceRecoveryStep codec) .new tr s) :
    (∀ a ∈ attempts codec tr, a.Admitted codec) ∧
      s.file = (attempts codec tr).flatMap (·.written) :=
  file_of_attempts (SurfaceRecoveryLabel.attempt codec) SurfaceRecoveryStore.file rfl
    (fun _ _ _ => file_of_step) hrun

/-- **Interrupted records and reopening.**  After any run the journal is crash
consistent if and only if what is in the file is whole lines, but for the newline
of the last, within the journal's limits. -/
theorem crashConsistent_run_iff (codec : SurfaceEventCodec) (tr : List SurfaceRecoveryLabel)
    (s : SurfaceRecoveryStore) (hrun : Run (SurfaceRecoveryStep codec) .new tr s) :
    CrashConsistent codec (attempts codec tr) s.file ↔
      LeavesWholeLines codec (attempts codec tr) ∧ WithinLimits (attempts codec tr) := by
  obtain ⟨hadm, hfile⟩ := file_of_run hrun
  rw [hfile]
  exact crashConsistent_iff hadm

end

/-! ## An interrupted release -/

def sampleSurface : SurfaceRecoveryKey :=
  { sessionId := 3, surfaceKind := "preview_window", label := "preview", incarnation := 1
    ownerInstanceId := 5 }

/-- A surface is activated, and the record of its release stops after some bytes. -/
def interruptedRelease (written : Nat) : List SurfaceRecoveryLabel :=
  [.record (.activated sampleSurface) none (.ok ()),
    .record (.released sampleSurface) (some (written, "EIO")) (.error (.io "EIO"))]

theorem admitRecord_sample (journal : SurfaceRecoveryJournal) (hcount : journal.eventCount ≤ 1)
    (hbytes : journal.byteCount ≤ 2048) {event : SurfaceRecoveryEvent}
    (hevent : event = .activated sampleSurface ∨ event = .released sampleSurface) :
    journal.admitRecord surfaceNumeralCodec event = .ok (surfaceNumeralCodec.encoded event) := by
  have hkey : event.key.validate = .ok () := by
    rcases hevent with rfl | rfl <;> decide +kernel
  have hlen : (eventLine event ++ [newline]).length ≤ 2048 := by
    rcases hevent with rfl | rfl <;> decide +kernel
  simp only [SurfaceRecoveryJournal.admitRecord, bind_eq_ok, rejectIf_eq_ok, mapError_eq_ok, not_lt,
    not_or, not_le]
  refine ⟨(), hkey, eventLine event, rfl, (), hlen, (), ⟨?_, ?_⟩, rfl⟩
  · rw [maxJournalEvents]
    omega
  · rw [maxJournalBytes]
    omega

theorem run_interruptedRelease (written : Nat) :
    ∃ s, Run (SurfaceRecoveryStep surfaceNumeralCodec) .new (interruptedRelease written) s := by
  have hlen : (surfaceNumeralCodec.encoded (.activated sampleSurface)).length ≤ 2048 := by
    decide +kernel
  have hfirst := admitRecord_sample ⟨∅, 0, 0⟩ (by simp) (by simp) (.inl rfl)
  have hsecond := admitRecord_sample
    ⟨SurfaceRecoveryEvent.apply ∅ (.activated sampleSurface), 0 + 1,
      0 + (surfaceNumeralCodec.encoded (.activated sampleSurface)).length⟩
    (by simp) (by simp only; omega) (.inr rfl)
  exact run_of_admitted hfirst hsecond written "EIO"

/-- Where only the newline is lost the journal opens, with the release. -/
theorem crashConsistent_newline_lost :
    ∃ written s, Run (SurfaceRecoveryStep surfaceNumeralCodec) .new (interruptedRelease written) s ∧
      CrashConsistent surfaceNumeralCodec (attempts surfaceNumeralCodec (interruptedRelease written))
        s.file := by
  obtain ⟨s, hrun⟩ := run_interruptedRelease (eventLine (.released sampleSurface)).length
  refine ⟨_, s, hrun, (crashConsistent_run_iff _ _ s hrun).mpr ⟨?_, ?_⟩⟩
  · refine ⟨[⟨.activated sampleSurface, surfaceNumeralCodec.encoded (.activated sampleSurface), true⟩],
      [⟨.released sampleSurface, eventLine (.released sampleSurface), false⟩], ?_, ?_,
      .inr ⟨_, rfl, ?_⟩⟩
    · decide +kernel
    · decide +kernel
    · decide +kernel
  · constructor <;> decide +kernel

/-- **A torn record closes the journal for good.**  One byte of the release is in
the file; opening it fails, and the acknowledged activation is not read back. -/
theorem torn_release_not_consistent :
    ∃ s, Run (SurfaceRecoveryStep surfaceNumeralCodec) .new (interruptedRelease 1) s ∧
      ¬ CrashConsistent surfaceNumeralCodec (attempts surfaceNumeralCodec (interruptedRelease 1))
        s.file := by
  obtain ⟨s, hrun⟩ := run_interruptedRelease 1
  refine ⟨s, hrun, fun hconsistent => ?_⟩
  obtain ⟨⟨whole, last, hsplit, hwhole, hlast⟩, -⟩ :=
    (crashConsistent_run_iff _ _ s hrun).mp hconsistent
  have hleft : left (attempts surfaceNumeralCodec (interruptedRelease 1)) =
      [⟨.activated sampleSurface, surfaceNumeralCodec.encoded (.activated sampleSurface), true⟩,
        ⟨.released sampleSurface, [openBrace], false⟩] := by
    decide +kernel
  have hlong : 2 < (surfaceNumeralCodec.encoded (.released sampleSurface)).length := by
    decide +kernel
  have htorn : (⟨.released sampleSurface, [openBrace], false⟩ : RecordAttempt) ∈ whole ++ last := by
    rw [← hsplit, hleft]
    simp
  rcases mem_append.mp htorn with hmem | hmem
  · have hlen := congrArg List.length (hwhole _ hmem)
    simp only [length_singleton] at hlen
    omega
  · rcases hlast with rfl | ⟨a, rfl, hnewline⟩
    · cases hmem
    · obtain rfl := mem_singleton.mp hmem
      have hlen := congrArg List.length hnewline
      simp only [length_append, length_singleton] at hlen
      omega

end Localview
