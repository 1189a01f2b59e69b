import Localview.JournalFile

/-! # The surface recovery journal

`control/src/surface_recovery.rs`: one JSON event per line for each native
surface activated, released or reattached, and in memory the set of keys that
are outstanding.  `openJournal` replays the whole file and refuses it at the
first line that is not an event; `record` appends one encoded line under the
append lock and may stop after any part of it has reached the file.

`serde_json` stands outside the repository: a `SurfaceEventCodec` is any encoder
and decoder with the properties of compact JSON objects.
-/
namespace Localview
open EarlyReturn RecordLog

def maxEventBytes : Nat := 2 * 1024

def maxJournalBytes : Nat := 4 * 1024 * 1024

def maxJournalEvents : Nat := 8 * 1024

/-- Why an event is not recorded. -/
inductive SurfaceRecoveryError
  | io (message : String)
  | corruptJournal
  | invalidKey
  | eventTooLarge
  | journalFull
  deriving DecidableEq

/-- What names a surface in the journal. -/
structure SurfaceRecoveryKey where
  sessionId : SessionId
  (surfaceKind label : String)
  incarnation : Nat
  ownerInstanceId : Uuid
  deriving DecidableEq

def isControl (c : Char) : Bool := c.toNat < 0x20 || (0x7F ≤ c.toNat && c.toNat ≤ 0x9F)

/-- What a surface kind and a label must be, wherever one is accepted. -/
def validSurfaceName (surfaceKind label : String) : Bool :=
  (surfaceKind = "preview_window" || surfaceKind = "workspace_child") &&
    !label.isEmpty && label.utf8ByteSize ≤ 160 && !label.toList.any isControl

def SurfaceRecoveryKey.validate (key : SurfaceRecoveryKey) : Except SurfaceRecoveryError Unit :=
  rejectIf (key.sessionId = 0 ∨ key.ownerInstanceId = 0 ∨ key.incarnation = 0 ∨
    validSurfaceName key.surfaceKind key.label = false) .invalidKey

def SurfaceRecoveryKey.new (key : SurfaceRecoveryKey) :
    Except SurfaceRecoveryError SurfaceRecoveryKey := do
  key.validate
  return key

theorem SurfaceRecoveryKey.new_eq_ok {key key' : SurfaceRecoveryKey} (h : key.new = .ok key') :
    key' = key := by
  simp only [SurfaceRecoveryKey.new, bind_eq_ok] at h
  obtain ⟨-, -, h⟩ := h
  exact (Except.ok.inj h).symm

/-- What the journal records of a surface. -/
inductive SurfaceRecoveryEvent
  | activated (key : SurfaceRecoveryKey)
  | released (key : SurfaceRecoveryKey)
  | reattached (key : SurfaceRecoveryKey)
  deriving DecidableEq

namespace SurfaceRecoveryEvent

def key : SurfaceRecoveryEvent → SurfaceRecoveryKey
  | activated key | released key | reattached key => key

def apply (outstanding : Finset SurfaceRecoveryKey) :
    SurfaceRecoveryEvent → Finset SurfaceRecoveryKey
  | activated key => insert key outstanding
  | released key | reattached key => outstanding.erase key

end SurfaceRecoveryEvent

def replayEvents (outstanding : Finset SurfaceRecoveryKey) (events : List SurfaceRecoveryEvent) :
    Finset SurfaceRecoveryKey :=
  events.foldl SurfaceRecoveryEvent.apply outstanding

/-- `serde_json::to_vec` and `serde_json::from_str` at recovery events.  Decoding
undoes encoding; an encoding is text without raw control characters; and JSON
objects delimit themselves: what is glued together from beginnings of encodings
is an event only where it is one whole encoding. -/
structure SurfaceEventCodec where
  toVec : SurfaceRecoveryEvent → Except String Bytes
  fromStr : Bytes → Except String SurfaceRecoveryEvent
  fromStr_toVec : ∀ {e line}, toVec e = .ok line → fromStr line = .ok e
  printable : ∀ {e line}, toVec e = .ok line → ∀ b ∈ line, 32 ≤ b.toNat
  utf8 : ∀ {e line}, toVec e = .ok line → line.toByteArray.IsValidUTF8
  glued : ∀ {chunks : List (SurfaceRecoveryEvent × Bytes)} {e},
    (∀ c ∈ chunks, c.2 ≠ [] ∧ ∃ line, toVec c.1 = .ok line ∧ c.2 <+: line) →
    fromStr (chunks.flatMap (·.2)) = .ok e →
    ∃ e' line, toVec e' = .ok line ∧ chunks = [(e', line)]

/-- `SurfaceRecoveryJournal`, but for its path. -/
structure SurfaceRecoveryJournal where
  outstanding : Finset SurfaceRecoveryKey
  (eventCount byteCount : Nat)

/-! ## Opening -/

/-- A line without the carriage return before its newline. -/
def stripCarriageReturn (line : Bytes) : Bytes :=
  if line.getLast? = some 13 then line.dropLast else line

/-- `str::lines` -/
def textLines (text : Bytes) : List Bytes :=
  (split newline text).1.map stripCarriageReturn ++
    if (split newline text).2 = [] then [] else [(split newline text).2]

/-- The loop over the lines: the outstanding keys, and how many events. -/
def replayLines (codec : SurfaceEventCodec) : List Bytes → Nat → Finset SurfaceRecoveryKey →
    Except SurfaceRecoveryError (Finset SurfaceRecoveryKey × Nat)
  | [], eventCount, outstanding => .ok (outstanding, eventCount)
  | line :: lines, eventCount, outstanding => do
      rejectIf (line = [] ∨ maxEventBytes < line.length) .corruptJournal
      rejectIf (maxJournalEvents < eventCount + 1) .journalFull
      let event ← (codec.fromStr line).mapError fun _ => .corruptJournal
      event.key.validate
      replayLines codec lines (eventCount + 1) (event.apply outstanding)

namespace SurfaceRecoveryJournal

/-- `open`; `fault` is what its file system calls fail with, and a file that does
not exist yet is empty. -/
def openJournal (codec : SurfaceEventCodec) (fault : Option String) (file : Bytes) :
    Except SurfaceRecoveryError SurfaceRecoveryJournal :=
  match fault with
  | some message => .error (.io message)
  | none => do
      rejectIf (maxJournalBytes < file.length) .journalFull
      rejectIf (file.toByteArray.validateUTF8 = false) .corruptJournal
      let (outstanding, eventCount) ← replayLines codec (textLines file) 0 ∅
      return { outstanding, eventCount, byteCount := file.length }

variable (journal : SurfaceRecoveryJournal)

def outstandingExact (key : SurfaceRecoveryKey) : Bool := key ∈ journal.outstanding

def hasOutstandingForOwner (ownerInstanceId : Uuid) : Bool :=
  decide (∃ key ∈ journal.outstanding, key.ownerInstanceId = ownerInstanceId)

/-- What `record` checks before it opens the file: the line to append. -/
def admitRecord (codec : SurfaceEventCodec) (event : SurfaceRecoveryEvent) :
    Except SurfaceRecoveryError Bytes := do
  event.key.validate
  let line ← (codec.toVec event).mapError fun _ => .corruptJournal
  let encoded := line ++ [newline]
  rejectIf (maxEventBytes < encoded.length) .eventTooLarge
  rejectIf (maxJournalEvents ≤ journal.eventCount ∨
    maxJournalBytes < min (journal.byteCount + encoded.length) u64Max) .journalFull
  return encoded

/-- `record`.  Where `stopped` is given, the append stops with that message after
so many bytes of the line have reached the file. -/
def record (codec : SurfaceEventCodec) (event : SurfaceRecoveryEvent)
    (stopped : Option (Nat × String)) (file : Bytes) :
    Except SurfaceRecoveryError Unit × SurfaceRecoveryJournal × Bytes :=
  match journal.admitRecord codec event with
  | .error error => (.error error, journal, file)
  | .ok encoded =>
      match stopped with
      | some (written, message) =>
          (.error (.io message), journal, file ++ encoded.take written)
      | none =>
          (.ok (),
            { outstanding := event.apply journal.outstanding, eventCount := journal.eventCount + 1
              byteCount := journal.byteCount + encoded.length },
            file ++ encoded)

end SurfaceRecoveryJournal

/-- The file, and the journal open on it. -/
structure SurfaceRecoveryStore where
  file : Bytes
  journal : Option SurfaceRecoveryJournal

/-- No file, and the journal opened on it. -/
def SurfaceRecoveryStore.new : SurfaceRecoveryStore :=
  { file := [], journal := some { outstanding := ∅, eventCount := 0, byteCount := 0 } }

/-! ## Reading lines -/

section

theorem textLines_cons {line : Bytes} (h : newline ∉ line) (rest : Bytes) :
    textLines (line ++ newline :: rest) = stripCarriageReturn line :: textLines rest := by
  simp only [textLines, split_record h]
  rfl

theorem textLines_unterminated {text : Bytes} (h : newline ∉ text) (hne : text ≠ []) :
    textLines text = [text] := by
  simp [textLines, split_of_not_mem h, hne]

/-- Text without control characters ends no line and holds no carriage return. -/
theorem newline_not_mem_of_printable {text : Bytes} (h : ∀ b ∈ text, 32 ≤ b.toNat) :
    newline ∉ text :=
  fun hmem => absurd (h _ hmem) (by decide)

theorem stripCarriageReturn_of_printable {text : Bytes} (h : ∀ b ∈ text, 32 ≤ b.toNat) :
    stripCarriageReturn text = text := by
  refine if_neg fun hlast => ?_
  exact absurd (h _ (List.mem_of_getLast? hlast)) (by decide)

variable {codec : SurfaceEventCodec} {line : Bytes} {lines : List Bytes} {event : SurfaceRecoveryEvent}
  {count : Nat} {outstanding : Finset SurfaceRecoveryKey}

/-- What one round of the loop checks. -/
theorem replayLines_cons_iff {result : Finset SurfaceRecoveryKey × Nat} :
    replayLines codec (line :: lines) count outstanding = .ok result ↔
      line ≠ [] ∧ line.length ≤ maxEventBytes ∧ count + 1 ≤ maxJournalEvents ∧
        ∃ event, codec.fromStr line = .ok event ∧ event.key.validate = .ok () ∧
          replayLines codec lines (count + 1) (event.apply outstanding) = .ok result := by
  rw [replayLines]
  simp only [bind_eq_ok, rejectIf_eq_ok, mapError_eq_ok, not_or, not_lt]
  constructor
  · rintro ⟨⟨⟩, ⟨hne, hlen⟩, ⟨⟩, hcount, event, hdecode, ⟨⟩, hkey, hrest⟩
    exact ⟨hne, hlen, hcount, event, hdecode, hkey, hrest⟩
  · rintro ⟨hne, hlen, hcount, event, hdecode, hkey, hrest⟩
    exact ⟨(), ⟨hne, hlen⟩, (), hcount, event, hdecode, (), hkey, hrest⟩

end

end Localview
