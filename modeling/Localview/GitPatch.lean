import Mathlib.Data.List.Basic

/-! # Patches in git's extended diff syntax

A patch as its file patches, and the text that it is written as.  What must hold for
`git apply` to read the text back holds by construction: names say what they are written as,
the counts of a hunk are those of its lines, and what has no `diff --git` line has its names in
the two lines of a traditional diff.
-/
namespace GitPatch
open List

/-! ## Lines of a text -/

/-- A text without line ends. -/
def Unbroken (text : List Char) : Prop := '\n' ∉ text

instance (text : List Char) : Decidable (Unbroken text) := inferInstanceAs (Decidable (_ ∉ _))

/-- A line without the carriage return it may end with. -/
def stripCr (line : List Char) : List Char :=
  if line.getLast? = some '\r' then line.dropLast else line

/-- The lines of a text, without their ends; what follows the last end counts if it is there. -/
def lines (text : List Char) : List (List Char) :=
  (text.splitOn '\n').dropLast.map stripCr ++
    (text.splitOn '\n').getLast?.toList.filter (· ≠ [])

/-- The text that has these lines, each with its end. -/
def unlines (ls : List (List Char)) : List Char := ls.flatMap (· ++ ['\n'])

theorem splitOn_unlines {ls : List (List Char)} (h : ∀ line ∈ ls, Unbroken line) :
    (unlines ls).splitOn '\n' = ls ++ [[]] := by
  induction ls with
  | nil => rfl
  | cons line ls ih =>
    rw [forall_mem_cons] at h
    have htext : unlines (line :: ls) = line ++ '\n' :: unlines ls := by
      rw [unlines, flatMap_cons, append_assoc]
      rfl
    rw [htext, splitOn_append_cons_self, splitOn_eq_singleton h.1, ih h.2]
    rfl

theorem lines_unlines {ls : List (List Char)} (h : ∀ line ∈ ls, Unbroken line) :
    lines (unlines ls) = ls.map stripCr := by
  rw [lines, splitOn_unlines h, dropLast_concat, getLast?_concat]
  exact append_nil _

/-- A carriage return at the end is not one of a beginning without any. -/
theorem stripCr_append {start rest : List Char} (h : start.getLast? ≠ some '\r') :
    stripCr (start ++ rest) = start ++ stripCr rest := by
  by_cases hrest : rest = []
  · subst hrest
    rw [append_nil, stripCr, if_neg h]
    exact (append_nil _).symm
  · rw [stripCr, stripCr, getLast?_append_of_ne_nil _ hrest]
    by_cases hcr : rest.getLast? = some '\r'
    · rw [if_pos hcr, if_pos hcr, dropLast_append_of_ne_nil hrest]
    · rw [if_neg hcr, if_neg hcr]

theorem stripCr_cons {c : Char} {rest : List Char} (hc : c ≠ '\r') :
    stripCr (c :: rest) = c :: stripCr rest := by
  have hlast : [c].getLast? ≠ some '\r' := by
    rw [getLast?_singleton]
    exact fun heq => hc (Option.some.inj heq)
  exact stripCr_append hlast

/-! ## The parts of a patch -/

/-- What stands on one line. -/
structure Line where
  text : List Char
  whole : Unbroken text

/-- Written without quotes, a name ends at a tab or at the end of its line. -/
def Plain (text : List Char) : Prop :=
  Unbroken text ∧ '\t' ∉ text ∧ text.head? ≠ some '"'

instance (text : List Char) : Decidable (Plain text) := inferInstanceAs (Decidable (_ ∧ _))

/-- The directory in front of a name that git takes off: `a` and `b`, or another. -/
structure Side where
  text : List Char
  plain : Plain text
  component : '/' ∉ text

/-- A path, and whether it is written in quotes. -/
structure PathName where
  path : List Char
  quoted : Bool
  nonempty : path ≠ []
  plain : quoted = false → Plain path

def escape (c : Char) : List Char :=
  if c = '"' then ['\\', '"']
  else if c = '\\' then ['\\', '\\']
  else if c = '\n' then ['\\', 'n']
  else if c = '\t' then ['\\', 't']
  else [c]

/-- A name after a lead, in quotes that go around both. -/
def PathName.written (name : PathName) (lead : List Char) : List Char :=
  if name.quoted then '"' :: ((lead ++ name.path).flatMap escape ++ ['"'])
  else lead ++ name.path

def PathName.writtenOn (name : PathName) (side : Side) : List Char :=
  name.written (side.text ++ ['/'])

/-- A line of a hunk, by its first character. -/
inductive HunkLine
  | context (line : Line)
  | removed (line : Line)
  | added (line : Line)
  /-- The line before has no end. -/
  | noNewline

def HunkLine.text : HunkLine → List Char
  | context line => ' ' :: line.text
  | removed line => '-' :: line.text
  | added line => '+' :: line.text
  | noNewline => '\\' :: " No newline at end of file".toList

def HunkLine.isOld : HunkLine → Bool
  | context _ | removed _ => true
  | added _ | noNewline => false

def HunkLine.isNew : HunkLine → Bool
  | context _ | added _ => true
  | removed _ | noNewline => false

/-- A range of lines: where it begins and how many they are, which need not be said of one. -/
def rangeText (start count : Nat) (bare : Bool) : List Char :=
  Nat.toDigits 10 start ++ if bare then [] else ',' :: Nat.toDigits 10 count

/-- A run of changed lines. -/
structure Hunk where
  (oldStart newStart : Nat)
  heading : Line
  lines : List HunkLine
  /-- The ranges whose count is left out. -/
  (bareOld bareNew : Bool)
  bareOld_one : bareOld = true → lines.countP HunkLine.isOld = 1
  bareNew_one : bareNew = true → lines.countP HunkLine.isNew = 1

namespace Hunk

def header (hunk : Hunk) : List Char :=
  "@@ -".toList ++ rangeText hunk.oldStart (hunk.lines.countP HunkLine.isOld) hunk.bareOld ++
    " +".toList ++ rangeText hunk.newStart (hunk.lines.countP HunkLine.isNew) hunk.bareNew ++
    " @@".toList ++ hunk.heading.text

def texts (hunk : Hunk) : List (List Char) := hunk.header :: hunk.lines.map HunkLine.text

end Hunk

/-- The name of what is not there. -/
def devNull : List Char := "/dev/null".toList

/-- What a file patch does, with the mode, where it is said, of a file that is made or removed. -/
inductive Change
  | modify (name : PathName)
  | create (name : PathName) (mode : Option Line)
  | delete (name : PathName) (mode : Option Line)
  | rename (source target : PathName)
  | copy (source target : PathName)

namespace Change

def source : Change → PathName
  | modify name | create name _ | delete name _ => name
  | rename source _ | copy source _ => source

def target : Change → PathName
  | modify name | create name _ | delete name _ => name
  | rename _ target | copy _ target => target

/-- The paths that are made, modified, renamed or removed. -/
def touched : Change → List (List Char)
  | modify name | create name _ | delete name _ => [name.path]
  | rename source target => [source.path, target.path]
  | copy _ target => [target.path]

/-- Neither a creation nor a removal. -/
def KeepsFile : Change → Prop
  | create _ _ | delete _ _ => False
  | modify _ | rename _ _ | copy _ _ => True

/-- The mode of a file that is made or removed is said. -/
def Moded : Change → Prop
  | create _ mode | delete _ mode => mode.isSome
  | modify _ | rename _ _ | copy _ _ => True

/-- The extended header lines that say so. -/
def extended : Change → List (List Char)
  | modify _ => []
  | create _ mode => mode.toList.map fun mode => "new file mode ".toList ++ mode.text
  | delete _ mode => mode.toList.map fun mode => "deleted file mode ".toList ++ mode.text
  | rename source target =>
    ["rename from ".toList ++ source.written [], "rename to ".toList ++ target.written []]
  | copy source target =>
    ["copy from ".toList ++ source.written [], "copy to ".toList ++ target.written []]

/-- What the `---` line names. -/
def oldText (change : Change) (side : Side) : List Char :=
  match change with
  | create _ _ => devNull
  | modify name | delete name _ => name.writtenOn side
  | rename source _ | copy source _ => source.writtenOn side

/-- What the `+++` line names. -/
def newText (change : Change) (side : Side) : List Char :=
  match change with
  | delete _ _ => devNull
  | modify name | create name _ => name.writtenOn side
  | rename _ target | copy _ target => target.writtenOn side

end Change

/-- The other extended header lines. -/
inductive Detail
  | oldMode (mode : Line)
  | newMode (mode : Line)
  | similarity (percent : Line)
  | dissimilarity (percent : Line)
  | index (objects : Line)

def Detail.text : Detail → List Char
  | oldMode mode => "old mode ".toList ++ mode.text
  | newMode mode => "new mode ".toList ++ mode.text
  | similarity percent => "similarity index ".toList ++ percent.text
  | dissimilarity percent => "dissimilarity index ".toList ++ percent.text
  | index objects => "index ".toList ++ objects.text

structure FilePatch where
  (oldSide newSide : Side)
  change : Change
  details : List Detail
  /-- The extended header lines, which stand in any order. -/
  extended : List (List Char)
  ordered : extended.Perm (change.extended ++ details.map Detail.text)
  /-- The `---` and `+++` lines, with what follows the names after a tab. -/
  stamps : Option (Option Line × Option Line)
  hunks : List Hunk
  /-- A `diff --git` line stands first. -/
  headed : Bool
  moded : headed = true → change.Moded
  unheaded : headed = false → extended = [] ∧ stamps.isSome

/-- What follows a name. -/
def stampText : Option Line → List Char
  | none => []
  | some stamp => '\t' :: stamp.text

namespace FilePatch

def gitHeader (file : FilePatch) : List Char :=
  "diff --git ".toList ++ file.change.source.writtenOn file.oldSide ++
    ' ' :: file.change.target.writtenOn file.newSide

def gitLines (file : FilePatch) : List (List Char) :=
  if file.headed then [file.gitHeader] else []

/-- What follows the marks of the `---` and `+++` lines. -/
def nameTexts (file : FilePatch) : Option (List Char × List Char) :=
  file.stamps.map fun stamps =>
    (file.change.oldText file.oldSide ++ stampText stamps.1,
      file.change.newText file.newSide ++ stampText stamps.2)

def nameLines (file : FilePatch) : List (List Char) :=
  match file.nameTexts with
  | none => []
  | some (old, new) => ["--- ".toList ++ old, "+++ ".toList ++ new]

def texts (file : FilePatch) : List (List Char) :=
  file.gitLines ++ (file.extended ++ file.nameLines ++ file.hunks.flatMap Hunk.texts)

end FilePatch

/-- The changes of several files. -/
structure Patch where
  files : List FilePatch

namespace Patch

def texts (patch : Patch) : List (List Char) := patch.files.flatMap FilePatch.texts

def text (patch : Patch) : List Char := unlines patch.texts

/-- The paths that `git apply` makes, modifies, renames or removes. -/
def touched (patch : Patch) : List (List Char) := patch.files.flatMap (·.change.touched)

/-- The patch modifies one file and does nothing else. -/
def OnlyModifies (patch : Patch) (path : List Char) : Prop :=
  patch.files ≠ [] ∧ ∀ file ∈ patch.files, ∃ name, file.change = .modify name ∧ name.path = path

end Patch

/-! ## No line of a patch has another in it -/

theorem Unbroken.append {left right : List Char} (hleft : Unbroken left)
    (hright : Unbroken right) : Unbroken (left ++ right) := by
  unfold Unbroken
  rw [mem_append, not_or]
  exact ⟨hleft, hright⟩

theorem Unbroken.cons {c : Char} {text : List Char} (hc : c ≠ '\n') (htext : Unbroken text) :
    Unbroken (c :: text) := by
  unfold Unbroken
  rw [mem_cons, not_or]
  exact ⟨Ne.symm hc, htext⟩

theorem unbroken_escape (c : Char) : Unbroken (escape c) := by
  unfold escape
  split_ifs with hquote hslash hline htab
  · decide
  · decide
  · decide
  · decide
  · exact .cons hline (by decide)

theorem unbroken_written {name : PathName} {lead : List Char} (hlead : Unbroken lead) :
    Unbroken (name.written lead) := by
  unfold PathName.written
  by_cases hquoted : name.quoted = true
  · have hescaped : Unbroken ((lead ++ name.path).flatMap escape) := by
      intro hmem
      obtain ⟨c, -, hc⟩ := mem_flatMap.mp hmem
      exact unbroken_escape c hc
    rw [if_pos hquoted]
    exact .cons (by decide) (.append hescaped (by decide))
  · rw [if_neg hquoted]
    exact .append hlead (name.plain (Bool.eq_false_iff.mpr hquoted)).1

theorem unbroken_writtenOn {name : PathName} {side : Side} : Unbroken (name.writtenOn side) :=
  unbroken_written (.append side.plain.1 (by decide))

theorem unbroken_toDigits (n : Nat) : Unbroken (Nat.toDigits 10 n) := by
  intro hmem
  have hdigit := Nat.isDigit_of_mem_toDigits (by omega) (by omega) hmem
  revert hdigit
  decide

theorem unbroken_rangeText (start count : Nat) (bare : Bool) :
    Unbroken (rangeText start count bare) := by
  refine .append (unbroken_toDigits start) ?_
  cases bare with
  | true => exact not_mem_nil
  | false => exact .cons (by decide) (unbroken_toDigits count)

theorem unbroken_detail (detail : Detail) : Unbroken detail.text := by
  cases detail with
  | oldMode mode => exact .append (by decide) mode.whole
  | newMode mode => exact .append (by decide) mode.whole
  | similarity percent => exact .append (by decide) percent.whole
  | dissimilarity percent => exact .append (by decide) percent.whole
  | index objects => exact .append (by decide) objects.whole

theorem unbroken_changeExtended {change : Change} {line : List Char}
    (h : line ∈ change.extended) : Unbroken line := by
  have hnone : Unbroken [] := by decide
  cases change with
  | modify name => cases h
  | create name mode | delete name mode =>
    obtain ⟨mode, -, rfl⟩ := mem_map.mp h
    exact .append (by decide) mode.whole
  | rename source target | copy source target =>
    rcases mem_pair.mp h with rfl | rfl <;>
      exact .append (by decide) (unbroken_written hnone)

theorem unbroken_stampText (stamp : Option Line) : Unbroken (stampText stamp) := by
  cases stamp with
  | none => exact not_mem_nil
  | some stamp => exact .cons (by decide) stamp.whole

theorem unbroken_oldText {change : Change} {side : Side} : Unbroken (change.oldText side) := by
  cases change with
  | create name mode => exact (by decide : Unbroken devNull)
  | modify name | delete name mode | rename name target | copy name target =>
    exact unbroken_writtenOn

theorem unbroken_newText {change : Change} {side : Side} : Unbroken (change.newText side) := by
  cases change with
  | delete name mode => exact (by decide : Unbroken devNull)
  | modify name | create name mode | rename source name | copy source name =>
    exact unbroken_writtenOn

theorem unbroken_hunkLine (line : HunkLine) : Unbroken line.text := by
  cases line with
  | context line | removed line | added line => exact .cons (by decide) line.whole
  | noNewline => decide

theorem unbroken_hunkHeader (hunk : Hunk) : Unbroken hunk.header := by
  refine .append (.append (.append (.append (.append (by decide) ?_) (by decide)) ?_) (by decide))
    hunk.heading.whole
  · exact unbroken_rangeText _ _ _
  · exact unbroken_rangeText _ _ _

theorem mem_fileTexts {file : FilePatch} {line : List Char} :
    line ∈ file.texts ↔
      line ∈ file.gitLines ∨ line ∈ file.change.extended ∨
        (∃ detail ∈ file.details, detail.text = line) ∨ line ∈ file.nameLines ∨
        ∃ hunk ∈ file.hunks, line = hunk.header ∨ ∃ l ∈ hunk.lines, l.text = line := by
  simp only [FilePatch.texts, Hunk.texts, mem_cons, mem_append, mem_flatMap,
    mem_map, file.ordered.mem_iff, or_assoc]

theorem eq_gitHeader {file : FilePatch} {line : List Char} (h : line ∈ file.gitLines) :
    line = file.gitHeader := by
  unfold FilePatch.gitLines at h
  split at h
  · exact mem_singleton.mp h
  · cases h

theorem unbroken_fileTexts {file : FilePatch} {line : List Char} (h : line ∈ file.texts) :
    Unbroken line := by
  rcases mem_fileTexts.mp h with h | h | ⟨detail, -, rfl⟩ | h | ⟨hunk, -, rfl | ⟨l, -, rfl⟩⟩
  · rw [eq_gitHeader h]
    exact .append (.append (by decide) unbroken_writtenOn)
      (.cons (by decide) unbroken_writtenOn)
  · exact unbroken_changeExtended h
  · exact unbroken_detail detail
  · unfold FilePatch.nameLines FilePatch.nameTexts at h
    cases hstamps : file.stamps with
    | none =>
      rw [hstamps] at h
      cases h
    | some stamps =>
      rw [hstamps] at h
      rcases mem_pair.mp h with rfl | rfl
      · exact .append (by decide) (.append unbroken_oldText (unbroken_stampText _))
      · exact .append (by decide) (.append unbroken_newText (unbroken_stampText _))
  · exact unbroken_hunkHeader hunk
  · exact unbroken_hunkLine l

theorem lines_text (patch : Patch) : lines patch.text = patch.texts.map stripCr := by
  apply lines_unlines
  intro line hline
  obtain ⟨file, -, hline⟩ := mem_flatMap.mp hline
  exact unbroken_fileTexts hline

end GitPatch
