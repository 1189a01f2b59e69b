import Mathlib.Data.List.TakeWhile
import Localview.GitPatch
import Localview.PostconditionContracts
import Localview.ShadowWorkspace

/-! # The paths of a candidate's patch

`validate_patch_paths` of `crates/counterfactual/src/shadow.rs` goes over the lines of an
overlay's patch and takes every line that begins as `--- ` or `+++ ` for one that names the
file.  `git apply` reads names from other lines too, and reads hunks as what they are.
-/
namespace Localview.PatchPaths
open GitPatch EarlyReturn List

/-- `raw.split_whitespace().next().unwrap_or(raw)` -/
def firstWord (raw : List Char) : List Char :=
  if raw.dropWhile isWhiteSpace = [] then raw
  else (raw.dropWhile isWhiteSpace).takeWhile fun c => !isWhiteSpace c

/-- A name without `a/` or `b/`. -/
def normalizedPath (word : List Char) : List Char :=
  ((stripPrefix "a/".toList word).or (stripPrefix "b/".toList word)).getD word

/-- What follows `--- ` or `+++ `. -/
def headerOf (line : List Char) : Option (List Char) :=
  (stripPrefix "--- ".toList line).or (stripPrefix "+++ ".toList line)

def checkName (file : String) (raw : List Char) : Except ShadowError Unit := do
  let word := firstWord raw
  rejectIf (word = "/dev/null".toList)
    (.patchTouchesUnexpectedPath file (String.ofList word))
  rejectIf (normalizedPath word ≠ file.toList)
    (.patchTouchesUnexpectedPath file (String.ofList (normalizedPath word)))

/-- The loop over the lines. -/
def checkLines (file : String) : List (List Char) → Except ShadowError Unit
  | [] => .ok ()
  | line :: rest =>
    match headerOf line with
    | none => checkLines file rest
    | some raw => do
      checkName file raw
      checkLines file rest

def hasBinaryMarker (patch : List Char) : Bool :=
  decide ("GIT binary patch".toList <:+: patch) || decide ("Binary files ".toList <:+: patch)

def validatePatchPaths (overlay : SourceOverlay) : Except ShadowError Unit :=
  if hasBinaryMarker overlay.patch.toList then
    .error (.unsupportedBinaryFile overlay.file)
  else checkLines overlay.file (lines overlay.patch.toList)

/-- What follows the mark of a line names the file by its first word. -/
def Named (file raw : List Char) : Prop :=
  firstWord raw ≠ "/dev/null".toList ∧ normalizedPath (firstWord raw) = file

instance (file raw : List Char) : Decidable (Named file raw) :=
  inferInstanceAs (Decidable (_ ∧ _))

theorem checkName_ok_iff {file : String} {raw : List Char} :
    checkName file raw = .ok () ↔ Named file.toList raw := by
  simp only [checkName, rejectIf_bind_eq_ok, rejectIf_eq_ok, not_not, Named, ne_eq]

theorem checkLines_ok_iff {file : String} {ls : List (List Char)} :
    checkLines file ls = .ok () ↔
      ∀ line ∈ ls, ∀ raw, headerOf line = some raw → Named file.toList raw := by
  induction ls with
  | nil => simp [checkLines]
  | cons line rest ih =>
    rw [forall_mem_cons, checkLines]
    cases hheader : headerOf line with
    | none =>
      rw [ih]
      constructor
      · intro h
        refine ⟨?_, h⟩
        intro raw hraw
        cases hraw
      · exact fun h => h.2
    | some raw =>
      rw [bind_eq_ok]
      constructor
      · rintro ⟨_, hname, hrest⟩
        refine ⟨?_, ih.mp hrest⟩
        intro raw' heq
        cases heq
        exact checkName_ok_iff.mp hname
      · intro h
        exact ⟨(), checkName_ok_iff.mpr (h.1 raw rfl), ih.mpr h.2⟩

theorem validatePatchPaths_ok_iff_lines {overlay : SourceOverlay} :
    validatePatchPaths overlay = .ok () ↔ hasBinaryMarker overlay.patch.toList = false ∧
      ∀ line ∈ lines overlay.patch.toList, ∀ raw, headerOf line = some raw →
        Named overlay.file.toList raw := by
  unfold validatePatchPaths
  by_cases hmarker : hasBinaryMarker overlay.patch.toList = true
  · rw [if_pos hmarker, hmarker]
    constructor
    · intro h
      cases h
    · intro h
      cases h.1
  · rw [if_neg hmarker, checkLines_ok_iff]
    exact ⟨fun h => ⟨Bool.eq_false_iff.mpr hmarker, h⟩, fun h => h.2⟩

/-! ## Which lines of a patch are taken for names -/

theorem headerOf_cons {c : Char} {rest : List Char} (hminus : c ≠ '-') (hplus : c ≠ '+') :
    headerOf (c :: rest) = none := by
  simp [headerOf, stripPrefix, List.isPrefixOf, Ne.symm hminus, Ne.symm hplus]

theorem headerOf_minus (rest : List Char) :
    headerOf ('-' :: rest) = stripPrefix "-- ".toList rest := by
  simp [headerOf, stripPrefix, List.isPrefixOf]

theorem headerOf_plus (rest : List Char) :
    headerOf ('+' :: rest) = stripPrefix "++ ".toList rest := by
  simp [headerOf, stripPrefix, List.isPrefixOf]

theorem stripPrefix_eq_some {lead text rest : List Char} :
    stripPrefix lead text = some rest ↔ text = lead ++ rest := by
  unfold stripPrefix
  by_cases h : lead.isPrefixOf text = true
  · obtain ⟨tail, rfl⟩ := isPrefixOf_iff_prefix.mp h
    rw [if_pos h, drop_left, Option.some.injEq, append_cancel_left_eq]
  · rw [if_neg h]
    constructor
    · intro hnone
      cases hnone
    · rintro rfl
      exact absurd (List.isPrefixOf_iff_prefix.mpr (prefix_append lead rest)) h

/-- A carriage return at the end changes nothing before the rest of a line. -/
theorem stripPrefix_stripCr {lead text : List Char} (hlead : lead.getLast? ≠ some '\r') :
    stripPrefix lead (stripCr text) = (stripPrefix lead text).map stripCr := by
  cases htext : stripPrefix lead text with
  | some rest =>
    rw [stripPrefix_eq_some.mp htext, stripCr_append hlead, stripPrefix_eq_some.mpr rfl]
    rfl
  | none =>
    cases hstripped : stripPrefix lead (stripCr text) with
    | none => rfl
    | some rest =>
      -- the text would begin with the lead too
      have hstart : stripCr text <+: text := by
        unfold stripCr
        split
        · exact dropLast_prefix text
        · exact prefix_rfl
      obtain ⟨tail, htail⟩ := hstart
      rw [stripPrefix_eq_some.mp hstripped, append_assoc] at htail
      rw [stripPrefix_eq_some.mpr htail.symm] at htext
      cases htext

/-- What a hunk's line is taken to name. -/
def lookalike : HunkLine → Option (List Char)
  | .removed line => stripPrefix "-- ".toList line.text
  | .added line => stripPrefix "++ ".toList line.text
  | .context _ | .noNewline => none

def takenNames (file : FilePatch) : List (List Char) :=
  (file.nameTexts.toList.flatMap fun names => [names.1, names.2]) ++
    file.hunks.flatMap fun hunk => hunk.lines.filterMap lookalike

theorem headerOf_stripCr_cons {c : Char} {rest : List Char} (hminus : c ≠ '-')
    (hplus : c ≠ '+') (hcr : c ≠ '\r') : headerOf (stripCr (c :: rest)) = none := by
  rw [stripCr_cons hcr, headerOf_cons hminus hplus]

theorem headerOf_hunkLine (line : HunkLine) :
    headerOf (stripCr line.text) = (lookalike line).map stripCr := by
  cases line with
  | context line => exact headerOf_stripCr_cons (by decide) (by decide) (by decide)
  | removed line =>
    rw [HunkLine.text, stripCr_cons (by decide), headerOf_minus, stripPrefix_stripCr (by decide)]
    rfl
  | added line =>
    rw [HunkLine.text, stripCr_cons (by decide), headerOf_plus, stripPrefix_stripCr (by decide)]
    rfl
  | noNewline => exact headerOf_stripCr_cons (by decide) (by decide) (by decide)

/-- The header lines of git's own are taken for no name. -/
theorem headerOf_gitLines {file : FilePatch} {line : List Char} (h : line ∈ file.gitLines) :
    headerOf (stripCr line) = none := by
  rw [eq_gitHeader h]
  exact headerOf_stripCr_cons (by decide) (by decide) (by decide)

theorem headerOf_detail (detail : Detail) : headerOf (stripCr detail.text) = none := by
  cases detail <;> exact headerOf_stripCr_cons (by decide) (by decide) (by decide)

theorem headerOf_changeExtended {change : Change} {line : List Char}
    (h : line ∈ change.extended) : headerOf (stripCr line) = none := by
  cases change with
  | modify name => cases h
  | create name mode | delete name mode =>
    obtain ⟨mode, -, rfl⟩ := mem_map.mp h
    exact headerOf_stripCr_cons (by decide) (by decide) (by decide)
  | rename source target | copy source target =>
    rcases mem_pair.mp h with rfl | rfl <;>
      exact headerOf_stripCr_cons (by decide) (by decide) (by decide)

theorem headerOf_hunkHeader (hunk : Hunk) : headerOf (stripCr hunk.header) = none :=
  headerOf_stripCr_cons (by decide) (by decide) (by decide)

theorem headerOf_minusLine (text : List Char) :
    headerOf (stripCr ("--- ".toList ++ text)) = some (stripCr text) := by
  rw [stripCr_append (by decide), headerOf, stripPrefix_eq_some.mpr rfl]
  rfl

theorem headerOf_plusLine (text : List Char) :
    headerOf (stripCr ("+++ ".toList ++ text)) = some (stripCr text) := by
  have hcons : "+++ ".toList ++ text = '+' :: ("++ ".toList ++ text) := rfl
  rw [hcons, stripCr_cons (by decide), headerOf_plus, stripCr_append (by decide),
    stripPrefix_eq_some.mpr rfl]

theorem filterMap_nameLines (file : FilePatch) :
    (file.nameLines.filterMap fun line => headerOf (stripCr line)) =
      (file.nameTexts.toList.flatMap fun names => [names.1, names.2]).map stripCr := by
  unfold FilePatch.nameLines
  cases file.nameTexts with
  | none => rfl
  | some names =>
    simp only [filterMap_cons, headerOf_minusLine, headerOf_plusLine, filterMap_nil]
    rfl

theorem filterMap_hunkTexts (hunk : Hunk) :
    (hunk.texts.filterMap fun line => headerOf (stripCr line)) =
      (hunk.lines.filterMap lookalike).map stripCr := by
  have hline : ((fun line => headerOf (stripCr line)) ∘ HunkLine.text) =
      fun line => (lookalike line).map stripCr :=
    funext headerOf_hunkLine
  rw [Hunk.texts, filterMap_cons, headerOf_hunkHeader, filterMap_map,
    map_filterMap, hline]

/-- What is read as a name in a file patch is what its `---` and `+++` lines say, and the
lines of its hunks that look like those. -/
theorem filterMap_fileTexts (file : FilePatch) :
    (file.texts.filterMap fun line => headerOf (stripCr line)) =
      (takenNames file).map stripCr := by
  have hgit : (file.gitLines.filterMap fun line => headerOf (stripCr line)) = [] :=
    filterMap_eq_nil_iff.mpr fun _ => headerOf_gitLines
  have hextended : (file.extended.filterMap fun line => headerOf (stripCr line)) = [] := by
    rw [filterMap_eq_nil_iff]
    intro line hline
    rcases mem_append.mp (file.ordered.mem_iff.mp hline) with hline | hline
    · exact headerOf_changeExtended hline
    · obtain ⟨detail, -, rfl⟩ := mem_map.mp hline
      exact headerOf_detail detail
  have hhunks : ((file.hunks.flatMap Hunk.texts).filterMap fun line => headerOf (stripCr line)) =
      (file.hunks.flatMap fun hunk => hunk.lines.filterMap lookalike).map stripCr := by
    rw [filterMap_flatMap, map_flatMap]
    congr 1
    funext hunk
    exact filterMap_hunkTexts hunk
  rw [FilePatch.texts, filterMap_append, filterMap_append, filterMap_append, hgit, hextended,
    filterMap_nameLines, hhunks, takenNames, map_append]
  rfl

theorem names_of_lines {patch : Patch} {path : List Char} :
    (∀ line ∈ lines patch.text, ∀ raw, headerOf line = some raw → Named path raw) ↔
      ∀ file ∈ patch.files, ∀ raw ∈ takenNames file, Named path (stripCr raw) := by
  rw [lines_text]
  constructor
  · intro h file hfile raw hraw
    have hread := mem_map_of_mem (f := stripCr) hraw
    rw [← filterMap_fileTexts] at hread
    obtain ⟨line, hline, hheader⟩ := mem_filterMap.mp hread
    exact h (stripCr line)
      (mem_map_of_mem (mem_flatMap.mpr ⟨file, hfile, hline⟩)) _ hheader
  · intro h line hline raw hheader
    obtain ⟨text, htext, rfl⟩ := mem_map.mp hline
    obtain ⟨file, hfile, htext⟩ := mem_flatMap.mp htext
    have hread : raw ∈ (takenNames file).map stripCr := by
      rw [← filterMap_fileTexts]
      exact mem_filterMap.mpr ⟨text, htext, hheader⟩
    obtain ⟨taken, htaken, rfl⟩ := mem_map.mp hread
    exact h file hfile taken htaken

/-! ## What the names show -/

/-- White space and what follows it change nothing about the first word before it. -/
theorem firstWord_append {text rest : List Char} (htext : ∃ c ∈ text, isWhiteSpace c = false)
    (hrest : ∀ c, rest.head? = some c → isWhiteSpace c = true) :
    firstWord (text ++ rest) = firstWord text := by
  have hword : text.dropWhile isWhiteSpace ≠ [] := by
    obtain ⟨c, hc, hblack⟩ := htext
    intro hnil
    rw [dropWhile_eq_nil_iff.mp hnil c hc] at hblack
    cases hblack
  have hnone : rest.takeWhile (fun c => !isWhiteSpace c) = [] := by
    cases rest with
    | nil => rfl
    | cons c rest => rw [takeWhile_cons_of_neg (by simp [hrest c rfl])]
  have hdrop : (text ++ rest).dropWhile isWhiteSpace = text.dropWhile isWhiteSpace ++ rest := by
    rw [dropWhile_append, if_neg (by simpa using hword)]
  rw [firstWord, firstWord, hdrop, if_neg hword, if_neg (append_ne_nil_of_left_ne_nil hword rest),
    takeWhile_append, hnone, append_nil]
  split
  · next hall => exact ( takeWhile_prefix _).eq_of_length hall |>.symm
  · rfl

/-- Neither a stamp nor a carriage return changes what a name line shows. -/
theorem named_stamped {path text : List Char} (htext : ∃ c ∈ text, isWhiteSpace c = false)
    (stamp : Option Line) : Named path (stripCr (text ++ stampText stamp)) ↔ Named path text := by
  have hword : firstWord (stripCr (text ++ stampText stamp)) = firstWord text := by
    cases stamp with
    | some stamp =>
      have hsplit : text ++ stampText (some stamp) = text ++ ['\t'] ++ stamp.text := by
        simp [stampText]
      rw [hsplit, stripCr_append (by simp), append_assoc]
      refine firstWord_append htext fun c hc => ?_
      cases hc
      decide
    | none =>
      rw [stampText, append_nil, stripCr]
      split
      · next hcr =>
        have hsplit := dropLast_append_getLast? _ hcr
        have hfirst : ∃ c ∈ text.dropLast, isWhiteSpace c = false := by
          obtain ⟨c, hc, hblack⟩ := htext
          rw [← hsplit, mem_append, mem_singleton] at hc
          rcases hc with hc | rfl
          · exact ⟨c, hc, hblack⟩
          · cases hblack
        conv_rhs => rw [← hsplit]
        refine (firstWord_append hfirst fun c hc => ?_).symm
        cases hc
        decide
      · rfl
  rw [Named, Named, hword]

theorem exists_black_writtenOn (name : PathName) (side : Side) :
    ∃ c ∈ name.writtenOn side, isWhiteSpace c = false := by
  unfold PathName.writtenOn PathName.written
  split
  · exact ⟨'"', by simp, by decide⟩
  · exact ⟨'/', by simp, by decide⟩

theorem not_named_devNull {path : List Char} (stamp : Option Line) :
    ¬Named path (stripCr (devNull ++ stampText stamp)) := by
  rw [named_stamped ⟨'/', by decide, by decide⟩]
  exact fun h => h.1 (by decide)

/-- The name lines show a path where both ends are written so that they show it. -/
theorem named_ends {path : List Char} {change : Change} {old new : Side}
    {stamps : Option Line × Option Line} :
    Named path (stripCr (change.oldText old ++ stampText stamps.1)) ∧
        Named path (stripCr (change.newText new ++ stampText stamps.2)) ↔
      change.KeepsFile ∧ Named path (change.source.writtenOn old) ∧
        Named path (change.target.writtenOn new) := by
  cases change with
  | create name mode | delete name mode =>
    simp only [Change.oldText, Change.newText, Change.KeepsFile, not_named_devNull, false_and,
      and_false]
  | modify name | rename source target | copy source target =>
    simp only [Change.oldText, Change.newText, Change.source, Change.target, Change.KeepsFile,
      named_stamped (exists_black_writtenOn _ _), true_and]

/-- Nothing in a file patch is taken for another file: it has no `---` and `+++` lines, or it
keeps its file and is written in them so that they show the path; and so do the lines of its
hunks that look like those. -/
structure Inconspicuous (path : List Char) (file : FilePatch) : Prop where
  named : file.stamps.isSome → file.change.KeepsFile ∧
    Named path (file.change.source.writtenOn file.oldSide) ∧
    Named path (file.change.target.writtenOn file.newSide)
  hunks : ∀ hunk ∈ file.hunks, ∀ line ∈ hunk.lines, ∀ raw, lookalike line = some raw →
    Named path (stripCr raw)

theorem inconspicuous_iff {path : List Char} {file : FilePatch} :
    (∀ raw ∈ takenNames file, Named path (stripCr raw)) ↔ Inconspicuous path file := by
  have hlines : (∀ raw ∈ file.hunks.flatMap (fun hunk => hunk.lines.filterMap lookalike),
      Named path (stripCr raw)) ↔
      ∀ hunk ∈ file.hunks, ∀ line ∈ hunk.lines, ∀ raw, lookalike line = some raw →
        Named path (stripCr raw) := by
    simp only [mem_flatMap, mem_filterMap]
    grind
  have hnames : (∀ raw ∈ file.nameTexts.toList.flatMap (fun names => [names.1, names.2]),
      Named path (stripCr raw)) ↔
      (file.stamps.isSome → file.change.KeepsFile ∧
        Named path (file.change.source.writtenOn file.oldSide) ∧
        Named path (file.change.target.writtenOn file.newSide)) := by
    unfold FilePatch.nameTexts
    cases file.stamps with
    | none => simp
    | some stamps =>
      have hpair (old new : List Char) : (∀ raw ∈ (some (old, new)).toList.flatMap
          fun names => [names.1, names.2], Named path (stripCr raw)) ↔
          Named path (stripCr old) ∧ Named path (stripCr new) := by simp
      rw [Option.map_some, hpair, Option.isSome_some, forall_prop_of_true rfl]
      exact named_ends
  rw [takenNames, forall_mem_append, hlines, hnames]
  exact ⟨fun h => ⟨h.1, h.2⟩, fun h => ⟨h.named, h.hunks⟩⟩

/-- A patch passes if nothing in it is taken for a binary or for another file. -/
theorem validatePatchPaths_ok_iff (patch : Patch) (file baseHash : String) :
    validatePatchPaths { file, baseHash, patch := String.ofList patch.text } = .ok () ↔
      hasBinaryMarker patch.text = false ∧ ∀ f ∈ patch.files, Inconspicuous file.toList f := by
  rw [validatePatchPaths_ok_iff_lines, String.toList_ofList, names_of_lines]
  simp only [inconspicuous_iff]

/-- A name without white space under `a/` or `b/` shows its path. -/
theorem named_of_ordinary {name : PathName} {side : Side} (hplain : name.quoted = false)
    (hword : ∀ c ∈ name.path, isWhiteSpace c = false)
    (hside : side.text = ['a'] ∨ side.text = ['b']) : Named name.path (name.writtenOn side) := by
  have hwritten : name.writtenOn side = side.text ++ '/' :: name.path := by
    simp [PathName.writtenOn, PathName.written, hplain]
  have hblack : ∀ c ∈ name.writtenOn side, isWhiteSpace c = false := by
    rw [hwritten]
    rintro c hc
    rcases mem_append.mp hc with hc | hc
    · rcases hside with hside | hside <;>
      · rw [hside, mem_singleton] at hc
        rw [hc]
        decide
    · rcases mem_cons.mp hc with rfl | hc
      · decide
      · exact hword c hc
  have hfirst : firstWord (name.writtenOn side) = name.writtenOn side := by
    have hdrop : (name.writtenOn side).dropWhile isWhiteSpace = name.writtenOn side :=
      dropWhile_eq_self_iff.mpr fun _ => by simp [hblack _ (getElem_mem _)]
    have htake : (name.writtenOn side).takeWhile (fun c => !isWhiteSpace c) =
        name.writtenOn side := takeWhile_eq_self_iff.mpr fun c hc => by simp [hblack c hc]
    rw [firstWord, hdrop, htake, ite_self]
  rw [Named, hfirst, hwritten]
  rcases hside with hside | hside <;> rw [hside] <;> refine ⟨?_, rfl⟩
  · exact fun h => absurd (cons.inj h).1 (by decide)
  · exact fun h => absurd (cons.inj h).1 (by decide)

/-- An ordinary modification passes. -/
theorem validatePatchPaths_of_ordinary {patch : Patch} {file baseHash : String}
    (honly : patch.OnlyModifies file.toList) (hmarker : hasBinaryMarker patch.text = false)
    (hplain : ∀ f ∈ patch.files, f.change.source.quoted = false)
    (hword : ∀ c ∈ file.toList, isWhiteSpace c = false)
    (hsides : ∀ f ∈ patch.files, ∀ side ∈ [f.oldSide, f.newSide],
      side.text = ['a'] ∨ side.text = ['b'])
    (hlines : ∀ f ∈ patch.files, ∀ hunk ∈ f.hunks, ∀ line ∈ hunk.lines, lookalike line = none) :
    validatePatchPaths { file, baseHash, patch := String.ofList patch.text } = .ok () := by
  refine (validatePatchPaths_ok_iff patch file baseHash).mpr ⟨hmarker, fun f hf => ⟨fun _ => ?_, ?_⟩⟩
  · obtain ⟨name, hchange, hpath⟩ := honly.2 f hf
    have hquoted := hplain f hf
    rw [← hpath] at hword ⊢
    rw [hchange] at hquoted ⊢
    exact ⟨trivial, named_of_ordinary hquoted hword (hsides f hf _ mem_cons_self),
      named_of_ordinary hquoted hword (hsides f hf _ (by simp))⟩
  · intro hunk hhunk line hline raw hraw
    rw [hlines f hf hunk hhunk line hline] at hraw
    cases hraw

/-! ## A rename and a comment -/

def sideA : Side := { text := ['a'], plain := by decide, component := by decide }
def sideB : Side := { text := ['b'], plain := by decide, component := by decide }

def appName : PathName :=
  { path := "src/app.txt".toList, quoted := false, nonempty := by decide, plain := by decide }

def otherName : PathName :=
  { path := "src/other.txt".toList, quoted := false, nonempty := by decide, plain := by decide }

/-- A rename without `---` and `+++` lines. -/
def renamePatch : Patch :=
  { files := [
      { oldSide := sideA, newSide := sideB, change := .rename appName otherName, details := []
        extended := (Change.rename appName otherName).extended
        ordered := List.Perm.refl _, stamps := none, hunks := [], headed := true
        moded := fun _ => trivial, unheaded := fun h => Bool.noConfusion h }] }

/-- A line `-- note` is taken out. -/
def commentPatch : Patch :=
  { files := [
      { oldSide := sideA, newSide := sideB, change := .modify appName, details := []
        extended := [], ordered := List.Perm.refl _, stamps := some (none, none)
        hunks := [
          { oldStart := 1, newStart := 0, heading := { text := [], whole := by decide }
            lines := [.removed { text := "-- note".toList, whole := by decide }]
            bareOld := true, bareNew := false, bareOld_one := fun _ => rfl, bareNew_one := fun h => Bool.noConfusion h }]
        headed := true, moded := fun _ => trivial, unheaded := fun h => Bool.noConfusion h }] }

example : String.ofList commentPatch.text = "diff --git a/src/app.txt b/src/app.txt\n" ++
    "--- a/src/app.txt\n+++ b/src/app.txt\n@@ -1 +0,0 @@\n--- note\n" := by decide +kernel

end Localview.PatchPaths
