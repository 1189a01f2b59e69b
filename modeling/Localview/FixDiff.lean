import Localview.JournalFile
import Localview.LineText

/-! # The diff of a trusted fix

The file that a fix writes and the diff that is reviewed are built apart from one another out
of the provider's replacement.  Strings are their UTF-8 bytes.
-/
namespace Localview
open List
namespace FixDiff
open EarlyReturn LineText

def maxFixFileBytes : Nat := 2 * 1024 * 1024
def maxFixReplacementBytes : Nat := 32 * 1024
def maxFixDiffBytes : Nat := 64 * 1024
def maxFixOriginalLines : Nat := 120
def maxFixReplacementLines : Nat := 240

/-- The lines the provider was shown. -/
structure FixSourceExcerpt where
  (startLine endLine : Nat)

/-- Lines to be replaced. -/
structure FixProviderEdit where
  (startLine endLine : Nat)
  replacement : Bytes

/-- `std::str::from_utf8` -/
def validUtf8 (bytes : Bytes) : Bool := (ByteArray.mk bytes.toArray).validateUTF8

/-! ## Lines -/

def startsLoop (length : Nat) : Nat → Bytes → List Nat
  | _, [] => []
  | index, byte :: rest =>
      if byte = lf ∧ index + 1 < length then (index + 1) :: startsLoop length (index + 1) rest
      else startsLoop length (index + 1) rest

def logicalLineStarts (text : Bytes) : List Nat :=
  if text = [] then [] else 0 :: startsLoop text.length 0 text

def logicalLineSlice (text : Bytes) (starts : List Nat) (line : Nat) : Except String Bytes :=
  if line = 0 ∨ starts.length < line then .error "trusted Fix source line is unavailable"
  else
    let start := starts.getD (line - 1) 0
    let stop := if line < starts.length then starts.getD line 0 else text.length
    .ok ((text.take stop).drop start)

def displayLine (line : Bytes) : Bytes := stripEnd line

def hasCrlf : Bytes → Bool
  | 13 :: 10 :: _ => true
  | _ :: rest => hasCrlf rest
  | [] => false

/-- A newline that no carriage return stands before. -/
def hasLfOnly (previous : Option UInt8) : Bytes → Bool
  | [] => false
  | byte :: rest => decide (byte = lf ∧ previous ≠ some cr) || hasLfOnly (some byte) rest

def detectLineEnding (text : Bytes) : Except String Bytes :=
  if (hasCrlf text && hasLfOnly none text) = true then
    .error "trusted Fix mixed line endings are unsupported"
  else .ok (if hasCrlf text then [cr, lf] else [lf])

/-- `.replace("\r\n", "\n")` -/
def replaceCrlf : Bytes → Bytes
  | 13 :: 10 :: rest => 10 :: replaceCrlf rest
  | byte :: rest => byte :: replaceCrlf rest
  | [] => []

def normalizeReplacement (replacement lineEnding : Bytes) : Except String Bytes := do
  rejectIf (0 ∈ replacement) "trusted Fix replacement is invalid"
  rejectIf (maxFixReplacementBytes < replacement.length)
    "trusted Fix replacement exceeds the safety bound"
  let normalized := replaceCrlf replacement
  rejectIf (cr ∈ normalized) "trusted Fix replacement line ending is invalid"
  rejectIf (maxFixReplacementLines < max (pieces normalized).length 1)
    "trusted Fix replacement line count exceeds the safety bound"
  return if lineEnding = [lf] then normalized else widen lineEnding normalized

def validateProviderEdit (edit : FixProviderEdit) (excerpt : FixSourceExcerpt) :
    Except String Unit := do
  rejectIf (edit.startLine = 0 ∨ edit.endLine = 0 ∨ edit.endLine < edit.startLine)
    "trusted Fix provider edit range is invalid"
  rejectIf (edit.startLine < excerpt.startLine ∨ excerpt.endLine < edit.endLine)
    "trusted Fix provider edit escapes the shared source excerpt"
  rejectIf (maxFixOriginalLines < edit.endLine - edit.startLine + 1)
    "trusted Fix provider edit range exceeds the safety bound"

/-- The replacement is ended where the lines it stands for were. -/
def endReplacement (originalSlice replacement lineEnding : Bytes) : Bytes :=
  if originalSlice.getLast? = some lf ∧ replacement ≠ [] ∧ replacement.getLast? ≠ some lf then
    replacement ++ lineEnding
  else replacement

def buildFixPostimage (preimage : Bytes) (excerpt : FixSourceExcerpt) (edit : FixProviderEdit) :
    Except String Bytes := do
  validateProviderEdit edit excerpt
  rejectIf (validUtf8 preimage = false) "trusted Fix source must be valid UTF-8"
  let starts := logicalLineStarts preimage
  rejectIf (edit.startLine = 0 ∨ starts.length < edit.endLine)
    "trusted Fix provider edit range is unavailable"
  let lineEnding ← detectLineEnding preimage
  let replacement ← normalizeReplacement edit.replacement lineEnding
  let startByte := starts.getD (edit.startLine - 1) 0
  let endByte :=
    if edit.endLine < starts.length then starts.getD edit.endLine 0 else preimage.length
  let originalSlice := (preimage.take endByte).drop startByte
  let postimage := preimage.take startByte ++
    endReplacement originalSlice replacement lineEnding ++ preimage.drop endByte
  rejectIf (maxFixFileBytes < postimage.length)
    "trusted Fix result exceeds the editable file bound"
  rejectIf (validUtf8 postimage = false) "trusted Fix result must be valid UTF-8"
  return postimage

def lineTextsForRange (text : Bytes) (startLine endLine : Nat) : Except String (List Bytes) :=
  (List.range' startLine (endLine + 1 - startLine)).mapM fun line =>
    (logicalLineSlice text (logicalLineStarts text) line).map displayLine

def ascii (text : String) : Bytes := text.toList.map fun c => UInt8.ofNat c.toNat

def decimal (n : Nat) : Bytes := (Nat.toDigits 10 n).map fun c => UInt8.ofNat c.toNat

/-- Lines, each with a sign before it. -/
def signed (sign : UInt8) (lines : List Bytes) : Bytes :=
  lines.flatMap fun line => sign :: (line ++ [lf])

def minus : UInt8 := 45

def plus : UInt8 := 43

/-- The text of a diff of one hunk, its counts and its lines. -/
def diffText (displayFile : Bytes) (startLine oldCount newCount : Nat)
    (removed added : List Bytes) : Bytes :=
  ascii "--- a/" ++ displayFile ++ ascii "\n+++ b/" ++ displayFile ++ ascii "\n@@ -" ++
    decimal startLine ++ ascii "," ++ decimal oldCount ++ ascii " +" ++ decimal startLine ++
    ascii "," ++ decimal newCount ++ ascii " @@\n" ++ (signed minus removed ++ signed plus added)

/-- What the replacement adds. -/
def afterLines (replacement : Bytes) : List Bytes :=
  if replaceCrlf replacement = [] then [] else LineText.split (replaceCrlf replacement)

/-- The postimage is not looked at. -/
def buildFixDiff (displayFile preimage _postimage : Bytes) (edit : FixProviderEdit) :
    Except String Bytes := do
  rejectIf (validUtf8 preimage = false) "trusted Fix source must be valid UTF-8"
  let beforeLines ← lineTextsForRange preimage edit.startLine edit.endLine
  let afterLines := afterLines edit.replacement
  let diff := diffText displayFile edit.startLine beforeLines.length afterLines.length
    beforeLines afterLines
  rejectIf (maxFixDiffBytes < diff.length) "trusted Fix review diff exceeds the safety bound"
  return diff

/-- The lines of a file, without their ends. -/
def logicalLines (text : Bytes) : List Bytes := (pieces text).map displayLine

def replaceAt (startLine : Nat) (removed added lines : List Bytes) : Option (List Bytes) :=
  if (lines.drop (startLine - 1)).take removed.length = removed then
    some (lines.take (startLine - 1) ++ (added ++ lines.drop (startLine - 1 + removed.length)))
  else none

/-- The lines of the diff, as many as its header counts, make the one file the other. -/
def Applies (displayFile preimage postimage diff : Bytes) (edit : FixProviderEdit) : Prop :=
  ∃ removed added,
    diff = diffText displayFile edit.startLine removed.length added.length removed added ∧
    (∀ line ∈ removed ++ added, lf ∉ line) ∧
    replaceAt edit.startLine removed added (logicalLines preimage) = some (logicalLines postimage)

/-- The bytes of the lines before the edit and after it are kept. -/
def KeepsOutside (preimage postimage : Bytes) (edit : FixProviderEdit) : Prop :=
  ∃ replacement, postimage = ((pieces preimage).take (edit.startLine - 1)).flatten ++
    (replacement ++ ((pieces preimage).drop edit.endLine).flatten)

/-! ## Where lines start -/

section
variable {text : Bytes} {line : Nat}

/-- Where pieces start that stand from an index on. -/
def offsets : Nat → List Bytes → List Nat
  | _, [] => []
  | index, piece :: more => index :: offsets (index + piece.length) more

theorem startsLoop_eq {length index : Nat} (hne : text ≠ [])
    (hlength : index + text.length = length) :
    index :: startsLoop length index text = offsets index (pieces text) := by
  induction text generalizing index with
  | nil => exact absurd rfl hne
  | cons byte rest ih =>
    rw [length_cons] at hlength
    by_cases hrest : rest = []
    · subst hrest
      rw [length_nil] at hlength
      rw [startsLoop, if_neg (fun hlt => absurd hlt.2 (by omega)), startsLoop]
      by_cases hbyte : byte = lf
      · rw [hbyte, pieces_lf]
        rfl
      · rw [pieces_single hbyte]
        rfl
    · have hpos := length_pos_iff.mpr hrest
      have hih := ih hrest (by omega : index + 1 + rest.length = length)
      by_cases hbyte : byte = lf
      · rw [startsLoop, if_pos ⟨hbyte, by omega⟩, hih, hbyte, pieces_lf]
        rfl
      · obtain ⟨piece, more, hpieces, -⟩ := exists_pieces_cons hrest
        rw [hpieces, offsets] at hih
        rw [startsLoop, if_neg (fun hlt => hbyte hlt.1), (List.cons.inj hih).2,
          pieces_cons hbyte hpieces, offsets, length_cons]
        congr 2
        omega

theorem logicalLineStarts_eq (text : Bytes) : logicalLineStarts text = offsets 0 (pieces text) := by
  by_cases hne : text = []
  · subst hne
    rfl
  · rw [logicalLineStarts, if_neg hne]
    exact startsLoop_eq hne (Nat.zero_add _)

theorem length_offsets (index : Nat) (lines : List Bytes) :
    (offsets index lines).length = lines.length := by
  induction lines generalizing index with
  | nil => rfl
  | cons piece more ih => rw [offsets, length_cons, length_cons, ih]

theorem getD_offsets (index : Nat) {lines : List Bytes} {i : Nat} (hlt : i < lines.length) :
    (offsets index lines).getD i 0 = index + (lines.take i).flatten.length := by
  induction lines generalizing index i with
  | nil => exact absurd hlt (Nat.not_lt_zero _)
  | cons piece more ih =>
    cases i with
    | zero => rfl
    | succ i =>
      rw [length_cons] at hlt
      rw [offsets, getD_cons_succ, ih _ (by omega), take_succ_cons, flatten_cons,
        length_append]
      omega

theorem length_starts (text : Bytes) : (logicalLineStarts text).length = (pieces text).length := by
  rw [logicalLineStarts_eq, length_offsets]

theorem getD_starts {i : Nat} (hlt : i < (pieces text).length) :
    (logicalLineStarts text).getD i 0 = ((pieces text).take i).flatten.length := by
  rw [logicalLineStarts_eq, getD_offsets 0 hlt, Nat.zero_add]

/-- Where the lines up to one end. -/
theorem stop_eq (hle : line ≤ (pieces text).length) :
    (if line < (logicalLineStarts text).length then (logicalLineStarts text).getD line 0
      else text.length) = ((pieces text).take line).flatten.length := by
  rw [length_starts]
  by_cases hlt : line < (pieces text).length
  · rw [if_pos hlt, getD_starts hlt]
  · rw [if_neg hlt, take_of_length_le (by omega), flatten_pieces]

/-- A text cut where one of its lines starts. -/
theorem take_drop_pieces (line : Nat) :
    text.take ((pieces text).take line).flatten.length = ((pieces text).take line).flatten ∧
      text.drop ((pieces text).take line).flatten.length =
        ((pieces text).drop line).flatten := by
  have hsplit : ((pieces text).take line).flatten ++ ((pieces text).drop line).flatten = text := by
    rw [← flatten_append, take_append_drop, flatten_pieces]
  generalize ((pieces text).take line).flatten = first at hsplit ⊢
  generalize ((pieces text).drop line).flatten = rest at hsplit ⊢
  rw [← hsplit]
  exact ⟨take_left, drop_left⟩

theorem pieces_take (line : Nat) :
    pieces ((pieces text).take line).flatten = (pieces text).take line :=
  (pieces_flatten (take_append_drop line _).symm).1

/-- The lines between two places. -/
theorem slice_eq {first last : Nat} (hle : first ≤ last) :
    ((pieces text).take last).flatten.drop ((pieces text).take first).flatten.length =
      (((pieces text).take last).drop first).flatten := by
  have hdrop := (@take_drop_pieces ((pieces text).take last).flatten first).2
  rw [pieces_take, take_take, Nat.min_eq_left hle] at hdrop
  exact hdrop

/-- Lines that others follow end with a newline. -/
theorem getLast?_slice {first last : Nat} (hlt : first < last)
    (hlast : last < (pieces text).length) :
    (((pieces text).take last).drop first).flatten.getLast? = some lf := by
  have hsplit := (take_append_drop first ((pieces text).take last)).symm
  have hmid := (pieces_flatten ((@pieces_take text last).trans hsplit)).2
  have hdrop : (pieces text).drop last ≠ [] := by
    rw [ne_eq, drop_eq_nil_iff]
    omega
  have hclosed := closed_of_pieces (take_append_drop last (pieces text)).symm hdrop
  rw [hsplit, flatten_append] at hclosed
  generalize hslice : (((pieces text).take last).drop first).flatten = slice at hmid hclosed ⊢
  have hne : slice ≠ [] := by
    rintro rfl
    have hlength := congrArg List.length hmid
    rw [length_drop, length_take, pieces, length_nil] at hlength
    omega
  rcases hclosed with hnil | hlast
  · exact absurd (append_eq_nil_iff.mp hnil).2 hne
  · rwa [getLast?_append_of_ne_nil _ hne] at hlast

theorem pieces_before {first : Bytes} (hfirst : line < (pieces text).length → Closed first) :
    pieces (first ++ ((pieces text).drop line).flatten) =
      pieces first ++ (pieces text).drop line := by
  by_cases hlt : line < (pieces text).length
  · rw [pieces_append (hfirst hlt), (pieces_flatten (take_append_drop line _).symm).2]
  · rw [drop_of_length_le (by omega), flatten_nil, append_nil, append_nil]

theorem logicalLineSlice_eq {piece : Bytes} (hpiece : (pieces text)[line]? = some piece) :
    logicalLineSlice text (logicalLineStarts text) (line + 1) = .ok piece := by
  obtain ⟨hlt, heq⟩ := List.getElem?_eq_some_iff.mp hpiece
  have hguard : ¬ (line + 1 = 0 ∨ (logicalLineStarts text).length < line + 1) := by
    rw [length_starts]
    omega
  rw [logicalLineSlice, if_neg hguard]
  simp only
  rw [stop_eq (by omega), Nat.add_sub_cancel, getD_starts hlt, (take_drop_pieces _).1,
    take_add_one, hpiece, flatten_append, drop_left]
  simp

theorem lineTextsForRange_eq {start count : Nat} (hle : start + count ≤ (pieces text).length) :
    lineTextsForRange text (start + 1) (start + count) =
      .ok (((logicalLines text).drop start).take count) := by
  rw [lineTextsForRange, show start + count + 1 - (start + 1) = count by omega]
  induction count generalizing start with
  | zero => rfl
  | succ count ih =>
    have hlt : start < (pieces text).length := by omega
    have hih := @ih (start + 1) (by omega)
    have hdrop : (logicalLines text).drop start =
        displayLine (pieces text)[start] :: (logicalLines text).drop (start + 1) := by
      have hlines : start < (logicalLines text).length := by
        rw [logicalLines, length_map]
        exact hlt
      rw [drop_eq_getElem_cons hlines]
      simp only [logicalLines, getElem_map]
    rw [List.range'_succ, mapM_cons, hih,
      logicalLineSlice_eq (getElem?_eq_getElem hlt), hdrop, take_succ_cons]
    rfl

end

/-! ## What is written -/

section
variable {displayFile preimage postimage diff : Bytes} {excerpt : FixSourceExcerpt}
  {edit : FixProviderEdit} {ending replacement normalized : Bytes}

theorem lineEnding_of_detect (h : detectLineEnding preimage = .ok ending) : LineEnding ending := by
  unfold detectLineEnding at h
  split at h
  · cases h
  · cases h
    split
    · exact .carriageReturn
    · exact .newline

theorem getLast?_replaceCrlf (text : Bytes) : (replaceCrlf text).getLast? = text.getLast? := by
  fun_induction replaceCrlf text with
  | case1 rest ih => rw [getLast?_cons, getLast?_cons, getLast?_cons, ih]; rfl
  | case2 byte rest _ ih => rw [getLast?_cons, getLast?_cons, ih]
  | case3 => rfl

theorem normalizeReplacement_ok (h : normalizeReplacement replacement ending = .ok normalized) :
    cr ∉ replaceCrlf replacement ∧ normalized = widen ending (replaceCrlf replacement) := by
  simp only [normalizeReplacement, rejectIf_bind_eq_ok] at h
  obtain ⟨-, -, hcr, -, hnormalized⟩ := h
  refine ⟨hcr, (Except.ok.inj hnormalized).symm.trans ?_⟩
  split
  · rename_i heq
    rw [heq, widen_lf]
  · rfl

/-- The lines that the ended replacement is: those that the diff adds, but for the one that a
newline at the end opens there. -/
theorem lines_endReplacement {originalSlice : Bytes} (hending : LineEnding ending)
    (hcr : cr ∉ normalized) :
    (pieces (endReplacement originalSlice (widen ending normalized) ending)).map displayLine =
      if normalized = [] then [] else if normalized.getLast? = some lf
        then (LineText.split normalized).dropLast else LineText.split normalized := by
  have hempty : widen ending normalized = [] ↔ normalized = [] := by
    rw [← getLast?_eq_none_iff, ← getLast?_eq_none_iff, getLast?_widen hending]
  unfold endReplacement
  simp only [ne_eq, hempty, getLast?_widen hending]
  by_cases hnil : normalized = []
  · rw [if_pos hnil, if_neg (fun hended => hended.2.1 hnil), hempty.mpr hnil]
    rfl
  rw [if_neg hnil]
  by_cases hlast : normalized.getLast? = some lf
  · rw [if_pos hlast, if_neg (fun hended => hended.2.2 hlast)]
    obtain ⟨init, rfl⟩ := getLast?_eq_some_iff.mp hlast
    have hinit : cr ∉ init := fun hmem => hcr (mem_append_left _ hmem)
    have hend : widen ending [lf] = ending := by rw [widen, if_pos rfl, widen, append_nil]
    rw [widen_append, hend, split_append_lf, dropLast_concat]
    exact lines_widen_ended hending hinit
  · rw [if_neg hlast]
    split
    · exact lines_widen_ended hending hcr
    · exact lines_widen_open hending hcr hnil hlast

/-- Nothing is left open before lines that follow. -/
theorem closed_endReplacement {originalSlice : Bytes} (hending : LineEnding ending)
    (hslice : originalSlice.getLast? = some lf) :
    Closed (endReplacement originalSlice replacement ending) := by
  unfold endReplacement
  by_cases hnil : replacement = []
  · rw [if_neg (fun hended => hended.2.1 hnil)]
    exact .inl hnil
  · by_cases hlast : replacement.getLast? = some lf
    · rw [if_neg (fun hended => hended.2.2 hlast)]
      exact .inr hlast
    · rw [if_pos ⟨hslice, hnil, hlast⟩, Closed, getLast?_append, hending.getLast?_eq]
      exact .inr rfl

/-- **What is written** are the lines before the edit, those of the replacement and the lines
after the edit; the bytes of the first and the last are kept. -/
theorem buildFixPostimage_ok (h : buildFixPostimage preimage excerpt edit = .ok postimage) :
    0 < edit.startLine ∧ edit.startLine ≤ edit.endLine ∧
      edit.endLine ≤ (pieces preimage).length ∧ KeepsOutside preimage postimage edit ∧
        logicalLines postimage = (logicalLines preimage).take (edit.startLine - 1) ++
          ((if replaceCrlf edit.replacement = [] then []
            else if edit.replacement.getLast? = some lf then
              (LineText.split (replaceCrlf edit.replacement)).dropLast
            else LineText.split (replaceCrlf edit.replacement)) ++
              (logicalLines preimage).drop edit.endLine) := by
  simp only [buildFixPostimage, bind_eq_ok, rejectIf_eq_ok] at h
  obtain ⟨_, hvalid, _, -, _, hrange, ending, hdetect, normalized, hnormalize, _, -, _, -, hpost⟩ :=
    h
  simp only [validateProviderEdit, rejectIf_bind_eq_ok] at hvalid
  obtain ⟨hlines, -⟩ := hvalid
  have hending := lineEnding_of_detect hdetect
  obtain ⟨hcr, rfl⟩ := normalizeReplacement_ok hnormalize
  rw [length_starts] at hrange
  have hfirst : edit.startLine - 1 < (pieces preimage).length := by omega
  have hlast : edit.endLine ≤ (pieces preimage).length := by omega
  replace hpost := Except.ok.inj hpost
  rw [stop_eq hlast, getD_starts hfirst, (take_drop_pieces _).1, (take_drop_pieces _).1,
    (take_drop_pieces _).2, append_assoc] at hpost
  -- the lines of the edit, between those before it and those after it
  have hcut := take_append_drop (edit.startLine - 1) (pieces preimage)
  have hne : (pieces preimage).drop (edit.startLine - 1) ≠ [] := by
    rw [ne_eq, drop_eq_nil_iff]
    omega
  have hhead : Closed ((pieces preimage).take (edit.startLine - 1)).flatten :=
    closed_of_pieces hcut.symm hne
  rw [slice_eq (by omega)] at hpost
  subst hpost
  refine ⟨by omega, by omega, hlast, ⟨_, rfl⟩, ?_⟩
  have hslice : edit.endLine < (pieces preimage).length →
      (((pieces preimage).take edit.endLine).drop (edit.startLine - 1)).flatten.getLast? =
        some lf := getLast?_slice (by omega)
  rw [logicalLines, pieces_append hhead, pieces_take,
    pieces_before fun hlt => closed_endReplacement hending (hslice hlt), map_append,
    map_append, lines_endReplacement hending hcr, getLast?_replaceCrlf, map_take,
    map_drop]
  rfl

/-- What the diff shows: the lines of the edit, and what the replacement adds. -/
theorem buildFixDiff_ok (h : buildFixDiff displayFile preimage postimage edit = .ok diff)
    (hstart : 0 < edit.startLine) (hle : edit.startLine ≤ edit.endLine)
    (hend : edit.endLine ≤ (pieces preimage).length) :
    diff = diffText displayFile edit.startLine (edit.endLine - (edit.startLine - 1))
      (afterLines edit.replacement).length
      (((logicalLines preimage).drop (edit.startLine - 1)).take
        (edit.endLine - (edit.startLine - 1))) (afterLines edit.replacement) := by
  simp only [buildFixDiff, rejectIf_bind_eq_ok] at h
  obtain ⟨-, h⟩ := h
  obtain ⟨removed, hremoved, h⟩ := bind_eq_ok.mp h
  obtain ⟨-, hdiff⟩ := rejectIf_bind_eq_ok.mp h
  have hlines := @lineTextsForRange_eq preimage (edit.startLine - 1)
    (edit.endLine - (edit.startLine - 1)) (by omega)
  rw [show edit.startLine - 1 + 1 = edit.startLine by omega,
    show edit.startLine - 1 + (edit.endLine - (edit.startLine - 1)) = edit.endLine by omega,
    hremoved] at hlines
  cases hlines
  rw [← Except.ok.inj hdiff, length_take, length_drop, logicalLines, length_map,
    Nat.min_eq_left (by omega)]

theorem lf_notMem_logicalLines {line : Bytes} (h : line ∈ logicalLines preimage) : lf ∉ line := by
  obtain ⟨piece, hpiece, rfl⟩ := mem_map.mp h
  exact lf_notMem_stripEnd hpiece

theorem lf_notMem_afterLines {line : Bytes} (h : line ∈ afterLines replacement) : lf ∉ line := by
  unfold afterLines at h
  split at h
  · cases h
  · exact lf_notMem_split h

theorem count_decimal (n : Nat) : (decimal n).count lf = 0 := by
  rw [count_eq_zero, decimal, mem_map]
  rintro ⟨c, hc, heq⟩
  have hdigit := Nat.isDigit_of_mem_toDigits (by decide) (by decide) hc
  simp only [Char.isDigit, Bool.and_eq_true, decide_eq_true_eq] at hdigit
  have hlow : 48 ≤ c.toNat := hdigit.1
  have hhigh : c.toNat ≤ 57 := hdigit.2
  have hbyte : c.toNat % 2 ^ 8 = 10 := congrArg UInt8.toNat heq
  omega

theorem count_signed {sign : UInt8} (hsign : sign ≠ lf) {lines : List Bytes}
    (hfree : ∀ line ∈ lines, lf ∉ line) : (signed sign lines).count lf = lines.length := by
  induction lines with
  | nil => rfl
  | cons line more ih =>
    have hline := count_eq_zero.mpr (hfree line mem_cons_self)
    have hmore := ih fun line hmem => hfree line (mem_cons_of_mem _ hmem)
    rw [signed, flatMap_cons, count_append, count_cons_of_ne hsign,
      count_append, hline, ← signed, hmore, length_cons]
    simp only [count_singleton_self]
    omega

/-- The newlines of a diff count its lines. -/
theorem count_diffText {startLine oldCount newCount : Nat} {removed added : List Bytes}
    (hfree : ∀ line ∈ removed ++ added, lf ∉ line) :
    (diffText displayFile startLine oldCount newCount removed added).count lf =
      3 + 2 * displayFile.count lf + (removed.length + added.length) := by
  have hremoved := count_signed (by decide : minus ≠ lf) fun line hmem =>
    hfree line (mem_append_left added hmem)
  have hadded := count_signed (by decide : plus ≠ lf) fun line hmem =>
    hfree line (mem_append_right removed hmem)
  have htexts : (ascii "--- a/").count lf = 0 ∧ (ascii "\n+++ b/").count lf = 1 ∧
      (ascii "\n@@ -").count lf = 1 ∧ (ascii ",").count lf = 0 ∧ (ascii " +").count lf = 0 ∧
        (ascii " @@\n").count lf = 1 := by decide
  obtain ⟨hfirst, hsecond, hthird, hcomma, hplus, hhunk⟩ := htexts
  simp only [diffText, count_append, count_decimal, hfirst, hsecond, hthird, hcomma, hplus,
    hhunk, hremoved, hadded]
  omega

theorem length_replaceAt {startLine : Nat} {removed added lines result : List Bytes}
    (h : replaceAt startLine removed added lines = some result) :
    result.length + removed.length = lines.length + added.length := by
  unfold replaceAt at h
  split at h
  · rename_i hsame
    have hlength := congrArg List.length hsame
    cases h
    simp only [length_append, length_take, length_drop] at hlength ⊢
    omega
  · cases h

/-- **The reviewed fix is the applied fix** where the replacement does not end with a newline:
such a newline ends the last line of the file, and opens one more line in the diff. -/
theorem fix_applies_iff (hpost : buildFixPostimage preimage excerpt edit = .ok postimage)
    (hdiff : buildFixDiff displayFile preimage postimage edit = .ok diff) :
    (Applies displayFile preimage postimage diff edit ∧ KeepsOutside preimage postimage edit) ↔
      edit.replacement.getLast? ≠ some lf := by
  obtain ⟨hstart, hle, hend, hkeeps, hlines⟩ := buildFixPostimage_ok hpost
  have hshown := buildFixDiff_ok hdiff hstart hle hend
  have hlength : (logicalLines preimage).length = (pieces preimage).length := length_map ..
  generalize hremoved : ((logicalLines preimage).drop (edit.startLine - 1)).take
    (edit.endLine - (edit.startLine - 1)) = removed at hshown
  have hcount : removed.length = edit.endLine - (edit.startLine - 1) := by
    rw [← hremoved, length_take, length_drop]
    omega
  have hfree : ∀ line ∈ removed ++ afterLines edit.replacement, lf ∉ line := by
    intro line hmem
    rcases mem_append.mp hmem with hmem | hmem
    · rw [← hremoved] at hmem
      exact lf_notMem_logicalLines (mem_of_mem_drop (mem_of_mem_take hmem))
    · exact lf_notMem_afterLines hmem
  constructor
  · rintro ⟨⟨removed', added', htext, hfree', hreplace⟩, -⟩ hlast
    -- as many lines are shown, and one line less is written
    have hnewlines := congrArg (List.count lf) (hshown.symm.trans htext)
    rw [count_diffText hfree, count_diffText hfree'] at hnewlines
    have hne : replaceCrlf edit.replacement ≠ [] := by
      intro hnil
      rw [← getLast?_replaceCrlf, hnil] at hlast
      cases hlast
    have hwritten := length_replaceAt hreplace
    have hpos := length_pos_iff.mpr (split_ne_nil (replaceCrlf edit.replacement))
    rw [hlines, if_neg hne, if_pos hlast, length_append, length_append, length_take,
      length_drop, length_dropLast] at hwritten
    rw [afterLines, if_neg hne] at hnewlines
    omega
  · intro hlast
    refine ⟨⟨removed, afterLines edit.replacement, by rw [hcount]; exact hshown, hfree, ?_⟩, hkeeps⟩
    rw [replaceAt, hcount, if_pos hremoved, hlines, if_neg hlast, afterLines,
      show edit.startLine - 1 + (edit.endLine - (edit.startLine - 1)) = edit.endLine by omega]

/-! ## A newline at the end -/

/-- The first of two lines, replaced by what is given. -/
def sampleEdit (replacement : Bytes) : FixProviderEdit := ⟨1, 1, replacement⟩

def samplePreimage : Bytes := ascii "a\nb\n"

theorem sample_postimage : buildFixPostimage samplePreimage ⟨1, 2⟩ (sampleEdit (ascii "x")) =
    .ok (ascii "x\nb\n") := by decide +kernel

theorem sample_diff : buildFixDiff (ascii "f") samplePreimage (ascii "x\nb\n")
    (sampleEdit (ascii "x")) =
      .ok (ascii "--- a/f\n+++ b/f\n@@ -1,1 +1,1 @@\n-a\n+x\n") := by decide +kernel

/-- The sample, as it is reviewed and written. -/
theorem fix_applies_iff_sample :
    (Applies (ascii "f") samplePreimage (ascii "x\nb\n")
        (ascii "--- a/f\n+++ b/f\n@@ -1,1 +1,1 @@\n-a\n+x\n") (sampleEdit (ascii "x")) ∧
      KeepsOutside samplePreimage (ascii "x\nb\n") (sampleEdit (ascii "x"))) ↔
        (ascii "x").getLast? ≠ some lf :=
  fix_applies_iff sample_postimage sample_diff

/-- The file is the same with the newline; the diff then has an empty line more. -/
theorem newline_shown_as_line :
    ¬ ∀ (displayFile preimage postimage diff : Bytes) (excerpt : FixSourceExcerpt)
      (edit : FixProviderEdit), buildFixPostimage preimage excerpt edit = .ok postimage →
        buildFixDiff displayFile preimage postimage edit = .ok diff →
          Applies displayFile preimage postimage diff edit ∧
            KeepsOutside preimage postimage edit := by
  intro hall
  obtain ⟨⟨removed, added, htext, hfree, hreplace⟩, -⟩ := hall (ascii "f") samplePreimage
    (ascii "x\nb\n") (ascii "--- a/f\n+++ b/f\n@@ -1,1 +1,2 @@\n-a\n+x\n+\n") ⟨1, 2⟩
    (sampleEdit (ascii "x\n")) (by decide +kernel) (by decide +kernel)
  have hnewlines := congrArg (List.count lf) htext
  rw [count_diffText hfree] at hnewlines
  have hlines := length_replaceAt hreplace
  have hcounts : (ascii "--- a/f\n+++ b/f\n@@ -1,1 +1,2 @@\n-a\n+x\n+\n").count lf = 6 ∧
      (ascii "f").count lf = 0 ∧ (logicalLines samplePreimage).length = 2 ∧
        (logicalLines (ascii "x\nb\n")).length = 2 := by decide
  omega

end

end FixDiff
end Localview
