import Mathlib.Data.List.Basic

/-! # Texts as lines

The lines of a text with their ends (`pieces`), without them (`stripEnd`), and a text cut at
each newline (`split`).  A text whose newlines are widened to a line ending has the lines that
the text is cut into.
-/
namespace LineText
open List

def lf : UInt8 := 10

def cr : UInt8 := 13

/-- The lines, each with its newline. -/
def pieces : List UInt8 → List (List UInt8)
  | [] => []
  | byte :: rest =>
      if byte = lf then [lf] :: pieces rest
      else
        match pieces rest with
        | [] => [[byte]]
        | piece :: more => (byte :: piece) :: more

/-- What stands between the newlines. -/
def split : List UInt8 → List (List UInt8)
  | [] => [[]]
  | byte :: rest =>
      if byte = lf then [] :: split rest
      else
        match split rest with
        | [] => [[byte]]
        | piece :: more => (byte :: piece) :: more

/-- A line without its end. -/
def stripEnd (line : List UInt8) : List UInt8 :=
  if [cr, lf] <:+ line then line.take (line.length - 2)
  else if [lf] <:+ line then line.take (line.length - 1)
  else line

/-- Each newline as the line ending. -/
def widen (ending : List UInt8) : List UInt8 → List UInt8
  | [] => []
  | byte :: rest => if byte = lf then ending ++ widen ending rest else byte :: widen ending rest

/-- Nothing is left open: the text is empty or ends with a newline. -/
def Closed (text : List UInt8) : Prop := text = [] ∨ text.getLast? = some lf

/-- How a line may end. -/
inductive LineEnding : List UInt8 → Prop
  | newline : LineEnding [lf]
  | carriageReturn : LineEnding [cr, lf]

variable {text first rest : List UInt8} {byte : UInt8} {xs ys : List (List UInt8)}

/-! ## Lines with their ends -/

theorem pieces_lf (rest : List UInt8) : pieces (lf :: rest) = [lf] :: pieces rest := by
  rw [pieces, if_pos rfl]

variable {piece : List UInt8}

theorem pieces_cons (hbyte : byte ≠ lf) {more : List (List UInt8)}
    (hpieces : pieces rest = piece :: more) : pieces (byte :: rest) = (byte :: piece) :: more := by
  rw [pieces, if_neg hbyte, hpieces]

theorem pieces_single (hbyte : byte ≠ lf) : pieces [byte] = [[byte]] := by
  rw [pieces, if_neg hbyte, pieces]

theorem exists_pieces_cons (h : text ≠ []) : ∃ piece more, pieces text = piece :: more ∧
    piece ≠ [] := by
  cases text with
  | nil => exact absurd rfl h
  | cons byte rest =>
    by_cases hbyte : byte = lf
    · subst hbyte
      exact ⟨_, _, pieces_lf rest, cons_ne_nil _ _⟩
    · cases hpieces : pieces rest with
      | nil =>
        refine ⟨[byte], [], ?_, cons_ne_nil _ _⟩
        rw [pieces, if_neg hbyte, hpieces]
      | cons piece more => exact ⟨_, _, pieces_cons hbyte hpieces, cons_ne_nil _ _⟩

theorem flatten_pieces (text : List UInt8) : (pieces text).flatten = text := by
  induction text with
  | nil => rfl
  | cons byte rest ih =>
    by_cases hbyte : byte = lf
    · rw [hbyte, pieces_lf, flatten_cons, ih]
      rfl
    · by_cases hrest : rest = []
      · rw [hrest, pieces_single hbyte]
        rfl
      · obtain ⟨piece, more, hpieces, -⟩ := exists_pieces_cons hrest
        rw [pieces_cons hbyte hpieces, flatten_cons, cons_append, ← flatten_cons,
          ← hpieces, ih]

theorem Closed.lf_cons (h : Closed text) : Closed (lf :: text) := by
  rcases h with rfl | h
  · exact .inr rfl
  · refine .inr ?_
    rw [getLast?_cons, h]
    rfl

/-- The lines of a text that begins with whole lines. -/
theorem pieces_append (h : Closed first) : pieces (first ++ rest) = pieces first ++ pieces rest := by
  induction first with
  | nil => rfl
  | cons byte tail ih =>
    have htail : tail = [] ∧ byte = lf ∨ tail ≠ [] ∧ Closed tail := by
      rcases h with h | h
      · cases h
      · cases tail with
        | nil => exact .inl ⟨rfl, Option.some.inj h⟩
        | cons next tail =>
          rw [getLast?_cons_cons] at h
          exact .inr ⟨cons_ne_nil _ _, .inr h⟩
    rcases htail with ⟨rfl, rfl⟩ | ⟨hne, hclosed⟩
    · exact pieces_lf rest
    · have hih := ih hclosed
      by_cases hbyte : byte = lf
      · rw [hbyte, cons_append, pieces_lf, pieces_lf, hih, cons_append]
      · obtain ⟨piece, more, hpieces, -⟩ := exists_pieces_cons hne
        rw [hpieces, cons_append] at hih
        rw [cons_append, pieces_cons hbyte hih, pieces_cons hbyte hpieces, cons_append]

/-- What stands before a line is closed. -/
theorem closed_of_pieces (h : pieces text = xs ++ ys) (hys : ys ≠ []) : Closed xs.flatten := by
  induction text generalizing xs with
  | nil =>
    obtain ⟨rfl, rfl⟩ := append_eq_nil_iff.mp h.symm
    exact absurd rfl hys
  | cons byte rest ih =>
    cases xs with
    | nil => exact .inl rfl
    | cons x xs =>
      by_cases hbyte : byte = lf
      · rw [hbyte, pieces_lf] at h
        obtain ⟨rfl, hrest⟩ := List.cons.inj h
        exact (ih hrest).lf_cons
      · by_cases hrest : rest = []
        · rw [hrest, pieces_single hbyte] at h
          have hnil := append_eq_nil_iff.mp (List.cons.inj h).2.symm
          exact absurd hnil.2 hys
        · obtain ⟨piece, more, hpieces, hne⟩ := exists_pieces_cons hrest
          rw [pieces_cons hbyte hpieces] at h
          obtain ⟨rfl, hmore⟩ := List.cons.inj h
          rw [hmore] at hpieces
          have hclosed := @ih (piece :: xs) hpieces
          rw [flatten_cons] at hclosed
          rcases hclosed with hnil | hlast
          · exact absurd (append_eq_nil_iff.mp hnil).1 hne
          · refine .inr ?_
            rw [flatten_cons, cons_append, getLast?_cons, hlast]
            rfl

/-- Some of the lines are the lines of what they make up. -/
theorem pieces_flatten (h : pieces text = xs ++ ys) :
    pieces xs.flatten = xs ∧ pieces ys.flatten = ys := by
  induction text generalizing xs with
  | nil =>
    obtain ⟨rfl, rfl⟩ := append_eq_nil_iff.mp h.symm
    exact ⟨rfl, rfl⟩
  | cons byte rest ih =>
    cases xs with
    | nil =>
      rw [nil_append] at h
      rw [← h, flatten_pieces]
      exact ⟨rfl, rfl⟩
    | cons x xs =>
      by_cases hbyte : byte = lf
      · rw [hbyte, pieces_lf] at h
        obtain ⟨rfl, hrest⟩ := List.cons.inj h
        obtain ⟨hxs, hys⟩ := ih hrest
        refine ⟨?_, hys⟩
        rw [flatten_cons, singleton_append, pieces_lf, hxs]
      · by_cases hrest : rest = []
        · rw [hrest, pieces_single hbyte] at h
          obtain ⟨rfl, hnil⟩ := List.cons.inj h
          obtain ⟨rfl, rfl⟩ := append_eq_nil_iff.mp hnil.symm
          exact ⟨pieces_single hbyte, rfl⟩
        · obtain ⟨piece, more, hpieces, -⟩ := exists_pieces_cons hrest
          rw [pieces_cons hbyte hpieces] at h
          obtain ⟨rfl, hmore⟩ := List.cons.inj h
          rw [hmore] at hpieces
          obtain ⟨hxs, hys⟩ := @ih (piece :: xs) hpieces
          refine ⟨?_, hys⟩
          rw [flatten_cons, cons_append, ← flatten_cons, pieces_cons hbyte hxs]

/-! ## Lines without their ends -/

theorem stripEnd_cons (hlf : byte ≠ lf) (hcr : byte ≠ cr) (line : List UInt8) :
    stripEnd (byte :: line) = byte :: stripEnd line := by
  have htwo : [cr, lf] <:+ byte :: line ↔ [cr, lf] <:+ line := by
    rw [suffix_cons_iff]
    exact or_iff_right fun heq => hcr (List.cons.inj heq).1.symm
  have hone : [lf] <:+ byte :: line ↔ [lf] <:+ line := by
    rw [suffix_cons_iff]
    exact or_iff_right fun heq => hlf (List.cons.inj heq).1.symm
  rw [stripEnd, stripEnd]
  by_cases hcrlf : [cr, lf] <:+ line
  · have hlength := hcrlf.length_le
    simp only [length_cons, length_nil] at hlength
    rw [if_pos (htwo.mpr hcrlf), if_pos hcrlf, length_cons,
      show line.length + 1 - 2 = line.length - 2 + 1 by omega, take_succ_cons]
  · rw [if_neg (mt htwo.mp hcrlf), if_neg hcrlf]
    by_cases hline : [lf] <:+ line
    · have hlength := hline.length_le
      simp only [length_cons, length_nil] at hlength
      rw [if_pos (hone.mpr hline), if_pos hline, length_cons,
        show line.length + 1 - 1 = line.length - 1 + 1 by omega, take_succ_cons]
    · rw [if_neg (mt hone.mp hline), if_neg hline]

variable {ending : List UInt8}

theorem LineEnding.pieces_append (h : LineEnding ending) (rest : List UInt8) :
    pieces (ending ++ rest) = ending :: pieces rest := by
  cases h with
  | newline => exact pieces_lf rest
  | carriageReturn =>
    have hne : cr ≠ lf := by decide
    exact pieces_cons hne (pieces_lf rest)

theorem LineEnding.stripEnd_eq (h : LineEnding ending) :
    stripEnd ending = [] := by
  cases h <;> decide

theorem split_ne_nil (text : List UInt8) : split text ≠ [] := by
  cases text with
  | nil => exact cons_ne_nil _ _
  | cons byte rest =>
    rw [split]
    split
    · exact cons_ne_nil _ _
    · split <;> exact cons_ne_nil _ _

theorem split_lf (rest : List UInt8) : split (lf :: rest) = [] :: split rest := by
  rw [split, if_pos rfl]

theorem split_cons (hbyte : byte ≠ lf) {more : List (List UInt8)}
    (hsplit : split rest = piece :: more) : split (byte :: rest) = (byte :: piece) :: more := by
  rw [split, if_neg hbyte, hsplit]

/-- A newline at the end opens one more line. -/
theorem split_append_lf (text : List UInt8) : split (text ++ [lf]) = split text ++ [[]] := by
  induction text with
  | nil => rfl
  | cons byte rest ih =>
    by_cases hbyte : byte = lf
    · rw [hbyte, cons_append, split_lf, split_lf, ih, cons_append]
    · obtain ⟨piece, more, hsplit⟩ := exists_cons_of_ne_nil (split_ne_nil rest)
      rw [hsplit, cons_append] at ih
      rw [cons_append, split_cons hbyte ih, split_cons hbyte hsplit, cons_append]

theorem lf_notMem_split {line : List UInt8} (h : line ∈ split text) : lf ∉ line := by
  induction text generalizing line with
  | nil =>
    rw [mem_singleton.mp h]
    exact not_mem_nil
  | cons byte rest ih =>
    by_cases hbyte : byte = lf
    · rw [hbyte, split_lf, mem_cons] at h
      rcases h with rfl | h
      · exact not_mem_nil
      · exact ih h
    · obtain ⟨piece, more, hsplit⟩ := exists_cons_of_ne_nil (split_ne_nil rest)
      rw [split_cons hbyte hsplit, mem_cons] at h
      rcases h with rfl | h
      · rw [mem_cons]
        rintro (heq | hmem)
        · exact hbyte heq.symm
        · exact ih (hsplit ▸ mem_cons_self) hmem
      · exact ih (hsplit ▸ mem_cons_of_mem _ h)

/-- The lines of a widened text are what the text is cut into, its last line ended. -/
theorem lines_widen_ended (hending : LineEnding ending) (hcr : cr ∉ text) :
    (pieces (widen ending text ++ ending)).map stripEnd = split text := by
  induction text with
  | nil =>
    have hpieces := hending.pieces_append []
    rw [append_nil] at hpieces
    rw [widen, nil_append, hpieces, map_cons, hending.stripEnd_eq]
    rfl
  | cons byte rest ih =>
    rw [mem_cons, not_or] at hcr
    have hih := ih hcr.2
    by_cases hbyte : byte = lf
    · rw [hbyte, widen, if_pos rfl, split_lf, append_assoc, hending.pieces_append,
        map_cons, hending.stripEnd_eq, hih]
    · have hne : widen ending rest ++ ending ≠ [] := by cases hending <;> simp
      obtain ⟨piece, more, hpieces, -⟩ := exists_pieces_cons hne
      rw [hpieces, map_cons] at hih
      rw [widen, if_neg hbyte, cons_append, pieces_cons hbyte hpieces, map_cons,
        stripEnd_cons hbyte (Ne.symm hcr.1), split_cons hbyte hih.symm]

/-- The same, the last line left open. -/
theorem lines_widen_open (hending : LineEnding ending) (hcr : cr ∉ text) (hne : text ≠ [])
    (hopen : text.getLast? ≠ some lf) :
    (pieces (widen ending text)).map stripEnd = split text := by
  induction text with
  | nil => exact absurd rfl hne
  | cons byte rest ih =>
    rw [mem_cons, not_or] at hcr
    by_cases hrest : rest = []
    · subst hrest
      have hbyte : byte ≠ lf := fun heq => hopen (by rw [heq]; rfl)
      rw [widen, if_neg hbyte, widen, pieces_single hbyte, map_cons,
        stripEnd_cons hbyte (Ne.symm hcr.1), split_cons hbyte rfl]
      rfl
    · have hlast : rest.getLast? ≠ some lf := by
        obtain ⟨next, tail, rfl⟩ := exists_cons_of_ne_nil hrest
        rwa [getLast?_cons_cons] at hopen
      have hih := ih hcr.2 hrest hlast
      by_cases hbyte : byte = lf
      · rw [hbyte, widen, if_pos rfl, split_lf, hending.pieces_append, map_cons,
          hending.stripEnd_eq, hih]
      · obtain ⟨piece, more, hsplit⟩ := exists_cons_of_ne_nil (split_ne_nil rest)
        have hwidened : widen ending rest ≠ [] := by
          intro hnil
          rw [hnil, hsplit] at hih
          cases hih
        obtain ⟨line, lines, hpieces, -⟩ := exists_pieces_cons hwidened
        rw [hpieces, map_cons] at hih
        rw [widen, if_neg hbyte, pieces_cons hbyte hpieces, map_cons,
          stripEnd_cons hbyte (Ne.symm hcr.1), split_cons hbyte hih.symm]

theorem widen_lf (text : List UInt8) : widen [lf] text = text := by
  induction text with
  | nil => rfl
  | cons byte rest ih =>
    by_cases hbyte : byte = lf
    · rw [widen, if_pos hbyte, ih, hbyte]
      rfl
    · rw [widen, if_neg hbyte, ih]

theorem widen_append (ending text more : List UInt8) :
    widen ending (text ++ more) = widen ending text ++ widen ending more := by
  induction text with
  | nil => rfl
  | cons byte rest ih =>
    by_cases hbyte : byte = lf
    · rw [cons_append, widen, if_pos hbyte, widen, if_pos hbyte, ih, append_assoc]
    · rw [cons_append, widen, if_neg hbyte, widen, if_neg hbyte, ih, cons_append]

theorem LineEnding.getLast?_eq (h : LineEnding ending) :
    ending.getLast? = some lf := by
  cases h <;> rfl

/-- A widened text ends with a newline where the text does. -/
theorem getLast?_widen (hending : LineEnding ending) :
    (widen ending text).getLast? = text.getLast? := by
  rcases eq_nil_or_concat text with rfl | ⟨init, last, rfl⟩
  · rfl
  · rw [concat_eq_append, widen_append, getLast?_concat]
    by_cases hlast : last = lf
    · rw [hlast, widen, if_pos rfl, widen, append_nil, getLast?_append,
        hending.getLast?_eq]
      rfl
    · rw [widen, if_neg hlast, widen, getLast?_concat]

theorem lf_notMem_dropLast (h : piece ∈ pieces text) :
    lf ∉ piece.dropLast := by
  induction text generalizing piece with
  | nil => exact absurd h not_mem_nil
  | cons byte rest ih =>
    by_cases hbyte : byte = lf
    · rw [hbyte, pieces_lf, mem_cons] at h
      rcases h with rfl | h
      · exact not_mem_nil
      · exact ih h
    · by_cases hrest : rest = []
      · rw [hrest, pieces_single hbyte, mem_singleton] at h
        rw [h]
        exact not_mem_nil
      · obtain ⟨line, more, hpieces, hne⟩ := exists_pieces_cons hrest
        rw [pieces_cons hbyte hpieces, mem_cons] at h
        rcases h with rfl | h
        · rw [dropLast_cons_of_ne_nil hne, mem_cons, not_or]
          exact ⟨Ne.symm hbyte, ih (hpieces ▸ mem_cons_self)⟩
        · exact ih (hpieces ▸ mem_cons_of_mem _ h)

/-- A line has no newline. -/
theorem lf_notMem_stripEnd (h : piece ∈ pieces text) :
    lf ∉ stripEnd piece := by
  have hfree := lf_notMem_dropLast h
  rw [dropLast_eq_take] at hfree
  rw [stripEnd]
  split
  case isTrue =>
    intro hmem
    have hle : piece.length - 2 ≤ piece.length - 1 := by omega
    exact hfree (take_subset_take_left piece hle hmem)
  split
  case isTrue => exact hfree
  case isFalse hopen =>
    intro hmem
    rcases eq_nil_or_concat piece with rfl | ⟨init, last, rfl⟩
    · exact absurd hmem not_mem_nil
    · rw [concat_eq_append] at hmem hopen hfree
      rw [← dropLast_eq_take, dropLast_concat] at hfree
      rcases mem_append.mp hmem with hmem | hmem
      · exact hfree hmem
      · rw [← mem_singleton.mp hmem] at hopen
        exact hopen (suffix_append init [lf])

end LineText
