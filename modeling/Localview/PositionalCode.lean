import Mathlib.Data.List.Basic

/-! # Words read off in order

A choice takes one word at each position and its text is the words run together.  Two
choices of one text first part at a position where one word goes on beyond the other; what
it is ahead by has to be made up by the words after it.  So a code is read in one way just
when at no position a word is ahead of another by text that later positions make up.
-/
namespace PositionalCode
open List
variable {α : Type*}

/-- A word of every position. -/
def Choice (codes : List (List (List α))) (words : List (List α)) : Prop :=
  List.Forall₂ (fun word code => word ∈ code) words codes

/-- The text says which words were chosen. -/
def UniquelyRead (codes : List (List (List α))) : Prop :=
  ∀ words words', Choice codes words → Choice codes words' →
    words.flatten = words'.flatten → words = words'

/-- One side ahead by some text, the words of the positions to come can make it up: at once
by a longer word on the other side, or all but a rest, which later positions make up. -/
def MadeUp : List (List (List α)) → List α → Prop
  | [], _ => False
  | code :: rest, ahead => ∃ word ∈ code, ∃ other ∈ code, other = ahead ++ word ∨
      ∃ left, left ≠ [] ∧ (ahead ++ word = other ++ left ∨ other = ahead ++ word ++ left) ∧
        MadeUp rest left

/-- At some position a word goes on beyond another, and the later ones make it up. -/
def Clash : List (List (List α)) → Prop
  | [] => False
  | code :: rest =>
    (∃ word ∈ code, ∃ ahead, ahead ≠ [] ∧ word ++ ahead ∈ code ∧ MadeUp rest ahead) ∨ Clash rest

theorem choice_cons {code : List (List α)} {rest : List (List (List α))} {words : List (List α)} :
    Choice (code :: rest) words ↔
      ∃ word ∈ code, ∃ later, Choice rest later ∧ words = word :: later := by
  constructor
  · intro h
    cases h with
    | cons hword hlater => exact ⟨_, hword, _, hlater, rfl⟩
  · rintro ⟨word, hword, later, hlater, rfl⟩
    exact .cons hword hlater

variable {codes : List (List (List α))}

theorem exists_choice (h : ∀ code ∈ codes, code ≠ []) :
    ∃ words, Choice codes words := by
  induction codes with
  | nil => exact ⟨[], .nil⟩
  | cons code rest ih =>
    obtain ⟨later, hlater⟩ := ih fun other hother => h other (mem_cons_of_mem _ hother)
    obtain ⟨word, hword⟩ := exists_mem_of_ne_nil _ (h code mem_cons_self)
    exact ⟨word :: later, .cons hword hlater⟩

/-- What is made up: two choices of the positions to come even the sides out. -/
theorem madeUp_iff (h : ∀ code ∈ codes, code ≠ []) {ahead : List α} (hahead : ahead ≠ []) :
    MadeUp codes ahead ↔ ∃ words words', Choice codes words ∧ Choice codes words' ∧
      ahead ++ words.flatten = words'.flatten := by
  induction codes generalizing ahead with
  | nil =>
    refine ⟨False.elim, ?_⟩
    rintro ⟨words, words', hwords, hwords', heq⟩
    cases hwords
    cases hwords'
    rw [flatten_nil, append_nil] at heq
    exact hahead heq
  | cons code rest ih =>
    have hrest := fun other hother => h other (mem_cons_of_mem _ hother)
    constructor
    · rintro ⟨word, hword, other, hother, rfl | ⟨left, hleft, hstep, hmade⟩⟩
      · obtain ⟨later, hlater⟩ := exists_choice hrest
        refine ⟨word :: later, (ahead ++ word) :: later, .cons hword hlater,
          .cons hother hlater, ?_⟩
        rw [flatten_cons, flatten_cons, append_assoc]
      · obtain ⟨later, later', hlater, hlater', heq⟩ := (ih hrest hleft).mp hmade
        -- the rest is on the side that was ahead, or on the other one
        rcases hstep with hstep | rfl
        · refine ⟨word :: later, other :: later', .cons hword hlater, .cons hother hlater', ?_⟩
          rw [flatten_cons, flatten_cons, ← heq, ← append_assoc, hstep,
            append_assoc]
        · refine ⟨word :: later', (ahead ++ word ++ left) :: later, .cons hword hlater',
            .cons hother hlater, ?_⟩
          rw [flatten_cons, flatten_cons, ← heq]
          simp only [append_assoc]
    · rintro ⟨words, words', hwords, hwords', heq⟩
      obtain ⟨word, hword, later, hlater, rfl⟩ := choice_cons.mp hwords
      obtain ⟨other, hother, later', hlater', rfl⟩ := choice_cons.mp hwords'
      rw [flatten_cons, flatten_cons, ← append_assoc] at heq
      refine ⟨word, hword, other, hother, ?_⟩
      rcases append_eq_append_iff.mp heq with ⟨left, hother', heq'⟩ | ⟨left, hword', heq'⟩
      · by_cases hleft : left = []
        · exact .inl (by rw [hother', hleft, append_nil])
        · exact .inr ⟨left, hleft, .inr hother',
            (ih hrest hleft).mpr ⟨later', later, hlater', hlater, heq'.symm⟩⟩
      · by_cases hleft : left = []
        · exact .inl (by rw [hword', hleft, append_nil])
        · exact .inr ⟨left, hleft, .inl hword',
            (ih hrest hleft).mpr ⟨later, later', hlater, hlater', heq'.symm⟩⟩

/-- A clash are two choices of one text. -/
theorem clash_iff (h : ∀ code ∈ codes, code ≠ []) :
    Clash codes ↔ ∃ words words', Choice codes words ∧ Choice codes words' ∧
      words.flatten = words'.flatten ∧ words ≠ words' := by
  induction codes with
  | nil =>
    refine ⟨False.elim, ?_⟩
    rintro ⟨words, words', hwords, hwords', -, hne⟩
    cases hwords
    cases hwords'
    exact hne rfl
  | cons code rest ih =>
    have hrest := fun other hother => h other (mem_cons_of_mem _ hother)
    constructor
    · rintro (⟨word, hword, ahead, hahead, hlonger, hmade⟩ | hclash)
      · obtain ⟨later, later', hlater, hlater', heq⟩ := (madeUp_iff hrest hahead).mp hmade
        refine ⟨(word ++ ahead) :: later, word :: later', .cons hlonger hlater,
          .cons hword hlater', ?_, fun hsame => ?_⟩
        · rw [flatten_cons, flatten_cons, append_assoc, heq]
        · exact hahead (append_right_eq_self.mp (List.cons.inj hsame).1)
      · obtain ⟨later, later', hlater, hlater', heq, hne⟩ := (ih hrest).mp hclash
        obtain ⟨word, hword⟩ := exists_mem_of_ne_nil _ (h code mem_cons_self)
        refine ⟨word :: later, word :: later', .cons hword hlater, .cons hword hlater', ?_,
          fun hsame => hne (List.cons.inj hsame).2⟩
        rw [flatten_cons, flatten_cons, heq]
    · rintro ⟨words, words', hwords, hwords', heq, hne⟩
      obtain ⟨word, hword, later, hlater, rfl⟩ := choice_cons.mp hwords
      obtain ⟨other, hother, later', hlater', rfl⟩ := choice_cons.mp hwords'
      rw [flatten_cons, flatten_cons] at heq
      -- the choices part here, or with the same word here later on
      by_cases hsame : word = other
      · rw [hsame] at heq hne
        exact .inr ((ih hrest).mpr ⟨later, later', hlater, hlater',
          append_cancel_left heq, fun h => hne (h ▸ rfl)⟩)
      · rcases append_eq_append_iff.mp heq with ⟨ahead, rfl, heq'⟩ | ⟨ahead, rfl, heq'⟩
        · have hahead : ahead ≠ [] := fun h => hsame (by rw [h, append_nil])
          exact .inl ⟨word, hword, ahead, hahead, hother,
            (madeUp_iff hrest hahead).mpr ⟨later', later, hlater', hlater, heq'.symm⟩⟩
        · have hahead : ahead ≠ [] := fun h => hsame (by rw [h, append_nil])
          exact .inl ⟨other, hother, ahead, hahead, hword,
            (madeUp_iff hrest hahead).mpr ⟨later, later', hlater, hlater', heq'.symm⟩⟩

/-- **Reading in one way** is having no clash. -/
theorem uniquelyRead_iff (h : ∀ code ∈ codes, code ≠ []) :
    UniquelyRead codes ↔ ¬ Clash codes := by
  rw [clash_iff h]
  constructor
  · rintro hread ⟨words, words', hwords, hwords', heq, hne⟩
    exact hne (hread words words' hwords hwords' heq)
  · intro hnone words words' hwords hwords' heq
    by_contra hne
    exact hnone ⟨words, words', hwords, hwords', heq, hne⟩

end PositionalCode
