import Mathlib.Data.List.Induction
import Mathlib.Data.List.Perm.Basic
import Mathlib.Data.List.Pairwise
import Mathlib.Algebra.GroupWithZero.Nat

/-! # A worklist whose members are merged

The last member is taken off, merged with the first that it touches, as long as there is one,
and set aside; so on with the rest.  A member taken out of the middle is replaced by the last.

What was set aside covers all members.  A member set aside is not looked at again, so one
that grows later may come to touch it; `apart_iff` says when none does.
-/
namespace MergingWorklist
open List
variable {β : Type*}

/-- The list without a member, the last in its place. -/
def swapRemove (l : List β) (i : Nat) : List β :=
  match l.getLast? with
  | none => []
  | some last => (l.set i last).dropLast

/-- A member replaced by another. -/
theorem perm_set {l : List β} {i : Nat} (h : i < l.length) (b : β) :
    (b :: l).Perm (l[i] :: l.set i b) := by
  have hout : (b :: l).Perm (b :: l[i] :: l.eraseIdx i) :=
    (getElem_cons_eraseIdx_perm h).symm.cons b
  have hin : (l[i] :: l.set i b).Perm (l[i] :: b :: l.eraseIdx i) :=
    (set_perm_cons_eraseIdx h b).cons _
  exact (hout.trans (.swap _ _ _)).trans hin.symm

theorem perm_swapRemove {l : List β} {i : Nat} {b : β} (h : l[i]? = some b) :
    l.Perm (b :: swapRemove l i) := by
  obtain ⟨hi, rfl⟩ := List.getElem?_eq_some_iff.mp h
  induction l using List.reverseRecOn with
  | nil => cases hi
  | append_singleton rest last _ =>
    rw [swapRemove, getLast?_append_of_ne_nil _ (cons_ne_nil last []),
      getLast?_singleton]
    by_cases hlast : i = rest.length
    · subst hlast
      simp only [getElem_concat_length, set_append_right _ _ (Nat.le_refl _),
        Nat.sub_self, set_cons_zero, dropLast_concat]
      exact perm_append_singleton last rest
    · have hlt : i < rest.length := by
        rw [length_append, length_singleton] at hi
        omega
      simp only [getElem_append_left hlt, set_append_left _ _ hlt,
        dropLast_concat]
      exact (perm_append_singleton last rest).trans (perm_set hlt last)

/-! ## The loops -/

variable (touches : β → β → Bool) (merge : β → β → β)

/-- The inner loop, with as many turns as there are members: a member grows, and the rest. -/
def absorb : Nat → β → List β → β × List β
  | 0, current, pending => (current, pending)
  | turns + 1, current, pending =>
    match pending.findIdx? (touches current) with
    | none => (current, pending)
    | some i =>
      match pending[i]? with
      | none => (current, pending)
      | some other => absorb turns (merge current other) (swapRemove pending i)

/-- The outer loop, with as many turns as there are members: what is set aside, in order. -/
def mergeAll : Nat → List β → List β
  | 0, _ => []
  | turns + 1, pending =>
    match pending.getLast? with
    | none => []
    | some current =>
      let grown := absorb touches merge pending.dropLast.length current pending.dropLast
      grown.1 :: mergeAll turns grown.2

/-- What the outer loop may come to be left with. -/
inductive Reached (start : List β) : List β → Prop
  | start : Reached start start
  | next {pending : List β} {current : β} : Reached start (pending ++ [current]) →
      Reached start (absorb touches merge pending.length current pending).2

/-- A member grown by some that it touches. -/
inductive Grows (pending : List β) (seed : β) : β → Prop
  | seed : Grows pending seed seed
  | take {box other : β} : Grows pending seed box → other ∈ pending →
      touches box other = true → Grows pending seed (merge box other)

/-- A member taken up is not passed: none of the rest that it never touches, however it grows,
grows itself to touch what it grows to. -/
def NotPassed (pending : List β) (current : β) : Prop :=
  ∀ other ∈ pending, (∀ box, Grows touches merge pending current box →
      touches box other = false) →
    ∀ box box', Grows touches merge pending current box →
      Grows touches merge pending other box' → touches box box' = false

/-- No member is passed when it is taken up. -/
def NeverPassed (start : List β) : Prop :=
  ∀ pending current, Reached touches merge start (pending ++ [current]) →
    NotPassed touches merge pending current

/-- What is asked of the members: an order of what lies within what, in which merging gives
the least above two, and touching passes to what is greater. -/
structure Laws (good : β → Prop) (within : β → β → Prop) : Prop where
  refl : ∀ a, within a a
  trans : ∀ {a b c}, within a b → within b c → within a c
  merge_good : ∀ {a b}, good a → good b → good (merge a b)
  left : ∀ {a b}, good a → good b → within a (merge a b)
  right : ∀ {a b}, good a → good b → within b (merge a b)
  least : ∀ {a b c}, good a → good b → within a c → within b c → within (merge a b) c
  symm : ∀ {a b}, touches a b = true → touches b a = true
  widen : ∀ {a a' b}, good a → good a' → good b → within a a' → touches a b = true →
    touches a' b = true

variable {touches merge} {good : β → Prop} {within : β → β → Prop}

/-! ## What the inner loop does -/

theorem length_absorb (turns : Nat) (current : β) (pending : List β) :
    (absorb touches merge turns current pending).2.length ≤ pending.length := by
  induction turns generalizing current pending with
  | zero => exact Nat.le_refl _
  | succ turns ih =>
    rw [absorb]
    cases pending.findIdx? (touches current) with
    | none => exact Nat.le_refl _
    | some i =>
      cases hget : pending[i]? with
      | none => exact Nat.le_of_eq (by simp only [hget])
      | some other =>
        have hlength := (perm_swapRemove hget).length_eq
        rw [length_cons] at hlength
        simp only [hget]
        exact Nat.le_trans (ih _ _) (by omega)

theorem Grows.mono {pending pending' : List β} {seed box : β}
    (h : Grows touches merge pending seed box) (hsub : pending ⊆ pending') :
    Grows touches merge pending' seed box := by
  induction h with
  | seed => exact .seed
  | take _ hmem htouches ih => exact .take ih (hsub hmem) htouches

variable {pending : List β}

/-- Growing on from what has grown. -/
theorem Grows.trans {seed box box' : β} (h : Grows touches merge pending seed box)
    (h' : Grows touches merge pending box box') :
    Grows touches merge pending seed box' := by
  induction h' with
  | seed => exact h
  | take _ hmem htouches ih => exact .take ih hmem htouches

theorem Grows.isGood (laws : Laws touches merge good within) {seed box : β} (hseed : good seed)
    (hpending : ∀ b ∈ pending, good b) (h : Grows touches merge pending seed box) : good box := by
  induction h with
  | seed => exact hseed
  | take _ hmem _ ih => exact laws.merge_good ih (hpending _ hmem)

theorem Grows.within_of_closed (laws : Laws touches merge good within) {seed box region : β}
    (hseed : good seed) (hpending : ∀ b ∈ pending, good b) (hregion : good region)
    (hin : within seed region) (hclosed : ∀ b ∈ pending, touches region b = true → within b region)
    (h : Grows touches merge pending seed box) : within box region := by
  induction h with
  | seed => exact hin
  | take hgrows hmem htouches ih =>
    have hgood := hgrows.isGood laws hseed hpending
    have hother := hpending _ hmem
    exact laws.least hgood hother ih
      (hclosed _ hmem (laws.widen hgood hregion hother ih htouches))

/-- What the inner loop gives: it grew the member by some of the rest until it touched none
that is left. -/
structure Absorbed (touches : β → β → Bool) (merge : β → β → β) (within : β → β → Prop)
    (current : β) (pending : List β) (grown : β × List β) : Prop where
  grows : Grows touches merge pending current grown.1
  current_in : within current grown.1
  apart : ∀ other ∈ grown.2, touches grown.1 other = false
  taken : ∃ taken, pending.Perm (taken ++ grown.2) ∧ ∀ other ∈ taken, within other grown.1 ∧
    ∃ box, Grows touches merge pending current box ∧ touches box other = true

theorem absorbed_self (laws : Laws touches merge good within) {current : β}
    (hapart : ∀ other ∈ pending, touches current other = false) :
    Absorbed touches merge within current pending (current, pending) :=
  ⟨.seed, laws.refl current, hapart, [], List.Perm.refl _, fun _ h => nomatch h⟩

theorem absorbed_absorb (laws : Laws touches merge good within) {turns : Nat} {current : β}
    (hcurrent : good current) (hpending : ∀ b ∈ pending, good b) (hturns : pending.length ≤ turns) :
    Absorbed touches merge within current pending (absorb touches merge turns current pending) := by
  induction turns generalizing current pending with
  | zero =>
    have hnil : pending = [] := length_eq_zero_iff.mp (Nat.le_zero.mp hturns)
    exact absorbed_self laws fun other hother => by rw [hnil] at hother; cases hother
  | succ turns ih =>
    rw [absorb]
    cases hfind : pending.findIdx? (touches current) with
    | none =>
      refine absorbed_self laws fun other hother => ?_
      exact findIdx?_eq_none_iff.mp hfind other hother
    | some i =>
      obtain ⟨hi, htouches, -⟩ := findIdx?_eq_some_iff_getElem.mp hfind
      have hget : pending[i]? = some pending[i] := getElem?_eq_getElem hi
      have hperm := perm_swapRemove hget
      have hmem : pending[i] ∈ pending := getElem_mem hi
      have hsub : swapRemove pending i ⊆ pending := fun b hb =>
        hperm.mem_iff.mpr (mem_cons_of_mem _ hb)
      have hlength : (swapRemove pending i).length ≤ turns := by
        have hsame := hperm.length_eq
        rw [length_cons] at hsame
        omega
      simp only [hget]
      have hother := hpending _ hmem
      have hmerged := laws.merge_good hcurrent hother
      have hrest : ∀ b ∈ swapRemove pending i, good b := fun b hb => hpending b (hsub hb)
      obtain ⟨hgrows, hin, hapart, taken, htaken, hwithin⟩ := ih hmerged hrest hlength
      have hfirst : Grows touches merge pending current (merge current pending[i]) :=
        .take .seed hmem htouches
      refine ⟨hfirst.trans (hgrows.mono hsub), laws.trans (laws.left hcurrent hother) hin, hapart,
        pending[i] :: taken, hperm.trans (htaken.cons _), fun b hb => ?_⟩
      rcases mem_cons.mp hb with rfl | hb
      · exact ⟨laws.trans (laws.right hcurrent hother) hin, current, .seed, htouches⟩
      · obtain ⟨hb, box, hbox, htouch⟩ := hwithin b hb
        exact ⟨hb, box, hfirst.trans (hbox.mono hsub), htouch⟩

section
variable {current : β} {pending : List β} {grown : β × List β}

theorem Absorbed.subset (h : Absorbed touches merge within current pending grown) :
    grown.2 ⊆ pending := by
  obtain ⟨taken, hperm, -⟩ := h.taken
  exact fun b hb => hperm.mem_iff.mpr (mem_append_right _ hb)

theorem Absorbed.rest_or (h : Absorbed touches merge within current pending grown) {b : β}
    (hb : b ∈ pending) : b ∈ grown.2 ∨ within b grown.1 ∧
      ∃ box, Grows touches merge pending current box ∧ touches box b = true := by
  obtain ⟨taken, hperm, htaken⟩ := h.taken
  rcases mem_append.mp (hperm.mem_iff.mp hb) with hb | hb
  · exact .inr (htaken b hb)
  · exact .inl hb

/-- No growth leads out of what the inner loop gives. -/
theorem Absorbed.within_grown (laws : Laws touches merge good within)
    (h : Absorbed touches merge within current pending grown) (hcurrent : good current)
    (hpending : ∀ b ∈ pending, good b) {box : β} (hbox : Grows touches merge pending current box) :
    within box grown.1 := by
  refine hbox.within_of_closed laws hcurrent hpending (h.grows.isGood laws hcurrent hpending)
    h.current_in fun b hb htouches => ?_
  rcases h.rest_or hb with hrest | hin
  · rw [h.apart b hrest] at htouches
    cases htouches
  · exact hin.1

end

/-! ## What the outer loop does -/

theorem mergeAll_nil (turns : Nat) : mergeAll touches merge turns [] = [] := by
  cases turns <;> rfl

theorem mergeAll_snoc (turns : Nat) (pending : List β) (current : β) :
    mergeAll touches merge (turns + 1) (pending ++ [current]) =
      (absorb touches merge pending.length current pending).1 ::
        mergeAll touches merge turns (absorb touches merge pending.length current pending).2 := by
  rw [mergeAll, getLast?_append_of_ne_nil _ (cons_ne_nil current []),
    getLast?_singleton, dropLast_concat]

/-- All that was on the list lies within what is set aside, which grew from members. -/
theorem mergeAll_spec (laws : Laws touches merge good within) {turns : Nat}
    (hpending : ∀ b ∈ pending, good b) (hturns : pending.length ≤ turns) :
    (∀ b ∈ pending, ∃ region ∈ mergeAll touches merge turns pending, within b region) ∧
      ∀ region ∈ mergeAll touches merge turns pending,
        ∃ seed ∈ pending, Grows touches merge pending seed region := by
  induction turns generalizing pending with
  | zero =>
    rw [length_eq_zero_iff.mp (Nat.le_zero.mp hturns)]
    exact ⟨(fun _ h => nomatch h), fun _ h => nomatch h⟩
  | succ turns ih =>
    rcases eq_nil_or_concat pending with rfl | ⟨rest, current, rfl⟩
    · rw [mergeAll_nil]
      exact ⟨(fun _ h => nomatch h), fun _ h => nomatch h⟩
    · rw [concat_eq_append] at *
      rw [length_append, length_singleton] at hturns
      have hcurrent := hpending current (mem_append_right _ (mem_singleton.mpr rfl))
      have hrest : ∀ b ∈ rest, good b := fun b hb => hpending b (mem_append_left _ hb)
      have habsorbed := absorbed_absorb laws hcurrent hrest (Nat.le_refl _)
      have hsub := habsorbed.subset
      obtain ⟨hcovers, hgrown⟩ := ih (fun b hb => hrest b (hsub hb))
        (Nat.le_trans (length_absorb _ _ _) (by omega))
      rw [mergeAll_snoc]
      refine ⟨fun b hb => ?_, fun region hregion => ?_⟩
      · rcases mem_append.mp hb with hb | hb
        · rcases habsorbed.rest_or hb with hb | hin
          · obtain ⟨region, hregion, hin⟩ := hcovers b hb
            exact ⟨region, mem_cons_of_mem _ hregion, hin⟩
          · exact ⟨_, mem_cons_self, hin.1⟩
        · rw [mem_singleton.mp hb]
          exact ⟨_, mem_cons_self, habsorbed.current_in⟩
      · rcases mem_cons.mp hregion with rfl | hregion
        · exact ⟨current, mem_append_right _ (mem_singleton.mpr rfl),
            habsorbed.grows.mono (subset_append_left _ _)⟩
        · obtain ⟨seed, hseed, hgrows⟩ := hgrown region hregion
          exact ⟨seed, mem_append_left _ (hsub hseed),
            hgrows.mono (fun b hb => mem_append_left _ (hsub hb))⟩

theorem mergeAll_good (laws : Laws touches merge good within) {turns : Nat}
    (hpending : ∀ b ∈ pending, good b) (hturns : pending.length ≤ turns) :
    ∀ region ∈ mergeAll touches merge turns pending, good region := by
  intro region hregion
  obtain ⟨seed, hseed, hgrows⟩ := (mergeAll_spec laws hpending hturns).2 region hregion
  exact hgrows.isGood laws (hpending seed hseed) hpending

/-! ## When what is set aside stays apart -/

theorem reached_nil (h : Reached touches merge [] pending) : pending = [] := by
  induction h with
  | start => rfl
  | next _ ih => exact absurd ih (append_ne_nil_of_right_ne_nil _
      (cons_ne_nil _ _))

theorem reached_snoc_iff {rest : List β} {current : β} :
    Reached touches merge (rest ++ [current]) pending ↔ pending = rest ++ [current] ∨
      Reached touches merge (absorb touches merge rest.length current rest).2 pending := by
  constructor
  · intro h
    induction h with
    | start => exact .inl rfl
    | next _ ih =>
      rcases ih with heq | hreached
      · obtain ⟨rfl, hlast⟩ := append_inj' heq rfl
        cases hlast
        exact .inr .start
      · exact .inr (.next hreached)
  · rintro (rfl | h)
    · exact .start
    · induction h with
      | start => exact .next .start
      | next _ ih => exact .next ih

theorem neverPassed_nil : NeverPassed touches merge [] := by
  intro pending current h
  exact absurd (reached_nil h) (append_ne_nil_of_right_ne_nil _ (cons_ne_nil _ _))

theorem neverPassed_snoc_iff {rest : List β} {current : β} :
    NeverPassed touches merge (rest ++ [current]) ↔ NotPassed touches merge rest current ∧
      NeverPassed touches merge (absorb touches merge rest.length current rest).2 := by
  constructor
  · intro h
    refine ⟨h rest current .start, fun pending other hreached => ?_⟩
    exact h pending other (reached_snoc_iff.mpr (.inr hreached))
  · rintro ⟨hnow, hlater⟩ pending other hreached
    rcases reached_snoc_iff.mp hreached with heq | hreached
    · obtain ⟨rfl, hlast⟩ := append_inj' heq rfl
      cases hlast
      exact hnow
    · exact hlater pending other hreached

section
variable {current : β} {pending : List β} {grown : β × List β} {regions : List β}

/-- What grew from a member passed by none stays apart from what grows from the rest. -/
theorem Absorbed.apart_of_notPassed (laws : Laws touches merge good within)
    (h : Absorbed touches merge within current pending grown) (hcurrent : good current)
    (hpending : ∀ b ∈ pending, good b) (hnot : NotPassed touches merge pending current)
    (hregions : ∀ region ∈ regions, ∃ seed ∈ grown.2, Grows touches merge grown.2 seed region) :
    ∀ region ∈ regions, touches grown.1 region = false := by
  intro region hregion
  obtain ⟨seed, hseed, hgrows⟩ := hregions region hregion
  refine hnot seed (h.subset hseed) (fun box hbox => ?_) _ _ h.grows (hgrows.mono h.subset)
  have hin := h.within_grown laws hcurrent hpending hbox
  cases htouches : touches box seed with
  | false => rfl
  | true =>
    have hwide := laws.widen (hbox.isGood laws hcurrent hpending)
      (h.grows.isGood laws hcurrent hpending) (hpending seed (h.subset hseed)) hin htouches
    rw [h.apart seed hseed] at hwide
    cases hwide

/-- Where what is set aside stays apart, growth does not lead out of it. -/
theorem Absorbed.notPassed_of_apart (laws : Laws touches merge good within)
    (h : Absorbed touches merge within current pending grown) (hcurrent : good current)
    (hpending : ∀ b ∈ pending, good b) (hgood : ∀ region ∈ regions, good region)
    (hcovers : ∀ b ∈ grown.2, ∃ region ∈ regions, within b region)
    (hfirst : ∀ region ∈ regions, touches grown.1 region = false)
    (hrest : regions.Pairwise fun a b => touches a b = false) :
    NotPassed touches merge pending current := by
  have hsymm : Std.Symm fun a b : β => touches a b = false := by
    refine ⟨fun a b hab => ?_⟩
    rw [← Bool.not_eq_true] at *
    exact fun hba => hab (laws.symm hba)
  have hsame : ∀ a ∈ regions, ∀ b ∈ regions, touches a b = true → a = b := by
    intro a ha b hb htouches
    by_contra hne
    rw [hrest.forall ha hb hne] at htouches
    cases htouches
  have hgrown := h.grows.isGood laws hcurrent hpending
  intro other hother haway box box' hbox hbox'
  -- the other lies in a region set aside later, and so does all that grows from it
  have hleft : other ∈ grown.2 := by
    rcases h.rest_or hother with hleft | ⟨-, taken, htaken, htouches⟩
    · exact hleft
    · rw [haway taken htaken] at htouches
      cases htouches
  obtain ⟨region, hregion, hin⟩ := hcovers other hleft
  have hclosed : ∀ b ∈ pending, touches region b = true → within b region := by
    intro b hb htouches
    have hgoodb := hpending b hb
    rcases h.rest_or hb with hb | ⟨hb, -⟩
    · obtain ⟨region', hregion', hin'⟩ := hcovers b hb
      have hwide := laws.widen hgoodb (hgood _ hregion') (hgood _ hregion) hin'
        (laws.symm htouches)
      rw [hsame region hregion region' hregion' (laws.symm hwide)]
      exact hin'
    · have hwide := laws.widen hgoodb hgrown (hgood _ hregion) hb (laws.symm htouches)
      rw [hfirst region hregion] at hwide
      cases hwide
  have hbox'in := hbox'.within_of_closed laws (hpending other hother) hpending
    (hgood _ hregion) hin hclosed
  have hboxin := h.within_grown laws hcurrent hpending hbox
  have hgoodbox := hbox.isGood laws hcurrent hpending
  have hgoodbox' := hbox'.isGood laws (hpending other hother) hpending
  cases htouches : touches box box' with
  | false => rfl
  | true =>
    have hwide := laws.symm (laws.widen hgoodbox' (hgood _ hregion) hgrown hbox'in
      (laws.symm (laws.widen hgoodbox hgrown hgoodbox' hboxin htouches)))
    rw [hfirst region hregion] at hwide
    cases hwide

end

/-- **What is set aside stays apart** exactly where no member is passed. -/
theorem apart_iff (laws : Laws touches merge good within) {turns : Nat} {start : List β}
    (hstart : ∀ b ∈ start, good b) (hturns : start.length ≤ turns) :
    (mergeAll touches merge turns start).Pairwise (fun a b => touches a b = false) ↔
      NeverPassed touches merge start := by
  induction turns generalizing start with
  | zero =>
    rw [length_eq_zero_iff.mp (Nat.le_zero.mp hturns)]
    exact ⟨fun _ => neverPassed_nil, fun _ => List.Pairwise.nil⟩
  | succ turns ih =>
    rcases eq_nil_or_concat start with rfl | ⟨rest, current, rfl⟩
    · rw [mergeAll_nil]
      exact ⟨fun _ => neverPassed_nil, fun _ => List.Pairwise.nil⟩
    · rw [concat_eq_append] at *
      rw [length_append, length_singleton] at hturns
      have hcurrent := hstart current (mem_append_right _ (mem_singleton.mpr rfl))
      have hrest : ∀ b ∈ rest, good b := fun b hb => hstart b (mem_append_left _ hb)
      have habsorbed := absorbed_absorb laws hcurrent hrest (Nat.le_refl _)
      have hleft : ∀ b ∈ (absorb touches merge rest.length current rest).2, good b :=
        fun b hb => hrest b (habsorbed.subset hb)
      have hlength : (absorb touches merge rest.length current rest).2.length ≤ turns :=
        Nat.le_trans (length_absorb _ _ _) (Nat.le_of_succ_le_succ hturns)
      obtain ⟨hcovers, hgrown⟩ := mergeAll_spec laws hleft hlength
      rw [mergeAll_snoc, pairwise_cons, neverPassed_snoc_iff, ih hleft hlength]
      refine and_congr_left fun hlater => ⟨fun hfirst => ?_, fun hnot => ?_⟩
      · exact habsorbed.notPassed_of_apart laws hcurrent hrest
          (mergeAll_good laws hleft hlength) hcovers hfirst ((ih hleft hlength).mpr hlater)
      · exact habsorbed.apart_of_notPassed laws hcurrent hrest hnot hgrown

/-! ## What merging adds up -/

section
variable {measure : β → Nat} {most : Nat}

theorem sum_absorb
    (hmerge : ∀ a b, measure a + measure b ≤ most → measure (merge a b) = measure a + measure b)
    {turns : Nat} {current : β} {pending : List β}
    (hmost : measure current + (pending.map measure).sum ≤ most) :
    measure (absorb touches merge turns current pending).1 +
        ((absorb touches merge turns current pending).2.map measure).sum =
      measure current + (pending.map measure).sum := by
  induction turns generalizing current pending with
  | zero => rfl
  | succ turns ih =>
    rw [absorb]
    cases hfind : pending.findIdx? (touches current) with
    | none => rfl
    | some i =>
      obtain ⟨hi, -, -⟩ := findIdx?_eq_some_iff_getElem.mp hfind
      have hget : pending[i]? = some pending[i] := getElem?_eq_getElem hi
      have hsum : (pending.map measure).sum =
          measure pending[i] + ((swapRemove pending i).map measure).sum := by
        rw [((perm_swapRemove hget).map measure).sum_nat, map_cons, sum_cons]
      have hmerged := hmerge current pending[i] (by omega)
      simp only [hget]
      rw [ih (by omega)]
      omega

/-- What merging adds up comes to the same, as long as it does not come to more than can be
added up. -/
theorem sum_mergeAll
    (hmerge : ∀ a b, measure a + measure b ≤ most → measure (merge a b) = measure a + measure b)
    {turns : Nat} {pending : List β} (hturns : pending.length ≤ turns)
    (hmost : (pending.map measure).sum ≤ most) :
    ((mergeAll touches merge turns pending).map measure).sum = (pending.map measure).sum := by
  induction turns generalizing pending with
  | zero =>
    rw [length_eq_zero_iff.mp (Nat.le_zero.mp hturns)]
    rfl
  | succ turns ih =>
    rcases eq_nil_or_concat pending with rfl | ⟨rest, current, rfl⟩
    · rw [mergeAll_nil]
    · rw [concat_eq_append] at *
      rw [length_append, length_singleton] at hturns
      rw [map_append, sum_append, map_singleton, sum_singleton] at *
      have habsorb := @sum_absorb _ touches merge _ _ hmerge rest.length current rest (by omega)
      rw [mergeAll_snoc, map_cons, sum_cons,
        ih (Nat.le_trans (length_absorb _ _ _) (by omega)) (by omega)]
      omega

end

end MergingWorklist
