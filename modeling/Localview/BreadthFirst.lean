import Mathlib.Data.List.Shortlex
import Mathlib.Data.List.Induction
import Mathlib.Data.List.Nodup

/-! # Breadth-first search

Nodes with numbered steps between them: a word of numbers leads from the root to a node, or
nowhere.  A search goes over a queue of words, takes the steps from each in order of their
numbers and keeps the word by which a node is found first.

Of the words that lead to a node that one is the first: there is none with fewer letters,
and among those with as many the letters are compared one after another.  Up to the depth it
is limited to, the search finds every node, by its first word.
-/
namespace BreadthFirst
open List Function

/-- A word that comes before another: a shorter one, or the smaller of the same length. -/
def Before (word word' : List Nat) : Prop := List.Shortlex (· < ·) word word'

theorem before_iff {word word' : List Nat} : Before word word' ↔
    word.length < word'.length ∨ word.length = word'.length ∧ List.Lex (· < ·) word word' :=
  shortlex_def

theorem Before.trans {a b c : List Nat} (hab : Before a b) (hbc : Before b c) : Before a c := by
  rw [before_iff] at *
  rcases hab with hab | ⟨hlen, hab⟩
  · rcases hbc with hbc | ⟨hlen', -⟩
    · exact .inl (by omega)
    · exact .inl (by omega)
  · rcases hbc with hbc | ⟨hlen', hbc⟩
    · exact .inl (by omega)
    · have hlt : a < c := lt_trans (show a < b from hab) (show b < c from hbc)
      exact .inr ⟨hlen.trans hlen', hlt⟩

variable {a b : List Nat}

theorem Before.asymm (hab : Before a b) : ¬ Before b a :=
  Std.Asymm.asymm (r := List.Shortlex (· < ·)) a b hab

theorem Before.irrefl {a : List Nat} : ¬ Before a a := fun h => h.asymm h

theorem before_total (a b : List Nat) : Before a b ∨ a = b ∨ Before b a := by
  by_contra h
  push Not at h
  exact h.2.1 (Std.Trichotomous.trichotomous (r := List.Shortlex (· < ·)) a b h.1 h.2.2)

theorem Before.length_le (h : Before a b) : a.length ≤ b.length := by
  rcases before_iff.mp h with h | h <;> omega

theorem before_snoc_self (word : List Nat) (i : Nat) : Before word (word ++ [i]) := by
  rw [before_iff, length_append, length_singleton]
  exact .inl (Nat.lt_succ_self _)

theorem before_snoc_snoc (word : List Nat) {i j : Nat} (h : i < j) :
    Before (word ++ [i]) (word ++ [j]) := by
  rw [before_iff]
  exact .inr ⟨by simp, List.Lex.append_left _ (.rel h) word⟩

theorem lex_snoc (h : List.Lex (· < ·) a b) (hlen : a.length = b.length) (i j : Nat) :
    List.Lex (· < ·) (a ++ [i]) (b ++ [j]) := by
  induction h with
  | nil => cases hlen
  | rel h => exact .rel h
  | cons _ ih => exact .cons (ih (Nat.succ.inj hlen))

/-- Words are compared before their last letters are. -/
theorem Before.snoc (h : Before a b) (i j : Nat) :
    Before (a ++ [i]) (b ++ [j]) := by
  rw [before_iff] at *
  simp only [length_append, length_singleton, Nat.add_lt_add_iff_right,
    Nat.add_right_cancel_iff]
  rcases h with h | ⟨hlen, hlex⟩
  · exact .inl h
  · exact .inr ⟨hlen, lex_snoc hlex hlen i j⟩

section
variable {κ : Type*} (step : κ → Nat → Option κ) (root : κ)

/-- A word of edge numbers leads from the root to a node. -/
inductive Leads : List Nat → κ → Prop
  | root : Leads [] root
  | snoc {word : List Nat} {node node' : κ} {i : Nat} : Leads word node →
      step node i = some node' → Leads (word ++ [i]) node'

/-- The first word that leads to a node. -/
structure IsFirst (word : List Nat) (node : κ) : Prop where
  leads : Leads step root word node
  least : ∀ other, Leads step root other node → other = word ∨ Before word other

variable {step root}

variable {node : κ}

theorem leads_nil_iff : Leads step root [] node ↔ node = root := by
  constructor
  · intro h
    generalize hword : ([] : List Nat) = word at h
    cases h with
    | root => rfl
    | snoc => simp at hword
  · rintro rfl
    exact .root

variable {word : List Nat}

theorem leads_snoc_iff {i : Nat} :
    Leads step root (word ++ [i]) node ↔
      ∃ node', Leads step root word node' ∧ step node' i = some node := by
  constructor
  · intro h
    generalize hsnoc : word ++ [i] = snoc at h
    cases h with
    | root => simp at hsnoc
    | snoc hleads hstep =>
      obtain ⟨rfl, hi⟩ := append_inj' hsnoc rfl
      cases hi
      exact ⟨_, hleads, hstep⟩
  · rintro ⟨node', hleads, hstep⟩
    exact .snoc hleads hstep

/-- A node that is reached has a first word, which is no longer than any. -/
theorem exists_isFirst (h : Leads step root word node) :
    ∃ first, IsFirst step root first node ∧ first.length ≤ word.length := by
  have hwf : WellFounded Before := List.Shortlex.wf wellFounded_lt
  let words : Set (List Nat) := {word | Leads step root word node}
  let first := hwf.min words ⟨word, h⟩
  have hmem : Leads step root first node := hwf.min_mem words ⟨word, h⟩
  have hleast : ∀ other, Leads step root other node → other = first ∨ Before first other := by
    intro other hother
    rcases before_total first other with hlt | heq | hgt
    · exact .inr hlt
    · exact .inl heq.symm
    · exact absurd hgt (hwf.not_lt_min words hother)
  refine ⟨first, ⟨hmem, hleast⟩, ?_⟩
  rcases hleast word h with heq | hlt
  · exact heq ▸ Nat.le_refl _
  · exact hlt.length_le

/-- The word of a first word without its last letter is first. -/
theorem IsFirst.before_last {i : Nat} (h : IsFirst step root (word ++ [i]) node) :
    ∃ node', IsFirst step root word node' ∧ step node' i = some node := by
  obtain ⟨node', hleads, hstep⟩ := leads_snoc_iff.mp h.leads
  refine ⟨node', ⟨hleads, fun other hother => ?_⟩, hstep⟩
  rcases before_total other word with hlt | heq | hgt
  · -- then that word and the last letter would come before as well
    have hsooner := hlt.snoc i i
    rcases h.least _ (.snoc hother hstep) with hsame | hlater
    · exact absurd (hsame ▸ hsooner) Before.irrefl
    · exact absurd hlater hsooner.asymm
  · exact .inl heq
  · exact .inr hgt

/-! ## The search -/

/-- The words gone over and those to go over, each with the node it found. -/
structure Search (κ : Type*) where
  (done waiting : List (List Nat × κ))

def Search.found (s : Search κ) : List (List Nat × κ) := s.done ++ s.waiting

variable [DecidableEq κ] (step)

def consider (word : List Nat) (node : κ) (s : Search κ) (i : Nat) : Search κ :=
  match step node i with
  | none => s
  | some node' =>
    if s.found.any fun entry => entry.2 = node' then s
    else { s with waiting := s.waiting ++ [(word ++ [i], node')] }

/-- The first so many steps from the node of a word. -/
def considerTo (word : List Nat) (node : κ) (s : Search κ) (k : Nat) : Search κ :=
  (List.range k).foldl (consider step word node) s

/-- One turn: the next word is gone over, if it is not as long as the limit. -/
def turn (width limit : Nat) (s : Search κ) : Search κ :=
  match s.waiting with
  | [] => s
  | (word, node) :: rest =>
    let popped : Search κ := ⟨s.done ++ [(word, node)], rest⟩
    if limit ≤ word.length then popped else considerTo step word node popped width

variable (root) in
/-- What holds of a search, with some steps from words gone over still to be taken.  The
words found are in order, lead to different nodes, and come from words gone over; a step that
was taken led to a node found by a word no later. -/
structure Inv (limit : Nat) (todo : List Nat × κ → Nat → Prop) (s : Search κ) : Prop where
  leads : ∀ entry ∈ s.found, Leads step root entry.1 entry.2
  sorted : (s.found.map Prod.fst).Pairwise Before
  distinct : (s.found.map Prod.snd).Nodup
  rooted : ([], root) ∈ s.found
  origin : ∀ entry ∈ s.waiting, entry.1 = [] ∨ ∃ i, ∃ parent ∈ s.done, entry.1 = parent.1 ++ [i]
  bounded : ∀ entry ∈ s.found, entry.1.length ≤ limit
  onward : ∀ entry ∈ s.done, entry.1.length < limit → ∀ i node', ¬ todo entry i →
    step entry.2 i = some node' → ∃ other ∈ s.found, other.2 = node' ∧
      (other.1 = entry.1 ++ [i] ∨ Before other.1 (entry.1 ++ [i]))

/-- While the steps from a word are taken: those numbered from `k` on are left, and all that
was found was found by words before the one that the next step would give. -/
structure Mid (root : κ) (limit : Nat) (current : List Nat × κ) (k : Nat) (s : Search κ) :
    Prop where
  inv : Inv step root limit (fun entry i => entry = current ∧ k ≤ i) s
  isDone : current ∈ s.done
  short : current.1.length < limit
  below : ∀ entry ∈ s.found, Before entry.1 (current.1 ++ [k])

variable {step}

omit [DecidableEq κ] in
theorem found_push (s : Search κ) (entry : List Nat × κ) :
    ({ s with waiting := s.waiting ++ [entry] } : Search κ).found = s.found ++ [entry] := by
  rw [Search.found, Search.found, append_assoc]

variable {current : List Nat × κ}

theorem Mid.onward_next {limit k : Nat} {s s' : Search κ}
    (h : Mid step root limit current k s) (hdone : s'.done = s.done)
    (hfound : s.found ⊆ s'.found)
    (hstep : ∀ node', step current.2 k = some node' → ∃ other ∈ s'.found, other.2 = node' ∧
      (other.1 = current.1 ++ [k] ∨ Before other.1 (current.1 ++ [k]))) :
    ∀ entry ∈ s'.done, entry.1.length < limit → ∀ i node',
      ¬ (entry = current ∧ k + 1 ≤ i) → step entry.2 i = some node' →
        ∃ other ∈ s'.found, other.2 = node' ∧
          (other.1 = entry.1 ++ [i] ∨ Before other.1 (entry.1 ++ [i])) := by
  intro entry hentry hshort i node' htodo hnode
  rw [hdone] at hentry
  by_cases hnow : entry = current ∧ k ≤ i
  · obtain ⟨rfl, hi⟩ := hnow
    have hik : i = k := by
      by_contra hne
      exact htodo ⟨rfl, by omega⟩
    subst hik
    exact hstep node' hnode
  · obtain ⟨other, hother, hspec⟩ := h.inv.onward entry hentry hshort i node' hnow hnode
    exact ⟨other, hfound hother, hspec⟩

variable {s : Search κ}

/-- Taking the next step. -/
theorem Mid.consider {limit k : Nat} (h : Mid step root limit current k s) :
    Mid step root limit current (k + 1) (consider step current.1 current.2 s k) := by
  have hlater : ∀ entry ∈ s.found, Before entry.1 (current.1 ++ [k + 1]) := fun entry hentry =>
    (h.below entry hentry).trans (before_snoc_snoc _ (Nat.lt_succ_self k))
  rw [BreadthFirst.consider]
  cases hnode : step current.2 k with
  | none =>
    refine ⟨{ h.inv with onward := h.onward_next rfl (List.Subset.refl _) ?_ }, h.isDone,
      h.short, hlater⟩
    intro node' hnode'
    rw [hnode] at hnode'
    cases hnode'
  | some node' =>
    simp only
    split_ifs with hany
    · -- found before, by a word before this one
      refine ⟨{ h.inv with onward := h.onward_next rfl (List.Subset.refl _) ?_ }, h.isDone,
        h.short, hlater⟩
      intro node'' hnode''
      rw [hnode] at hnode''
      cases hnode''
      obtain ⟨other, hother, heq⟩ := any_eq_true.mp hany
      exact ⟨other, hother, of_decide_eq_true heq, .inr (h.below other hother)⟩
    · have hfresh : node' ∉ s.found.map Prod.snd := by
        intro hmem
        obtain ⟨other, hother, rfl⟩ := mem_map.mp hmem
        exact hany (any_eq_true.mpr ⟨other, hother, decide_eq_true rfl⟩)
      let pushed : Search κ := { s with waiting := s.waiting ++ [(current.1 ++ [k], node')] }
      have hfound : pushed.found = s.found ++ [(current.1 ++ [k], node')] := found_push s _
      have hsub : s.found ⊆ pushed.found := by
        rw [hfound]
        exact subset_append_left _ _
      have hmem : ∀ {entry}, entry ∈ pushed.found → entry ∈ s.found ∨
          entry = (current.1 ++ [k], node') := by
        intro entry hentry
        rw [hfound, mem_append, mem_singleton] at hentry
        exact hentry
      have hcurrent : current ∈ s.found := mem_append_left _ h.isDone
      refine ⟨⟨fun entry hentry => ?_, ?_, ?_, hsub h.inv.rooted, fun entry hentry => ?_,
        fun entry hentry => ?_, h.onward_next rfl hsub ?_⟩, h.isDone, h.short,
        fun entry hentry => ?_⟩
      · rcases hmem hentry with hentry | rfl
        · exact h.inv.leads entry hentry
        · exact .snoc (h.inv.leads current hcurrent) hnode
      · rw [hfound, map_append, pairwise_append]
        refine ⟨h.inv.sorted, pairwise_singleton _ _, fun word hword last hlast => ?_⟩
        obtain ⟨entry, hentry, rfl⟩ := mem_map.mp hword
        rw [mem_singleton.mp hlast]
        exact h.below entry hentry
      · rw [hfound, map_append]
        refine pairwise_append.mpr ⟨h.inv.distinct, pairwise_singleton _ _,
          fun other hother last hlast heq => hfresh ?_⟩
        rw [map_singleton, mem_singleton] at hlast
        rw [heq, hlast] at hother
        exact hother
      · rcases mem_append.mp hentry with hentry | hentry
        · exact h.inv.origin entry hentry
        · rw [mem_singleton.mp hentry]
          exact .inr ⟨k, current, h.isDone, rfl⟩
      · rcases hmem hentry with hentry | rfl
        · exact h.inv.bounded entry hentry
        · rw [length_append, length_singleton]
          exact h.short
      · intro node'' hnode''
        rw [hnode] at hnode''
        cases hnode''
        refine ⟨(current.1 ++ [k], node'), ?_, rfl, .inl rfl⟩
        rw [hfound]
        exact mem_append_right _ (mem_singleton.mpr rfl)
      · rcases hmem hentry with hentry | rfl
        · exact hlater entry hentry
        · exact before_snoc_snoc _ (Nat.lt_succ_self k)

/-- Taking the steps in order. -/
theorem Mid.considerTo {limit k : Nat} (h : Mid step root limit current 0 s) :
    Mid step root limit current k (considerTo step current.1 current.2 s k) := by
  induction k with
  | zero => exact h
  | succ k ih =>
    rw [BreadthFirst.considerTo, range_succ, foldl_append]
    exact ih.consider

/-- No step from a word gone over is left. -/
def Settled (step : κ → Nat → Option κ) (root : κ) (limit : Nat) (s : Search κ) : Prop :=
  Inv step root limit (fun _ _ => False) s

omit [DecidableEq κ] in
theorem settled_start (limit : Nat) : Settled step root limit ⟨[], [([], root)]⟩ where
  leads entry hentry := by
    rw [mem_singleton.mp hentry]
    exact .root
  sorted := pairwise_singleton _ _
  distinct := pairwise_singleton _ _
  rooted := mem_singleton.mpr rfl
  origin entry hentry := .inl (by rw [mem_singleton.mp hentry])
  bounded entry hentry := by
    rw [mem_singleton.mp hentry]
    exact Nat.zero_le _
  onward _ hentry := nomatch hentry

omit [DecidableEq κ] in
theorem found_pop (done rest : List (List Nat × κ)) (entry : List Nat × κ) :
    (⟨done ++ [entry], rest⟩ : Search κ).found = (⟨done, entry :: rest⟩ : Search κ).found := by
  rw [Search.found, Search.found, append_assoc, singleton_append]

variable {done rest : List (List Nat × κ)} {entry : List Nat × κ}

omit [DecidableEq κ] in
/-- A word taken off the queue, its steps all still to be taken. -/
theorem Settled.pop {limit : Nat} (h : Settled step root limit ⟨done, entry :: rest⟩) :
    Inv step root limit (fun other _ => other = entry) ⟨done ++ [entry], rest⟩ := by
  have hfound := found_pop done rest entry
  refine ⟨hfound ▸ h.leads, hfound ▸ h.sorted, hfound ▸ h.distinct, hfound ▸ h.rooted,
    fun other hother => ?_, hfound ▸ h.bounded, fun other hother hshort i node' htodo hnode => ?_⟩
  · rcases h.origin other (mem_cons_of_mem _ hother) with hnil | ⟨i, parent, hparent, heq⟩
    · exact .inl hnil
    · exact .inr ⟨i, parent, mem_append_left _ hparent, heq⟩
  · rcases mem_append.mp hother with hother | hother
    · rw [hfound]
      exact h.onward other hother hshort i node' id hnode
    · exact absurd (mem_singleton.mp hother) htodo

omit [DecidableEq κ] in
/-- All that was found so far was found before what the word's steps find. -/
theorem Settled.below {limit : Nat} (h : Settled step root limit ⟨done, entry :: rest⟩) :
    ∀ other ∈ (⟨done ++ [entry], rest⟩ : Search κ).found, Before other.1 (entry.1 ++ [0]) := by
  have hsorted := h.sorted
  rw [Search.found, map_append, map_cons, pairwise_append,
    pairwise_cons] at hsorted
  obtain ⟨-, ⟨hrest, -⟩, hdone⟩ := hsorted
  have hbefore : ∀ other ∈ done, Before other.1 entry.1 := fun other hother =>
    hdone _ (mem_map_of_mem hother) _ mem_cons_self
  intro other hother
  rw [found_pop] at hother
  rcases mem_append.mp hother with hother | hother
  · exact (hbefore other hother).trans (before_snoc_self _ _)
  · rcases mem_cons.mp hother with rfl | hother
    · exact before_snoc_self _ _
    · rcases h.origin other (mem_cons_of_mem _ hother) with hnil | ⟨i, parent, hparent, heq⟩
      · -- the empty word comes before all others, so it does not wait behind one
        have hlater := hrest _ (mem_map_of_mem hother)
        rw [hnil] at hlater
        exact absurd hlater not_shortlex_nil_right
      · rw [heq]
        exact (hbefore parent hparent).snoc i 0

omit [DecidableEq κ] in
/-- A word shorter than the limit taken off the queue, none of its steps taken. -/
theorem Settled.mid {limit : Nat} (h : Settled step root limit ⟨done, entry :: rest⟩)
    (hshort : entry.1.length < limit) :
    Mid step root limit entry 0 ⟨done ++ [entry], rest⟩ := by
  refine ⟨{ h.pop with onward := fun other hother hlength i node' htodo => ?_ },
    mem_append_right _ (mem_singleton.mpr rfl), hshort, h.below⟩
  exact h.pop.onward other hother hlength i node' fun heq => htodo ⟨heq, Nat.zero_le i⟩

variable {width limit : Nat}

/-- **A turn** leaves no step behind. -/
theorem Settled.turn (hwidth : ∀ node i, step node i ≠ none → i < width)
    (h : Settled step root limit s) :
    Settled step root limit (turn step width limit s) := by
  obtain ⟨done, waiting⟩ := s
  cases waiting with
  | nil => exact h
  | cons entry rest =>
    obtain ⟨word, node⟩ := entry
    have hpop := h.pop
    simp only [BreadthFirst.turn]
    split_ifs with hlong
    · refine { hpop with onward := fun other hother hshort i node' _ hnode => ?_ }
      refine hpop.onward other hother hshort i node' (fun heq => ?_) hnode
      rw [heq] at hshort
      exact absurd hshort (Nat.not_lt.mpr hlong)
    · have hmid := h.mid (Nat.lt_of_not_le hlong)
      have hall := hmid.considerTo (k := width)
      refine { hall.inv with onward := fun other hother hshort i node' _ hnode => ?_ }
      refine hall.inv.onward other hother hshort i node' (fun htodo => ?_) hnode
      have hi := hwidth other.2 i (by rw [hnode]; exact Option.some_ne_none _)
      omega

/-! ## The search ends -/

def unfound (nodes : List κ) (s : Search κ) : List κ :=
  nodes.filter fun node => !s.found.any fun entry => entry.2 = node

/-- At most how many turns are left. -/
def turnsLeft (nodes : List κ) (s : Search κ) : Nat := (unfound nodes s).length + s.waiting.length

variable {nodes : List κ}

theorem mem_unfound :
    node ∈ unfound nodes s ↔ node ∈ nodes ∧ node ∉ s.found.map Prod.snd := by
  rw [unfound, mem_filter, Bool.not_eq_true', any_eq_false, mem_map]
  refine and_congr_right fun _ => ?_
  simp only [decide_eq_true_eq, not_exists, not_and]

theorem turnsLeft_consider (hnodes : ∀ node i node', step node i = some node' → node' ∈ nodes)
    (word : List Nat) (node : κ) (s : Search κ) (i : Nat) :
    turnsLeft nodes (consider step word node s i) ≤ turnsLeft nodes s := by
  rw [BreadthFirst.consider]
  cases hnode : step node i with
  | none => exact Nat.le_refl _
  | some node' =>
    simp only
    split_ifs with hany
    · exact Nat.le_refl _
    · have hfresh : node' ∈ unfound nodes s := by
        refine mem_unfound.mpr ⟨hnodes _ _ _ hnode, fun hmem => hany ?_⟩
        obtain ⟨other, hother, rfl⟩ := mem_map.mp hmem
        exact any_eq_true.mpr ⟨other, hother, decide_eq_true rfl⟩
      let pushed : Search κ := { s with waiting := s.waiting ++ [(word ++ [i], node')] }
      have hfound : pushed.found = s.found ++ [(word ++ [i], node')] := found_push s _
      have hsub : (unfound nodes pushed).Sublist (unfound nodes s) := by
        refine monotone_filter_right nodes fun other hother => ?_
        rw [hfound, any_append, Bool.not_or, Bool.and_eq_true] at hother
        exact hother.1
      have hlt : (unfound nodes pushed).length < (unfound nodes s).length := by
        refine Nat.lt_of_not_le fun hle => ?_
        rw [← hsub.eq_of_length_le hle, mem_unfound, hfound, map_append] at hfresh
        exact hfresh.2 (mem_append_right _ (mem_singleton.mpr rfl))
      have hlength : (s.waiting ++ [(word ++ [i], node')]).length = s.waiting.length + 1 :=
        length_append
      change (unfound nodes pushed).length + (s.waiting ++ [(word ++ [i], node')]).length ≤ _
      rw [turnsLeft]
      omega

theorem turnsLeft_considerTo (hnodes : ∀ node i node', step node i = some node' → node' ∈ nodes)
    (word : List Nat) (node : κ) (s : Search κ) (k : Nat) :
    turnsLeft nodes (considerTo step word node s k) ≤ turnsLeft nodes s := by
  induction k with
  | zero => exact Nat.le_refl _
  | succ k ih =>
    rw [considerTo, range_succ, foldl_append]
    exact Nat.le_trans (turnsLeft_consider hnodes word node _ k) ih

theorem turnsLeft_turn (hnodes : ∀ node i node', step node i = some node' → node' ∈ nodes)
    (h : s.waiting ≠ []) :
    turnsLeft nodes (turn step width limit s) < turnsLeft nodes s := by
  obtain ⟨done, waiting⟩ := s
  cases waiting with
  | nil => exact absurd rfl h
  | cons entry rest =>
    obtain ⟨word, node⟩ := entry
    have hpop : turnsLeft nodes ⟨done ++ [(word, node)], rest⟩ <
        turnsLeft nodes ⟨done, (word, node) :: rest⟩ := by
      rw [turnsLeft, turnsLeft, unfound, found_pop]
      exact Nat.add_lt_add_left (Nat.lt_succ_self _) _
    simp only [turn]
    split_ifs with hlong
    · exact hpop
    · exact Nat.lt_of_le_of_lt (turnsLeft_considerTo hnodes word node _ width) hpop

/-- With no word waiting nothing changes any more. -/
theorem turn_of_waiting_nil (h : s.waiting = []) :
    turn step width limit s = s := by
  rw [turn, h]

/-- After enough turns no word is waiting. -/
theorem waiting_iterate (hnodes : ∀ node i node', step node i = some node' → node' ∈ nodes)
    (n : Nat) (s : Search κ) (hle : turnsLeft nodes s ≤ n) :
    ((turn step width limit)^[n] s).waiting = [] := by
  induction n generalizing s with
  | zero =>
    apply length_eq_zero_iff.mp
    rw [turnsLeft] at hle
    rw [iterate_zero_apply]
    omega
  | succ n ih =>
    by_cases hnone : s.waiting = []
    · rw [iterate_fixed (turn_of_waiting_nil hnone)]
      exact hnone
    · have hlt : turnsLeft nodes (turn step width limit s) < turnsLeft nodes s :=
        turnsLeft_turn hnodes hnone
      rw [iterate_succ_apply]
      apply ih
      omega

omit [DecidableEq κ] in
/-- **The search finds each node by its first word**, and all that have one within the limit. -/
theorem Settled.mem_done_iff {limit : Nat} (h : Settled step root limit s) (hend : s.waiting = []) :
    (word, node) ∈ s.done ↔ IsFirst step root word node ∧ word.length ≤ limit := by
  have hfound : s.found = s.done := by rw [Search.found, hend, append_nil]
  have hforward : ∀ (word : List Nat) (node : κ), IsFirst step root word node →
      word.length ≤ limit → (word, node) ∈ s.done := by
    intro word
    -- the first words of the nodes on the way are its beginnings
    induction word using List.reverseRecOn with
    | nil =>
      intro node hfirst _
      rw [leads_nil_iff.mp hfirst.leads, ← hfound]
      exact h.rooted
    | append_singleton word i ih =>
      intro node hfirst hlength
      rw [length_append, length_singleton] at hlength
      obtain ⟨node', hfirst', hstep⟩ := hfirst.before_last
      have hdone := ih node' hfirst' (by omega)
      obtain ⟨⟨other, _⟩, hother, rfl, hspec⟩ :=
        h.onward _ hdone (by simp only; omega) i node id hstep
      have hleads := h.leads _ hother
      rw [hfound] at hother
      rcases hspec with heq | hlt
      · exact heq ▸ hother
      · rcases hfirst.least other hleads with heq | hgt
        · exact heq ▸ hother
        · exact absurd hgt hlt.asymm
  constructor
  · intro hmem
    rw [← hfound] at hmem
    have hbound := h.bounded _ hmem
    obtain ⟨first, hfirst, hlength⟩ := exists_isFirst (h.leads _ hmem)
    have hdone := hforward first node hfirst (Nat.le_trans hlength hbound)
    rw [← hfound] at hdone
    -- the node was found once
    have hsame := inj_on_of_nodup_map h.distinct hdone hmem rfl
    rw [Prod.mk.injEq] at hsame
    exact ⟨hsame.1 ▸ hfirst, hbound⟩
  · rintro ⟨hfirst, hlength⟩
    exact hforward word node hfirst hlength

end

end BreadthFirst
