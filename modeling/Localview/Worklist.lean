import Mathlib.Data.Prod.Lex
import Localview.OrderedSet

/-! # Worklists

What is reached from an item by going over a queue: an item taken off it that was not
visited is, and what comes next to it is put at the end.  Any item may come next, the graph
may have cycles and dead ends; where only finitely many items have others next to them the
loop ends, and has visited what is reachable and nothing else.
-/
namespace Worklist
open List Bool OrderedSet
variable {α : Type*} [LinearOrder α]

/-- What was seen, and what waits. -/
structure State (α : Type*) [LinearOrder α] where
  visited : OrderedSet α
  queue : List α

/-- One turn of the loop, if the queue is not empty. -/
def step (next : α → List α) (s : State α) : Option (State α) :=
  match s.queue with
  | [] => none
  | item :: rest =>
    if s.visited.contains item then some ⟨s.visited, rest⟩
    else some ⟨s.visited.insert item, rest ++ next item⟩

variable {next : α → List α}

/-- What a turn does: it drops an item visited before, or visits one. -/
theorem step_eq_some {s s' : State α} (h : step next s = some s') :
    ∃ item rest, s.queue = item :: rest ∧
      (item ∈ s.visited.toList ∧ s' = ⟨s.visited, rest⟩ ∨
        item ∉ s.visited.toList ∧ s' = ⟨s.visited.insert item, rest ++ next item⟩) := by
  obtain ⟨visited, queue⟩ := s
  cases queue with
  | nil => cases h
  | cons item rest =>
    refine ⟨item, rest, rfl, ?_⟩
    simp only [step] at h
    split_ifs at h with hvisited
    · exact .inl ⟨OrderedSet.contains_iff.mp hvisited, (Option.some.inj h).symm⟩
    · exact .inr ⟨fun hmem => hvisited (OrderedSet.contains_iff.mpr hmem),
        (Option.some.inj h).symm⟩

theorem step_eq_none {s : State α} : step next s = none ↔ s.queue = [] := by
  obtain ⟨visited, queue⟩ := s
  cases queue with
  | nil => exact iff_of_true rfl rfl
  | cons item rest =>
    refine iff_of_false (fun h => ?_) (cons_ne_nil _ _)
    simp only [step] at h
    split_ifs at h

/-! ## The loop ends -/

def unvisited (nodes : List α) (s : State α) : List α :=
  nodes.filter fun item => !s.visited.contains item

theorem unvisited_insert (nodes : List α) (visited : OrderedSet α) (item : α)
    (queue queue' : List α) :
    (unvisited nodes ⟨visited.insert item, queue⟩).Sublist
      (unvisited nodes ⟨visited, queue'⟩) := by
  refine monotone_filter_right nodes fun other h => ?_
  rw [not_eq_true', ← not_eq_true, OrderedSet.contains_iff] at h ⊢
  exact fun hmem => h (mem_insert.mpr (.inr hmem))

variable {nodes : List α}

theorem mem_unvisited {s : State α} {item : α} :
    item ∈ unvisited nodes s ↔ item ∈ nodes ∧ item ∉ s.visited.toList := by
  rw [unvisited, mem_filter, not_eq_true', ← not_eq_true, OrderedSet.contains_iff]

/-- How far the loop is from its end: items to visit, then items in the queue. -/
def distance (nodes : List α) (s : State α) : Nat ×ₗ Nat :=
  toLex ((unvisited nodes s).length, s.queue.length)

/-- A turn visits an item that has others next to it, or shortens the queue. -/
theorem distance_step (hnodes : ∀ item, next item ≠ [] → item ∈ nodes) {s s' : State α}
    (h : step next s = some s') : distance nodes s' < distance nodes s := by
  obtain ⟨visited, queue⟩ := s
  obtain ⟨item, rest, hqueue, hstep⟩ := step_eq_some h
  simp only at hqueue
  subst hqueue
  rw [distance, distance, Prod.Lex.toLex_lt_toLex]
  rcases hstep with ⟨-, rfl⟩ | ⟨hfresh, rfl⟩
  · exact .inr ⟨rfl, Nat.lt_succ_self _⟩
  · have hsub := unvisited_insert nodes visited item (rest ++ next item) (item :: rest)
    by_cases hnode : item ∈ nodes
    · refine .inl (Nat.lt_of_not_le fun hle => ?_)
      have hmem : item ∈ unvisited nodes ⟨visited, item :: rest⟩ :=
        mem_unvisited.mpr ⟨hnode, hfresh⟩
      rw [← hsub.eq_of_length_le hle] at hmem
      exact (mem_unvisited.mp hmem).2 (mem_insert.mpr (.inl rfl))
    · have hdead : next item = [] := by
        by_contra hsome
        exact hnode (hnodes item hsome)
      rw [hdead, append_nil]
      rcases Nat.lt_or_eq_of_le hsub.length_le with hlt | heq
      · rw [hdead, append_nil] at hlt
        exact .inl hlt
      · rw [hdead, append_nil] at heq
        exact .inr ⟨heq, Nat.lt_succ_self _⟩

/-- **The loop ends**, from wherever it is begun. -/
theorem wellFounded_step (hnodes : ∀ item, next item ≠ [] → item ∈ nodes) :
    WellFounded fun s' s : State α => step next s = some s' :=
  Subrelation.wf (fun h => distance_step hnodes h) (InvImage.wf (distance nodes) wellFounded_lt)

/-- What is visited when the queue is empty. -/
def run (next : α → List α) (nodes : List α) (hnodes : ∀ item, next item ≠ [] → item ∈ nodes)
    (s : State α) : OrderedSet α :=
  match _h : step next s with
  | none => s.visited
  | some s' => run next nodes hnodes s'
termination_by distance nodes s
decreasing_by exact distance_step hnodes _h

/-- A run is the turns of the loop until the queue is empty. -/
theorem run_reached (hnodes : ∀ item, next item ≠ [] → item ∈ nodes) (s : State α) :
    ∃ last, Relation.ReflTransGen (fun s s' => step next s = some s') s last ∧
      last.queue = [] ∧ run next nodes hnodes s = last.visited := by
  induction s using run.induct next nodes hnodes with
  | case1 s hend => exact ⟨s, .refl, step_eq_none.mp hend, by rw [run, hend]⟩
  | case2 s s' hstep ih =>
    obtain ⟨last, hturns, hempty, hlast⟩ := ih
    exact ⟨last, hturns.head hstep, hempty, by rw [run, hstep]; exact hlast⟩

/-! ## What is visited -/

/-- An item is reached from another by going to what is next, any number of times. -/
def Reachable (next : α → List α) : α → α → Prop :=
  Relation.ReflTransGen fun item item' => item' ∈ next item

/-- What holds on the way: what is visited or queued is reachable, the root is one of them,
and so is what comes next to an item visited. -/
structure OnTheWay (next : α → List α) (root : α) (s : State α) : Prop where
  visited : ∀ item ∈ s.visited.toList, Reachable next root item
  queued : ∀ item ∈ s.queue, Reachable next root item
  root : root ∈ s.visited.toList ∨ root ∈ s.queue
  onward : ∀ item ∈ s.visited.toList, ∀ item' ∈ next item,
    item' ∈ s.visited.toList ∨ item' ∈ s.queue

theorem onTheWay_start (root : α) : OnTheWay next root ⟨.empty, [root]⟩ where
  visited _ hmem := nomatch hmem
  queued _ hmem := mem_singleton.mp hmem ▸ .refl
  root := .inr mem_cons_self
  onward _ hmem := nomatch hmem

theorem OnTheWay.step {root : α} {s s' : State α} (hinv : OnTheWay next root s)
    (h : step next s = some s') : OnTheWay next root s' := by
  obtain ⟨visited, queue⟩ := s
  obtain ⟨item, rest, hqueue, hstep⟩ := step_eq_some h
  simp only at hqueue
  subst hqueue
  obtain ⟨hvisited, hqueued, hroot, honward⟩ := hinv
  rcases hstep with ⟨hitem, rfl⟩ | ⟨-, rfl⟩
  · refine ⟨hvisited, fun other hother => hqueued other (mem_cons_of_mem _ hother), ?_,
      fun other hother other' hother' => ?_⟩
    · rcases hroot with hroot | hroot
      · exact .inl hroot
      · rcases mem_cons.mp hroot with rfl | hroot
        · exact .inl hitem
        · exact .inr hroot
    · rcases honward other hother other' hother' with hmem | hmem
      · exact .inl hmem
      · rcases mem_cons.mp hmem with rfl | hmem
        · exact .inl hitem
        · exact .inr hmem
  · have hreached : Reachable next root item := hqueued item mem_cons_self
    -- what stood in the queue is the item itself, or still stands there
    have hkept : ∀ other, other ∈ visited.toList ∨ other ∈ item :: rest →
        other ∈ (visited.insert item).toList ∨ other ∈ rest ++ next item := by
      rintro other (hmem | hmem)
      · exact .inl (mem_insert.mpr (.inr hmem))
      · rcases mem_cons.mp hmem with rfl | hmem
        · exact .inl (mem_insert.mpr (.inl rfl))
        · exact .inr (mem_append_left _ hmem)
    refine ⟨fun other hother => ?_, fun other hother => ?_, hkept root hroot,
      fun other hother other' hother' => ?_⟩
    · rcases mem_insert.mp hother with rfl | hother
      · exact hreached
      · exact hvisited other hother
    · rcases mem_append.mp hother with hother | hother
      · exact hqueued other (mem_cons_of_mem _ hother)
      · exact hreached.tail hother
    · rcases mem_insert.mp hother with rfl | hother
      · exact .inr (mem_append_right _ hother')
      · exact hkept other' (honward other hother other' hother')

/-- With nothing queued the visited items are the reachable ones. -/
theorem OnTheWay.mem_iff {root : α} {s : State α} (hinv : OnTheWay next root s)
    (hqueue : s.queue = []) {item : α} :
    item ∈ s.visited.toList ↔ Reachable next root item := by
  obtain ⟨hvisited, -, hroot, honward⟩ := hinv
  rw [hqueue] at hroot honward
  refine ⟨hvisited item, fun hreach => ?_⟩
  induction hreach with
  | refl => exact hroot.resolve_right not_mem_nil
  | tail _ hnext ih => exact (honward _ ih _ hnext).resolve_right not_mem_nil

/-- **What a run visits**: all that is reachable from the root, and only that. -/
theorem mem_run_iff (hnodes : ∀ item, next item ≠ [] → item ∈ nodes) {root item : α} :
    item ∈ (run next nodes hnodes ⟨.empty, [root]⟩).toList ↔ Reachable next root item := by
  have hrun : ∀ s, OnTheWay next root s →
      (item ∈ (run next nodes hnodes s).toList ↔ Reachable next root item) := by
    intro s hinv
    induction s using run.induct next nodes hnodes with
    | case1 s hend =>
      rw [run, hend]
      exact hinv.mem_iff (step_eq_none.mp hend)
    | case2 s s' hstep ih =>
      rw [run, hstep]
      exact ih (hinv.step hstep)
  exact hrun _ (onTheWay_start root)

end Worklist
