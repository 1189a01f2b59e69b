import Mathlib.Data.List.Basic
import Mathlib.Data.List.TakeDrop

/-! # Delimiter-terminated record logs

An append-only log of records over an alphabet `α`, each record followed by a
delimiter `d` that no record contains.  `render` writes a list of records;
`split` reads a byte string back as the terminated records and the unterminated
tail; `durableLen` is the length of the longest prefix that ends in a
delimiter, computed the way a repairing reader computes it (the position of the
last delimiter).

The facts a crash argument needs are: `split` undoes `render` whatever
unterminated tail follows (`split_render_append`), cutting a rendered log
anywhere leaves some whole records and a tail without delimiter
(`take_render`), and the whole records are the ones that fit (`fitting`).
-/
namespace RecordLog
open List
variable {α : Type} [DecidableEq α]

/-- The log of the records `rs`: each followed by the delimiter. -/
def render (d : α) (rs : List (List α)) : List α := rs.flatMap (· ++ [d])

/-- The terminated records of a log, and what follows the last delimiter. -/
def split (d : α) : List α → List (List α) × List α
  | [] => ([], [])
  | a :: rest =>
      if a = d then ([] :: (split d rest).1, (split d rest).2)
      else match (split d rest).1 with
        | [] => ([], a :: (split d rest).2)
        | r :: rs => ((a :: r) :: rs, (split d rest).2)

/-- The index of the last `d`. -/
def rposition (d : α) : List α → Option Nat
  | [] => none
  | a :: rest =>
      match rposition d rest with
      | some i => some (i + 1)
      | none => if a = d then some 0 else none

/-- The length of the longest prefix ending in a delimiter: everything if the
log is empty or ends in a delimiter, up to the last delimiter otherwise. -/
def durableLen (d : α) (log : List α) : Nat :=
  if log = [] ∨ log.getLast? = some d then log.length
  else match rposition d log with
    | some i => i + 1
    | none => 0

/-- How many leading records fit, delimiter included, into `k` symbols. -/
def fitting : List (List α) → Nat → Nat
  | [], _ => 0
  | r :: rs, k => if r.length + 1 ≤ k then fitting rs (k - (r.length + 1)) + 1 else 0

section
omit [DecidableEq α]
variable (d : α)

@[simp] theorem render_nil : render d [] = [] := rfl

@[simp] theorem render_cons (r : List α) (rs : List (List α)) :
    render d (r :: rs) = r ++ d :: render d rs := by
  simp [render]

theorem render_append (rs ss : List (List α)) :
    render d (rs ++ ss) = render d rs ++ render d ss := by
  simp [render]

end

variable {d : α}

variable {tail : List α}

theorem split_cons (d a : α) (rest : List α) :
    split d (a :: rest) =
      if a = d then ([] :: (split d rest).1, (split d rest).2)
      else match (split d rest).1 with
        | [] => ([], a :: (split d rest).2)
        | r :: rs => ((a :: r) :: rs, (split d rest).2) := rfl

theorem rposition_cons (d a : α) (rest : List α) :
    rposition d (a :: rest) = match rposition d rest with
      | some i => some (i + 1)
      | none => if a = d then some 0 else none := rfl

/-- Without a delimiter there is no record. -/
theorem split_of_not_mem (h : d ∉ tail) : split d tail = ([], tail) := by
  induction tail with
  | nil => rfl
  | cons a rest ih =>
    obtain ⟨hne, hrest⟩ := not_or.mp (mt mem_cons.mpr h)
    simp [split_cons, ih hrest, Ne.symm hne]

/-- A record and its delimiter are read back as the first record. -/
theorem split_record {r : List α} (h : d ∉ r) (rest : List α) :
    split d (r ++ d :: rest) = (r :: (split d rest).1, (split d rest).2) := by
  induction r with
  | nil => simp [split_cons]
  | cons a r ih =>
    obtain ⟨hne, hr⟩ := not_or.mp (mt mem_cons.mpr h)
    simp [split_cons, ih hr, Ne.symm hne]

variable {rs : List (List α)}

/-- **Reading undoes writing**, whatever unterminated tail follows. -/
theorem split_render_append (hrs : ∀ r ∈ rs, d ∉ r) (htail : d ∉ tail) :
    split d (render d rs ++ tail) = (rs, tail) := by
  induction rs with
  | nil => exact split_of_not_mem htail
  | cons r rs ih =>
    have hrest := ih (fun s hs => hrs s (mem_cons_of_mem _ hs))
    rw [render_cons, append_assoc, cons_append,
      split_record (hrs r mem_cons_self), hrest]

/-- Writing undoes reading. -/
theorem render_split (d : α) (log : List α) :
    render d (split d log).1 ++ (split d log).2 = log := by
  induction log with
  | nil => rfl
  | cons a rest ih =>
    by_cases ha : a = d
    · subst ha
      simpa [split_cons] using ih
    · cases hs : (split d rest).1 with
      | nil => rw [hs] at ih; simpa [split_cons, ha, hs] using ih
      | cons r rs => rw [hs] at ih; simpa [split_cons, ha, hs] using ih

theorem not_mem_split_tail (d : α) (log : List α) : d ∉ (split d log).2 := by
  induction log with
  | nil => exact not_mem_nil
  | cons a rest ih =>
    by_cases ha : a = d
    · simpa [split_cons, ha] using ih
    · cases hs : (split d rest).1 with
      | nil => simpa [split_cons, ha, hs] using ⟨Ne.symm ha, ih⟩
      | cons r rs => simpa [split_cons, ha, hs] using ih

theorem not_mem_of_mem_split {log r : List α} (h : r ∈ (split d log).1) : d ∉ r := by
  induction log generalizing r with
  | nil => exact absurd h not_mem_nil
  | cons a rest ih =>
    by_cases ha : a = d
    · rw [split_cons, if_pos ha] at h
      rcases mem_cons.mp h with rfl | h
      · exact not_mem_nil
      · exact ih h
    · rw [split_cons, if_neg ha] at h
      cases hs : (split d rest).1 with
      | nil => simp [hs] at h
      | cons s rs =>
        rw [hs] at h ih
        rcases mem_cons.mp h with rfl | h
        · have hnot := ih mem_cons_self
          simp [hnot, Ne.symm ha]
        · exact ih (mem_cons_of_mem _ h)

/-! ## The longest terminated prefix -/

theorem rposition_of_not_mem (h : d ∉ tail) : rposition d tail = none := by
  induction tail with
  | nil => rfl
  | cons a rest ih =>
    obtain ⟨hne, hrest⟩ := not_or.mp (mt mem_cons.mpr h)
    simp [rposition_cons, ih hrest, Ne.symm hne]

theorem rposition_append (h : d ∉ tail) (log : List α) :
    rposition d (log ++ d :: tail) = some log.length := by
  induction log with
  | nil => simp [rposition_cons, rposition_of_not_mem h]
  | cons a rest ih => simp [rposition_cons, ih]

omit [DecidableEq α] in
/-- A non-empty rendered log ends in the delimiter. -/
theorem render_eq_concat (d : α) (h : rs ≠ []) :
    ∃ body, render d rs = body ++ [d] := by
  obtain ⟨init, last, rfl⟩ := eq_nil_or_concat rs |>.resolve_left h
  exact ⟨render d init ++ last, by simp [render]⟩

theorem take_durableLen (htail : d ∉ tail) :
    (render d rs ++ tail).take (durableLen d (render d rs ++ tail)) = render d rs := by
  rcases eq_nil_or_concat' tail with rfl | ⟨t, b, rfl⟩
  · rw [append_nil]
    by_cases hrs : rs = []
    · subst hrs; rfl
    · obtain ⟨body, hbody⟩ := render_eq_concat d hrs
      simp [durableLen, hbody]
  · have hb : b ≠ d := fun h => htail (by simp [h])
    have hlast : (render d rs ++ (t ++ [b])).getLast? = some b := by simp
    have hne : render d rs ++ (t ++ [b]) ≠ [] := by simp
    have hlen : durableLen d (render d rs ++ (t ++ [b])) =
        match rposition d (render d rs ++ (t ++ [b])) with
        | some i => i + 1
        | none => 0 := by
      simp only [durableLen, hlast, hne, hb, Option.some.injEq, or_self, if_false]
    by_cases hrs : rs = []
    · subst hrs
      rw [hlen, render_nil, nil_append, rposition_of_not_mem htail]
      rfl
    · obtain ⟨body, hbody⟩ := render_eq_concat d hrs
      have hpos : rposition d (render d rs ++ (t ++ [b])) = some body.length := by
        rw [hbody, append_assoc, singleton_append]
        exact rposition_append htail body
      rw [hlen, hpos, hbody]
      exact take_left' (by simp)

omit [DecidableEq α] in
/-- **A cut log is some whole records and an unterminated tail.** -/
theorem take_render (hrs : ∀ r ∈ rs, d ∉ r) (k : Nat) :
    ∃ tail, d ∉ tail ∧ (render d rs).take k = render d (rs.take (fitting rs k)) ++ tail := by
  induction rs generalizing k with
  | nil => exact ⟨[], by simp, by simp⟩
  | cons r rs ih =>
    by_cases hk : r.length + 1 ≤ k
    · obtain ⟨tail, htail, hcut⟩ := ih (fun s hs => hrs s (mem_cons_of_mem _ hs))
        (k - (r.length + 1))
      refine ⟨tail, htail, ?_⟩
      rw [fitting, if_pos hk, take_succ_cons, render_cons, render_cons,
        take_append, take_of_length_le (by omega),
        show k - r.length = (k - (r.length + 1)) + 1 from by omega, take_succ_cons, hcut]
      simp
    · refine ⟨r.take k, fun h => hrs r mem_cons_self (mem_of_mem_take h), ?_⟩
      rw [fitting, if_neg hk, render_cons, take_append_of_le_length (by omega)]
      rfl

omit [DecidableEq α] in
theorem fitting_le_length (rs : List (List α)) (k : Nat) : fitting rs k ≤ rs.length := by
  induction rs generalizing k with
  | nil => exact Nat.le_refl 0
  | cons r rs ih =>
    rw [fitting]
    split
    · exact Nat.succ_le_succ (ih _)
    · exact Nat.zero_le _

omit [DecidableEq α] in
/-- `fitting` counts exactly the records that end within the first `k` symbols. -/
theorem le_fitting_iff (d : α) (rs : List (List α)) (k n : Nat) (hn : n ≤ rs.length) :
    n ≤ fitting rs k ↔ (render d (rs.take n)).length ≤ k := by
  induction rs generalizing k n with
  | nil =>
    obtain rfl : n = 0 := Nat.le_zero.mp hn
    simp
  | cons r rs ih =>
    cases n with
    | zero => simp
    | succ n =>
      have hn' : n ≤ rs.length := Nat.le_of_succ_le_succ hn
      rw [fitting, take_succ_cons, render_cons]
      simp only [length_append, length_cons]
      by_cases hk : r.length + 1 ≤ k
      · rw [if_pos hk, Nat.succ_le_succ_iff, ih _ n hn']
        omega
      · rw [if_neg hk]
        omega

end RecordLog
