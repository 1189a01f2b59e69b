import Mathlib.Data.List.InsertIdx
import Localview.ActionQueue
import Localview.ResourceGovernor
import Localview.VisualImage

/-! # The performance packet

`lite_packet` goes over the long tasks once: it counts them, adds them up, keeps the
longest, and keeps a bounded list of the longest in descending order.  That list begins
what all durations are in descending order, so it does not depend on the order in which
they came.
-/
namespace Localview.Performance
open List

def performanceLitePacketVersion : Nat := 1

def maxLongTaskSampleBudget : Nat := 16

/-- What the page measured. -/
structure PerformanceSample where
  longTasksMs : List Nat
  cumulativeLayoutShift : Option F64

/-- The measurements in brief. -/
structure PerformanceLitePacket where
  (version longTaskCount : Nat)
  sampledLongTasksMs : List Nat
  (omittedLongTaskSamples totalLongTaskMs : Nat)
  maxLongTaskMs : Option Nat
  cumulativeLayoutShift : Option F64
  appliedLongTaskSampleBudget : Nat

/-- `.position(|existing| duration > *existing).unwrap_or(len)` -/
def insertAt (duration : Nat) (sampled : List Nat) : Nat :=
  sampled.findIdx fun existing => existing < duration

/-- One turn of the loop, on the samples. -/
def sampleTask (sampleCap : Nat) (sampled : List Nat) (duration : Nat) : List Nat :=
  if sampleCap = 0 then sampled
  else if insertAt duration sampled < sampleCap then
    let inserted := sampled.insertIdx (insertAt duration sampled) duration
    if sampleCap < inserted.length then inserted.dropLast else inserted
  else if sampled.length < sampleCap then sampled ++ [duration]
  else sampled

/-- `value.is_finite() && *value >= 0.0`, of its bits. -/
def finiteNonnegative (value : F64) : Bool :=
  decide (value &&& 0x7FFFFFFFFFFFFFFF#64 < 0x7FF0000000000000#64) &&
    (decide (value < 0x8000000000000000#64) || decide (value = 0x8000000000000000#64))

def litePacket (sample : PerformanceSample) (maxLongTaskSamples : Nat) : PerformanceLitePacket :=
  let appliedBudget := min maxLongTaskSamples maxLongTaskSampleBudget
  let sampled := sample.longTasksMs.foldl (sampleTask appliedBudget) []
  let count := sample.longTasksMs.foldl (fun count _ => min (count + 1) u32Max) 0
  { version := performanceLitePacketVersion, longTaskCount := count, sampledLongTasksMs := sampled
    omittedLongTaskSamples := count - min sampled.length u32Max
    totalLongTaskMs := sample.longTasksMs.foldl saturatingAdd 0
    maxLongTaskMs := sample.longTasksMs.foldl
      (fun current duration => some (current.elim duration fun c => max c duration)) none
    cumulativeLayoutShift := sample.cumulativeLayoutShift.filter finiteNonnegative
    appliedLongTaskSampleBudget := appliedBudget }

/-! ## The samples -/

section
variable {durations sampled : List Nat} {duration cap : Nat}

/-- All durations, the longest first. -/
def descending (durations : List Nat) : List Nat := durations.insertionSort (· ≥ ·)

theorem pairwise_descending (durations : List Nat) : (descending durations).Pairwise (· ≥ ·) :=
  pairwise_insertionSort _ _

theorem perm_descending (durations : List Nat) : (descending durations).Perm durations :=
  perm_insertionSort _ _

/-- What is sorted and has the same elements is the same. -/
theorem eq_descending (hsorted : sampled.Pairwise (· ≥ ·)) (hperm : sampled.Perm durations) :
    sampled = descending durations :=
  List.Perm.eq_of_pairwise' hsorted (pairwise_descending _) (hperm.trans (perm_descending _).symm)

theorem insertAt_le : insertAt duration sampled ≤ sampled.length := findIdx_le_length

/-- A duration put in its place leaves the list in descending order. -/
theorem pairwise_insertIdx (h : sampled.Pairwise (· ≥ ·)) :
    (sampled.insertIdx (insertAt duration sampled) duration).Pairwise (· ≥ ·) := by
  induction sampled with
  | nil => exact pairwise_singleton _ _
  | cons existing rest ih =>
    have hrest := pairwise_cons.mp h
    rw [insertAt, findIdx_cons]
    by_cases hlt : existing < duration
    · simp only [hlt, decide_true, cond_true, insertIdx_zero]
      refine pairwise_cons.mpr ⟨fun other hother => ?_, h⟩
      rcases mem_cons.mp hother with rfl | hother
      · omega
      · have hle := hrest.1 other hother
        omega
    · simp only [hlt, decide_false, cond_false, insertIdx_succ_cons]
      refine pairwise_cons.mpr ⟨fun other hother => ?_, ih hrest.2⟩
      have hmem := (perm_insertIdx duration rest insertAt_le).mem_iff.mp hother
      rcases mem_cons.mp hmem with rfl | hmem
      · omega
      · exact hrest.1 other hmem

theorem descending_concat : descending (durations ++ [duration]) =
    (descending durations).insertIdx (insertAt duration (descending durations)) duration := by
  refine (eq_descending (pairwise_insertIdx (pairwise_descending _)) ?_).symm
  refine (perm_insertIdx duration _ insertAt_le).trans ?_
  exact ((perm_descending durations).cons duration).trans (perm_append_singleton _ _).symm

/-- A turn of the loop keeps the beginning of the whole descending list. -/
theorem sampleTask_take (all : List Nat) : sampleTask cap (all.take cap) duration =
    (all.insertIdx (insertAt duration all) duration).take cap := by
  have hle : insertAt duration all ≤ all.length := insertAt_le
  have hat : insertAt duration (all.take cap) = min cap (insertAt duration all) :=
    findIdx_take
  unfold sampleTask
  rw [hat]
  by_cases hzero : cap = 0
  · simp [hzero]
  rw [if_neg hzero]
  by_cases hbefore : insertAt duration all < cap
  · have htake : ((all.take cap).insertIdx (insertAt duration all) duration).take cap =
        (all.insertIdx (insertAt duration all) duration).take cap :=
      ext_getElem (by grind) (by grind)
    rw [Nat.min_eq_right (Nat.le_of_lt hbefore), if_pos hbefore, ← htake]
    have hlength : ((all.take cap).insertIdx (insertAt duration all) duration).length =
        min cap all.length + 1 := by
      rw [length_insertIdx_of_le_length (by rw [length_take]; omega), length_take]
    dsimp only
    split_ifs with hover
    · rw [dropLast_eq_take, hlength]
      congr 1
      omega
    · exact (take_of_length_le (by omega)).symm
  · -- the duration is shorter than everything that finds room
    rw [Nat.min_eq_left (Nat.not_lt.mp hbefore), if_neg (Nat.lt_irrefl cap),
      if_neg (by rw [length_take]; omega)]
    exact (take_insertIdx_eq_take_of_le _ _ _ _ (Nat.not_lt.mp hbefore)).symm

/-- **The samples** are the beginning of all durations in descending order. -/
theorem foldl_sampleTask (cap : Nat) (durations : List Nat) :
    durations.foldl (sampleTask cap) [] = (descending durations).take cap := by
  induction durations using List.reverseRecOn with
  | nil => exact take_nil.symm
  | append_singleton durations duration ih =>
    rw [foldl_append, ih, descending_concat]
    exact sampleTask_take _

end

/-! ## The totals -/

theorem foldl_count (durations : List Nat) (count : Nat) (h : count ≤ u32Max) :
    durations.foldl (fun count _ => min (count + 1) u32Max) count =
      min (count + durations.length) u32Max := by
  induction durations generalizing count with
  | nil => exact (Nat.min_eq_left h).symm
  | cons duration rest ih =>
    rw [foldl_cons, ih _ (Nat.min_le_right _ _), length_cons]
    omega

theorem foldl_saturatingAdd (durations : List Nat) (total : Nat) (h : total ≤ u64Max) :
    durations.foldl saturatingAdd total = min (total + durations.sum) u64Max := by
  induction durations generalizing total with
  | nil => exact (Nat.min_eq_left h).symm
  | cons duration rest ih =>
    rw [foldl_cons, saturatingAdd, ih _ (Nat.min_le_right _ _), sum_cons]
    omega

theorem foldl_max (durations : List Nat) :
    durations.foldl (fun current duration => some (current.elim duration fun c => max c duration))
      none = durations.max? := by
  have hsome : ∀ (rest : List Nat) (longest : Nat),
      rest.foldl (fun current duration => some (current.elim duration fun c => max c duration))
        (some longest) = some (rest.foldl max longest) := by
    intro rest
    induction rest with
    | nil => exact fun _ => rfl
    | cons duration rest ih => exact fun longest => ih (max longest duration)
  cases durations with
  | nil => rfl
  | cons duration rest => exact hsome rest duration

/-- **The packet is exact.**  Its samples are in descending order, as many as there are
tasks or as the budget allows, and with durations none of which is longer than a sample
they are the tasks; count, maximum, the tasks left out and the total, up to the
largest `u64`, are right; and tasks in another order have the same packet. -/
theorem lite_packet_exact (sample : PerformanceSample) (maxLongTaskSamples : Nat)
    (h : sample.longTasksMs.length < 2 ^ 32) :
    let packet := litePacket sample maxLongTaskSamples
    let applied := min maxLongTaskSamples maxLongTaskSampleBudget
    let tasks := sample.longTasksMs
    (packet.sampledLongTasksMs.Pairwise (· ≥ ·) ∧
      packet.sampledLongTasksMs.length = min tasks.length applied ∧
      ∃ omitted, (packet.sampledLongTasksMs ++ omitted).Perm tasks ∧
        ∀ longer ∈ packet.sampledLongTasksMs, ∀ shorter ∈ omitted, shorter ≤ longer) ∧
    packet.appliedLongTaskSampleBudget = applied ∧
    packet.longTaskCount = tasks.length ∧
    (∀ longest, packet.maxLongTaskMs = some longest ↔
      longest ∈ tasks ∧ ∀ duration ∈ tasks, duration ≤ longest) ∧
    packet.omittedLongTaskSamples = tasks.length - min tasks.length applied ∧
    packet.totalLongTaskMs = min tasks.sum u64Max ∧
    ∀ tasks', tasks'.Perm tasks →
      litePacket { sample with longTasksMs := tasks' } maxLongTaskSamples = packet := by
  intro packet applied tasks
  have hfew : tasks.length < 2 ^ 32 := h
  have hsampled : packet.sampledLongTasksMs = (descending tasks).take applied :=
    foldl_sampleTask applied tasks
  have hmax : packet.maxLongTaskMs = tasks.max? := foldl_max tasks
  have hcount : packet.longTaskCount = tasks.length := by
    refine (foldl_count tasks 0 (Nat.zero_le _)).trans ?_
    rw [u32Max]
    omega
  have htotal : packet.totalLongTaskMs = min tasks.sum u64Max := by
    refine (foldl_saturatingAdd tasks 0 (Nat.zero_le _)).trans ?_
    rw [Nat.zero_add]
  have hlength : packet.sampledLongTasksMs.length = min tasks.length applied := by
    rw [hsampled, length_take, (perm_descending tasks).length_eq, Nat.min_comm]
  refine ⟨⟨?_, hlength, (descending tasks).drop applied, ?_, ?_⟩, rfl, hcount, fun longest => ?_,
    ?_, htotal, fun tasks' hperm => ?_⟩
  · rw [hsampled]
    exact (pairwise_descending tasks).sublist (take_sublist _ _)
  · rw [hsampled, take_append_drop]
    exact perm_descending tasks
  · have hsorted := pairwise_descending tasks
    rw [← take_append_drop applied (descending tasks)] at hsorted
    rw [hsampled]
    exact (pairwise_append.mp hsorted).2.2
  · rw [hmax, max?_eq_some_iff]
  · show packet.longTaskCount - min packet.sampledLongTasksMs.length u32Max = _
    rw [hcount, hlength, u32Max]
    omega
  · have hdescending : descending tasks' = descending tasks :=
      (eq_descending (pairwise_descending _) ((perm_descending _).trans hperm))
    have hmax' : tasks'.max? = tasks.max? := by
      refine Option.ext fun longest => ?_
      rw [max?_eq_some_iff, max?_eq_some_iff]
      simp only [hperm.mem_iff]
    simp only [litePacket, packet, foldl_sampleTask, foldl_max, hmax',
      foldl_count _ 0 (Nat.zero_le _), foldl_saturatingAdd _ 0 (Nat.zero_le _), hperm.length_eq,
      hperm.sum_nat, hdescending]
    rfl

theorem lite_packet_exact_sample :
    (litePacket ⟨[50, 70, 60], none⟩ 2).sampledLongTasksMs.length = 2 :=
  (lite_packet_exact ⟨[50, 70, 60], none⟩ 2 (by decide)).1.2.1

end Localview.Performance
