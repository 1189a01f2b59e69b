import Mathlib.Data.String.Basic
import Localview.OrderedSet
import Localview.Protocol
import Localview.Dominance

/-! # The tournament of counterfactual candidates

Candidates are ranked by a weighted sum of their metrics and put on a front if no other one
dominates them.  The two are computed apart, the one with weights that are clamped at zero and
the other without weights at all.

Metrics and weights are rationals.
-/
namespace Localview.Counterfactual
open Dominance List

/-- What a tournament reads of a candidate. -/
structure CounterfactualCandidate where
  id : Uuid
  metrics : OrderedMap String ℚ
  hardFailures : OrderedSet String

/-- Whether less or more is better. -/
inductive ObjectiveDirection
  | minimize | maximize

/-- A metric to be made better. -/
structure Objective where
  metric : String
  direction : ObjectiveDirection
  weight : ℚ

/-- How well a candidate does. -/
structure CandidateScore where
  candidateId : Uuid
  score : ℚ
  hardFailures : Nat
  missingMetrics : List String

/-- A metric, the greater the better. -/
def ObjectiveDirection.signed : ObjectiveDirection → ℚ → ℚ
  | minimize, value => -value
  | maximize, value => value

/-- One turn of the loop of `score`. -/
def addObjective (candidate : CounterfactualCandidate) (acc : ℚ × List String)
    (objective : Objective) : ℚ × List String :=
  match candidate.metrics.get objective.metric with
  | some value => (acc.1 + objective.direction.signed value * max objective.weight 0, acc.2)
  | none => (acc.1, acc.2 ++ [objective.metric])

def score (candidate : CounterfactualCandidate) (objectives : List Objective) :
    CandidateScore :=
  let (total, missing) := objectives.foldl (addObjective candidate) (0, [])
  { candidateId := candidate.id, score := total
    hardFailures := candidate.hardFailures.toList.length, missingMetrics := missing }

/-- The loop of `dominates`. -/
def compareObjectives (left right : CounterfactualCandidate) :
    List Objective → (strictlyBetter : Bool) → Bool
  | [], strictlyBetter => strictlyBetter
  | objective :: rest, strictlyBetter =>
    match left.metrics.get objective.metric, right.metrics.get objective.metric with
    | some leftValue, some rightValue =>
      match objective.direction with
      | .minimize =>
        if rightValue < leftValue then false
        else compareObjectives left right rest (strictlyBetter || leftValue < rightValue)
      | .maximize =>
        if leftValue < rightValue then false
        else compareObjectives left right rest (strictlyBetter || rightValue < leftValue)
    | _, _ => false

def dominates (left right : CounterfactualCandidate) (objectives : List Objective) : Bool :=
  if left.hardFailures.toList ≠ [] ∧ right.hardFailures.toList = [] then false
  else if left.hardFailures.toList = [] ∧ right.hardFailures.toList ≠ [] then true
  else compareObjectives left right objectives false

/-- The candidates in order. -/
structure TournamentResult where
  ranked : List CandidateScore
  paretoFront : List Uuid
  recommended : Option Uuid
  explanation : List String

/-- Fewer hard failures first, then the greater score. -/
def ranksBefore (left right : CandidateScore) : Prop :=
  left.hardFailures < right.hardFailures ∨
    left.hardFailures = right.hardFailures ∧ right.score ≤ left.score

instance : DecidableRel ranksBefore := fun left right => by
  unfold ranksBefore
  infer_instance

def undominated (candidates : List CounterfactualCandidate) (objectives : List Objective)
    (candidate : CounterfactualCandidate) : Bool :=
  !candidates.any fun other => other.id ≠ candidate.id && dominates other candidate objectives

def isComplete (ranked : CandidateScore) : Bool :=
  ranked.hardFailures = 0 && ranked.missingMetrics.isEmpty

def tournament (candidates : List CounterfactualCandidate) (objectives : List Objective) :
    TournamentResult :=
  let ranked := (candidates.map fun candidate => score candidate objectives).insertionSort
    ranksBefore
  let recommended := (ranked.find? isComplete).map (·.candidateId)
  { ranked, paretoFront := (candidates.filter (undominated candidates objectives)).map (·.id)
    recommended
    explanation := match recommended with
      | some id => [s!"candidate {id.display} has no hard failures and the strongest weighted " ++
          "objective score among complete candidates"]
      | none => ["no candidate has complete evidence without hard failures"] }

/-! ## Scores and comparisons as measures -/

section
variable {candidates : List CounterfactualCandidate} {objectives : List Objective}
  {a b c left right : CounterfactualCandidate}

/-- A candidate's metric for an objective, the greater the better. -/
def measureOf (objective : Objective) (candidate : CounterfactualCandidate) : Option ℚ :=
  (candidate.metrics.get objective.metric).map objective.direction.signed

/-- The weight that a score uses. -/
def clampedWeight (objective : Objective) : ℚ := max objective.weight 0

theorem foldl_addObjective (candidate : CounterfactualCandidate) (total : ℚ)
    (missing : List String) :
    objectives.foldl (addObjective candidate) (total, missing) =
      (total + weightedSum measureOf objectives clampedWeight candidate,
        missing ++ (objectives.filter fun o => (measureOf o candidate).isNone).map (·.metric)) := by
  induction objectives generalizing total missing with
  | nil => simp [weightedSum]
  | cons o rest ih =>
    cases hget : candidate.metrics.get o.metric with
    | none =>
      rw [foldl_cons, addObjective, hget, ih]
      simp [weightedSum, measureOf, hget]
    | some value =>
      rw [foldl_cons, addObjective, hget, ih]
      simp [weightedSum, measureOf, hget, clampedWeight, add_assoc, mul_comm]

theorem score_eq (candidate : CounterfactualCandidate) (objectives : List Objective) :
    score candidate objectives =
      { candidateId := candidate.id
        score := weightedSum measureOf objectives clampedWeight candidate
        hardFailures := candidate.hardFailures.toList.length
        missingMetrics :=
          (objectives.filter fun o => (measureOf o candidate).isNone).map (·.metric) } := by
  simp only [score, foldl_addObjective, zero_add, nil_append]

theorem isComplete_score : isComplete (score a objectives) = true ↔
    a.hardFailures.toList = [] ∧ ∀ o ∈ objectives, (measureOf o a).isSome := by
  rw [score_eq]
  simp [isComplete, filter_eq_nil_iff, Option.isSome_iff_ne_none]

open Classical in
/-- One turn of the loop of `dominates`. -/
theorem compareObjectives_cons (o : Objective) (rest : List Objective) (strict : Bool) :
    compareObjectives left right (o :: rest) strict = true ↔
      AtLeast measureOf right left o ∧
        compareObjectives left right rest
          (strict || decide (Above measureOf right left o)) = true := by
  rw [compareObjectives]
  cases hl : left.metrics.get o.metric with
  | none => simp [AtLeast, measureOf, hl]
  | some x =>
    cases hr : right.metrics.get o.metric with
    | none => simp [AtLeast, measureOf, hr]
    | some y =>
      cases hd : o.direction with
      | minimize =>
        by_cases hlt : y < x
        · simp [AtLeast, measureOf, hl, hr, hd, ObjectiveDirection.signed, hlt]
        · simp [AtLeast, Above, measureOf, hl, hr, hd, ObjectiveDirection.signed, hlt,
            not_lt.mp hlt]
      | maximize =>
        by_cases hlt : x < y
        · simp [AtLeast, measureOf, hl, hr, hd, ObjectiveDirection.signed, hlt]
        · simp [AtLeast, Above, measureOf, hl, hr, hd, ObjectiveDirection.signed, hlt,
            not_lt.mp hlt]

theorem compareObjectives_iff (strict : Bool) :
    compareObjectives left right objectives strict = true ↔
      (∀ o ∈ objectives, AtLeast measureOf right left o) ∧
        (strict = true ∨ ∃ o ∈ objectives, Above measureOf right left o) := by
  classical
  induction objectives generalizing strict with
  | nil => simp [compareObjectives]
  | cons o rest ih =>
    rw [compareObjectives_cons, ih, forall_mem_cons, exists_mem_cons_iff, and_assoc,
      Bool.or_eq_true, decide_eq_true_iff, or_assoc]

/-- Dominance goes by the classes of hard failures first, then by the measures. -/
theorem dominates_iff : dominates left right objectives = true ↔
    left.hardFailures.toList = [] ∧ right.hardFailures.toList ≠ [] ∨
      (left.hardFailures.toList = [] ↔ right.hardFailures.toList = []) ∧
        Dominates measureOf objectives left right := by
  have hcompare : compareObjectives left right objectives false = true ↔
      Dominates measureOf objectives left right := by
    rw [compareObjectives_iff, Dominates]
    simp
  rw [dominates, ← hcompare]
  by_cases hl : left.hardFailures.toList = []
  · by_cases hr : right.hardFailures.toList = [] <;> simp [hl, hr]
  · by_cases hr : right.hardFailures.toList = [] <;> simp [hl, hr]

theorem dominates_irrefl : dominates a a objectives = false := by
  rw [Bool.eq_false_iff]
  intro h
  rcases dominates_iff.mp h with ⟨hclean, hfailed⟩ | ⟨-, hdom⟩
  · exact hfailed hclean
  · exact not_dominates_self hdom

theorem dominates_trans (hab : dominates a b objectives = true)
    (hbc : dominates b c objectives = true) : dominates a c objectives = true := by
  rw [dominates_iff] at hab hbc ⊢
  rcases hab with ⟨ha, hb⟩ | ⟨hclass, hdom⟩
  · rcases hbc with ⟨hb', -⟩ | ⟨hclass', -⟩
    · exact absurd hb' hb
    · exact .inl ⟨ha, fun hc => hb (hclass'.mpr hc)⟩
  · rcases hbc with ⟨hb, hc⟩ | ⟨hclass', hdom'⟩
    · exact .inl ⟨hclass.mpr hb, hc⟩
    · exact .inr ⟨hclass.trans hclass', hdom.trans hdom'⟩

/-- What dominates a complete candidate without hard failures is one too, and scores at least
as much. -/
theorem complete_of_dominates (h : dominates a b objectives = true)
    (hb : isComplete (score b objectives) = true) :
    isComplete (score a objectives) = true ∧ Dominates measureOf objectives a b := by
  rw [isComplete_score] at hb
  rcases dominates_iff.mp h with ⟨-, hfailed⟩ | ⟨hclass, hdom⟩
  · exact absurd hb.1 hfailed
  · exact ⟨isComplete_score.mpr ⟨hclass.mpr hb.1, hdom.complete⟩, hdom⟩

end

/-! ## The result of a tournament -/

section
variable {candidates : List CounterfactualCandidate} {objectives : List Objective}
  {a b : CounterfactualCandidate} {id : Uuid}

/-- With distinct ids no candidate is compared with itself only. -/
theorem undominated_iff (hids : (candidates.map (·.id)).Nodup) (ha : a ∈ candidates) :
    undominated candidates objectives a = true ↔
      ∀ b ∈ candidates, dominates b a objectives = false := by
  have hinj : ∀ b ∈ candidates, b.id = a.id → b = a :=
    fun b hb heq => inj_on_of_nodup_map hids hb ha heq
  simp only [undominated, Bool.not_eq_true', any_eq_false, Bool.and_eq_true,
    decide_eq_true_eq, not_and]
  constructor
  · intro h b hb
    by_cases heq : b.id = a.id
    · rw [hinj b hb heq]
      exact dominates_irrefl
    · exact Bool.eq_false_iff.mpr (h b hb heq)
  · intro h b hb _
    rw [h b hb]
    exact Bool.false_ne_true

theorem mem_paretoFront (hids : (candidates.map (·.id)).Nodup) :
    id ∈ (tournament candidates objectives).paretoFront ↔
      ∃ a ∈ candidates, a.id = id ∧ ∀ b ∈ candidates, dominates b a objectives = false := by
  simp only [tournament, mem_map, mem_filter]
  constructor
  · rintro ⟨a, ⟨ha, hfront⟩, hid⟩
    exact ⟨a, ha, hid, (undominated_iff hids ha).mp hfront⟩
  · rintro ⟨a, ha, hid, hfront⟩
    exact ⟨a, ⟨ha, (undominated_iff hids ha).mpr hfront⟩, hid⟩

theorem ranksBefore_total (a b : CandidateScore) : ranksBefore a b ∨ ranksBefore b a := by
  unfold ranksBefore
  rcases lt_trichotomy a.hardFailures b.hardFailures with hlt | heq | hgt
  · exact .inl (.inl hlt)
  · rcases le_total a.score b.score with hle | hle
    · exact .inr (.inr ⟨heq.symm, hle⟩)
    · exact .inl (.inr ⟨heq, hle⟩)
  · exact .inr (.inl hgt)

theorem ranksBefore_trans {a b c : CandidateScore} (hab : ranksBefore a b)
    (hbc : ranksBefore b c) : ranksBefore a c := by
  unfold ranksBefore at *
  rcases hab with hab | ⟨hab, hle⟩
  · rcases hbc with hbc | ⟨hbc, -⟩
    · exact .inl (hab.trans hbc)
    · exact .inl (hbc ▸ hab)
  · rcases hbc with hbc | ⟨hbc, hle'⟩
    · exact .inl (hab ▸ hbc)
    · exact .inr ⟨hab.trans hbc, hle'.trans hle⟩

/-- The recommended candidate is complete, and no complete one scores more. -/
theorem recommended_spec (h : (tournament candidates objectives).recommended = some id) :
    ∃ a ∈ candidates, a.id = id ∧ isComplete (score a objectives) = true ∧
      ∀ b ∈ candidates, isComplete (score b objectives) = true →
        (score b objectives).score ≤ (score a objectives).score := by
  have : Std.Total ranksBefore := ⟨ranksBefore_total⟩
  have : IsTrans CandidateScore ranksBefore := ⟨fun _ _ _ => ranksBefore_trans⟩
  obtain ⟨top, hfind, rfl⟩ := Option.map_eq_some_iff.mp h
  have hsorted := pairwise_insertionSort ranksBefore
    (candidates.map fun candidate => score candidate objectives)
  have hmem (x : CandidateScore) :
      x ∈ (candidates.map fun candidate => score candidate objectives).insertionSort
          ranksBefore ↔ ∃ a ∈ candidates, score a objectives = x := by
    rw [mem_insertionSort, mem_map]
  obtain ⟨hcomplete, before, after, hsplit, hbefore⟩ := find?_eq_some_iff_append.mp hfind
  obtain ⟨a, ha, rfl⟩ := (hmem top).mp (by rw [hsplit]; simp)
  refine ⟨a, ha, by rw [score_eq], hcomplete, ?_⟩
  intro b hb hbcomplete
  -- a complete score stands at the first complete one or after it
  have hin := (hmem _).mpr ⟨b, hb, rfl⟩
  rw [hsplit] at hin hsorted
  rcases mem_append.mp hin with hin | hin
  · have hnot := hbefore _ hin
    rw [hbcomplete] at hnot
    cases hnot
  rcases mem_cons.mp hin with heq | hin
  · rw [heq]
  · have hrank := (pairwise_cons.mp (pairwise_append.mp hsorted).2.1).1 _ hin
    simp only [isComplete, Bool.and_eq_true, decide_eq_true_eq] at hcomplete hbcomplete
    rcases hrank with hlt | ⟨-, hle⟩
    · omega
    · exact hle

/-- What a tournament is for. -/
structure Coherent (candidates : List CounterfactualCandidate) (objectives : List Objective) :
    Prop where
  irreflexive : ∀ a, dominates a a objectives = false
  transitive : ∀ a b c, dominates a b objectives = true → dominates b c objectives = true →
    dominates a c objectives = true
  front_nonempty : candidates ≠ [] → (tournament candidates objectives).paretoFront ≠ []
  front_exact : ∀ id, id ∈ (tournament candidates objectives).paretoFront ↔
    ∃ a ∈ candidates, a.id = id ∧ ∀ b ∈ candidates, dominates b a objectives = false
  /-- What dominates the recommended candidate has the same score. -/
  recommended_ties : ∀ id, (tournament candidates objectives).recommended = some id →
    ∃ a ∈ candidates, a.id = id ∧ ∀ b ∈ candidates, dominates b a objectives = true →
      (score b objectives).score = (score a objectives).score
  /-- Where every objective has weight, nothing dominates it. -/
  recommended_front : (∀ o ∈ objectives, 0 < o.weight) → ∀ id,
    (tournament candidates objectives).recommended = some id →
      id ∈ (tournament candidates objectives).paretoFront

/-- **Front and ranking agree up to objectives without weight.** -/
theorem tournament_coherent (hids : (candidates.map (·.id)).Nodup) :
    Coherent candidates objectives := by
  refine ⟨fun a => dominates_irrefl, fun a b c => dominates_trans, ?_,
    fun id => mem_paretoFront hids, ?_, ?_⟩
  · intro hne hempty
    obtain ⟨m, hm, hmax⟩ := exists_undominated
      (R := fun a b => dominates a b objectives = true) (fun a => by rw [dominates_irrefl]; simp)
      (fun a b c => dominates_trans) hne
    have hfront : m.id ∈ (tournament candidates objectives).paretoFront :=
      (mem_paretoFront hids).mpr ⟨m, hm, rfl, fun b hb => Bool.eq_false_iff.mpr (hmax b hb)⟩
    rw [hempty] at hfront
    cases hfront
  · intro id hid
    obtain ⟨a, ha, rfl, hcomplete, hbest⟩ := recommended_spec hid
    refine ⟨a, ha, rfl, fun b hb hdom => ?_⟩
    obtain ⟨hbcomplete, hmeasures⟩ := complete_of_dominates hdom hcomplete
    refine le_antisymm (hbest b hb hbcomplete) ?_
    rw [score_eq, score_eq]
    exact hmeasures.weightedSum_le fun o _ => le_max_right _ _
  · intro hweights id hid
    obtain ⟨a, ha, rfl, hcomplete, hbest⟩ := recommended_spec hid
    refine (mem_paretoFront hids).mpr ⟨a, ha, rfl, fun b hb => Bool.eq_false_iff.mpr ?_⟩
    intro hdom
    obtain ⟨hbcomplete, hmeasures⟩ := complete_of_dominates hdom hcomplete
    have hle := hbest b hb hbcomplete
    rw [score_eq, score_eq] at hle
    exact absurd hle (not_le.mpr
      (hmeasures.weightedSum_lt fun o ho => lt_max_of_lt_left (hweights o ho)))

end

/-! Two candidates with one metric, the first the worse. -/

def measured (id : Uuid) (value : ℚ) : CounterfactualCandidate :=
  { id, metrics := OrderedMap.empty.insert "lcp" value, hardFailures := OrderedSet.empty }

def worseThenBetter : List CounterfactualCandidate := [measured 1 1800, measured 2 1200]

def byLcp (weight : ℚ) : List Objective := [{ metric := "lcp", direction := .minimize, weight }]

/-- With a weight the better one is recommended. -/
theorem worseThenBetter_coherent :
    Coherent worseThenBetter (byLcp 1) ∧
      (tournament worseThenBetter (byLcp 1)).recommended = some 2 :=
  ⟨tournament_coherent (by decide), by decide +kernel⟩

/-- Without one the worse is recommended, since it stands first, and is not on the front. -/
theorem weightless_recommends_dominated :
    (tournament worseThenBetter (byLcp 0)).recommended = some 1 ∧
      (tournament worseThenBetter (byLcp 0)).paretoFront = [2] := by
  decide +kernel

end Localview.Counterfactual
