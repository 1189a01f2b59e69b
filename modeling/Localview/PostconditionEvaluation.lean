import Localview.PostconditionContracts
import Localview.SnapshotCache

/-! # Evaluating semantic postconditions

The native semantic contracts of `postcondition-contracts/src/lib.rs`, evaluated on a
snapshot: whether a node matches (version 1), and how many do (version 2).  Both versions
ask one matcher, so an existence question is a cardinality question
(`evaluate_present`, `evaluate_absent`), and neither answers where the snapshot is not
complete (`evaluateV1_eq_unknown`, `evaluateV2_eq_unknown`).

`Strengthened` orders matchers by their constraints; a stronger one matches fewer nodes
(`Strengthened.matchCount_le`).
-/
namespace Localview
open List OrderedMap
open NativeProvider (SemanticSnapshotCache)

/-- What a snapshot says of a contract. -/
inductive NativeSemanticPostconditionEvaluation
  | verifiedPass
  | verifiedFail
  | unknown
  deriving DecidableEq

def snapshotIsComplete (snapshot : NativeProvider.NativeSemanticSnapshotRevision) : Bool :=
  decide (snapshot.completeness = .established) && snapshot.incompletenessDebt.isEmpty &&
    !snapshot.resourceUsage.incomplete

/-- A field that is asked for is observed as asked. -/
def fieldMatches {α : Type} [DecidableEq α] (expected observed : Option α) : Bool :=
  expected.all fun expected => decide (observed = some expected)

def optionMatches (expected observed : Option String) : Bool := fieldMatches expected observed

def boolMatches (expected observed : Option Bool) : Bool := fieldMatches expected observed

def matcherMatches (m : NativeSemanticNodeMatcher)
    (node : NativeProvider.NativeSemanticNodeObservation) : Bool :=
  optionMatches m.role node.role && optionMatches m.name node.name &&
    optionMatches m.controlType node.controlType &&
    optionMatches m.automationId node.automationId &&
    optionMatches m.className node.className && boolMatches m.isEnabled node.isEnabled &&
    boolMatches m.isOffscreen node.isOffscreen &&
    m.attributes.entries.all fun entry => decide (node.attributes.get entry.1 = some entry.2)

/-- `evaluate`, of version 1. -/
def NativeSemanticPostconditionContractV1.evaluate (c : NativeSemanticPostconditionContractV1)
    (snapshot : NativeProvider.NativeSemanticSnapshotRevision) :
    NativeSemanticPostconditionEvaluation :=
  if !snapshotIsComplete snapshot then .unknown
  else
    let found := snapshot.nodes.any (matcherMatches c.matcher)
    match c.expectation, found with
    | .present, true | .absent, false => .verifiedPass
    | .present, false | .absent, true => .verifiedFail

/-- How many nodes of a snapshot match. -/
def matchCount (m : NativeSemanticNodeMatcher)
    (snapshot : NativeProvider.NativeSemanticSnapshotRevision) : Nat :=
  (snapshot.nodes.filter (matcherMatches m)).length

/-- How a number of nodes compares with the number asked for. -/
def NativeSemanticCountComparisonV2.passed (comparison : NativeSemanticCountComparisonV2)
    (observed expected : Nat) : Bool :=
  match comparison with
  | .equal => decide (observed = expected)
  | .atLeast => decide (expected ≤ observed)
  | .atMost => decide (observed ≤ expected)

/-- `evaluate`, of version 2. -/
def NativeSemanticPostconditionContractV2.evaluate (c : NativeSemanticPostconditionContractV2)
    (snapshot : NativeProvider.NativeSemanticSnapshotRevision) :
    NativeSemanticPostconditionEvaluation :=
  if !snapshotIsComplete snapshot then .unknown
  else if c.comparison.passed (matchCount c.matcher snapshot) c.count.toNat then .verifiedPass
  else .verifiedFail

/-- Every constraint of the first matcher is one of the second. -/
structure NativeSemanticNodeMatcher.Strengthened (m m' : NativeSemanticNodeMatcher) : Prop where
  role : ∀ value, m.role = some value → m'.role = some value
  name : ∀ value, m.name = some value → m'.name = some value
  controlType : ∀ value, m.controlType = some value → m'.controlType = some value
  automationId : ∀ value, m.automationId = some value → m'.automationId = some value
  className : ∀ value, m.className = some value → m'.className = some value
  isEnabled : ∀ value, m.isEnabled = some value → m'.isEnabled = some value
  isOffscreen : ∀ value, m.isOffscreen = some value → m'.isOffscreen = some value
  attributes : ∀ key value, m.attributes.get key = some value → m'.attributes.get key = some value

def PublishedSnapshot (snapshot : NativeProvider.NativeSemanticSnapshotRevision) : Prop :=
  ∃ (cache cache' : SemanticSnapshotCache)
    (objectHash : NativeProvider.NativeSemanticSnapshotDraft → String)
    (draft : NativeProvider.NativeSemanticSnapshotDraft),
    cache.publish objectHash draft = (.ok snapshot, cache')

section
variable {m m' : NativeSemanticNodeMatcher}
  {snapshot : NativeProvider.NativeSemanticSnapshotRevision}
  {node : NativeProvider.NativeSemanticNodeObservation}

/-! ## Completeness -/

theorem snapshotIsComplete_iff : snapshotIsComplete snapshot = true ↔
    snapshot.completeness = .established ∧ snapshot.incompletenessDebt = [] ∧
      snapshot.resourceUsage.incomplete = false := by
  unfold snapshotIsComplete
  simp only [Bool.and_eq_true, decide_eq_true_eq, List.isEmpty_iff, Bool.not_eq_true', and_assoc]

/-- The cache lets nothing incomplete through as established. -/
theorem PublishedSnapshot.snapshotIsComplete_iff (h : PublishedSnapshot snapshot) :
    snapshotIsComplete snapshot = true ↔ snapshot.completeness = .established := by
  rw [Localview.snapshotIsComplete_iff]
  constructor
  · exact fun hcomplete => hcomplete.1
  · intro hestablished
    obtain ⟨cache, cache', objectHash, draft, hpublish⟩ := h
    obtain ⟨e, hresult, -⟩ | ⟨hvalidate, hresult, -⟩ :=
      SemanticSnapshotCache.publish_cases hpublish
    · cases hresult
    · have hcoherent := (@SemanticSnapshotCache.validate_ok cache draft objectHash hvalidate).1
      rw [← Except.ok.inj hresult] at hcoherent
      obtain ⟨hexhausted, hdebt⟩ := hcoherent.established hestablished
      refine ⟨hestablished, hdebt, ?_⟩
      rw [hcoherent.exhaustion, hexhausted]
      rfl

/-- Version 1 answers what is complete. -/
theorem evaluateV1_eq_unknown {c : NativeSemanticPostconditionContractV1} :
    c.evaluate snapshot = .unknown ↔ snapshotIsComplete snapshot = false := by
  unfold NativeSemanticPostconditionContractV1.evaluate
  cases hcomplete : snapshotIsComplete snapshot with
  | false => simp
  | true =>
    -- with the snapshot complete each of the four answers is a verdict
    cases c.expectation <;> cases snapshot.nodes.any (matcherMatches c.matcher) <;> simp

variable {c : NativeSemanticPostconditionContractV2}

/-- Version 2 answers what is complete. -/
theorem evaluateV2_eq_unknown :
    c.evaluate snapshot = .unknown ↔ snapshotIsComplete snapshot = false := by
  unfold NativeSemanticPostconditionContractV2.evaluate
  cases hcomplete : snapshotIsComplete snapshot with
  | false => simp
  | true =>
    by_cases hpassed : c.comparison.passed (matchCount c.matcher snapshot) c.count.toNat = true
    · simp [hpassed]
    · simp [hpassed]

/-! ## Existence is cardinality -/

theorem any_matches : snapshot.nodes.any (matcherMatches m) = decide (1 ≤ matchCount m snapshot) := by
  rw [Bool.eq_iff_iff, decide_eq_true_eq, any_eq_true, matchCount, Nat.one_le_iff_ne_zero,
    Nat.ne_zero_iff_zero_lt, length_pos_iff_exists_mem]
  simp only [mem_filter]

open NativeSemanticCountComparisonV2

theorem evaluate_present :
    NativeSemanticPostconditionContractV1.evaluate ⟨.present, m⟩ snapshot =
      NativeSemanticPostconditionContractV2.evaluate ⟨.atLeast, 1, m⟩ snapshot := by
  unfold NativeSemanticPostconditionContractV1.evaluate NativeSemanticPostconditionContractV2.evaluate
  simp only [any_matches, passed]
  by_cases hcount : 1 ≤ matchCount m snapshot
  · simp [hcount]
  · simp [hcount]

theorem evaluate_absent :
    NativeSemanticPostconditionContractV1.evaluate ⟨.absent, m⟩ snapshot =
      NativeSemanticPostconditionContractV2.evaluate ⟨.equal, 0, m⟩ snapshot := by
  unfold NativeSemanticPostconditionContractV1.evaluate NativeSemanticPostconditionContractV2.evaluate
  simp only [any_matches, passed]
  by_cases hcount : matchCount m snapshot = 0
  · simp [hcount]
  · have hone : 1 ≤ matchCount m snapshot := by omega
    simp [hcount, hone]

/-! ## Stronger matchers match less -/

theorem fieldMatches_of_strengthened {α : Type} [DecidableEq α] {asked asked' observed : Option α}
    (h : ∀ value, asked = some value → asked' = some value)
    (hmatches : fieldMatches asked' observed = true) : fieldMatches asked observed = true := by
  cases hasked : asked with
  | none => rfl
  | some value =>
    rw [h value hasked] at hmatches
    exact hmatches

namespace NativeSemanticNodeMatcher

/-- What a stronger matcher matches, the weaker one does. -/
theorem Strengthened.matches_of (h : m.Strengthened m') (hmatches : matcherMatches m' node = true) :
    matcherMatches m node = true := by
  unfold matcherMatches optionMatches boolMatches at hmatches ⊢
  simp only [Bool.and_eq_true, all_eq_true, decide_eq_true_eq] at hmatches ⊢
  obtain ⟨⟨⟨⟨⟨⟨⟨hrole, hname⟩, hcontrol⟩, hautomation⟩, hclass⟩, henabled⟩, hoffscreen⟩, hall⟩ :=
    hmatches
  refine ⟨⟨⟨⟨⟨⟨⟨?_, ?_⟩, ?_⟩, ?_⟩, ?_⟩, ?_⟩, ?_⟩, ?_⟩
  · exact fieldMatches_of_strengthened h.role hrole
  · exact fieldMatches_of_strengthened h.name hname
  · exact fieldMatches_of_strengthened h.controlType hcontrol
  · exact fieldMatches_of_strengthened h.automationId hautomation
  · exact fieldMatches_of_strengthened h.className hclass
  · exact fieldMatches_of_strengthened h.isEnabled henabled
  · exact fieldMatches_of_strengthened h.isOffscreen hoffscreen
  · rintro ⟨key, value⟩ hentry
    apply hall
    rw [mem_entries] at hentry ⊢
    exact h.attributes key value hentry

theorem Strengthened.matchCount_le (h : m.Strengthened m') :
    matchCount m' snapshot ≤ matchCount m snapshot := by
  unfold matchCount
  rw [← countP_eq_length_filter, ← countP_eq_length_filter]
  apply countP_mono_left
  intro node _ hmatches
  exact h.matches_of hmatches

end NativeSemanticNodeMatcher

/-- A verdict of version 2 is the comparison's. -/
theorem evaluateV2_eq_pass :
    c.evaluate snapshot = .verifiedPass ↔ snapshotIsComplete snapshot = true ∧
      c.comparison.passed (matchCount c.matcher snapshot) c.count.toNat = true := by
  unfold NativeSemanticPostconditionContractV2.evaluate
  split_ifs with hcomplete hpassed
  · simp_all
  · simp_all
  · simp_all

theorem evaluateV2_eq_fail :
    c.evaluate snapshot = .verifiedFail ↔ snapshotIsComplete snapshot = true ∧
      c.comparison.passed (matchCount c.matcher snapshot) c.count.toNat = false := by
  unfold NativeSemanticPostconditionContractV2.evaluate
  split_ifs with hcomplete hpassed
  · simp_all
  · simp_all
  · simp_all

/-- **Evaluation laws.**  On every snapshot the existence contracts are the cardinality
contracts at least one and equal to none; either version answers unknown exactly where
completeness is not established, which of a published snapshot its completeness says;
and under a stronger matcher fewer nodes match, upper bounds stay satisfied and lower
bounds stay violated. -/
theorem postcondition_evaluation_laws
    (snapshot : NativeProvider.NativeSemanticSnapshotRevision) (m : NativeSemanticNodeMatcher) :
    NativeSemanticPostconditionContractV1.evaluate ⟨.present, m⟩ snapshot =
        NativeSemanticPostconditionContractV2.evaluate ⟨.atLeast, 1, m⟩ snapshot ∧
      NativeSemanticPostconditionContractV1.evaluate ⟨.absent, m⟩ snapshot =
          NativeSemanticPostconditionContractV2.evaluate ⟨.equal, 0, m⟩ snapshot ∧
        (∀ expectation comparison count,
          (NativeSemanticPostconditionContractV1.evaluate ⟨expectation, m⟩ snapshot = .unknown ↔
              ¬(snapshot.completeness = .established ∧ snapshot.incompletenessDebt = [] ∧
                snapshot.resourceUsage.incomplete = false)) ∧
            (NativeSemanticPostconditionContractV2.evaluate ⟨comparison, count, m⟩ snapshot =
                .unknown ↔
              ¬(snapshot.completeness = .established ∧ snapshot.incompletenessDebt = [] ∧
                snapshot.resourceUsage.incomplete = false))) ∧
          (PublishedSnapshot snapshot → ∀ expectation comparison count,
            (NativeSemanticPostconditionContractV1.evaluate ⟨expectation, m⟩ snapshot = .unknown ↔
                snapshot.completeness ≠ .established) ∧
              (NativeSemanticPostconditionContractV2.evaluate ⟨comparison, count, m⟩ snapshot =
                .unknown ↔ snapshot.completeness ≠ .established)) ∧
            ∀ m', m.Strengthened m' → matchCount m' snapshot ≤ matchCount m snapshot ∧
              ∀ count,
                (NativeSemanticPostconditionContractV2.evaluate ⟨.atMost, count, m⟩ snapshot =
                    .verifiedPass →
                  NativeSemanticPostconditionContractV2.evaluate ⟨.atMost, count, m'⟩ snapshot =
                    .verifiedPass) ∧
                  (NativeSemanticPostconditionContractV2.evaluate ⟨.atLeast, count, m⟩ snapshot =
                      .verifiedFail →
                    NativeSemanticPostconditionContractV2.evaluate ⟨.atLeast, count, m'⟩ snapshot =
                      .verifiedFail) := by
  refine ⟨evaluate_present, evaluate_absent, ?_, ?_, ?_⟩
  · intro expectation comparison count
    rw [evaluateV1_eq_unknown, evaluateV2_eq_unknown, ← Bool.not_eq_true, snapshotIsComplete_iff]
    exact ⟨Iff.rfl, Iff.rfl⟩
  · intro hpublished expectation comparison count
    rw [evaluateV1_eq_unknown, evaluateV2_eq_unknown, ← Bool.not_eq_true,
      hpublished.snapshotIsComplete_iff]
    exact ⟨Iff.rfl, Iff.rfl⟩
  · intro m' hstrengthened
    have hle : matchCount m' snapshot ≤ matchCount m snapshot := hstrengthened.matchCount_le
    refine ⟨hle, fun count => ⟨?_, ?_⟩⟩
    · simp only [evaluateV2_eq_pass, passed, decide_eq_true_eq]
      rintro ⟨hcomplete, hmost⟩
      exact ⟨hcomplete, by omega⟩
    · simp only [evaluateV2_eq_fail, passed, decide_eq_false_iff_not,
        not_le]
      rintro ⟨hcomplete, hleast⟩
      exact ⟨hcomplete, by omega⟩

end

/-- What is asked for by role. -/
def buttonMatcher : NativeSemanticNodeMatcher :=
  { role := some "button", name := none, controlType := none, automationId := none,
    className := none, isEnabled := none, isOffscreen := none, attributes := .empty }

/-- A button that is enabled and has an attribute. -/
def enabledButtonMatcher : NativeSemanticNodeMatcher :=
  { buttonMatcher with
    isEnabled := some true, attributes := buttonMatcher.attributes.insert "kind" "primary" }

def windowSnapshot : NativeProvider.NativeSemanticSnapshotRevision :=
  SemanticSnapshotCache.revisionOf (fun _ => "") NativeProvider.sampleDraft

theorem strengthened_enabledButtonMatcher : buttonMatcher.Strengthened enabledButtonMatcher := by
  refine ⟨fun _ h => h, ?_, ?_, ?_, ?_, ?_, ?_, ?_⟩
  · exact fun _ h => h
  · exact fun _ h => h
  · exact fun _ h => h
  · exact fun _ h => h
  · intro value h
    cases h
  · exact fun _ h => h
  · intro key value h
    rw [buttonMatcher, get_empty] at h
    cases h

theorem publishedSnapshot_window : PublishedSnapshot windowSnapshot := by
  have hvalidate : (SemanticSnapshotCache.forLineage ⟨"provider:1"⟩ ⟨"target:1"⟩).validate
      NativeProvider.sampleDraft = .ok () := by decide +kernel
  have hpublish : ((SemanticSnapshotCache.forLineage ⟨"provider:1"⟩ ⟨"target:1"⟩).publish
      (fun _ => "") NativeProvider.sampleDraft).1 = .ok windowSnapshot := by
    unfold SemanticSnapshotCache.publish
    rw [hvalidate]
    rfl
  exact ⟨_, _, _, _, Prod.ext hpublish rfl⟩

theorem postcondition_evaluation_laws_sample :
    NativeSemanticPostconditionContractV2.evaluate ⟨.atMost, 1, buttonMatcher⟩ windowSnapshot ≠
        .unknown ∧
      NativeSemanticPostconditionContractV2.evaluate ⟨.atMost, 1, enabledButtonMatcher⟩
        windowSnapshot = .verifiedPass := by
  obtain ⟨-, -, -, hunknown, hstronger⟩ := postcondition_evaluation_laws windowSnapshot buttonMatcher
  constructor
  · rw [Ne, (hunknown publishedSnapshot_window .present .atMost 1).2]
    decide
  · exact ((hstronger _ strengthened_enabledButtonMatcher).2 1).1 (by decide)

end Localview
