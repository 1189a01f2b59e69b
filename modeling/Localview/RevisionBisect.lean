import Localview.OrderedSet
import Mathlib.Data.String.Basic

/-! # Bisection of a revision history

The planner takes the midpoint of the revisions between the ends that have no conclusive
verdict.  It does not narrow that range, and a skipped revision stays in it.
-/
namespace Localview
open List OrderedMap
namespace RevisionBisect

structure RevisionCandidate where
  revision : String
  changedFiles : OrderedSet String
  environmentHash : String

/-- What a probe says of a revision. -/
inductive ProbeVerdict
  | good
  | bad
  | skip
  | inconclusive
deriving DecidableEq

/-- A revision and its verdict. -/
structure BisectProbe where
  revision : String
  verdict : ProbeVerdict

/-- The ends of the range. -/
structure BisectContract where
  (goodRevision badRevision environmentHash : String)
  relevantFiles : OrderedSet String

/-- The next revision to probe. -/
structure BisectStep where
  (revision reason : String)

/-- A slice whose end stands before its start. -/
inductive PlanPanic
  | sliceOrder

section
variable (history : List RevisionCandidate) (contract : BisectContract)

def positions : OrderedMap String Nat :=
  OrderedMap.ofList (history.map RevisionCandidate.revision).zipIdx

/-- The positions of the two ends, in order. -/
def ends : Option (Nat × Nat) :=
  match (positions history).get contract.goodRevision,
    (positions history).get contract.badRevision with
  | some good, some bad => some (if good < bad then (good, bad) else (bad, good))
  | _, _ => none

/-- The revisions between two positions. -/
def slice (range : Nat × Nat) : List RevisionCandidate :=
  (history.take range.2).drop (range.1 + 1)

/-- A revision that counts as not probed yet. -/
def unresolved : Option ProbeVerdict → Bool
  | none | some .skip | some .inconclusive => true
  | some .good | some .bad => false

def candidates (probes : OrderedMap String ProbeVerdict) (revisions : List RevisionCandidate) :
    List RevisionCandidate :=
  (revisions.filter fun revision =>
    revision.environmentHash == contract.environmentHash &&
      unresolved (probes.get revision.revision)).filter fun revision =>
    contract.relevantFiles.toList.isEmpty ||
      !(revision.changedFiles.intersection contract.relevantFiles).isEmpty

/-- The middle candidate; there is none where there are no candidates. -/
def midpoint (candidates : List RevisionCandidate) : Option BisectStep :=
  match candidates[candidates.length / 2]? with
  | none => none
  | some middle =>
      some
        { revision := middle.revision
          reason :=
            if contract.relevantFiles.toList.isEmpty then
              "midpoint of unresolved revision range"
            else "impact-aware midpoint touching relevant files" }

def plan (probes : OrderedMap String ProbeVerdict) : Except PlanPanic (Option BisectStep) :=
  match ends history contract with
  | none => .ok none
  | some range =>
      if range.2 < range.1 + 1 then .error .sliceOrder
      else .ok (midpoint contract (candidates contract probes (slice history range)))

/-- What the probes say. -/
structure BisectResult where
  (firstBad lastGood : Option String)
  culpritFiles : List String
  complete : Bool
  reasons : List String

/-- The verdicts by revision; a later one replaces an earlier one. -/
def probeMap (probes : List BisectProbe) : OrderedMap String ProbeVerdict :=
  OrderedMap.ofList (probes.map fun probe => (probe.revision, probe.verdict))

/-- The revisions of the pinned environment. -/
def ordered : List RevisionCandidate :=
  history.filter fun revision => revision.environmentHash == contract.environmentHash

def firstBadIndex (probes : List BisectProbe) : Option Nat :=
  (ordered history contract).findIdx? fun revision =>
    decide ((probeMap probes).get revision.revision = some .bad)

/-- The last good revision before a position. -/
def lastGoodIndex (probes : List BisectProbe) (bad : Nat) : Option Nat :=
  (List.range bad).reverse.find? fun index =>
    ((ordered history contract)[index]?).any fun revision =>
      decide ((probeMap probes).get revision.revision = some .good)

def analyze (probes : List BisectProbe) : BisectResult :=
  let ordered := ordered history contract
  let firstBadIndex := firstBadIndex history contract probes
  let lastGoodIndex := firstBadIndex.bind (lastGoodIndex history contract probes)
  let firstBad := (firstBadIndex.bind (ordered[·]?)).map RevisionCandidate.revision
  let lastGood := (lastGoodIndex.bind (ordered[·]?)).map RevisionCandidate.revision
  { firstBad, lastGood
    culpritFiles :=
      ((firstBadIndex.bind (ordered[·]?)).map fun revision =>
        revision.changedFiles.intersection contract.relevantFiles).getD []
    complete := firstBad.isSome && lastGood.isSome
    reasons :=
      (if firstBad.isNone then ["no verified bad revision in the pinned environment"]
        else []) ++
      (if (firstBad.isSome && lastGood.isNone) = true then
        ["no verified good predecessor in the pinned environment"] else []) }

end

/-! ## Planning and recording in turn -/

/-- A history and the truth about it. -/
structure Bisection where
  history : List RevisionCandidate
  contract : BisectContract
  verdict : String → ProbeVerdict

namespace Bisection
variable (b : Bisection)

def names : List String := b.history.map RevisionCandidate.revision

/-- A round: the verdict of the proposed revision is recorded. -/
def record (probes : List BisectProbe) : List BisectProbe :=
  match plan b.history b.contract (probeMap probes) with
  | .ok (some step) => probes ++ [⟨step.revision, b.verdict step.revision⟩]
  | _ => probes

/-- What is recorded after so many rounds. -/
def afterRounds : Nat → List BisectProbe
  | 0 => []
  | rounds + 1 => b.record (afterRounds rounds)

/-- What the planner answers after so many rounds. -/
def planAfter (rounds : Nat) : Except PlanPanic (Option BisectStep) :=
  plan b.history b.contract (probeMap (b.afterRounds rounds))

/-- What the analysis answers after so many rounds. -/
def analysis (rounds : Nat) : BisectResult := analyze b.history b.contract (b.afterRounds rounds)

/-- A verdict that settles the revision. -/
def Conclusive (revision : String) : Prop :=
  b.verdict revision = .good ∨ b.verdict revision = .bad

/-- A history of one environment with its ends: good before a point, bad from it on, as far
as the verdicts settle it. -/
structure Linear (point : Nat) : Prop where
  distinct : b.names.Nodup
  pinned : ∀ revision ∈ b.history, revision.environmentHash = b.contract.environmentHash
  unfiltered : b.contract.relevantFiles.toList = []
  good_mem : b.contract.goodRevision ∈ b.names
  bad_mem : b.contract.badRevision ∈ b.names
  good_end : b.verdict b.contract.goodRevision = .good
  bad_end : b.verdict b.contract.badRevision = .bad
  before : ∀ (index : Nat) (revision : String), b.names[index]? = some revision →
    index < point → b.verdict revision ≠ .bad
  onwards : ∀ (index : Nat) (revision : String), b.names[index]? = some revision →
    point ≤ index → b.verdict revision ≠ .good

def Terminates : Prop := ∃ rounds, b.planAfter rounds = .ok none

def Proposes (rounds : Nat) (revision : String) : Prop :=
  ∃ step, b.planAfter rounds = .ok (some step) ∧ step.revision = revision

def KnownGood (rounds : Nat) (revision : String) : Prop :=
  revision = b.contract.goodRevision ∨ ⟨revision, .good⟩ ∈ b.afterRounds rounds

def KnownBad (rounds : Nat) (revision : String) : Prop :=
  revision = b.contract.badRevision ∨ ⟨revision, .bad⟩ ∈ b.afterRounds rounds

/-- What is proposed stands after all revisions known to be good and before all known to be
bad. -/
def Narrows : Prop :=
  ∀ (rounds : Nat) (revision : String), b.Proposes rounds revision →
    (∀ known, b.KnownGood rounds known → b.names.idxOf known < b.names.idxOf revision) ∧
    (∀ known, b.KnownBad rounds known → b.names.idxOf revision < b.names.idxOf known)

def FindsPoint (point : Nat) : Prop :=
  ∀ rounds, (b.analysis rounds).complete = true →
    (b.analysis rounds).firstBad = b.names[point]?

/-- The revisions strictly between the ends. -/
def interior : List RevisionCandidate :=
  match ends b.history b.contract with
  | none => []
  | some range => slice b.history range

/-- At most one revision, or two the second of which is bad. -/
def AtMostOneChoice : Prop :=
  b.interior.length ≤ 1 ∨
    b.interior.length = 2 ∧
      ∀ revision, b.interior.getLast? = some revision → b.verdict revision.revision = .bad

/-! ## The range -/

variable {b} {point rounds : Nat}

theorem names_get {key : String} {index : Nat}
    (h : (positions b.history).get key = some index) : b.names[index]? = some key :=
  mem_zipIdx_iff_getElem?.mp (mem_of_get_ofList h)

theorem exists_position (hdistinct : b.names.Nodup) {key : String} (hmem : key ∈ b.names) :
    ∃ index, (positions b.history).get key = some index := by
  obtain ⟨index, hindex⟩ := mem_iff_getElem?.mp hmem
  refine ⟨index, get_ofList_of_mem ?_ (mem_zipIdx_iff_getElem?.mpr hindex)⟩
  intro index' hmem'
  have hindex' : b.names[index']? = some key := List.mem_zipIdx_iff_getElem?.mp hmem'
  obtain ⟨hlt, heq⟩ := List.getElem?_eq_some_iff.mp hindex
  obtain ⟨hlt', heq'⟩ := List.getElem?_eq_some_iff.mp hindex'
  exact (hdistinct.getElem_inj_iff).mp (heq'.trans heq.symm)

/-- The history in three parts, the good end in the first and the bad end in the last. -/
structure Parts (b : Bisection) (before after : List RevisionCandidate) : Prop where
  split : b.history = before ++ (b.interior ++ after)
  good_mem : b.contract.goodRevision ∈ before.map RevisionCandidate.revision
  bad_mem : b.contract.badRevision ∈ after.map RevisionCandidate.revision
  plan_eq : ∀ probes, plan b.history b.contract probes =
    .ok (midpoint b.contract (candidates b.contract probes b.interior))

theorem Linear.parts (h : b.Linear point) : ∃ before after, b.Parts before after := by
  obtain ⟨good, hgood⟩ := exists_position h.distinct h.good_mem
  obtain ⟨bad, hbad⟩ := exists_position h.distinct h.bad_mem
  have hgoodName := names_get hgood
  have hbadName := names_get hbad
  have hlt : good < bad := by
    by_contra hge
    by_cases hpoint : point ≤ good
    · exact h.onwards good _ hgoodName hpoint h.good_end
    · exact h.before bad _ hbadName (by omega) h.bad_end
  have hends : ends b.history b.contract = some (good, bad) := by
    rw [ends, hgood, hbad]
    simp only [if_pos hlt]
  have hinterior : b.interior = (b.history.take bad).drop (good + 1) := by
    rw [interior, hends]
    rfl
  refine ⟨b.history.take (good + 1), b.history.drop bad, ?_, ?_, ?_, ?_⟩
  · have htake : b.history.take (good + 1) = (b.history.take bad).take (good + 1) := by
      rw [take_take, Nat.min_eq_left (by omega)]
    rw [hinterior, htake, ← append_assoc, take_append_drop, take_append_drop]
  · rw [map_take, ← names]
    refine mem_iff_getElem?.mpr ⟨good, ?_⟩
    rw [getElem?_take, if_pos (by omega), hgoodName]
  · rw [map_drop, ← names]
    refine mem_iff_getElem?.mpr ⟨0, ?_⟩
    rw [getElem?_drop, Nat.add_zero, hbadName]
  · intro probes
    rw [plan, hends, interior, hends]
    exact if_neg (by simp only; omega)

/-! ## What is recorded -/

theorem verdict_of_mem {probe : BisectProbe} (h : probe ∈ b.afterRounds rounds) :
    probe.verdict = b.verdict probe.revision := by
  induction rounds with
  | zero => exact absurd h not_mem_nil
  | succ rounds ih =>
    rw [afterRounds, record] at h
    split at h
    · rcases mem_append.mp h with hmem | hmem
      · exact ih hmem
      · rw [mem_singleton.mp hmem]
    · exact ih h

theorem mem_afterRounds_succ {probe : BisectProbe} (h : probe ∈ b.afterRounds rounds) :
    probe ∈ b.afterRounds (rounds + 1) := by
  rw [afterRounds, record]
  split
  · exact mem_append_left _ h
  · exact h

theorem mem_afterRounds_of_le {probe : BisectProbe} {later : Nat} (hle : rounds ≤ later)
    (h : probe ∈ b.afterRounds rounds) : probe ∈ b.afterRounds later := by
  induction hle with
  | refl => exact h
  | step _ ih => exact mem_afterRounds_succ ih

theorem get_probeMap_of_mem {revision : String} {verdict : ProbeVerdict}
    (h : ⟨revision, verdict⟩ ∈ b.afterRounds rounds) :
    (probeMap (b.afterRounds rounds)).get revision = some verdict := by
  refine get_ofList_of_mem ?_ (mem_map_of_mem
    (f := fun probe : BisectProbe => (probe.revision, probe.verdict)) h)
  intro other hmem
  obtain ⟨probe, hprobe, heq⟩ := mem_map.mp hmem
  cases heq
  exact (verdict_of_mem hprobe).trans (verdict_of_mem h).symm

theorem mem_of_get_probeMap {revision : String} {verdict : ProbeVerdict}
    (h : (probeMap (b.afterRounds rounds)).get revision = some verdict) :
    ⟨revision, verdict⟩ ∈ b.afterRounds rounds := by
  obtain ⟨probe, hprobe, heq⟩ := mem_map.mp (mem_of_get_ofList h)
  cases heq
  exact hprobe

theorem Proposes.recorded {revision : String} (h : b.Proposes rounds revision) :
    ⟨revision, b.verdict revision⟩ ∈ b.afterRounds (rounds + 1) := by
  obtain ⟨step, hplan, rfl⟩ := h
  rw [planAfter] at hplan
  rw [afterRounds, record, hplan]
  exact mem_append_right _ (mem_singleton.mpr rfl)

theorem Proposes.unique {revision revision' : String} (h : b.Proposes rounds revision)
    (h' : b.Proposes rounds revision') : revision = revision' := by
  obtain ⟨step, hplan, rfl⟩ := h
  obtain ⟨step', hplan', rfl⟩ := h'
  rw [hplan] at hplan'
  rw [Option.some.inj (Except.ok.inj hplan')]

/-! ## Outwards from the middle -/

/-- In one environment and without a filter the candidates are the revisions that have no
conclusive verdict. -/
theorem candidates_eq (h : b.Linear point) {before after : List RevisionCandidate}
    (hparts : b.Parts before after) (probes : OrderedMap String ProbeVerdict) :
    candidates b.contract probes b.interior =
      b.interior.filter fun revision => unresolved (probes.get revision.revision) := by
  rw [candidates, h.unfiltered, isEmpty_nil]
  simp only [Bool.true_or, filter_true]
  refine filter_congr ?_
  intro revision hmem
  have hpinned := h.pinned revision (by simp [hparts.split, hmem])
  rw [hpinned, beq_self_eq_true, Bool.true_and]

/-- The range has its parts, and all in it is conclusive. -/
structure Settled (b : Bisection) (point : Nat) (before after : List RevisionCandidate) : Prop
    extends b.Parts before after where
  linear : b.Linear point
  conclusive : ∀ revision ∈ b.interior, b.Conclusive revision.revision

/-- After so many rounds: what is recorded is a part in the middle, each of it was proposed,
and the parts beside it are of one length or the left one is longer by one. -/
structure Reached (b : Bisection) (rounds : Nat) (left probed right : List RevisionCandidate) :
    Prop where
  split : b.interior = left ++ (probed ++ right)
  recorded : ∀ probe, probe ∈ b.afterRounds rounds ↔
    ∃ revision ∈ probed, probe = ⟨revision.revision, b.verdict revision.revision⟩
  balanced : left.length = right.length ∨ left.length = right.length + 1
  count : probed.length = rounds
  proposed : ∀ revision ∈ probed, ∃ round < rounds, b.Proposes round revision.revision

section
variable {before after left probed right : List RevisionCandidate}

theorem reached_zero : ∃ left right, b.Reached 0 left [] right := by
  refine ⟨b.interior.take ((b.interior.length + 1) / 2),
    b.interior.drop ((b.interior.length + 1) / 2), ?_, ?_, ?_, rfl, ?_⟩
  · rw [nil_append, take_append_drop]
  · intro probe
    constructor
    · intro hmem
      exact absurd hmem not_mem_nil
    · rintro ⟨revision, hmem, -⟩
      exact absurd hmem not_mem_nil
  · rw [length_take, length_drop]
    omega
  · intro revision hmem
    exact absurd hmem not_mem_nil

/-- The names of the parts are distinct. -/
theorem Reached.distinct (h : b.Linear point) (hparts : b.Parts before after)
    (hreached : b.Reached rounds left probed right) :
    ((before ++ left) ++ (probed ++ (right ++ after))).Pairwise
      fun a c => a.revision ≠ c.revision := by
  have hnames := h.distinct
  rw [names, hparts.split, hreached.split] at hnames
  have hpairwise := pairwise_map.mp hnames
  simpa only [append_assoc] using hpairwise

/-- The candidates are what stands beside the probed part. -/
theorem Reached.candidates (h : b.Settled point before after)
    (hreached : b.Reached rounds left probed right) :
    RevisionBisect.candidates b.contract (probeMap (b.afterRounds rounds)) b.interior =
      left ++ right := by
  have hfresh : ∀ revision : RevisionCandidate, (∀ probe ∈ probed, probe.revision ≠ revision.revision) →
      unresolved ((probeMap (b.afterRounds rounds)).get revision.revision) = true := by
    intro revision hother
    cases hget : (probeMap (b.afterRounds rounds)).get revision.revision with
    | none => rfl
    | some verdict =>
      obtain ⟨probe, hprobe, heq⟩ := (hreached.recorded _).mp (mem_of_get_probeMap hget)
      exact absurd (BisectProbe.mk.inj heq).1.symm (hother probe hprobe)
  have hdistinct := hreached.distinct h.linear h.toParts
  obtain ⟨-, hright, hleft⟩ := pairwise_append.mp hdistinct
  obtain ⟨-, -, hmiddle⟩ := pairwise_append.mp hright
  rw [candidates_eq h.linear h.toParts, hreached.split, filter_append, filter_append]
  have hkeepLeft : left.filter (fun revision =>
      unresolved ((probeMap (b.afterRounds rounds)).get revision.revision)) = left := by
    refine filter_eq_self.mpr fun revision hmem => hfresh revision fun probe hprobe => ?_
    exact (hleft revision (by simp [hmem]) probe (by simp [hprobe])).symm
  have hkeepRight : right.filter (fun revision =>
      unresolved ((probeMap (b.afterRounds rounds)).get revision.revision)) = right := by
    refine filter_eq_self.mpr fun revision hmem => hfresh revision fun probe hprobe => ?_
    exact hmiddle probe hprobe revision (by simp [hmem])
  have hdropProbed : probed.filter (fun revision =>
      unresolved ((probeMap (b.afterRounds rounds)).get revision.revision)) = [] := by
    refine filter_eq_nil_iff.mpr fun revision hmem => ?_
    have hget := get_probeMap_of_mem ((hreached.recorded _).mpr ⟨revision, hmem, rfl⟩)
    rw [hget]
    rcases h.conclusive revision (by simp [hreached.split, hmem]) with hgood | hbad
    · simp [hgood, unresolved]
    · simp [hbad, unresolved]
  rw [hkeepLeft, hkeepRight, hdropProbed, nil_append]

variable {revision : RevisionCandidate}

/-- A proposal of the midpoint. -/
theorem proposes_of_middle {revisions : List RevisionCandidate}
    (hparts : b.Parts before after)
    (hcandidates : RevisionBisect.candidates b.contract (probeMap (b.afterRounds rounds))
      b.interior = revisions)
    (hmiddle : revisions[revisions.length / 2]? = some revision) :
    b.Proposes rounds revision.revision := by
  rw [Proposes, planAfter, hparts.plan_eq, hcandidates, midpoint, hmiddle]
  exact ⟨_, rfl, rfl⟩

theorem Proposes.afterRounds_succ {revision : String} (h : b.Proposes rounds revision) :
    b.afterRounds (rounds + 1) = b.afterRounds rounds ++ [⟨revision, b.verdict revision⟩] := by
  obtain ⟨step, hplan, rfl⟩ := h
  rw [planAfter] at hplan
  rw [afterRounds, record, hplan]

/-- A proposed revision joins the probed part. -/
theorem Reached.extend {left' probed' right' : List RevisionCandidate}
    (hreached : b.Reached rounds left probed right)
    (hproposes : b.Proposes rounds revision.revision)
    (hsplit : b.interior = left' ++ (probed' ++ right'))
    (hbalanced : left'.length = right'.length ∨ left'.length = right'.length + 1)
    (hperm : probed'.Perm (revision :: probed)) :
    b.Reached (rounds + 1) left' probed' right' where
  split := hsplit
  recorded := by
    intro probe
    rw [hproposes.afterRounds_succ, mem_append, mem_singleton, hreached.recorded]
    constructor
    · rintro (⟨other, hmem, heq⟩ | heq)
      · exact ⟨other, hperm.mem_iff.mpr (mem_cons_of_mem _ hmem), heq⟩
      · exact ⟨revision, hperm.mem_iff.mpr mem_cons_self, heq⟩
    · rintro ⟨other, hmem, heq⟩
      rcases mem_cons.mp (hperm.mem_iff.mp hmem) with rfl | hmem
      · exact .inr heq
      · exact .inl ⟨other, hmem, heq⟩
  balanced := hbalanced
  count := by rw [hperm.length_eq, length_cons, hreached.count]
  proposed := by
    intro other hmem
    rcases mem_cons.mp (hperm.mem_iff.mp hmem) with rfl | hmem
    · exact ⟨rounds, by omega, hproposes⟩
    · obtain ⟨round, hlt, hround⟩ := hreached.proposed other hmem
      exact ⟨round, by omega, hround⟩

/-- With parts of one length the first revision on the right is proposed. -/
theorem Reached.proposes_right (h : b.Settled point before after)
    (hreached : b.Reached rounds left probed (revision :: right))
    (hlength : left.length = right.length + 1) : b.Proposes rounds revision.revision := by
  refine proposes_of_middle h.toParts (hreached.candidates h) ?_
  have hmiddle : (left ++ revision :: right).length / 2 = left.length := by
    rw [length_append, length_cons]
    omega
  rw [hmiddle, getElem?_append_right (Nat.le_refl _), Nat.sub_self]
  rfl

/-- With a longer part on the left its last revision is proposed. -/
theorem Reached.proposes_left (h : b.Settled point before after)
    (hreached : b.Reached rounds (left ++ [revision]) probed right)
    (hlength : left.length = right.length) : b.Proposes rounds revision.revision := by
  refine proposes_of_middle h.toParts (hreached.candidates h) ?_
  have hmiddle : (left ++ [revision] ++ right).length / 2 = left.length := by
    simp only [length_append, length_singleton]
    omega
  rw [hmiddle, append_assoc, getElem?_append_right (Nat.le_refl _), Nat.sub_self]
  rfl

/-- The loop goes on as long as revisions are left. -/
theorem reached (h : b.Settled point before after)
    (hle : rounds ≤ b.interior.length) :
    ∃ left probed right, b.Reached rounds left probed right := by
  induction rounds with
  | zero =>
    obtain ⟨left, right, hreached⟩ := reached_zero (b := b)
    exact ⟨left, [], right, hreached⟩
  | succ rounds ih =>
    obtain ⟨left, probed, right, hreached⟩ := ih (by omega)
    have hlength := congrArg List.length hreached.split
    rw [length_append, length_append, hreached.count] at hlength
    have hbalanced := hreached.balanced
    by_cases hlonger : left.length = right.length + 1
    · obtain rfl | ⟨left, revision, rfl⟩ := eq_nil_or_concat left
      · cases hlonger
      · rw [concat_eq_append] at hreached hlonger
        rw [length_append, length_singleton] at hlonger
        have hproposes := hreached.proposes_left h (by omega)
        refine ⟨left, revision :: probed, right, hreached.extend hproposes ?_ (.inl (by omega))
          (List.Perm.refl _)⟩
        rw [hreached.split, append_assoc]
        rfl
    · cases right with
      | nil =>
        simp only [length_nil] at hlength hbalanced hlonger
        omega
      | cons revision right =>
        rw [length_cons] at hlonger hbalanced
        have hproposes := hreached.proposes_right h (by omega)
        refine ⟨left, probed ++ [revision], right, hreached.extend hproposes ?_ (.inr (by omega))
          (perm_append_singleton revision probed)⟩
        rw [hreached.split, append_assoc]
        rfl

theorem midpoint_eq_none {contract : BisectContract} {revisions : List RevisionCandidate} :
    midpoint contract revisions = none ↔ revisions = [] := by
  constructor
  · intro h
    rw [midpoint] at h
    split at h
    case h_1 hnone =>
      have hle := getElem?_eq_none_iff.mp hnone
      exact length_eq_zero_iff.mp (by omega)
    case h_2 => cases h
  · rintro rfl
    rfl

/-- In the end all is probed, and nothing is proposed any more. -/
theorem Reached.all (hreached : b.Reached b.interior.length left probed right) :
    left = [] ∧ right = [] := by
  have hlength := congrArg List.length hreached.split
  rw [length_append, length_append, hreached.count] at hlength
  exact ⟨length_eq_zero_iff.mp (by omega), length_eq_zero_iff.mp (by omega)⟩

theorem planAfter_interior (h : b.Settled point before after) :
    b.planAfter b.interior.length = .ok none := by
  obtain ⟨left, probed, right, hreached⟩ := reached h (Nat.le_refl _)
  obtain ⟨rfl, rfl⟩ := hreached.all
  rw [planAfter, h.plan_eq, hreached.candidates h]
  rfl

theorem planAfter_of_le {later : Nat} (hnone : b.planAfter rounds = .ok none)
    (hle : rounds ≤ later) : b.planAfter later = .ok none := by
  induction hle with
  | refl => exact hnone
  | @step later _ ih =>
    have hsame : b.afterRounds (later + 1) = b.afterRounds later := by
      rw [planAfter] at ih
      rw [afterRounds, record, ih]
    rw [planAfter, hsame]
    exact ih

/-- The loop ends just when no revision between the ends is skipped. -/
theorem terminates_iff (h : b.Linear point) (hparts : b.Parts before after) :
    b.Terminates ↔ ∀ revision ∈ b.interior, b.Conclusive revision.revision := by
  constructor
  · rintro ⟨rounds, hnone⟩ revision hmem
    by_contra hopen
    rw [planAfter, hparts.plan_eq, candidates_eq h hparts] at hnone
    have hempty := midpoint_eq_none.mp (Except.ok.inj hnone)
    have hresolved := filter_eq_nil_iff.mp hempty revision hmem
    -- probed or not, the revision stays in the range
    cases hget : (probeMap (b.afterRounds rounds)).get revision.revision with
    | none =>
      rw [hget] at hresolved
      exact hresolved rfl
    | some verdict =>
      have hverdict : verdict = b.verdict revision.revision :=
        verdict_of_mem (mem_of_get_probeMap hget)
      rw [hget] at hresolved
      cases verdict with
      | good => exact hopen (.inl hverdict.symm)
      | bad => exact hopen (.inr hverdict.symm)
      | skip => exact hresolved rfl
      | inconclusive => exact hresolved rfl
  · intro hsettled
    exact ⟨_, planAfter_interior ⟨hparts, h, hsettled⟩⟩

/-! ## Where revisions stand -/

theorem idxOf_lt {first second : List RevisionCandidate} (hdistinct : b.names.Nodup)
    (hsplit : b.history = first ++ second) {x y : String}
    (hx : x ∈ first.map RevisionCandidate.revision)
    (hy : y ∈ second.map RevisionCandidate.revision) : b.names.idxOf x < b.names.idxOf y := by
  rw [names, hsplit, map_append] at hdistinct
  have hapart := (nodup_append.mp hdistinct).2.2
  have hnot : y ∉ first.map RevisionCandidate.revision := fun hmem => hapart y hmem y hy rfl
  have hlt := idxOf_lt_length_of_mem hx
  rw [names, hsplit, map_append, idxOf_append, if_pos hx, idxOf_append,
    if_neg hnot]
  omega

/-- The index of a revision tells the part it stands in. -/
theorem index_bounds {first middle last : List RevisionCandidate} (hdistinct : b.names.Nodup)
    (hsplit : b.history = first ++ (middle ++ last)) {index : Nat}
    (hindex : b.names[index]? = some revision.revision) (hmem : revision ∈ middle) :
    first.length ≤ index ∧ index < first.length + middle.length := by
  obtain ⟨offset, hoffset⟩ := List.mem_iff_getElem?.mp hmem
  obtain ⟨hlt, -⟩ := List.getElem?_eq_some_iff.mp hoffset
  have hplace : b.names[first.length + offset]? = some revision.revision := by
    rw [names, hsplit, List.getElem?_map, List.getElem?_append_right (by omega),
      Nat.add_sub_cancel_left, List.getElem?_append_left hlt, hoffset]
    rfl
  obtain ⟨hlt', heq'⟩ := List.getElem?_eq_some_iff.mp hplace
  obtain ⟨hlt'', heq''⟩ := List.getElem?_eq_some_iff.mp hindex
  have hsame : first.length + offset = index :=
    (hdistinct.getElem_inj_iff).mp (heq'.trans heq''.symm)
  omega

/-- What is proposed stands between the ends. -/
theorem Proposes.mem_interior (h : b.Linear point) (hparts : b.Parts before after)
    {revision : String} (hproposes : b.Proposes rounds revision) :
    revision ∈ b.interior.map RevisionCandidate.revision := by
  obtain ⟨step, hplan, rfl⟩ := hproposes
  rw [planAfter, hparts.plan_eq, candidates_eq h hparts, midpoint] at hplan
  split at hplan
  case h_1 => cases Except.ok.inj hplan
  case h_2 middle hmiddle =>
    rw [← Option.some.inj (Except.ok.inj hplan)]
    exact mem_map_of_mem (mem_filter.mp (mem_of_getElem? hmiddle)).1

/-- A single revision is probed after the first round. -/
theorem Reached.one (hreached : b.Reached 1 left probed right) :
    ∃ middle, probed = [middle] ∧ b.Proposes 0 middle.revision := by
  obtain ⟨middle, rfl⟩ := length_eq_one_iff.mp hreached.count
  obtain ⟨round, hlt, hround⟩ := hreached.proposed middle mem_cons_self
  obtain rfl : round = 0 := by omega
  exact ⟨middle, rfl, hround⟩

/-- Each revision between the ends is proposed at some time. -/
theorem exists_proposes (h : b.Settled point before after)
    (hmem : revision ∈ b.interior) :
    ∃ round, b.Proposes round revision.revision := by
  obtain ⟨left, probed, right, hreached⟩ := reached h (Nat.le_refl _)
  obtain ⟨rfl, rfl⟩ := hreached.all
  have hprobed : revision ∈ probed := by
    rw [hreached.split] at hmem
    simpa using hmem
  obtain ⟨round, -, hround⟩ := hreached.proposed revision hprobed
  exact ⟨round, hround⟩

/-- The range is never narrowed: two revisions on one side of the middle are proposed
whatever its verdict is. -/
theorem atMostOneChoice_of_narrows (h : b.Settled point before after)
    (hnarrows : b.Narrows) : b.AtMostOneChoice := by
  by_cases hshort : b.interior.length ≤ 1
  · exact .inl hshort
  have hfirst : ∃ left probed right, b.Reached 1 left probed right :=
    reached h (by omega)
  obtain ⟨left, probed, right, hreached⟩ := hfirst
  obtain ⟨middle, rfl, hmiddle⟩ := hreached.one
  have hlength := congrArg List.length hreached.split
  simp only [length_append, length_singleton] at hlength
  have hbalanced := hreached.balanced
  have hsplit : b.history = (before ++ left) ++ ([middle] ++ (right ++ after)) := by
    rw [h.split, hreached.split]
    simp only [append_assoc]
  -- another revision is proposed after the middle one is known
  have hlater : ∀ other ∈ b.interior, other.revision ≠ middle.revision →
      ∃ round, b.Proposes round other.revision ∧
        ⟨middle.revision, b.verdict middle.revision⟩ ∈ b.afterRounds round := by
    intro other hmem hne
    obtain ⟨round, hround⟩ := exists_proposes h hmem
    refine ⟨round, hround, mem_afterRounds_of_le ?_ hmiddle.recorded⟩
    by_contra hzero
    obtain rfl : round = 0 := by omega
    exact hne (hround.unique hmiddle)
  rcases h.conclusive middle (by simp [hreached.split]) with hgood | hbad
  · cases left with
    | nil =>
      simp only [length_nil] at hlength hbalanced
      omega
    | cons other left =>
      have hlt : b.names.idxOf other.revision < b.names.idxOf middle.revision :=
        idxOf_lt h.linear.distinct hsplit (by simp) (by simp)
      obtain ⟨round, hround, hknown⟩ :=
        hlater other (by simp [hreached.split]) (fun heq => by rw [heq] at hlt; omega)
      rw [hgood] at hknown
      have hafter := (hnarrows round _ hround).1 _ (.inr hknown)
      omega
  · cases right with
    | nil =>
      simp only [length_nil] at hlength hbalanced
      refine .inr ⟨by omega, fun revision hlast => ?_⟩
      rw [hreached.split, append_nil, getLast?_concat] at hlast
      rw [← Option.some.inj hlast]
      exact hbad
    | cons other right =>
      have hsplit' : b.history = (before ++ (left ++ [middle])) ++ (other :: (right ++ after)) := by
        rw [hsplit]
        simp
      have hlt : b.names.idxOf middle.revision < b.names.idxOf other.revision :=
        idxOf_lt h.linear.distinct hsplit' (by simp) (by simp)
      obtain ⟨round, hround, hknown⟩ :=
        hlater other (by simp [hreached.split]) (fun heq => by rw [heq] at hlt; omega)
      rw [hbad] at hknown
      have hbefore := (hnarrows round _ hround).2 _ (.inr hknown)
      omega

theorem narrows_of_atMostOneChoice (h : b.Settled point before after)
    (hchoice : b.AtMostOneChoice) : b.Narrows := by
  intro rounds revision hproposes
  have hrounds : rounds < b.interior.length := by
    by_contra hge
    have hnone := planAfter_of_le (planAfter_interior h) (Nat.not_lt.mp hge)
    obtain ⟨step, hplan, -⟩ := hproposes
    rw [hnone] at hplan
    cases Except.ok.inj hplan
  have hmem := hproposes.mem_interior h.linear h.toParts
  -- a verdict is known only where two revisions stand between the ends
  have htwo : ∀ probe ∈ b.afterRounds rounds, ∃ other middle, b.interior = [other, middle] ∧
      probe = ⟨middle.revision, .bad⟩ ∧ revision = other.revision := by
    intro probe hprobe
    obtain ⟨left, probed, right, hreached⟩ := reached h (Nat.le_of_lt hrounds)
    obtain ⟨middle, hmiddle, heq⟩ := (hreached.recorded probe).mp hprobe
    have hcount := length_pos_of_mem hmiddle
    rw [hreached.count] at hcount
    rcases hchoice with hshort | ⟨htwo, hlast⟩
    · omega
    · obtain rfl : rounds = 1 := by omega
      obtain ⟨first, rfl, -⟩ := hreached.one
      obtain rfl := mem_singleton.mp hmiddle
      have hlength := congrArg List.length hreached.split
      simp only [length_append, length_singleton] at hlength
      have hbalanced := hreached.balanced
      obtain ⟨other, rfl⟩ := length_eq_one_iff.mp (by omega : left.length = 1)
      obtain rfl := length_eq_zero_iff.mp (by omega : right.length = 0)
      have hinterior : b.interior = [other, middle] := hreached.split
      refine ⟨other, middle, hinterior, ?_, ?_⟩
      · rw [heq, hlast middle (by rw [hinterior]; rfl)]
      · have hbeside : b.Reached 1 ([] ++ [other]) [middle] [] := hreached
        exact hproposes.unique (hbeside.proposes_left h rfl)
  constructor
  · rintro known (rfl | hknown)
    · refine idxOf_lt h.linear.distinct h.split h.good_mem ?_
      rw [map_append]
      exact mem_append_left _ hmem
    · obtain ⟨other, middle, -, heq, -⟩ := htwo _ hknown
      cases (BisectProbe.mk.inj heq).2
  · rintro known (rfl | hknown)
    · have hsplit : b.history = (before ++ b.interior) ++ after := by
        rw [append_assoc]
        exact h.split
      refine idxOf_lt h.linear.distinct hsplit ?_ h.bad_mem
      rw [map_append]
      exact mem_append_right _ hmem
    · obtain ⟨other, middle, hinterior, heq, hrevision⟩ := htwo _ hknown
      obtain ⟨rfl, -⟩ := BisectProbe.mk.inj heq
      have hsplit : b.history = (before ++ [other]) ++ ([middle] ++ after) := by
        rw [h.split, hinterior]
        simp
      rw [hrevision]
      exact idxOf_lt h.linear.distinct hsplit (by simp) (by simp)

/-! ## The analysis -/

theorem ordered_eq (h : b.Linear point) : ordered b.history b.contract = b.history := by
  refine filter_eq_self.mpr fun revision hmem => ?_
  rw [h.pinned revision hmem, beq_self_eq_true]

/-- What is recorded is a part in the middle, after any number of rounds. -/
theorem exists_recorded (h : b.Settled point before after) (rounds : Nat) :
    ∃ left probed right, b.interior = left ++ (probed ++ right) ∧
      ∀ probe, probe ∈ b.afterRounds rounds ↔
        ∃ revision ∈ probed, probe = ⟨revision.revision, b.verdict revision.revision⟩ := by
  induction rounds with
  | zero =>
    obtain ⟨left, right, hreached⟩ := reached_zero (b := b)
    exact ⟨left, [], right, hreached.split, hreached.recorded⟩
  | succ rounds ih =>
    by_cases hle : rounds + 1 ≤ b.interior.length
    · obtain ⟨left, probed, right, hreached⟩ := reached h hle
      exact ⟨left, probed, right, hreached.split, hreached.recorded⟩
    · have hnone := planAfter_of_le (planAfter_interior h)
        (by omega : b.interior.length ≤ rounds)
      have hsame : b.afterRounds (rounds + 1) = b.afterRounds rounds := by
        rw [planAfter] at hnone
        rw [afterRounds, record, hnone]
      rw [hsame]
      exact ih

/-- A complete analysis has a good revision before the first bad one. -/
theorem exists_of_complete (h : b.Linear point) (hcomplete : (b.analysis rounds).complete = true) :
    ∃ (good bad : Nat) (goodName badName : String), good < bad ∧
      b.names[good]? = some goodName ∧ ⟨goodName, .good⟩ ∈ b.afterRounds rounds ∧
      b.names[bad]? = some badName ∧ ⟨badName, .bad⟩ ∈ b.afterRounds rounds ∧
      (∀ (index : Nat) (name : String), index < bad → b.names[index]? = some name →
        ⟨name, .bad⟩ ∉ b.afterRounds rounds) ∧
      (b.analysis rounds).firstBad = some badName := by
  rw [analysis, analyze, ordered_eq h] at hcomplete
  rw [analysis, analyze, ordered_eq h]
  simp only [Bool.and_eq_true] at hcomplete
  cases hbad : firstBadIndex b.history b.contract (b.afterRounds rounds) with
  | none => rw [hbad] at hcomplete; cases hcomplete.1
  | some bad =>
    rw [hbad, Option.bind_some, Option.bind_some] at hcomplete
    cases hgood : lastGoodIndex b.history b.contract (b.afterRounds rounds) bad with
    | none => rw [hgood] at hcomplete; cases hcomplete.2
    | some good =>
      rw [firstBadIndex, ordered_eq h, findIdx?_eq_some_iff_getElem] at hbad
      obtain ⟨hlt, hverdict, hfirst⟩ := hbad
      rw [lastGoodIndex, ordered_eq h] at hgood
      have hgoodVerdict := find?_some hgood
      have hbelow := mem_range.mp (mem_reverse.mp (mem_of_find?_eq_some hgood))
      have hgoodLt : good < b.history.length := by omega
      rw [getElem?_eq_getElem hgoodLt, Option.any_some, decide_eq_true_iff] at hgoodVerdict
      refine ⟨good, bad, b.history[good].revision, b.history[bad].revision, hbelow, ?_,
        mem_of_get_probeMap hgoodVerdict, ?_,
        mem_of_get_probeMap (decide_eq_true_iff.mp hverdict), ?_, ?_⟩
      · rw [names, getElem?_map, getElem?_eq_getElem hgoodLt]
        rfl
      · rw [names, getElem?_map, getElem?_eq_getElem hlt]
        rfl
      · intro index name hindex hname hmem
        have hindexLt : index < b.history.length := by omega
        rw [names, getElem?_map, getElem?_eq_getElem hindexLt] at hname
        refine hfirst index hindex (decide_eq_true_iff.mpr ?_)
        rw [← Option.some.inj hname] at hmem
        exact get_probeMap_of_mem hmem
      · rw [Option.bind_some, getElem?_eq_getElem hlt]
        rfl

/-- What is probed is a part of the history without gaps: if a good and a bad revision are
in it, so is the point. -/
theorem findsPoint (h : b.Settled point before after) : b.FindsPoint point := by
  intro rounds hcomplete
  obtain ⟨good, bad, goodName, badName, hlt, hgoodName, hgoodMem, hbadName, hbadMem, hfirst,
    hfirstBad⟩ := exists_of_complete h.linear hcomplete
  obtain ⟨left, probed, right, hinterior, hrecorded⟩ := exists_recorded h rounds
  have hsplit : b.history = (before ++ left) ++ (probed ++ (right ++ after)) := by
    rw [h.split, hinterior]
    simp only [append_assoc]
  obtain ⟨goodRevision, hgoodProbed, hgoodEq⟩ := (hrecorded _).mp hgoodMem
  obtain ⟨badRevision, hbadProbed, hbadEq⟩ := (hrecorded _).mp hbadMem
  obtain ⟨rfl, hgoodVerdict⟩ := BisectProbe.mk.inj hgoodEq
  obtain ⟨rfl, hbadVerdict⟩ := BisectProbe.mk.inj hbadEq
  have hgoodBounds := index_bounds h.linear.distinct hsplit hgoodName hgoodProbed
  have hbadBounds := index_bounds h.linear.distinct hsplit hbadName hbadProbed
  have hgoodPoint : good < point := by
    by_contra hge
    exact h.linear.onwards good _ hgoodName (by omega) hgoodVerdict.symm
  have hbadPoint : point ≤ bad := by
    by_contra hge
    exact h.linear.before bad _ hbadName (by omega) hbadVerdict.symm
  by_cases hsame : point = bad
  · rw [hfirstBad, hsame, hbadName]
  · -- the point is probed, and is bad before the first bad revision
    have hoffset : point - (before ++ left).length < probed.length := by omega
    have hpoint : b.names[point]? =
        some probed[point - (before ++ left).length].revision := by
      rw [names, hsplit, getElem?_map, getElem?_append_right (by omega),
        getElem?_append_left hoffset, getElem?_eq_getElem hoffset]
      rfl
    have hmem : probed[point - (before ++ left).length] ∈ probed := getElem_mem hoffset
    have hinner : probed[point - (before ++ left).length] ∈ b.interior := by
      rw [hinterior]
      exact mem_append_right _ (mem_append_left _ hmem)
    rcases h.conclusive _ hinner with hisGood | hisBad
    · exact absurd hisGood (h.linear.onwards point _ hpoint (Nat.le_refl _))
    · have hnot := hfirst point _ (by omega) hpoint
      rw [← hisBad] at hnot
      exact absurd ((hrecorded _).mpr ⟨_, hmem, rfl⟩) hnot

end

/-- **Bisection.**  The loop ends and, where all verdicts are conclusive, each proposal lies
between what is known and a complete analysis names the point, just when no revision between
the ends is skipped and, where all verdicts are conclusive, there is at most one choice. -/
theorem bisection_iff {b : Bisection} {point : Nat} (h : b.Linear point) :
    (b.Terminates ∧
      ((∀ name ∈ b.names, b.Conclusive name) → b.Narrows ∧ b.FindsPoint point)) ↔
    (∀ revision ∈ b.interior, b.Conclusive revision.revision) ∧
      ((∀ name ∈ b.names, b.Conclusive name) → b.AtMostOneChoice) := by
  obtain ⟨before, after, hparts⟩ := h.parts
  constructor
  · rintro ⟨hterminates, hsound⟩
    have hsettled := (terminates_iff h hparts).mp hterminates
    exact ⟨hsettled, fun hall =>
      atMostOneChoice_of_narrows ⟨hparts, h, hsettled⟩ (hsound hall).1⟩
  · rintro ⟨hsettled, hchoice⟩
    refine ⟨(terminates_iff h hparts).mpr hsettled, fun hall => ⟨?_, ?_⟩⟩
    · exact narrows_of_atMostOneChoice ⟨hparts, h, hsettled⟩ (hchoice hall)
    · exact findsPoint ⟨hparts, h, hsettled⟩

/-! ## Histories of one environment -/

/-- The revisions from the first bad one on are bad. -/
def line (first : String) (goods bads : List String) (last : String) : Bisection where
  history := (first :: (goods ++ (bads ++ [last]))).map fun name => ⟨name, OrderedSet.empty, "env"⟩
  contract := ⟨first, last, "env", OrderedSet.empty⟩
  verdict name := if name ∈ bads ++ [last] then .bad else .good

section
variable {first last : String} {goods bads : List String}

theorem names_line :
    (line first goods bads last).names = (first :: goods) ++ (bads ++ [last]) := by
  rw [names, line, map_map, cons_append]
  exact map_id _

theorem verdict_line {name : String} (h : name ∈ bads ++ [last]) :
    (line first goods bads last).verdict name = .bad := if_pos h

theorem verdict_line_of_not_mem {name : String} (h : name ∉ bads ++ [last]) :
    (line first goods bads last).verdict name = .good := if_neg h

theorem conclusive_line (name : String) : (line first goods bads last).Conclusive name := by
  by_cases hmem : name ∈ bads ++ [last]
  · exact .inr (verdict_line hmem)
  · exact .inl (verdict_line_of_not_mem hmem)

theorem linear_line (hnodup : ((first :: goods) ++ (bads ++ [last])).Nodup) :
    (line first goods bads last).Linear (goods.length + 1) := by
  have hapart := (nodup_append.mp hnodup).2.2
  have hgood : ∀ name ∈ first :: goods, (line first goods bads last).verdict name = .good :=
    fun name hmem => verdict_line_of_not_mem fun hbad => hapart name hmem name hbad rfl
  constructor
  case distinct =>
    rw [names_line]
    exact hnodup
  case pinned =>
    intro revision hmem
    obtain ⟨name, -, rfl⟩ := mem_map.mp hmem
    rfl
  case unfiltered => rfl
  case good_mem =>
    rw [names_line]
    exact mem_cons_self
  case bad_mem =>
    rw [names_line]
    exact mem_append_right _ (mem_append_right _ mem_cons_self)
  case good_end => exact hgood first mem_cons_self
  case bad_end => exact verdict_line (mem_append_right _ mem_cons_self)
  case before =>
    intro index name hname hlt hbad
    rw [names_line, getElem?_append_left (by rw [length_cons]; omega)] at hname
    rw [hgood name (mem_of_getElem? hname)] at hbad
    cases hbad
  case onwards =>
    intro index name hname hle hgood
    rw [names_line, getElem?_append_right (by rw [length_cons]; omega)] at hname
    rw [verdict_line (mem_of_getElem? hname)] at hgood
    cases hgood

end

/-- Two revisions between the ends, the second of them bad. -/
theorem bisection_iff_pair :
    (line "r0" ["r1"] ["r2"] "r3").Terminates ∧
      ((∀ name ∈ (line "r0" ["r1"] ["r2"] "r3").names,
          (line "r0" ["r1"] ["r2"] "r3").Conclusive name) →
        (line "r0" ["r1"] ["r2"] "r3").Narrows ∧ (line "r0" ["r1"] ["r2"] "r3").FindsPoint 2) := by
  refine (bisection_iff (linear_line (by decide +kernel))).mpr
    ⟨fun revision _ => conclusive_line revision.revision,
      fun _ => .inr ⟨by decide +kernel, fun revision hlast => ?_⟩⟩
  have hname : (line "r0" ["r1"] ["r2"] "r3").interior.getLast?.map RevisionCandidate.revision =
      some "r2" := by decide +kernel
  rw [hlast, Option.map_some, Option.some.injEq] at hname
  rw [hname]
  exact verdict_line (by decide)

/-- A revision behind one that is known to be bad is proposed. -/
theorem range_not_narrowed :
    ¬ ∀ (b : Bisection) (point : Nat), b.Linear point → b.Terminates ∧
      ((∀ name ∈ b.names, b.Conclusive name) → b.Narrows ∧ b.FindsPoint point) := by
  intro hall
  have hlinear : (line "r0" ["r1"] ["r2", "r3"] "r4").Linear 2 := linear_line (by decide +kernel)
  obtain ⟨before, after, hparts⟩ := hlinear.parts
  have hnarrows := ((hall _ _ hlinear).2 fun name _ => conclusive_line name).1
  have hlength : (line "r0" ["r1"] ["r2", "r3"] "r4").interior.length = 3 := by decide +kernel
  rcases atMostOneChoice_of_narrows ⟨hparts, hlinear, fun _ _ => conclusive_line _⟩ hnarrows with
    hle | ⟨htwo, -⟩
  · omega
  · omega

end Bisection
end RevisionBisect
end Localview
