import Mathlib.Algebra.Order.Ring.Rat
import Mathlib.Data.Finset.Max
import Localview.UxContracts
import Localview.ParentChain

/-! # Conflicts and inheritance of contracts

Contracts conflict pairwise and by their forms, while facts either meet a list of contracts
or do not.  Over exact metrics the two agree: bounds that are compatible in pairs have a
value between them, and what is required of different subjects is independent
(`exists_meets`).

The loop that follows parents is given without fuel as `FollowsParents`; it ends for every
registry, and in a cycle if and only if following parents comes to an id twice.
-/
namespace Localview
open EarlyReturn ParentChain List Bool OrderedMap OrderedSet Option

/-- Between bounds that are compatible in pairs there is a value. -/
theorem exists_between_bounds {α : Type} [LinearOrder α] [Nonempty α] {lower upper : List α}
    (h : ∀ l ∈ lower, ∀ u ∈ upper, l ≤ u) : ∃ v, (∀ l ∈ lower, l ≤ v) ∧ ∀ u ∈ upper, v ≤ u := by
  by_cases hlower : lower = []
  · by_cases hupper : upper = []
    · obtain ⟨v⟩ := ‹Nonempty α›
      subst hlower hupper
      exact ⟨v, nofun, nofun⟩
    · obtain ⟨u, hu, hleast⟩ := Finset.exists_min_image upper.toFinset id
        (toFinset_nonempty_iff upper |>.mpr hupper)
      subst hlower
      exact ⟨u, nofun, fun u' hu' => hleast u' (mem_toFinset.mpr hu')⟩
  · obtain ⟨l, hl, hgreatest⟩ := Finset.exists_max_image lower.toFinset id
      (toFinset_nonempty_iff lower |>.mpr hlower)
    exact ⟨l, fun l' hl' => hgreatest l' (mem_toFinset.mpr hl'),
      fun u hu => h l (mem_toFinset.mp hl) u hu⟩

section
variable {V : Type} [DecidableEq V] {facts : RuntimeFacts ℚ V} {p q : ContractPredicate ℚ V}

/-- Facts are as a contract wants them. -/
def Meets (facts : RuntimeFacts ℚ V) : ContractPredicate ℚ V → Prop
  | .exists selector => selector ∈ facts.selectors.toList
  | .notExists selector => selector ∉ facts.selectors.toList
  | .metricAtMost metric max => ∃ value, facts.metrics.get metric = some value ∧ value ≤ max
  | .metricAtLeast metric min => ∃ value, facts.metrics.get metric = some value ∧ min ≤ value
  | .equals key value => facts.values.get key = some value
  | .noIssueCode code => code ∉ facts.issueCodes.toList
  | .everyInteractiveNamed => facts.unnamedInteractiveCount = 0

theorem boolResult_eq_pass {holds : Bool} {passMessage failMessage : String} :
    (boolResult holds passMessage failMessage).1 = .pass ↔ holds = true := by
  cases holds <;> simp [boolResult]

theorem evaluatePredicate_eq_pass : (evaluatePredicate facts p).1 = .pass ↔ Meets facts p := by
  cases p with unfold evaluatePredicate Meets
  | «exists» selector =>
    rw [boolResult_eq_pass, OrderedSet.contains_iff]
  | notExists selector =>
    rw [boolResult_eq_pass, Bool.not_eq_true', ← Bool.not_eq_true, OrderedSet.contains_iff]
  | metricAtMost metric bound | metricAtLeast metric bound =>
    cases hget : facts.metrics.get metric with
    | none => simp [hget]
    | some value => simp [hget, boolResult_eq_pass, Binary64.le]
  | equals key value =>
    cases hget : facts.values.get key with
    | none => simp [hget]
    | some actual => simp [hget, boolResult_eq_pass]
  | noIssueCode code =>
    rw [boolResult_eq_pass, Bool.not_eq_true', ← Bool.not_eq_true, OrderedSet.contains_iff]
  | everyInteractiveNamed =>
    rw [boolResult_eq_pass, beq_iff_eq]

/-! ## Compatible in pairs -/

/-- Predicates that conflict are not met together. -/
theorem not_meets_of_conflict (h : predicatesConflict p q = true) (hp : Meets facts p) :
    ¬Meets facts q := by
  intro hq
  cases p <;> cases q <;> simp only [predicatesConflict, and_eq_true, beq_iff_eq, bne_iff_ne,
    false_eq_true] at h
  case exists.notExists selector other =>
    subst h
    exact hq hp
  case notExists.exists selector other =>
    subst h
    exact hp hq
  case metricAtMost.metricAtLeast metric max other min =>
    obtain ⟨rfl, hlt⟩ := h
    obtain ⟨value, hget, hle⟩ := hp
    obtain ⟨value', hget', hge⟩ := hq
    obtain rfl := some.inj (hget.symm.trans hget')
    exact absurd (of_decide_eq_true hlt) (not_lt.mpr (hge.trans hle))
  case metricAtLeast.metricAtMost metric min other max =>
    obtain ⟨rfl, hlt⟩ := h
    obtain ⟨value, hget, hge⟩ := hp
    obtain ⟨value', hget', hle⟩ := hq
    obtain rfl := some.inj (hget.symm.trans hget')
    exact absurd (of_decide_eq_true hlt) (not_lt.mpr (hge.trans hle))
  case equals.equals key value other value' =>
    obtain ⟨rfl, hne⟩ := h
    exact hne (some.inj (hp.symm.trans hq))

theorem predicatesConflict_symm : predicatesConflict p q = predicatesConflict q p := by
  cases p <;> cases q <;> simp only [predicatesConflict]
  case exists.notExists => exact beq_comm
  case notExists.exists => exact beq_comm
  case metricAtMost.metricAtLeast metric max other min => rw [beq_comm]
  case metricAtLeast.metricAtMost metric min other max => rw [beq_comm]
  case equals.equals key value other value' => rw [beq_comm, bne_comm]

theorem predicatesConflict_self : predicatesConflict p p = false := by
  cases p <;> simp [predicatesConflict]

/-- The selector that has to be there. -/
def requiredSelector : ContractPredicate ℚ V → Option String
  | .exists selector => some selector
  | _ => none

def boundedMetric : ContractPredicate ℚ V → Option String
  | .metricAtMost metric _ | .metricAtLeast metric _ => some metric
  | _ => none

def lowerBound (metric : String) : ContractPredicate ℚ V → Option ℚ
  | .metricAtLeast other min => if other = metric then some min else none
  | _ => none

def upperBound (metric : String) : ContractPredicate ℚ V → Option ℚ
  | .metricAtMost other max => if other = metric then some max else none
  | _ => none

def requiredValue : ContractPredicate ℚ V → Option (String × V)
  | .equals key value => some (key, value)
  | _ => none

variable {predicates : List (ContractPredicate ℚ V)}

/-- Bounds that are compatible in pairs leave a value of the metric. -/
theorem exists_metric (h : ∀ p ∈ predicates, ∀ q ∈ predicates, predicatesConflict p q = false)
    (metric : String) :
    ∃ value, (∀ min, .metricAtLeast metric min ∈ predicates → min ≤ value) ∧
      ∀ max, .metricAtMost metric max ∈ predicates → value ≤ max := by
  obtain ⟨value, hlower, hupper⟩ := @exists_between_bounds ℚ _ _
    (predicates.filterMap (lowerBound metric)) (predicates.filterMap (upperBound metric)) (by
      intro min hmin max hmax
      obtain ⟨p, hp, hpmin⟩ := mem_filterMap.mp hmin
      obtain ⟨q, hq, hqmax⟩ := mem_filterMap.mp hmax
      unfold lowerBound at hpmin
      unfold upperBound at hqmax
      split at hpmin <;> split at hqmax <;> simp only [reduceCtorEq,
        ite_none_right_eq_some, some.injEq] at hpmin hqmax
      obtain ⟨rfl, rfl⟩ := hpmin
      obtain ⟨rfl, rfl⟩ := hqmax
      have hnot := h _ hp _ hq
      simp only [predicatesConflict, beq_self_eq_true, Bool.true_and] at hnot
      exact not_lt.mp (of_decide_eq_false hnot))
  refine ⟨value, fun min hmin => hlower min ?_, fun max hmax => hupper max ?_⟩
  · exact mem_filterMap.mpr ⟨_, hmin, if_pos rfl⟩
  · exact mem_filterMap.mpr ⟨_, hmax, if_pos rfl⟩

/-- Predicates of which no two conflict are met together. -/
theorem exists_meets (h : ∀ p ∈ predicates, ∀ q ∈ predicates, predicatesConflict p q = false) :
    ∃ facts, ∀ p ∈ predicates, Meets facts p := by
  choose metricValue hlower hupper using exists_metric h
  refine ⟨{
    selectors := .ofList (predicates.filterMap requiredSelector)
    metrics := .ofList ((predicates.filterMap boundedMetric).map fun m => (m, metricValue m))
    values := .ofList (predicates.filterMap requiredValue)
    issueCodes := .empty
    unnamedInteractiveCount := 0 }, fun p hp => ?_⟩
  have hmetric : ∀ {metric}, boundedMetric p = some metric →
      (OrderedMap.ofList ((predicates.filterMap boundedMetric).map fun m =>
        (m, metricValue m))).get metric = some (metricValue metric) := by
    intro metric hbounded
    apply get_ofList_of_mem
    · intro value hvalue
      obtain ⟨other, -, heq⟩ := mem_map.mp hvalue
      cases heq
      rfl
    · exact mem_map.mpr ⟨metric, mem_filterMap.mpr ⟨p, hp, hbounded⟩, rfl⟩
  cases p with
  | «exists» selector =>
    exact OrderedSet.mem_ofList.mpr (mem_filterMap.mpr ⟨_, hp, rfl⟩)
  | notExists selector =>
    intro hmem
    obtain ⟨q, hq, hrequired⟩ := mem_filterMap.mp (OrderedSet.mem_ofList.mp hmem)
    unfold requiredSelector at hrequired
    split at hrequired <;> simp only [reduceCtorEq, some.injEq] at hrequired
    subst hrequired
    have hnot := h _ hp _ hq
    simp [predicatesConflict] at hnot
  | metricAtMost metric max => exact ⟨_, hmetric rfl, hupper metric max hp⟩
  | metricAtLeast metric min => exact ⟨_, hmetric rfl, hlower metric min hp⟩
  | equals key value =>
    apply get_ofList_of_mem
    · intro value' hvalue'
      obtain ⟨q, hq, hrequired⟩ := mem_filterMap.mp hvalue'
      unfold requiredValue at hrequired
      split at hrequired <;> simp only [reduceCtorEq, some.injEq, Prod.mk.injEq] at hrequired
      obtain ⟨rfl, rfl⟩ := hrequired
      have hnot := h _ hp _ hq
      simp only [predicatesConflict, beq_self_eq_true, Bool.true_and, bne_eq_false_iff_eq] at hnot
      exact hnot.symm
    · exact mem_filterMap.mpr ⟨_, hp, rfl⟩
  | noIssueCode code => exact not_mem_nil
  | everyInteractiveNamed => rfl

/-! ## Contracts of one scope -/

def JointlySatisfiable (contracts : List (UxContract ℚ V)) : Prop :=
  ∃ facts, ∀ contract ∈ contracts, (contract.evaluate facts none []).verdict = .pass

def SatisfiableInScopes (contracts : List (UxContract ℚ V)) : Prop :=
  ∀ scope, JointlySatisfiable (contracts.filter fun contract => contract.scope = scope)

variable {contracts : List (UxContract ℚ V)}

theorem evaluate_eq_pass {contract : UxContract ℚ V} {ids : List String} :
    (contract.evaluate facts none ids).verdict = .pass ↔ Meets facts contract.predicate :=
  evaluatePredicate_eq_pass

def Compatible (left right : UxContract ℚ V) : Prop :=
  left.scope = right.scope → predicatesConflict left.predicate right.predicate = false

theorem effectiveConflicts_eq_nil :
    effectiveConflicts contracts = [] ↔ contracts.Pairwise Compatible := by
  induction contracts with
  | nil => exact iff_of_true rfl List.Pairwise.nil
  | cons left rest ih =>
    rw [effectiveConflicts, append_eq_nil_iff, map_eq_nil_iff, filter_eq_nil_iff, ih,
      pairwise_cons]
    refine and_congr_left fun _ => forall₂_congr fun right _ => ?_
    simp [Compatible]

/-- Contracts of one scope that do not conflict in pairs are met together, and no others. -/
theorem satisfiableInScopes_iff : SatisfiableInScopes contracts ↔ contracts.Pairwise Compatible := by
  constructor
  · intro h
    rw [pairwise_iff_forall_sublist]
    intro left right hsublist hscope
    obtain ⟨facts, hfacts⟩ := h right.scope
    have hmeets : ∀ c ∈ contracts, c.scope = right.scope → Meets facts c.predicate := fun c hc hsame =>
      evaluate_eq_pass.mp (hfacts c (mem_filter.mpr ⟨hc, decide_eq_true hsame⟩))
    rw [eq_false_iff]
    intro hconflict
    exact not_meets_of_conflict hconflict
      (hmeets left (hsublist.subset (by simp)) hscope)
      (hmeets right (hsublist.subset (by simp)) rfl)
  · intro h scope
    have hsymm : Std.Symm (@Compatible V _) := by
      constructor
      intro left right hcompatible hscope
      rw [predicatesConflict_symm]
      exact hcompatible hscope.symm
    have hall : ∀ left ∈ contracts, ∀ right ∈ contracts, Compatible left right :=
      fun left hleft right hright =>
        List.Pairwise.forall_of_forall (fun _ _ _ => predicatesConflict_self) h hleft hright
    have hpredicates : ∀ p ∈ (contracts.filter fun c => c.scope = scope).map (·.predicate),
        ∀ q ∈ (contracts.filter fun c => c.scope = scope).map (·.predicate),
          predicatesConflict p q = false := by
      intro p hp q hq
      obtain ⟨left, hleft, rfl⟩ := mem_map.mp hp
      obtain ⟨right, hright, rfl⟩ := mem_map.mp hq
      rw [mem_filter, decide_eq_true_iff] at hleft hright
      exact hall left hleft.1 right hright.1 (hleft.2.trans hright.2.symm)
    obtain ⟨facts, hfacts⟩ := exists_meets hpredicates
    exact ⟨facts, fun c hc => evaluate_eq_pass.mpr (hfacts _ (mem_map_of_mem hc))⟩

/-- The contracts that a call compiles, before their conflicts are looked for. -/
def ContractRegistry.requestedContracts (r : ContractRegistry ℚ V)
    (requestedIds : OrderedSet String) : Except ContractCompileError (List (UxContract ℚ V)) :=
  (if requestedIds.toList.isEmpty then r.entries.map Prod.fst else requestedIds.toList).mapM
    r.effectiveContract

/-- A conflict is reported exactly of contracts that are not jointly satisfiable. -/
theorem compileAutonomousSubset_conflict {r : ContractRegistry ℚ V}
    {requestedIds : OrderedSet String} :
    (∃ conflicts, r.compileAutonomousSubset requestedIds = .error (.conflict conflicts)) ↔
      ∃ contracts, r.requestedContracts requestedIds = .ok contracts ∧
        ¬SatisfiableInScopes contracts := by
  have hcompile : r.compileAutonomousSubset requestedIds =
      ((r.requestedContracts requestedIds).mapError .contract >>= fun contracts => do
        rejectIf (effectiveConflicts contracts ≠ []) (.conflict (effectiveConflicts contracts))
        return { contracts := contracts, contractIds := contracts.map (·.id) }) := rfl
  rw [hcompile]
  cases r.requestedContracts requestedIds with
  | error e =>
    refine iff_of_false ?_ ?_
    · rintro ⟨conflicts, h⟩
      cases h
    · rintro ⟨contracts, h, -⟩
      cases h
  | ok contracts =>
    have hsatisfiable : (effectiveConflicts contracts ≠ []) ↔ ¬SatisfiableInScopes contracts := by
      rw [Ne, effectiveConflicts_eq_nil, satisfiableInScopes_iff]
    constructor
    · rintro ⟨conflicts, h⟩
      refine ⟨contracts, rfl, hsatisfiable.mp fun hnone => ?_⟩
      have hok : (do
          rejectIf (effectiveConflicts contracts ≠ []) (.conflict (effectiveConflicts contracts))
          return { contracts := contracts, contractIds := contracts.map (·.id) } :
            Except AutonomousContractCompileError (CompiledContractSet ℚ V)) =
              .error (.conflict conflicts) := h
      rw [bind_eq_error] at hok
      rcases hok with hrejected | ⟨-, -, hreturned⟩
      · exact (rejectIf_eq_error.mp hrejected).1 hnone
      · cases hreturned
    · rintro ⟨contracts', h, hnot⟩
      cases h
      refine ⟨effectiveConflicts contracts, ?_⟩
      show (rejectIf _ _ >>= _) = _
      rw [bind_eq_error]
      exact .inl (rejectIf_eq_error.mpr ⟨hsatisfiable.mpr hnot, rfl⟩)

end
/-! ## Inheritance -/

section
variable {F V : Type} {r : ContractRegistry F V} {visited : OrderedSet String}
  {current : UxContract F V} {id : String} {k : Nat}

/-- What a contract takes over from its parent. -/
def inheritFrom (parent current : UxContract F V) : UxContract F V :=
  { current with
    scope := mergeScope parent.scope current.scope
    provenance := if current.provenance.isEmpty then parent.provenance else current.provenance
    inheritedFrom := parent.inheritedFrom }

/-- The loop that follows parents, from one of its rounds to its result. -/
inductive FollowsParents (r : ContractRegistry F V) : OrderedSet String → UxContract F V →
    Except ContractCompileError (UxContract F V) → Prop
  | done {visited : OrderedSet String} {current : UxContract F V} (hnone : current.inheritedFrom = none) :
      FollowsParents r visited current (.ok current)
  | cycle {visited : OrderedSet String} {current : UxContract F V} {parentId : String}
      (hparent : current.inheritedFrom = some parentId)
      (hvisited : visited.contains parentId = true) :
      FollowsParents r visited current (.error (.inheritanceCycle parentId))
  | missing {visited : OrderedSet String} {current : UxContract F V} {parentId : String}
      (hparent : current.inheritedFrom = some parentId)
      (hnew : visited.contains parentId = false) (hmissing : r.get parentId = none) :
      FollowsParents r visited current (.error (.missingParent parentId))
  | next {visited : OrderedSet String} {current parent : UxContract F V} {parentId : String}
      {result : Except ContractCompileError (UxContract F V)}
      (hparent : current.inheritedFrom = some parentId)
      (hnew : visited.contains parentId = false) (hfound : r.get parentId = some parent)
      (hrest : FollowsParents r (visited.insert parentId) (inheritFrom parent current) result) :
      FollowsParents r visited current result

def parentOf (r : ContractRegistry F V) (id : String) : Option String :=
  (r.get id).bind (·.inheritedFrom)

/-- Every contract stands under its own id. -/
def Keyed (r : ContractRegistry F V) : Prop :=
  ∀ id contract, r.get id = some contract → contract.id = id

open ContractRegistry

theorem keyed_register (h : Keyed r) (contract : UxContract F V) : Keyed (r.register contract) := by
  intro id found hfound
  rw [register, get_insert] at hfound
  split_ifs at hfound with hid
  · rw [← some.inj hfound, hid]
  · exact h id found hfound

theorem keyed_registered (contracts : List (UxContract F V)) :
    Keyed (contracts.foldl register .empty) := by
  have hfold : ∀ r : ContractRegistry F V, Keyed r → Keyed (contracts.foldl .register r) := by
    induction contracts with
    | nil => exact fun r h => h
    | cons contract contracts ih => exact fun r h => ih _ (keyed_register h contract)
  exact hfold .empty fun _ _ h => nomatch h

/-- The loop after so many rounds: the ids on the way are visited, they are all different and
in the registry, and the contract goes on with the parent of the last one. -/
structure AtRound (r : ContractRegistry F V) (id : String) (k : Nat) (visited : OrderedSet String)
    (current : UxContract F V) : Prop where
  fresh : Fresh (parentOf r) id k
  visited : ∀ a, a ∈ visited.toList ↔ ∃ i ≤ k, ancestor (parentOf r) id i = some a
  known : ∀ i ≤ k, ∃ a contract, ancestor (parentOf r) id i = some a ∧ r.get a = some contract
  current : ancestor (parentOf r) id (k + 1) = current.inheritedFrom

/-- There are no more rounds than contracts. -/
theorem AtRound.rounds_le (h : AtRound r id k visited current) : k + 1 ≤ r.entries.length := by
  have hnodes : ∀ i ≤ k, ∃ a ∈ r.entries.map Prod.fst, ancestor (parentOf r) id i = some a := by
    intro i hi
    obtain ⟨a, contract, ha, hget⟩ := h.known i hi
    exact ⟨a, mem_map.mpr ⟨(a, contract), OrderedMap.mem_entries.mpr hget, rfl⟩, ha⟩
  have hle := h.fresh.length_le hnodes
  rw [length_map] at hle
  exact hle

/-- The first round. -/
theorem atRound_zero (hkeyed : Keyed r) (hget : r.get id = some current) :
    AtRound r id 0 (OrderedSet.empty.insert current.id) current where
  fresh := fresh_zero
  visited a := by
    rw [mem_insert, hkeyed id current hget]
    constructor
    · rintro (rfl | hmem)
      · exact ⟨0, Nat.le_refl 0, rfl⟩
      · cases hmem
    · rintro ⟨i, hi, ha⟩
      obtain rfl := Nat.le_zero.mp hi
      exact .inl (some.inj ha).symm
  known i hi := by
    obtain rfl := Nat.le_zero.mp hi
    exact ⟨id, current, rfl, hget⟩
  current := by
    rw [ancestor_succ rfl, parentOf, hget]
    rfl

/-- A round that goes on to a parent. -/
theorem AtRound.next {parentId : String} {parent : UxContract F V}
    (h : AtRound r id k visited current) (hparent : current.inheritedFrom = some parentId)
    (hnew : parentId ∉ visited.toList) (hfound : r.get parentId = some parent) :
    AtRound r id (k + 1) (visited.insert parentId) (inheritFrom parent current) where
  fresh := h.fresh.succ (h.current.trans hparent)
    fun i hi ha => hnew ((h.visited parentId).mpr ⟨i, hi, ha⟩)
  visited a := by
    rw [mem_insert, h.visited]
    constructor
    · rintro (rfl | ⟨i, hi, ha⟩)
      · exact ⟨k + 1, Nat.le_refl _, h.current.trans hparent⟩
      · exact ⟨i, by omega, ha⟩
    · rintro ⟨i, hi, ha⟩
      by_cases hlast : i = k + 1
      · rw [hlast, h.current, hparent] at ha
        exact .inl (some.inj ha).symm
      · exact .inr ⟨i, by omega, ha⟩
  known i hi := by
    by_cases hlast : i = k + 1
    · exact ⟨parentId, parent, hlast ▸ h.current.trans hparent, hfound⟩
    · exact h.known i (by omega)
  current := by
    rw [ancestor_succ (h.current.trans hparent), parentOf, hfound]
    rfl

def CycleIff (r : ContractRegistry F V) (id : String)
    (result : Except ContractCompileError (UxContract F V)) : Prop :=
  (∃ revisited, result = .error (.inheritanceCycle revisited)) ↔ Revisits (parentOf r) id

/-- From each round on the loop ends before the fuel, with the right result. -/
theorem followParents_spec {fuel : Nat} (h : AtRound r id k visited current)
    (hfuel : r.entries.length < fuel + k + 1) :
    FollowsParents r visited current (followParents r fuel visited current) ∧
      CycleIff r id (followParents r fuel visited current) := by
  induction fuel generalizing k visited current with
  | zero =>
    have hle := h.rounds_le
    omega
  | succ fuel ih =>
    unfold followParents
    cases hparent : current.inheritedFrom with
    | none =>
      refine ⟨.done hparent, iff_of_false ?_ (h.fresh.not_revisits (h.current.trans hparent))⟩
      rintro ⟨revisited, heq⟩
      cases heq
    | some parentId =>
      have hstep := h.current.trans hparent
      by_cases hvisited : visited.contains parentId = true
      · obtain ⟨i, hi, ha⟩ := (h.visited parentId).mp (OrderedSet.contains_iff.mp hvisited)
        simp only [hvisited, if_true]
        exact ⟨.cycle hparent hvisited,
          iff_of_true ⟨parentId, rfl⟩ ⟨i, k + 1, parentId, by omega, ha, hstep⟩⟩
      · have hnew : parentId ∉ visited.toList := mt OrderedSet.contains_iff.mpr hvisited
        rw [not_eq_true] at hvisited
        simp only [hvisited, false_eq_true, if_false]
        cases hfound : r.get parentId with
        | none =>
          have hfresh := h.fresh.succ hstep
            fun i hi ha => hnew ((h.visited parentId).mpr ⟨i, hi, ha⟩)
          have hend : ancestor (parentOf r) id (k + 2) = none := by
            rw [ancestor_succ hstep, parentOf, hfound]
            rfl
          refine ⟨.missing hparent hvisited hfound, iff_of_false ?_ (hfresh.not_revisits hend)⟩
          rintro ⟨revisited, heq⟩
          cases heq
        | some parent =>
          obtain ⟨hfollows, hcycle⟩ := ih (h.next hparent hnew hfound) (by omega)
          exact ⟨.next hparent hvisited hfound hfollows, hcycle⟩

/-- The loop has one result. -/
theorem FollowsParents.unique {result result' : Except ContractCompileError (UxContract F V)}
    (h : FollowsParents r visited current result) (h' : FollowsParents r visited current result') :
    result = result' := by
  induction h generalizing result' with
  | done hnone => cases h' <;> grind
  | cycle hparent hvisited => cases h' <;> grind
  | missing hparent hnew hmissing => cases h' <;> grind
  | next hparent hnew hfound hrest ih => cases h' <;> grind

/-- Following parents from an id ends with one result, a cycle exactly if an id is
revisited. -/
theorem effectiveContract_spec (hkeyed : Keyed r) :
    (∀ contract, r.get id = some contract → ∀ result,
      FollowsParents r (OrderedSet.empty.insert contract.id) contract result ↔
        result = r.effectiveContract id) ∧
    CycleIff r id (r.effectiveContract id) := by
  unfold effectiveContract
  cases hget : r.get id with
  | none =>
    refine ⟨fun _ h => (nomatch h), iff_of_false ?_ ?_⟩
    · rintro ⟨revisited, heq⟩
      cases heq
    · refine fresh_zero.not_revisits ?_
      rw [ancestor_succ rfl, parentOf, hget]
      rfl
  | some contract =>
    obtain ⟨hfollows, hcycle⟩ := followParents_spec (atRound_zero hkeyed hget)
      (Nat.lt_succ_of_lt (Nat.lt_succ_self r.entries.length))
    refine ⟨fun found hfound result => ?_, hcycle⟩
    cases hfound
    constructor
    · exact fun h => h.unique hfollows
    · rintro rfl
      exact hfollows

end

/-- The registry in which contracts have been registered one after the other. -/
def ContractRegistry.ofContracts {F V : Type} (contracts : List (UxContract F V)) :
    ContractRegistry F V :=
  contracts.foldl register .empty

/-- Of any contracts registered: a conflict is reported exactly of compiled contracts that no
facts meet together in some scope; and following the parents of an id always ends, in a cycle
exactly if it comes to an id twice. -/
theorem contract_conflicts_exact {V : Type} [DecidableEq V] (registered : List (UxContract ℚ V)) :
    (∀ requestedIds,
      (∃ conflicts, (ContractRegistry.ofContracts registered).compileAutonomousSubset requestedIds =
        .error (.conflict conflicts)) ↔
      ∃ contracts, (ContractRegistry.ofContracts registered).requestedContracts requestedIds =
        .ok contracts ∧ ¬SatisfiableInScopes contracts) ∧
    ∀ id,
      (∀ contract, (ContractRegistry.ofContracts registered).get id = some contract → ∀ result,
        FollowsParents (ContractRegistry.ofContracts registered) (OrderedSet.empty.insert contract.id)
          contract result ↔
            result = (ContractRegistry.ofContracts registered).effectiveContract id) ∧
      CycleIff (ContractRegistry.ofContracts registered) id
        ((ContractRegistry.ofContracts registered).effectiveContract id) :=
  ⟨fun _ => compileAutonomousSubset_conflict,
    fun _ => effectiveContract_spec (keyed_registered registered)⟩

end Localview
