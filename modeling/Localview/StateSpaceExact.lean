import Localview.StateSpace

/-! # What the state-space compiler compiles

The dimensions it accepts have values, and no dimension and no value of one twice.  Then
the expansion lists every full assignment once, the loop that picks takes states off a
permutation of the eligible ones, and the counters say how many were left: a state was
omitted just when fewer were kept than the product less what constraints eliminated.
-/
namespace Localview
open EarlyReturn List OrderedMap OrderedSet

variable {F V : Type}

/-- Dimensions that pass the checks made of them before a plan is compiled. -/
def AcceptedDimensions (dimensions : List (StateDimension F V)) : Prop :=
  validateDimensions .empty dimensions = .ok ()

theorem validateStateValues_eq_ok {dimension : String} {seen : OrderedSet String}
    {values : List String} (h : validateStateValues dimension seen values = .ok ()) :
    values.Nodup ∧ ∀ value ∈ values, value ∉ seen.toList := by
  induction values generalizing seen with
  | nil => exact ⟨nodup_nil, fun _ hmem => nomatch hmem⟩
  | cons value rest ih =>
    rw [validateStateValues, rejectIf_bind_eq_ok, OrderedSet.contains_iff] at h
    obtain ⟨hfresh, hrest⟩ := h
    obtain ⟨hnodup, hunseen⟩ := ih hrest
    have hvalue : value ∉ rest := fun hmem =>
      hunseen value hmem (OrderedSet.mem_insert.mpr (.inl rfl))
    refine ⟨nodup_cons.mpr ⟨hvalue, hnodup⟩, fun other hother => ?_⟩
    rcases mem_cons.mp hother with rfl | hother
    · exact hfresh
    · exact fun hseen => hunseen other hother (OrderedSet.mem_insert.mpr (.inr hseen))

theorem validateDimensions_eq_ok {seen : OrderedSet String} {dimensions : List (StateDimension F V)}
    (h : validateDimensions seen dimensions = .ok ()) :
    (dimensions.map (·.id)).Nodup ∧ (∀ dimension ∈ dimensions, dimension.id ∉ seen.toList) ∧
      ∀ dimension ∈ dimensions, dimension.values ≠ [] ∧ (dimension.values.map (·.id)).Nodup := by
  induction dimensions generalizing seen with
  | nil => exact ⟨nodup_nil, (fun _ hmem => nomatch hmem), fun _ hmem => nomatch hmem⟩
  | cons dimension rest ih =>
    rw [validateDimensions, rejectIf_bind_eq_ok, rejectIf_bind_eq_ok, bind_eq_ok,
      OrderedSet.contains_iff] at h
    obtain ⟨hvalues, hfresh, _, hdistinct, hrest⟩ := h
    obtain ⟨hnodup, hunseen, hall⟩ := ih hrest
    have hid : dimension.id ∉ rest.map (·.id) := by
      intro hmem
      obtain ⟨other, hother, heq⟩ := mem_map.mp hmem
      exact hunseen other hother (OrderedSet.mem_insert.mpr (.inl heq))
    refine ⟨nodup_cons.mpr ⟨hid, hnodup⟩, fun other hother => ?_, fun other hother => ?_⟩
    · rcases mem_cons.mp hother with rfl | hother
      · exact hfresh
      · exact fun hseen => hunseen other hother (OrderedSet.mem_insert.mpr (.inr hseen))
    · rcases mem_cons.mp hother with rfl | hother
      · exact ⟨fun hnil => hvalues (isEmpty_iff.mpr hnil),
          (validateStateValues_eq_ok hdistinct).1⟩
      · exact hall other hother

/-! ## Assignments -/

/-- A value for every dimension. -/
structure FullAssignment (dimensions : List (StateDimension F V))
    (values : OrderedMap String String) : Prop where
  assigned : ∀ dimension ∈ dimensions, ∃ value ∈ dimension.values,
    values.get dimension.id = some value.id
  nothingElse : ∀ key, key ∉ dimensions.map (·.id) → values.get key = none

/-- What the constraint asks of an assignment. -/
def Constraint.Holds (values : OrderedMap String String) : Constraint → Prop
  | .forbidPair leftDimension leftValue rightDimension rightValue =>
    ¬ (values.get leftDimension = some leftValue ∧ values.get rightDimension = some rightValue)
  | .requirePair whenDimension whenValue requiredDimension allowedValues =>
    values.get whenDimension = some whenValue →
      ∃ value ∈ allowedValues.toList, values.get requiredDimension = some value

theorem Constraint.satisfied_iff {values : OrderedMap String String} {constraint : Constraint} :
    constraint.satisfied values = true ↔ constraint.Holds values := by
  cases constraint with
  | forbidPair leftDimension leftValue rightDimension rightValue =>
    simp only [satisfied, Holds, Bool.not_eq_true', Bool.and_eq_false_iff, beq_eq_false_iff_ne]
    tauto
  | requirePair whenDimension whenValue requiredDimension allowedValues =>
    simp only [satisfied, Holds, Bool.or_eq_true, bne_iff_ne, Option.any_eq_true,
      OrderedSet.contains_iff]
    by_cases hwhen : values.get whenDimension = some whenValue
    · simp only [hwhen, ne_eq, not_true_eq_false, false_or, forall_const]
      exact exists_congr fun value => and_comm
    · simp [hwhen]

theorem satisfiesConstraints_iff {values : OrderedMap String String}
    {constraints : List Constraint} :
    satisfiesConstraints values constraints = true ↔
      ∀ constraint ∈ constraints, constraint.Holds values := by
  rw [satisfiesConstraints, all_eq_true]
  exact forall₂_congr fun _ _ => Constraint.satisfied_iff

/-- A full assignment of some dimensions that breaks no constraint.  Without dimensions
there is no state. -/
structure EligibleState (dimensions : List (StateDimension F V)) (constraints : List Constraint)
    (values : OrderedMap String String) : Prop where
  someDimension : dimensions ≠ []
  full : FullAssignment dimensions values
  satisfied : ∀ constraint ∈ constraints, constraint.Holds values

/-- The expansion lists what assigns each dimension and keeps the rest of what it began
with. -/
theorem mem_expandStates {dimensions : List (StateDimension F V)}
    {current values : OrderedMap String String} (hnodup : (dimensions.map (·.id)).Nodup) :
    values ∈ expandStates dimensions current ↔
      (∀ dimension ∈ dimensions, ∃ value ∈ dimension.values,
        values.get dimension.id = some value.id) ∧
      ∀ key, key ∉ dimensions.map (·.id) → values.get key = current.get key := by
  induction dimensions generalizing current with
  | nil =>
    rw [expandStates, mem_singleton]
    constructor
    · rintro rfl
      exact ⟨(fun _ hmem => nomatch hmem), fun _ _ => rfl⟩
    · rintro ⟨-, hrest⟩
      exact ext_get fun key => hrest key not_mem_nil
  | cons dimension rest ih =>
    rw [map_cons, nodup_cons] at hnodup
    rw [expandStates, mem_flatMap]
    constructor
    · rintro ⟨value, hvalue, hmem⟩
      obtain ⟨hassigned, hkept⟩ := (ih hnodup.2).mp hmem
      refine ⟨fun other hother => ?_, fun key hkey => ?_⟩
      · rcases mem_cons.mp hother with rfl | hother
        · exact ⟨value, hvalue, by rw [hkept _ hnodup.1, get_insert, if_pos rfl]⟩
        · exact hassigned other hother
      · rw [map_cons, mem_cons, not_or] at hkey
        rw [hkept key hkey.2, get_insert, if_neg hkey.1]
    · rintro ⟨hassigned, hkept⟩
      obtain ⟨value, hvalue, hget⟩ := hassigned dimension mem_cons_self
      refine ⟨value, hvalue, (ih hnodup.2).mpr ⟨fun other hother =>
        hassigned other (mem_cons_of_mem _ hother), fun key hkey => ?_⟩⟩
      rw [get_insert]
      by_cases hid : key = dimension.id
      · rw [if_pos hid, hid, hget]
      · rw [if_neg hid]
        exact hkept key fun hmem => (mem_cons.mp hmem).elim hid hkey

theorem mem_expandStates_empty {dimensions : List (StateDimension F V)}
    {values : OrderedMap String String} (hnodup : (dimensions.map (·.id)).Nodup) :
    values ∈ expandStates dimensions .empty ↔ FullAssignment dimensions values :=
  (mem_expandStates hnodup).trans ⟨fun h => ⟨h.1, h.2⟩, fun h => ⟨h.1, h.2⟩⟩

/-- No assignment is listed twice: two branches differ in the dimension they branch at. -/
theorem nodup_expandStates {dimensions : List (StateDimension F V)}
    {current : OrderedMap String String} (hnodup : (dimensions.map (·.id)).Nodup)
    (hvalues : ∀ dimension ∈ dimensions, (dimension.values.map (·.id)).Nodup) :
    (expandStates dimensions current).Nodup := by
  induction dimensions generalizing current with
  | nil => exact nodup_singleton _
  | cons dimension rest ih =>
    rw [map_cons, nodup_cons] at hnodup
    have hrest := fun other hother => hvalues other (mem_cons_of_mem _ hother)
    rw [expandStates, nodup_flatMap]
    refine ⟨fun value _ => ih hnodup.2 hrest, ?_⟩
    have hdistinct := pairwise_map.mp (hvalues dimension mem_cons_self)
    refine hdistinct.imp fun {left right} hne values hleft hright => ?_
    have hl := ((mem_expandStates hnodup.2).mp hleft).2 dimension.id hnodup.1
    have hr := ((mem_expandStates hnodup.2).mp hright).2 dimension.id hnodup.1
    rw [get_insert, if_pos rfl] at hl hr
    exact hne (Option.some.inj (hl.symm.trans hr))

theorem length_expandStates {dimensions : List (StateDimension F V)}
    {current : OrderedMap String String} (hvalues : ∀ dimension ∈ dimensions, dimension.values ≠ []) :
    (expandStates dimensions current).length =
      (dimensions.map fun dimension => max dimension.values.length 1).prod := by
  induction dimensions generalizing current with
  | nil => rfl
  | cons dimension rest ih =>
    have hrest := fun other hother => hvalues other (mem_cons_of_mem _ hother)
    have hpos : 0 < dimension.values.length :=
      length_pos_iff.mpr (hvalues dimension mem_cons_self)
    have hbranch : ∀ value ∈ dimension.values,
        (expandStates rest (current.insert dimension.id value.id)).length =
          (rest.map fun dimension => max dimension.values.length 1).prod := fun _ _ => ih hrest
    rw [expandStates, length_flatMap, map_congr_left hbranch, map_const',
      sum_replicate_nat, map_cons, prod_cons, Nat.max_eq_left hpos]

/-! ## The states in order and the ones picked -/

section
variable [Score32 F] {dimensions : List (StateDimension F V)} {plan : StateSpacePlan F V}
  {n : Nat} {covered : OrderedSet String} {states : List (ProductState F)}

/-- The eligible assignments, scored, as the compiler orders them. -/
def orderedStates (plan : StateSpacePlan F V) : List (ProductState F) :=
  (((expandStates plan.dimensions .empty).filter fun values =>
      satisfiesConstraints values plan.constraints).map
    (scoredState plan.dimensions)).insertionSort fun left right =>
      ProductState.precedes left right = true

theorem perm_orderedStates (plan : StateSpacePlan F V) :
    ((orderedStates plan).map (·.values)).Perm
      ((expandStates plan.dimensions .empty).filter fun values =>
        satisfiesConstraints values plan.constraints) := by
  have hsorted := (perm_insertionSort
    (fun left right : ProductState F => ProductState.precedes left right = true)
    (((expandStates plan.dimensions .empty).filter fun values =>
      satisfiesConstraints values plan.constraints).map
      (scoredState plan.dimensions))).map (·.values)
  rw [map_map] at hsorted
  have hself : ((·.values) ∘ scoredState plan.dimensions : _ → OrderedMap String String) = id := rfl
  rw [hself, map_id] at hsorted
  exact hsorted

/-- Picking takes one state off and leaves the others. -/
theorem perm_pickBest {utility : ProductState F → F} {state : ProductState F}
    {rest : List (ProductState F)} :
    ((pickBest utility state rest).1 :: (pickBest utility state rest).2).Perm (state :: rest) := by
  induction rest generalizing state with
  | nil => exact .refl _
  | cons next rest ih =>
    rw [pickBest]
    split_ifs with hbest
    · exact (List.Perm.swap _ _ _).trans (ih.cons state)
    · exact .refl _

theorem length_pickBest {utility : ProductState F → F} {state : ProductState F}
    {rest : List (ProductState F)} : (pickBest utility state rest).2.length = rest.length :=
  Nat.succ.inj perm_pickBest.length_eq

theorem length_selectStates :
    (selectStates dimensions n covered states).1.length = min n states.length := by
  induction n generalizing covered states with
  | zero => simp [selectStates]
  | succ n ih =>
    cases states with
    | nil => rfl
    | cons state rest =>
      rw [selectStates, length_cons, ih, length_pickBest, length_cons]
      omega

/-- The states picked are some of the states, none more often than it stands there. -/
theorem subperm_selectStates :
    (selectStates dimensions n covered states).1.Subperm states := by
  induction n generalizing covered states with
  | zero => exact nil_subperm
  | succ n ih =>
    cases states with
    | nil => exact nil_subperm
    | cons state rest =>
      rw [selectStates]
      exact ((subperm_cons _).mpr ih).trans perm_pickBest.subperm

/-- What is covered in the end are the pairs of the states picked. -/
theorem mem_covered {pair : String} :
    pair ∈ (selectStates dimensions n covered states).2.toList ↔
      pair ∈ covered.toList ∨ ∃ state ∈ (selectStates dimensions n covered states).1,
        pair ∈ statePairs state.values dimensions := by
  induction n generalizing covered states with
  | zero => simp [selectStates]
  | succ n ih =>
    cases states with
    | nil => simp [selectStates]
    | cons state rest =>
      rw [selectStates, ih, mem_extend]
      simp only [mem_cons, exists_eq_or_imp, or_assoc]

omit [Score32 F] in
theorem mem_pairUniverse {pair : String} : pair ∈ (pairUniverse states dimensions).toList ↔
    ∃ state ∈ states, pair ∈ statePairs state.values dimensions := by
  rw [pairUniverse, mem_ofList, mem_flatMap]

/-! ## The compiled states -/

theorem compileStateSpace_of_dimensions (h : plan.dimensions ≠ []) :
    (compileStateSpace plan).states = (selectStates plan.dimensions
      (min (max plan.maxStates 1) (orderedStates plan).length) .empty (orderedStates plan)).1 := by
  rw [compileStateSpace, if_neg (mt List.isEmpty_iff.mp h)]
  rfl

theorem states_of_no_dimensions (h : plan.dimensions = []) :
    compileStateSpace plan = ⟨[], 0, Score32.ofNat 1, 0⟩ := by
  rw [compileStateSpace, if_pos (isEmpty_iff.mpr h)]

/-- The assignments that may be compiled, each once. -/
theorem mem_orderedStates (haccepted : AcceptedDimensions plan.dimensions)
    (hsome : plan.dimensions ≠ []) {values : OrderedMap String String} :
    values ∈ (orderedStates plan).map (·.values) ↔
      EligibleState plan.dimensions plan.constraints values := by
  rw [(perm_orderedStates plan).mem_iff, mem_filter,
    mem_expandStates_empty (validateDimensions_eq_ok haccepted).1, satisfiesConstraints_iff]
  exact ⟨fun h => ⟨hsome, h.1, h.2⟩, fun h => ⟨h.full, h.satisfied⟩⟩

theorem nodup_orderedStates (haccepted : AcceptedDimensions plan.dimensions) :
    ((orderedStates plan).map (·.values)).Nodup := by
  obtain ⟨hids, -, hvalues⟩ := validateDimensions_eq_ok haccepted
  rw [(perm_orderedStates plan).nodup_iff]
  exact (nodup_expandStates hids fun dimension hmem => (hvalues dimension hmem).2).filter _

/-- What the counters leave is the number of eligible states. -/
theorem length_orderedStates
    (haccepted : AcceptedDimensions plan.dimensions) (hsome : plan.dimensions ≠ []) :
    (orderedStates plan).length = (compileStateSpace plan).totalUnconstrainedCombinations -
      (compileStateSpace plan).eliminatedByConstraints := by
  obtain ⟨-, -, hvalues⟩ := validateDimensions_eq_ok haccepted
  have hlength := (perm_orderedStates plan).length_eq
  rw [List.length_map] at hlength
  have hexpanded := @length_expandStates F V plan.dimensions .empty
    fun dimension hmem => (hvalues dimension hmem).1
  have hle := List.length_filter_le (fun values => satisfiesConstraints values plan.constraints)
    (expandStates plan.dimensions .empty)
  rw [compileStateSpace, if_neg (mt List.isEmpty_iff.mp hsome)]
  simp only
  omega

/-- The states compiled are as many of the eligible ones as the plan asks for. -/
theorem length_states (haccepted : AcceptedDimensions plan.dimensions) :
    (compileStateSpace plan).states.length = min (max 1 plan.maxStates)
      ((compileStateSpace plan).totalUnconstrainedCombinations -
        (compileStateSpace plan).eliminatedByConstraints) := by
  by_cases hsome : plan.dimensions = []
  · rw [states_of_no_dimensions hsome]
    simp
  · rw [compileStateSpace_of_dimensions hsome, length_selectStates,
      ← length_orderedStates haccepted hsome]
    omega

theorem subperm_states (hsome : plan.dimensions ≠ []) :
    ((compileStateSpace plan).states.map (·.values)).Subperm
      ((orderedStates plan).map (·.values)) := by
  rw [compileStateSpace_of_dimensions hsome]
  obtain ⟨states, hperm, hsub⟩ := @subperm_selectStates F V _ plan.dimensions
    (min (max plan.maxStates 1) (orderedStates plan).length) .empty (orderedStates plan)
  exact ⟨states.map (·.values), hperm.map _, hsub.map _⟩

theorem eq_scoredState_of_mem_states {state : ProductState F}
    (hmem : state ∈ (compileStateSpace plan).states) :
    state = scoredState plan.dimensions state.values := by
  by_cases hsome : plan.dimensions = []
  · rw [states_of_no_dimensions hsome] at hmem
    cases hmem
  · rw [compileStateSpace_of_dimensions hsome] at hmem
    have hordered := (perm_insertionSort _ _).mem_iff.mp (subperm_selectStates.subset hmem)
    obtain ⟨values, -, rfl⟩ := mem_map.mp hordered
    rfl

theorem nodup_states (haccepted : AcceptedDimensions plan.dimensions) :
    ((compileStateSpace plan).states.map (·.values)).Nodup := by
  by_cases hsome : plan.dimensions = []
  · rw [states_of_no_dimensions hsome]
    exact nodup_nil
  · obtain ⟨states, hperm, hsub⟩ := subperm_states hsome
    exact hperm.nodup_iff.mp (hsub.nodup (nodup_orderedStates haccepted))

theorem eligible_of_mem_states
    (haccepted : AcceptedDimensions plan.dimensions) {state : ProductState F}
    (hmem : state ∈ (compileStateSpace plan).states) :
    EligibleState plan.dimensions plan.constraints state.values := by
  by_cases hsome : plan.dimensions = []
  · rw [states_of_no_dimensions hsome] at hmem
    cases hmem
  · exact (mem_orderedStates haccepted hsome).mp
      ((subperm_states hsome).subset (mem_map_of_mem hmem))

/-- The eligible assignments, each once, are as many as the counters say. -/
theorem exists_all_eligible (haccepted : AcceptedDimensions plan.dimensions) :
    ∃ all : List (OrderedMap String String), all.Nodup ∧
      (∀ values, values ∈ all ↔ EligibleState plan.dimensions plan.constraints values) ∧
      all.length = (compileStateSpace plan).totalUnconstrainedCombinations -
        (compileStateSpace plan).eliminatedByConstraints := by
  by_cases hsome : plan.dimensions = []
  · rw [states_of_no_dimensions hsome]
    refine ⟨[], nodup_nil, fun values => ?_, rfl⟩
    exact ⟨(fun h => nomatch h), fun h => absurd hsome h.someDimension⟩
  · refine ⟨_, nodup_orderedStates haccepted, fun _ => mem_orderedStates haccepted hsome, ?_⟩
    rw [length_map, length_orderedStates haccepted hsome]

def SomeOmitted (dimensions : List (StateDimension F V)) (constraints : List Constraint)
    (states : List (ProductState F)) : Prop :=
  ∃ values, EligibleState dimensions constraints values ∧ values ∉ states.map (·.values)

/-- Fewer states than eligible ones means that one was omitted, and the other way round. -/
theorem length_states_lt_iff (haccepted : AcceptedDimensions plan.dimensions) :
    (compileStateSpace plan).states.length <
        (compileStateSpace plan).totalUnconstrainedCombinations -
          (compileStateSpace plan).eliminatedByConstraints ↔
      SomeOmitted plan.dimensions plan.constraints (compileStateSpace plan).states := by
  obtain ⟨all, hnodup, hall, hlength⟩ := exists_all_eligible haccepted
  have hkept := nodup_states haccepted
  rw [← hlength, ← length_map (·.values)]
  constructor
  · intro hlt
    by_contra hnone
    have hsubset : all ⊆ (compileStateSpace plan).states.map (·.values) := by
      intro values hvalues
      by_contra hnot
      exact hnone ⟨values, (hall values).mp hvalues, hnot⟩
    have hle := (subperm_of_subset hnodup hsubset).length_le
    omega
  · rintro ⟨values, heligible, hnot⟩
    have hsubset : values :: (compileStateSpace plan).states.map (·.values) ⊆ all := by
      refine cons_subset.mpr ⟨(hall values).mpr heligible, fun other hother => ?_⟩
      obtain ⟨state, hstate, rfl⟩ := mem_map.mp hother
      exact (hall _).mpr (eligible_of_mem_states haccepted hstate)
    have hle := (subperm_of_subset (nodup_cons.mpr ⟨hnot, hkept⟩) hsubset).length_le
    rw [length_cons] at hle
    omega

/-- All pairs are covered: there are none, or all that there are. -/
def FullPairCoverage (coverage : F) : Prop :=
  coverage = Score32.ofNat 1 ∨
    ∃ pairs, 0 < pairs ∧ coverage = Score32.div (Score32.ofNat pairs) (Score32.ofNat pairs)

/-- Where every state in order is picked, what is covered is what there is to cover. -/
theorem covered_eq_universe (hn : states.length ≤ n) :
    (selectStates dimensions n .empty states).2.intersection (pairUniverse states dimensions) =
      (pairUniverse states dimensions).toList := by
  have hlength : states.length ≤ (selectStates dimensions n .empty states).1.length := by
    rw [length_selectStates]
    omega
  have hperm := subperm_selectStates.perm_of_length_le hlength
  refine intersection_eq_of_mem fun pair => ?_
  rw [mem_covered, mem_pairUniverse, toList_empty]
  simp only [not_mem_nil, false_or, hperm.mem_iff]

theorem fullPairCoverage_of_none_omitted (haccepted : AcceptedDimensions plan.dimensions)
    (hnone : ¬ SomeOmitted plan.dimensions plan.constraints (compileStateSpace plan).states) :
    FullPairCoverage (compileStateSpace plan).pairCoverage := by
  by_cases hsome : plan.dimensions = []
  · rw [states_of_no_dimensions hsome]
    exact .inl rfl
  · rw [← length_states_lt_iff haccepted, length_states haccepted,
      ← length_orderedStates haccepted hsome] at hnone
    have hcovered := @covered_eq_universe F V _ plan.dimensions
      (min (max plan.maxStates 1) (orderedStates plan).length) (orderedStates plan) (by omega)
    have hcoverage : (compileStateSpace plan).pairCoverage =
        if (pairUniverse (orderedStates plan) plan.dimensions).toList.isEmpty then Score32.ofNat 1
        else Score32.div
          (Score32.ofNat ((selectStates plan.dimensions
            (min (max plan.maxStates 1) (orderedStates plan).length) .empty
            (orderedStates plan)).2.intersection
              (pairUniverse (orderedStates plan) plan.dimensions)).length)
          (Score32.ofNat (pairUniverse (orderedStates plan) plan.dimensions).toList.length) := by
      rw [compileStateSpace, if_neg (mt List.isEmpty_iff.mp hsome)]
      rfl
    rw [hcovered] at hcoverage
    by_cases hempty : (pairUniverse (orderedStates plan) plan.dimensions).toList = []
    · rw [if_pos (List.isEmpty_iff.mpr hempty)] at hcoverage
      exact .inl hcoverage
    · rw [if_neg (mt List.isEmpty_iff.mp hempty)] at hcoverage
      exact .inr ⟨_, List.length_pos_iff.mpr hempty, hcoverage⟩

/-- What a compiled plan says is so: distinct eligible states, as many as asked for or as
there are, counted right, and all pairs covered where no state is missing. -/
structure CompiledExactly (plan : StateSpacePlan F V) (compiled : CompiledStateSpace F) :
    Prop where
  distinct : (compiled.states.map (·.values)).Nodup
  eligible : ∀ state ∈ compiled.states,
    EligibleState plan.dimensions plan.constraints state.values
  retained : compiled.states.length = min (max 1 plan.maxStates)
    (compiled.totalUnconstrainedCombinations - compiled.eliminatedByConstraints)
  counted : ∃ all : List (OrderedMap String String), all.Nodup ∧
    (∀ values, values ∈ all ↔ EligibleState plan.dimensions plan.constraints values) ∧
    all.length = compiled.totalUnconstrainedCombinations - compiled.eliminatedByConstraints
  covered : ¬ SomeOmitted plan.dimensions plan.constraints compiled.states →
    FullPairCoverage compiled.pairCoverage

theorem accepted_of_compiled {input : AffectedStateInput F V} {plan : AffectedStatePlan F V}
    (h : compileAffectedStatePlan input = .ok plan) :
    AcceptedDimensions input.dimensions ∧ plan = buildPlan input (compileStateSpace
      ⟨input.dimensions, input.constraints, min input.maxStates maxAffectedStates⟩) := by
  rw [compileAffectedStatePlan, bind_eq_ok] at h
  obtain ⟨_, hvalid, hplan⟩ := h
  cases hplan
  simp only [AffectedStateInput.validate, rejectIf_bind_eq_ok] at hvalid
  exact ⟨hvalid.2.2.2.2.2.2.2.2.2.2, rfl⟩

/-- A plan of affected states is truncated just when an eligible state was left out. -/
theorem truncated_iff {input : AffectedStateInput F V} {plan : AffectedStatePlan F V}
    (h : compileAffectedStatePlan input = .ok plan) :
    plan.truncated = true ↔ SomeOmitted input.dimensions input.constraints plan.compiledStates := by
  obtain ⟨haccepted, rfl⟩ := accepted_of_compiled h
  exact decide_eq_true_iff.trans (@length_states_lt_iff F V _
    ⟨input.dimensions, input.constraints, min input.maxStates maxAffectedStates⟩ haccepted)

/-- **Compilation is exact**, for every plan whose dimensions pass the checks; and a plan of
affected states, made only of such, is marked truncated just when an eligible state was
left out. -/
theorem compilation_exact :
    (∀ plan : StateSpacePlan F V, AcceptedDimensions plan.dimensions →
      CompiledExactly plan (compileStateSpace plan)) ∧
    ∀ (input : AffectedStateInput F V) (plan : AffectedStatePlan F V),
      compileAffectedStatePlan input = .ok plan →
        AcceptedDimensions input.dimensions ∧
        plan.compiledStates = (compileStateSpace
          { dimensions := input.dimensions, constraints := input.constraints
            maxStates := min input.maxStates maxAffectedStates }).states ∧
        (plan.truncated = true ↔
          SomeOmitted input.dimensions input.constraints plan.compiledStates) := by
  refine ⟨fun plan haccepted => ?_, fun input plan h => ?_⟩
  · exact ⟨nodup_states haccepted, fun _ => eligible_of_mem_states haccepted,
      length_states haccepted, exists_all_eligible haccepted,
      fullPairCoverage_of_none_omitted haccepted⟩
  · obtain ⟨haccepted, hplan⟩ := accepted_of_compiled h
    refine ⟨haccepted, ?_, truncated_iff h⟩
    rw [hplan]
    rfl

end

/-- Two themes on two viewports, of which one pair is forbidden and two states are wanted. -/
def themesOnViewports : AffectedStateInput ℚ Unit where
  baseRevision := "r1"
  change := ⟨"candidate-1", "sha256:abc", ["src/App.tsx"]⟩
  impactedRoutes := .empty
  impactedRegions := .empty
  impactedRefs := .empty
  impactedContracts := .empty
  dimensions :=
    [⟨"theme", [⟨"light", "light", .empty⟩, ⟨"dark", "dark", .empty⟩], 1, .empty⟩,
      ⟨"viewport", [⟨"mobile", "mobile", .empty⟩, ⟨"desktop", "desktop", .empty⟩], 1, .empty⟩]
  constraints := [.forbidPair "theme" "dark" "viewport" "desktop"]
  maxStates := 2
  evidenceIds := ["ev-1"]
  dependencyGraphComplete := true
  denominatorKnown := true

theorem themesOnViewports_exact :
    CompiledExactly ⟨themesOnViewports.dimensions, themesOnViewports.constraints, 2⟩
      (compileStateSpace ⟨themesOnViewports.dimensions, themesOnViewports.constraints, 2⟩) ∧
    ∃ plan, compileAffectedStatePlan themesOnViewports = .ok plan ∧
      SomeOmitted themesOnViewports.dimensions themesOnViewports.constraints
        plan.compiledStates := by
  have hvalid : themesOnViewports.validate = .ok () := by decide +kernel
  have hplan : compileAffectedStatePlan themesOnViewports = .ok (buildPlan themesOnViewports
      (compileStateSpace ⟨themesOnViewports.dimensions, themesOnViewports.constraints, 2⟩)) := by
    rw [compileAffectedStatePlan, hvalid]
    rfl
  obtain ⟨haccepted, -, homitted⟩ := compilation_exact.2 _ _ hplan
  exact ⟨compilation_exact.1 _ haccepted, _, hplan, homitted.mp (by decide +kernel)⟩

end Localview
