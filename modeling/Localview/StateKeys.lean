import Localview.PartialRevalidation
import Localview.PositionalCode
import Localview.StateSpaceExact

/-! # The keys of states

A key writes the values of a state in order of their dimensions, each `name=value`, with
bars between them that names and values may hold as well.  Over given dimensions a key is
one word a dimension, run together, so keys tell states apart just when these words are
read in one way.
-/
namespace Localview
open PositionalCode List OrderedMap OrderedSet

variable {F V : Type}

/-- The key of an assignment: a state's key reads nothing else. -/
def assignmentKey (values : OrderedMap String String) : String :=
  (⟨values, (), []⟩ : ProductState Unit).key

/-- A value of a dimension as a key has it, a bar in front. -/
def stateWord (dimension value : String) : List Char :=
  '|' :: (dimension.toList ++ '=' :: value.toList)

def dimensionCode (dimension : StateDimension F V) : List (List Char) :=
  dimension.values.map fun value => stateWord dimension.id value.id

def keyOrder (dimensions : List (StateDimension F V)) : List (StateDimension F V) :=
  dimensions.insertionSort fun left right => left.id ≤ right.id

def stateCodes (dimensions : List (StateDimension F V)) : List (List (List Char)) :=
  (keyOrder dimensions).map dimensionCode

/-- The words of an assignment. -/
def entryWords (entries : List (String × String)) : List (List Char) :=
  entries.map fun entry => stateWord entry.1 entry.2

/-! ## Keys and words -/

theorem bar_intercalate {parts : List (List Char)} (h : parts ≠ []) :
    '|' :: ['|'].intercalate parts = (parts.map ('|' :: ·)).flatten := by
  induction parts with
  | nil => exact absurd rfl h
  | cons part rest ih =>
    cases rest with
    | nil => simp
    | cons next rest =>
      rw [intercalate_cons_cons, map_cons, flatten_cons,
        ← ih (cons_ne_nil _ _)]
      simp

variable {values : OrderedMap String String}

theorem toList_assignmentKey :
    (assignmentKey values).toList =
      ['|'].intercalate (values.entries.map fun entry => entry.1.toList ++ '=' :: entry.2.toList) := by
  rw [assignmentKey, ProductState.key, String.toList_intercalate, map_map]
  congr 1
  refine map_congr_left fun entry _ => ?_
  simp only [Function.comp_apply, String.toList_append, append_assoc]
  rfl

theorem bar_assignmentKey (h : values.entries ≠ []) :
    '|' :: (assignmentKey values).toList = (entryWords values.entries).flatten := by
  rw [toList_assignmentKey, bar_intercalate (fun hnil => h (map_eq_nil_iff.mp hnil)),
    map_map]
  rfl

theorem entries_eq_of_words {entries entries' : List (String × String)}
    (hkeys : entries.map Prod.fst = entries'.map Prod.fst)
    (hwords : entryWords entries = entryWords entries') : entries = entries' := by
  induction entries generalizing entries' with
  | nil =>
    cases entries' with
    | nil => rfl
    | cons entry' rest' => cases hkeys
  | cons entry rest ih =>
    cases entries' with
    | nil => cases hkeys
    | cons entry' rest' =>
      obtain ⟨hkey, hrest⟩ := List.cons.inj hkeys
      obtain ⟨hword, hlater⟩ := List.cons.inj hwords
      have hword : stateWord entry.1 entry.2 = stateWord entry'.1 entry'.2 := hword
      rw [stateWord, stateWord, hkey] at hword
      have hvalue := (List.cons.inj (append_cancel_left (List.cons.inj hword).2)).2
      rw [ih hrest hlater, Prod.ext hkey (String.toList_inj.mp hvalue)]

/-- Assignments of the same dimensions have one key just when their words run together
alike. -/
theorem flatten_words_eq_iff {values values' : OrderedMap String String}
    (hkeys : values.entries.map Prod.fst = values'.entries.map Prod.fst) :
    (entryWords values.entries).flatten = (entryWords values'.entries).flatten ↔
      assignmentKey values = assignmentKey values' := by
  by_cases hempty : values.entries = []
  · rw [hempty] at hkeys
    have hsame : values = values' := by
      apply ext_entries
      rw [hempty, map_eq_nil_iff.mp hkeys.symm]
    rw [hsame]
    exact iff_of_true rfl rfl
  · have hempty' : values'.entries ≠ [] := fun hnil => by
      rw [hnil] at hkeys
      exact hempty (map_eq_nil_iff.mp hkeys)
    rw [← bar_assignmentKey hempty, ← bar_assignmentKey hempty', ← String.toList_inj]
    exact ⟨fun h => (List.cons.inj h).2, fun h => h ▸ rfl⟩

/-! ## Assignments and choices of words -/

variable {dimensions : List (StateDimension F V)}

theorem mem_keyOrder {dimension : StateDimension F V} :
    dimension ∈ keyOrder dimensions ↔ dimension ∈ dimensions :=
  (perm_insertionSort _ _).mem_iff

theorem sorted_keyOrder (hnodup : (dimensions.map (·.id)).Nodup) :
    ((keyOrder dimensions).map (·.id)).Pairwise (· < ·) := by
  have hsorted : (keyOrder dimensions).Pairwise fun left right => left.id ≤ right.id :=
    pairwise_insertionSort _ _
  have hdistinct : ((keyOrder dimensions).map (·.id)).Nodup :=
    ((perm_insertionSort _ _).map _).nodup_iff.mpr hnodup
  have hle : ((keyOrder dimensions).map (·.id)).Pairwise (· ≤ ·) := pairwise_map.mpr hsorted
  exact (hle.and hdistinct).imp fun h => lt_of_le_of_ne h.1 h.2

theorem keys_of_fullAssignment (hnodup : (dimensions.map (·.id)).Nodup)
    (hfull : FullAssignment dimensions values) :
    values.entries.map Prod.fst = (keyOrder dimensions).map (·.id) := by
  apply values.sorted.eq_of_mem_iff (sorted_keyOrder hnodup)
  intro key
  constructor
  · intro hkey
    obtain ⟨⟨_, value⟩, hentry, rfl⟩ := mem_map.mp hkey
    by_contra hnot
    have hnone := hfull.nothingElse _ fun hmem => hnot <| by
      obtain ⟨dimension, hdimension, hid⟩ := mem_map.mp hmem
      exact mem_map.mpr ⟨dimension, mem_keyOrder.mpr hdimension, hid⟩
    rw [OrderedMap.mem_entries.mp hentry] at hnone
    cases hnone
  · intro hkey
    obtain ⟨dimension, hdimension, rfl⟩ := mem_map.mp hkey
    obtain ⟨value, -, hget⟩ := hfull.assigned dimension (mem_keyOrder.mp hdimension)
    exact mem_map.mpr ⟨_, OrderedMap.mem_entries.mpr hget, rfl⟩

theorem choice_of_entries {entries : List (String × String)}
    (hkeys : entries.map Prod.fst = dimensions.map (·.id))
    (hvalues : ∀ entry ∈ entries, ∀ dimension ∈ dimensions, entry.1 = dimension.id →
      ∃ value ∈ dimension.values, entry.2 = value.id) :
    Choice (dimensions.map dimensionCode) (entryWords entries) := by
  induction dimensions generalizing entries with
  | nil =>
    rw [map_eq_nil_iff.mp hkeys]
    exact .nil
  | cons dimension rest ih =>
    cases entries with
    | nil => cases hkeys
    | cons entry later =>
      obtain ⟨hid, hlater⟩ := List.cons.inj hkeys
      have hid : entry.1 = dimension.id := hid
      obtain ⟨value, hvalue, heq⟩ := hvalues entry mem_cons_self dimension
        mem_cons_self hid
      have hword : stateWord dimension.id value.id = stateWord entry.1 entry.2 := by rw [hid, heq]
      refine .cons (mem_map.mpr ⟨value, hvalue, hword⟩) (ih hlater ?_)
      · exact fun other hother dimension' hmem => hvalues other (mem_cons_of_mem _ hother)
          dimension' (mem_cons_of_mem _ hmem)

theorem entries_of_choice {words : List (List Char)}
    (h : Choice (dimensions.map dimensionCode) words) :
    ∃ entries : List (String × String), entries.map Prod.fst = dimensions.map (·.id) ∧
      entryWords entries = words ∧
      ∀ dimension ∈ dimensions, ∃ value ∈ dimension.values,
        (dimension.id, value.id) ∈ entries := by
  induction dimensions generalizing words with
  | nil =>
    cases h
    exact ⟨[], rfl, rfl, fun _ hmem => nomatch hmem⟩
  | cons dimension rest ih =>
    obtain ⟨word, hword, later, hlater, rfl⟩ := choice_cons.mp h
    obtain ⟨entries, hkeys, hwords, hvalues⟩ := ih hlater
    obtain ⟨value, hvalue, rfl⟩ := mem_map.mp hword
    refine ⟨(dimension.id, value.id) :: entries, ?_, ?_, fun other hother => ?_⟩
    · rw [map_cons, map_cons, hkeys]
    · rw [← hwords]
      rfl
    · rcases mem_cons.mp hother with rfl | hother
      · exact ⟨value, hvalue, mem_cons_self⟩
      · obtain ⟨value', hvalue', hmem⟩ := hvalues other hother
        exact ⟨value', hvalue', mem_cons_of_mem _ hmem⟩

theorem choice_of_fullAssignment (hnodup : (dimensions.map (·.id)).Nodup)
    (hfull : FullAssignment dimensions values) :
    Choice (stateCodes dimensions) (entryWords values.entries) := by
  refine choice_of_entries (keys_of_fullAssignment hnodup hfull) ?_
  rintro ⟨key, text⟩ hentry dimension hdimension rfl
  obtain ⟨value, hvalue, hget⟩ := hfull.assigned dimension (mem_keyOrder.mp hdimension)
  rw [OrderedMap.mem_entries.mp hentry] at hget
  exact ⟨value, hvalue, Option.some.inj hget⟩

theorem fullAssignment_of_choice {words : List (List Char)} (hnodup : (dimensions.map (·.id)).Nodup)
    (h : Choice (stateCodes dimensions) words) :
    ∃ values, FullAssignment dimensions values ∧ entryWords values.entries = words := by
  obtain ⟨entries, hkeys, hwords, hvalues⟩ := entries_of_choice h
  refine ⟨⟨entries, hkeys ▸ sorted_keyOrder hnodup⟩, ⟨fun dimension hdimension => ?_, ?_⟩, hwords⟩
  · obtain ⟨value, hvalue, hmem⟩ := hvalues dimension (mem_keyOrder.mpr hdimension)
    exact ⟨value, hvalue, OrderedMap.mem_entries.mp hmem⟩
  · intro key hkey
    refine lookup_eq_none fun hmem => hkey ?_
    rw [hkeys] at hmem
    obtain ⟨dimension, hdimension, hid⟩ := mem_map.mp hmem
    exact mem_map.mpr ⟨dimension, mem_keyOrder.mp hdimension, hid⟩

theorem stateCodes_ne_nil (haccepted : AcceptedDimensions dimensions) :
    ∀ code ∈ stateCodes dimensions, code ≠ [] := by
  intro code hcode hnil
  obtain ⟨dimension, hdimension, rfl⟩ := mem_map.mp hcode
  exact ((validateDimensions_eq_ok haccepted).2.2 dimension (mem_keyOrder.mp hdimension)).1
    (map_eq_nil_iff.mp hnil)

/-- Keys tell full assignments apart just when no words clash. -/
theorem assignmentKey_injective_iff (haccepted : AcceptedDimensions dimensions) :
    (∀ values values', FullAssignment dimensions values → FullAssignment dimensions values' →
      assignmentKey values = assignmentKey values' → values = values') ↔
      ¬ Clash (stateCodes dimensions) := by
  have hnodup := (validateDimensions_eq_ok haccepted).1
  rw [← uniquelyRead_iff (stateCodes_ne_nil haccepted)]
  have hkeys : ∀ {values values'}, FullAssignment dimensions values →
      FullAssignment dimensions values' →
        values.entries.map Prod.fst = values'.entries.map Prod.fst := fun hfull hfull' =>
    (keys_of_fullAssignment hnodup hfull).trans (keys_of_fullAssignment hnodup hfull').symm
  constructor
  · intro hinjective words words' hwords hwords' heq
    obtain ⟨values, hfull, rfl⟩ := fullAssignment_of_choice hnodup hwords
    obtain ⟨values', hfull', rfl⟩ := fullAssignment_of_choice hnodup hwords'
    rw [flatten_words_eq_iff (hkeys hfull hfull')] at heq
    rw [hinjective values values' hfull hfull' heq]
  · intro hread values values' hfull hfull' heq
    apply ext_entries
    refine entries_eq_of_words (hkeys hfull hfull')
      (hread _ _ (choice_of_fullAssignment hnodup hfull) (choice_of_fullAssignment hnodup hfull') ?_)
    exact (flatten_words_eq_iff (hkeys hfull hfull')).mpr heq

/-- What is ahead does not begin like any word of the positions to come: it stays ahead. -/
theorem not_madeUp {codes : List (List (List Char))} {first : Char} {ahead : List Char}
    (hcodes : ∀ code ∈ codes, ∀ word ∈ code, word.head? = some first)
    (hahead : ahead ≠ []) (hfirst : ahead.head? ≠ some first) : ¬ MadeUp codes ahead := by
  cases codes with
  | nil => exact False.elim
  | cons code rest =>
    obtain ⟨letter, later, rfl⟩ := exists_cons_of_ne_nil hahead
    rintro ⟨word, -, other, hother, heq⟩
    have hhead := hcodes code mem_cons_self other hother
    obtain ⟨text, rfl⟩ : ∃ text, other = first :: text := by
      cases other with
      | nil => cases hhead
      | cons letter' text => exact ⟨text, by rw [Option.some.inj hhead]⟩
    apply hfirst
    rcases heq with heq | ⟨left, -, heq | heq, -⟩
    · rw [cons_append] at heq
      rw [head?_cons, (List.cons.inj heq).1]
    · rw [cons_append, cons_append] at heq
      rw [head?_cons, (List.cons.inj heq).1]
    · rw [cons_append, cons_append] at heq
      rw [head?_cons, (List.cons.inj heq).1]

theorem not_clash_of_words
    (h : ∀ dimension ∈ dimensions, ∀ value ∈ dimension.values, '|' ∉ value.id.toList) :
    ¬ Clash (dimensions.map dimensionCode) := by
  have hwords : ∀ dimensions : List (StateDimension F V), ∀ code ∈ dimensions.map dimensionCode,
      ∀ word ∈ code, word.head? = some '|' := by
    intro dimensions code hcode word hword
    obtain ⟨dimension, -, rfl⟩ := mem_map.mp hcode
    obtain ⟨value, -, rfl⟩ := mem_map.mp hword
    rfl
  induction dimensions with
  | nil => exact False.elim
  | cons dimension rest ih =>
    rintro (⟨word, hword, ahead, hahead, hlonger, hmade⟩ | hclash)
    · obtain ⟨value, -, rfl⟩ := mem_map.mp hword
      obtain ⟨longer, hvalue, heq⟩ := mem_map.mp hlonger
      -- both are words of one dimension, so what is ahead ends the longer value
      have htext : longer.id.toList = value.id.toList ++ ahead := by
        simp only [stateWord, cons_append, append_assoc] at heq
        exact (List.cons.inj (append_cancel_left (List.cons.inj heq).2)).2
      refine not_madeUp (hwords rest) hahead (fun hhead => ?_) hmade
      apply h dimension mem_cons_self longer hvalue
      rw [htext]
      exact mem_append_right _ (mem_of_mem_head? hhead)
    · exact ih (fun other hother => h other (mem_cons_of_mem _ hother)) hclash

/-- Values that hold no bar do not clash, whatever the names hold. -/
theorem not_clash_of_no_bar
    (h : ∀ dimension ∈ dimensions, ∀ value ∈ dimension.values, '|' ∉ value.id.toList) :
    ¬ Clash (stateCodes dimensions) :=
  not_clash_of_words fun dimension hmem => h dimension (mem_keyOrder.mp hmem)

/-! ## Plans -/

section
variable [Score32 F]

/-- Over these dimensions a key stands for a state, and what a partial revalidation lists by
key is what is affected: in every compiled plan keys tell states apart, and the keys selected
are those of the compiled states, which are all the eligible ones where nothing escalates. -/
structure KeysIdentify (dimensions : List (StateDimension F V)) : Prop where
  apart : ∀ (constraints : List Constraint) (maxStates : Nat),
    ∀ state ∈ (compileStateSpace ⟨dimensions, constraints, maxStates⟩).states,
    ∀ state' ∈ (compileStateSpace ⟨dimensions, constraints, maxStates⟩).states,
      state.key = state'.key → state = state'
  selected : ∀ revalidation : PartialRevalidationInput F V, ∀ input : AffectedStateInput F V,
    input.dimensions = dimensions →
    compileAffectedStatePlan input = .ok revalidation.affected →
      (∀ state ∈ revalidation.affected.compiledStates,
        state.key ∈ (planPartialRevalidation revalidation).stateKeys) ∧
      ((planPartialRevalidation revalidation).mode = .partially →
        ∀ values, EligibleState dimensions input.constraints values →
          assignmentKey values ∈ (planPartialRevalidation revalidation).stateKeys)
  marked : ∀ revalidation : PartialRevalidationInput F V, ∀ input : AffectedStateInput F V,
    input.dimensions = dimensions →
    compileAffectedStatePlan input = .ok revalidation.affected →
      ∀ values, FullAssignment dimensions values →
        assignmentKey values ∈ (planPartialRevalidation revalidation).stateKeys →
          values ∈ revalidation.affected.compiledStates.map (·.values) ∨
          (planPartialRevalidation revalidation).mode = .escalated ∧
            ∃ known, revalidation.knownUniverse = some known ∧
              assignmentKey values ∈ known.stateKeys.toList

theorem mem_widen {mode : RevalidationMode} {known : Option RevalidationUniverse}
    {part : RevalidationUniverse → OrderedSet String} {own : OrderedSet String} {key : String} :
    key ∈ widen mode known part own ↔ key ∈ own.toList ∨
      mode = .escalated ∧ ∃ all, known = some all ∧ key ∈ (part all).toList := by
  unfold widen
  split
  · rename_i all
    rw [mem_extend]
    simp
  · rename_i hnot
    refine ⟨.inl, ?_⟩
    rintro (h | ⟨hmode, all, hall, -⟩)
    · exact h
    · exact (hnot all hmode hall).elim

omit [Score32 F] in
/-- The keys selected are those of the compiled states and, escalated, of the universe. -/
theorem mem_stateKeys {revalidation : PartialRevalidationInput F V} {key : String} :
    key ∈ (planPartialRevalidation revalidation).stateKeys ↔
      (∃ state ∈ revalidation.affected.compiledStates, state.key = key) ∨
      (planPartialRevalidation revalidation).mode = .escalated ∧
        ∃ known, revalidation.knownUniverse = some known ∧ key ∈ known.stateKeys.toList := by
  have hmem := @mem_widen (planPartialRevalidation revalidation).mode
    revalidation.knownUniverse (·.stateKeys)
    (.ofList (revalidation.affected.compiledStates.map (·.key))) key
  rw [mem_ofList, mem_map] at hmem
  exact hmem

omit [Score32 F] in
theorem truncated_of_partially {revalidation : PartialRevalidationInput F V}
    (h : (planPartialRevalidation revalidation).mode = .partially) :
    revalidation.affected.truncated = false := by
  by_contra htruncated
  have hcauses : (escalationCauses revalidation.affected).isEmpty = false := by
    rw [escalationCauses, Bool.not_eq_false _ |>.mp htruncated]
    simp
  simp [planPartialRevalidation, hcauses] at h

theorem eligible_mem_of_not_truncated {input : AffectedStateInput F V}
    {plan : AffectedStatePlan F V} (h : compileAffectedStatePlan input = .ok plan)
    (htruncated : plan.truncated = false) {values : OrderedMap String String}
    (heligible : EligibleState input.dimensions input.constraints values) :
    ∃ state ∈ plan.compiledStates, state.values = values := by
  have hnone : ¬ SomeOmitted input.dimensions input.constraints plan.compiledStates := by
    rw [← truncated_iff h, htruncated]
    exact Bool.false_ne_true
  by_contra hnot
  exact hnone ⟨values, heligible, fun hmem => hnot (mem_map.mp hmem)⟩

/-- Asked for all states, and without constraints, the compiler gives every assignment. -/
theorem exists_plan_of_all {dimensions : List (StateDimension F V)}
    (haccepted : AcceptedDimensions dimensions) (hsome : dimensions ≠ []) :
    ∃ maxStates, ∀ values, FullAssignment dimensions values →
      ∃ state ∈ (compileStateSpace ⟨dimensions, [], maxStates⟩).states, state.values = values := by
  let all := orderedStates ⟨dimensions, [], 0⟩
  let plan : StateSpacePlan F V := ⟨dimensions, [], all.length⟩
  have hlength : all.length = (compileStateSpace plan).totalUnconstrainedCombinations -
      (compileStateSpace plan).eliminatedByConstraints :=
    @length_orderedStates F V _ plan haccepted hsome
  have hkept := @length_states F V _ plan haccepted
  have hnone : ¬ SomeOmitted dimensions [] (compileStateSpace plan).states := by
    rw [← @length_states_lt_iff F V _ plan haccepted, hkept, ← hlength]
    have hmax : plan.maxStates = all.length := rfl
    omega
  refine ⟨all.length, fun values hfull => ?_⟩
  by_contra hnot
  have hconstraints : ∀ constraint ∈ ([] : List Constraint), constraint.Holds values :=
    fun _ hmem => nomatch hmem
  exact hnone ⟨values, ⟨hsome, hfull, hconstraints⟩, fun hmem => hnot (mem_map.mp hmem)⟩

/-- **Keys identify states** over the dimensions just when no value goes on beyond another of
its dimension by text that the dimensions after it, in order of their names, make up. -/
theorem keysIdentify_iff (dimensions : List (StateDimension F V))
    (haccepted : AcceptedDimensions dimensions) :
    KeysIdentify dimensions ↔ ¬ Clash (stateCodes dimensions) := by
  rw [← assignmentKey_injective_iff haccepted]
  constructor
  · intro h values values' hfull hfull' heq
    by_cases hsome : dimensions = []
    · subst hsome
      apply OrderedMap.ext_get
      intro key
      rw [hfull.nothingElse key not_mem_nil, hfull'.nothingElse key not_mem_nil]
    · obtain ⟨maxStates, hall⟩ := exists_plan_of_all haccepted hsome
      obtain ⟨state, hstate, rfl⟩ := hall values hfull
      obtain ⟨state', hstate', rfl⟩ := hall values' hfull'
      rw [h.apart [] maxStates state hstate state' hstate' heq]
  · intro hinjective
    refine ⟨fun constraints maxStates state hstate state' hstate' heq => ?_,
      fun revalidation input hdimensions hplan => ⟨fun state hstate => ?_, fun hmode values
        heligible => ?_⟩, fun revalidation input hdimensions hplan values hfull hkey => ?_⟩
    · have hvalues := hinjective _ _ (eligible_of_mem_states haccepted hstate).full
        (eligible_of_mem_states haccepted hstate').full heq
      rw [eq_scoredState_of_mem_states hstate, hvalues, ← eq_scoredState_of_mem_states hstate']
    · exact mem_stateKeys.mpr (.inl ⟨state, hstate, rfl⟩)
    · subst hdimensions
      obtain ⟨state, hstate, rfl⟩ :=
        eligible_mem_of_not_truncated hplan (truncated_of_partially hmode) heligible
      exact mem_stateKeys.mpr (.inl ⟨state, hstate, rfl⟩)
    · subst hdimensions
      rcases mem_stateKeys.mp hkey with ⟨state, hstate, heq⟩ | hknown
      · obtain ⟨-, hbuilt⟩ := accepted_of_compiled hplan
        have hcompiled := hstate
        rw [hbuilt] at hcompiled
        have hfull' := (eligible_of_mem_states haccepted hcompiled).full
        rw [hinjective _ _ hfull hfull' heq.symm]
        exact .inl (mem_map_of_mem hstate)
      · exact .inr hknown

end

/-- A value of the first dimension that holds a bar and the name of the second. -/
def barredDimensions : List (StateDimension ℚ Unit) :=
  [⟨"a", [⟨"x", "x", .empty⟩, ⟨"x|b=y", "x|b=y", .empty⟩], 1, .empty⟩,
    ⟨"b", [⟨"z", "z", .empty⟩, ⟨"y|b=z", "y|b=z", .empty⟩], 1, .empty⟩]

/-- Two states of one plan are written `a=x|b=y|b=z`. -/
theorem barredDimensions_not_identified :
    AcceptedDimensions barredDimensions ∧ ¬ KeysIdentify barredDimensions := by
  have haccepted : AcceptedDimensions barredDimensions := by
    unfold AcceptedDimensions
    decide +kernel
  refine ⟨haccepted, fun h => ?_⟩
  have hcollide : ∃ state ∈ (compileStateSpace ⟨barredDimensions, [], 4⟩).states,
      ∃ state' ∈ (compileStateSpace ⟨barredDimensions, [], 4⟩).states,
        state.key = state'.key ∧ state.values ≠ state'.values := by decide +kernel
  obtain ⟨state, hstate, state', hstate', heq, hne⟩ := hcollide
  exact hne (congrArg (·.values) (h.apart [] 4 state hstate state' hstate' heq))

theorem keysIdentify_themes :
    KeysIdentify themesOnViewports.dimensions := by
  refine (keysIdentify_iff _ ?_).mpr (not_clash_of_no_bar ?_)
  · unfold AcceptedDimensions
    decide +kernel
  · decide +kernel

end Localview
