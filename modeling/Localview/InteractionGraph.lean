import Localview.ArtifactStore
import Localview.OrderedSet

/-! # Interaction graphs

The live part of an interaction graph records observed transitions under the key of their
first state.  A transition is admitted under budgets for states, edges and routes; states are
counted by their keys, and only an admitted transition is held against those recorded.
-/
namespace Localview
open EarlyReturn StateRun List OrderedMap OrderedSet

/-- What tells one page state from another. -/
structure StateIdentity where
  route : String
  documentGeneration : Nat
  semanticFingerprint : String
  viewport : Option (Nat × Nat)
  deriving DecidableEq

def displayViewport : Option (Nat × Nat) → String
  | some (w, h) => s!"{w}x{h}"
  | none => "-"

def StateIdentity.key (s : StateIdentity) : String :=
  s!"{s.route}|{s.documentGeneration}|{s.semanticFingerprint}|{displayViewport s.viewport}"

/-- What a transition does. -/
inductive InteractionActionKind
  | click | focus | tab | shiftTab | key | scroll
  deriving DecidableEq

/-- Whether a probe may take an action. -/
inductive SafetyClass
  | explicitlySafe | readOnly | unknown | destructive

def SafetyClass.mayProbe : SafetyClass → Bool
  | explicitlySafe | readOnly => true
  | unknown | destructive => false

/-- An action and the states around it. -/
structure LiveTransition where
  action : InteractionActionKind
  target : String
  safety : SafetyClass
  (preState resultingState : StateIdentity)
  elapsedMs : Nat
  evidenceRefs : List String

/-- The live edges of the source's graph. -/
structure InteractionGraph where
  liveEdges : OrderedMap String (List LiveTransition)

structure DiscoveryBounds where
  (maxNodes maxEdges maxRouteStates deadlineMs : Nat)

/-- Why a transition is not recorded. -/
inductive GraphAdmissionError
  | nodeBudgetExceeded
  | edgeBudgetExceeded
  | routeStateBudgetExceeded
  | deadlineExceeded
  | unsafeAction
  | invalidStableReference
  deriving DecidableEq

def maxEvidenceRefsPerEdge : Nat := 16

/-- `@e` and one to 64 hexadecimal digits. -/
def validStableReference (reference : String) : Bool :=
  match reference.toList with
  | '@' :: 'e' :: rest => !rest.isEmpty && rest.length ≤ 64 && rest.all isAsciiHexDigit
  | _ => false

namespace InteractionGraph

def empty : InteractionGraph := { liveEdges := .empty }

section
variable (graph : InteractionGraph)

/-- All live edges, in the order of the keys. -/
def transitions : List LiveTransition :=
  graph.liveEdges.values.flatten

def liveEdgeCount : Nat :=
  (graph.liveEdges.values.map List.length).sum

def liveStates : OrderedSet String :=
  .ofList (graph.transitions.flatMap fun edge => [edge.preState.key, edge.resultingState.key])

def liveRoutes : OrderedSet String :=
  .ofList (graph.transitions.flatMap fun edge => [edge.preState.route, edge.resultingState.route])

def nextStates (transition : LiveTransition) : OrderedSet String :=
  (graph.liveStates.insert transition.preState.key).insert transition.resultingState.key

def nextRoutes (transition : LiveTransition) : OrderedSet String :=
  (graph.liveRoutes.insert transition.preState.route).insert transition.resultingState.route

/-- The checks of `record_live`. -/
def checkLive (bounds : DiscoveryBounds) (graph : InteractionGraph)
    (transition : LiveTransition) : Except GraphAdmissionError Unit := do
  rejectIf (transition.safety.mayProbe = false) .unsafeAction
  rejectIf (bounds.deadlineMs < transition.elapsedMs) .deadlineExceeded
  rejectIf (validStableReference transition.target = false) .invalidStableReference
  rejectIf (bounds.maxNodes < (graph.nextStates transition).toList.length) .nodeBudgetExceeded
  rejectIf (bounds.maxEdges ≤ graph.liveEdgeCount) .edgeBudgetExceeded
  rejectIf (bounds.maxRouteStates < (graph.nextRoutes transition).toList.length)
    .routeStateBudgetExceeded

def sameEdge (transition edge : LiveTransition) : Bool :=
  edge.action = transition.action && edge.target = transition.target &&
    edge.resultingState = transition.resultingState

/-- The edges under a transition's key, `or_default`. -/
def edgesAt (key : String) : List LiveTransition :=
  (graph.liveEdges.get key).getD []

def addEdge (transition : LiveTransition) : InteractionGraph :=
  let key := transition.preState.key
  let edges := graph.edgesAt key
  if edges.any (sameEdge transition) then { liveEdges := graph.liveEdges.insert key edges }
  else
    let transition :=
      { transition with evidenceRefs := transition.evidenceRefs.take maxEvidenceRefsPerEdge }
    { liveEdges := graph.liveEdges.insert key (edges ++ [transition]) }

def recordLive (bounds : DiscoveryBounds) (graph : InteractionGraph)
    (transition : LiveTransition) : Except GraphAdmissionError Unit × InteractionGraph :=
  match checkLive bounds graph transition with
  | .error e => (.error e, graph)
  | .ok () => (.ok (), graph.addEdge transition)

/-! ## What is in a graph -/

/-- The states of the live edges. -/
def identities : List StateIdentity :=
  graph.transitions.flatMap fun edge => [edge.preState, edge.resultingState]

end

variable {graph : InteractionGraph} {transition edge : LiveTransition} {key : String}

theorem liveEdgeCount_eq : graph.liveEdgeCount = graph.transitions.length := by
  rw [liveEdgeCount, transitions, length_flatten]

theorem mem_transitions : edge ∈ graph.transitions ↔ ∃ key, edge ∈ graph.edgesAt key := by
  simp only [transitions, mem_flatten, mem_values, edgesAt]
  constructor
  · rintro ⟨edges, ⟨key, hget⟩, hedge⟩
    exact ⟨key, by rw [hget]; exact hedge⟩
  · rintro ⟨key, hedge⟩
    cases hget : graph.liveEdges.get key with
    | none =>
      rw [hget] at hedge
      cases hedge
    | some edges =>
      rw [hget] at hedge
      exact ⟨edges, ⟨key, hget⟩, hedge⟩

theorem mem_identities {s : StateIdentity} :
    s ∈ graph.identities ↔ ∃ edge ∈ graph.transitions,
      s = edge.preState ∨ s = edge.resultingState := by
  simp [identities]

theorem insert_of_get {edges : List LiveTransition}
    (hget : graph.liveEdges.get key = some edges) :
    graph.liveEdges.insert key edges = graph.liveEdges := by
  apply OrderedMap.ext_get
  intro k
  rw [OrderedMap.get_insert]
  by_cases hk : k = key
  · rw [if_pos hk, hk, hget]
  · rw [if_neg hk]

/-- A recorded edge leaves the graph as it is. -/
theorem addEdge_of_any (h : (graph.edgesAt transition.preState.key).any (sameEdge transition)) :
    graph.addEdge transition = graph := by
  cases hget : graph.liveEdges.get transition.preState.key with
  | none =>
    rw [edgesAt, hget] at h
    cases h
  | some edges =>
    have hedges : graph.edgesAt transition.preState.key = edges := by rw [edgesAt, hget]; rfl
    rw [hedges] at h
    simp only [addEdge, hedges, if_pos h, insert_of_get hget]

theorem edgesAt_insert {edges : List LiveTransition} {k : String} :
    edgesAt { liveEdges := graph.liveEdges.insert key edges } k =
      if k = key then edges else graph.edgesAt k := by
  rw [edgesAt, get_insert]
  by_cases hk : k = key
  · rw [if_pos hk, if_pos hk]
    rfl
  · rw [if_neg hk, if_neg hk]
    rfl

/-- The transitions after setting a key, in some order. -/
theorem perm_transitions_insert (graph : InteractionGraph) (key : String)
    (edges : List LiveTransition) :
    (transitions { liveEdges := graph.liveEdges.insert key edges }).Perm
      (edges ++ (graph.liveEdges.erase key).values.flatten) := by
  have hentries : (graph.liveEdges.insert key edges).entries.Perm
      ((key, edges) :: (graph.liveEdges.erase key).entries) := perm_insert
  exact (hentries.map Prod.snd).flatten

theorem perm_transitions (graph : InteractionGraph) (key : String) :
    graph.transitions.Perm (graph.edgesAt key ++ (graph.liveEdges.erase key).values.flatten) := by
  cases hget : graph.liveEdges.get key with
  | none =>
    rw [edgesAt, hget, erase_of_get_eq_none hget]
    exact List.Perm.refl _
  | some edges =>
    have h := perm_transitions_insert graph key edges
    rw [insert_of_get hget] at h
    rw [edgesAt, hget]
    exact h

/-- An edge that is not recorded is one more. -/
theorem perm_transitions_snoc (graph : InteractionGraph) (key : String) (edge : LiveTransition) :
    (transitions { liveEdges := graph.liveEdges.insert key (graph.edgesAt key ++ [edge]) }).Perm
      (edge :: graph.transitions) := by
  refine (perm_transitions_insert graph key (graph.edgesAt key ++ [edge])).trans ?_
  rw [append_assoc, singleton_append]
  exact perm_middle.trans ((perm_transitions graph key).symm.cons edge)

/-- What admitting a transition does: nothing, or one edge more between its states. -/
theorem addEdge_spec (graph : InteractionGraph) (transition : LiveTransition) :
    graph.addEdge transition = graph ∨
      ∃ edge, (graph.addEdge transition).transitions.Perm (edge :: graph.transitions) ∧
        edge.preState = transition.preState ∧
        edge.resultingState = transition.resultingState := by
  by_cases h : (graph.edgesAt transition.preState.key).any (sameEdge transition) = true
  · exact .inl (addEdge_of_any h)
  · refine .inr ⟨{ transition with
        evidenceRefs := transition.evidenceRefs.take maxEvidenceRefsPerEdge }, ?_, rfl, rfl⟩
    simp only [addEdge, if_neg h]
    exact perm_transitions_snoc graph _ _

/-! ## Budgets -/

/-- The graph keeps the bounds. -/
structure WithinBudgets (bounds : DiscoveryBounds) (graph : InteractionGraph) : Prop where
  nodes : graph.identities.toFinset.card ≤ bounds.maxNodes
  edges : graph.liveEdgeCount ≤ bounds.maxEdges
  routes : (graph.identities.map (·.route)).toFinset.card ≤ bounds.maxRouteStates

/-- What every graph keeps: states are counted by their keys, and an edge is filed under the
key of its first state. -/
structure Kept (bounds : DiscoveryBounds) (graph : InteractionGraph) : Prop where
  keys : (graph.identities.map (·.key)).toFinset.card ≤ bounds.maxNodes
  edges : graph.liveEdgeCount ≤ bounds.maxEdges
  routes : (graph.identities.map (·.route)).toFinset.card ≤ bounds.maxRouteStates
  filed : ∀ key, ∀ edge ∈ graph.edgesAt key, edge.preState.key = key

/-- No two states share a key. -/
def KeysApart (states : List StateIdentity) : Prop :=
  ∀ s ∈ states, ∀ s' ∈ states, s.key = s'.key → s = s'

theorem length_toList_eq_card {α : Type} [LinearOrder α] (s : OrderedSet α) (l : List α)
    (h : ∀ a, a ∈ s.toList ↔ a ∈ l) : s.toList.length = l.toFinset.card := by
  have hnodup : s.toList.Nodup := s.sorted_toList.imp fun hlt => ne_of_lt hlt
  rw [← toFinset_card_of_nodup hnodup]
  congr 1
  ext a
  rw [mem_toFinset, mem_toFinset, h]

variable {bounds : DiscoveryBounds}

theorem map_identities (f : StateIdentity → String) :
    (graph.transitions.flatMap fun edge => [f edge.preState, f edge.resultingState]) =
      graph.identities.map f := by
  rw [identities, map_flatMap]
  rfl

def statesWith (graph : InteractionGraph) (transition : LiveTransition) : List StateIdentity :=
  transition.preState :: transition.resultingState :: graph.identities

theorem length_nextStates : (graph.nextStates transition).toList.length =
    ((graph.statesWith transition).map (·.key)).toFinset.card := by
  apply length_toList_eq_card
  intro k
  rw [nextStates, liveStates, map_identities]
  simp only [mem_insert, mem_ofList, statesWith, map_cons,
    mem_cons]
  tauto

theorem length_nextRoutes : (graph.nextRoutes transition).toList.length =
    ((graph.statesWith transition).map (·.route)).toFinset.card := by
  apply length_toList_eq_card
  intro r
  rw [nextRoutes, liveRoutes, map_identities]
  simp only [mem_insert, mem_ofList, statesWith, map_cons,
    mem_cons]
  tauto

/-- The checks passed. -/
theorem checkLive_eq_ok : checkLive bounds graph transition = .ok () ↔
    transition.safety.mayProbe = true ∧ transition.elapsedMs ≤ bounds.deadlineMs ∧
      validStableReference transition.target = true ∧
      ((graph.statesWith transition).map (·.key)).toFinset.card ≤ bounds.maxNodes ∧
      graph.liveEdgeCount < bounds.maxEdges ∧
      ((graph.statesWith transition).map (·.route)).toFinset.card ≤ bounds.maxRouteStates := by
  rw [← length_nextStates, ← length_nextRoutes]
  simp only [checkLive, rejectIf_bind_eq_ok, rejectIf_eq_ok, Bool.not_eq_false, not_lt, not_le]

/-! ## One call -/

/-- What a call is for: a refusal leaves the graph as it is, and so does a transition that is
recorded already, which is not refused. -/
structure FaithfulCall (bounds : DiscoveryBounds) (graph : InteractionGraph)
    (transition : LiveTransition) : Prop where
  refused : ∀ e, (recordLive bounds graph transition).1 = .error e →
    (recordLive bounds graph transition).2 = graph
  repeated : (∃ edge ∈ graph.transitions, edge.preState = transition.preState ∧
      edge.action = transition.action ∧ edge.target = transition.target ∧
      edge.resultingState = transition.resultingState) →
    recordLive bounds graph transition = (.ok (), graph)

/-- The keys of the states involved tell them apart, and a transition that is recorded already
passes the checks of its own and finds room for an edge. -/
structure Clear (bounds : DiscoveryBounds) (graph : InteractionGraph)
    (transition : LiveTransition) : Prop where
  apart : KeysApart (graph.statesWith transition)
  room : (∃ edge ∈ graph.transitions, edge.preState = transition.preState ∧
      edge.action = transition.action ∧ edge.target = transition.target ∧
      edge.resultingState = transition.resultingState) →
    transition.safety.mayProbe = true ∧ transition.elapsedMs ≤ bounds.deadlineMs ∧
      validStableReference transition.target = true ∧ graph.liveEdgeCount < bounds.maxEdges

theorem refused_unchanged {e : GraphAdmissionError}
    (h : (recordLive bounds graph transition).1 = .error e) :
    (recordLive bounds graph transition).2 = graph := by
  unfold recordLive at h ⊢
  cases hcheck : checkLive bounds graph transition with
  | error e' => rfl
  | ok u =>
    rw [hcheck] at h
    cases h

/-- A call refuses, or adds the edge after the checks. -/
theorem recordLive_cases (bounds : DiscoveryBounds) (graph : InteractionGraph)
    (transition : LiveTransition) :
    (recordLive bounds graph transition).2 = graph ∨
      checkLive bounds graph transition = .ok () ∧
        (recordLive bounds graph transition).2 = graph.addEdge transition := by
  unfold recordLive
  cases hcheck : checkLive bounds graph transition with
  | error e => exact .inl rfl
  | ok u => exact .inr ⟨rfl, rfl⟩

/-- The states after a call are those of the graph and of the transition. -/
theorem identities_subset_of_perm
    (hperm : (graph.addEdge transition).transitions.Perm (edge :: graph.transitions))
    (hpre : edge.preState = transition.preState)
    (hres : edge.resultingState = transition.resultingState) :
    ∀ s ∈ (graph.addEdge transition).identities, s ∈ graph.statesWith transition := by
  intro s hs
  obtain ⟨e, he, hstate⟩ := mem_identities.mp hs
  rcases mem_cons.mp (hperm.mem_iff.mp he) with rfl | he
  · rw [hpre, hres] at hstate
    rcases hstate with rfl | rfl <;> simp [statesWith]
  · exact mem_cons_of_mem _ (mem_cons_of_mem _ (mem_identities.mpr ⟨e, he, hstate⟩))

theorem card_map_le {α : Type} [DecidableEq α] {l l' : List StateIdentity}
    (f : StateIdentity → α) (h : ∀ s ∈ l, s ∈ l') :
    (l.map f).toFinset.card ≤ (l'.map f).toFinset.card := by
  apply Finset.card_le_card
  intro a ha
  rw [mem_toFinset, mem_map] at ha ⊢
  obtain ⟨s, hs, rfl⟩ := ha
  exact ⟨s, h s hs, rfl⟩

/-- A call keeps the budgets by key and the filing of the edges. -/
theorem Kept.recordLive (h : Kept bounds graph) (transition : LiveTransition) :
    Kept bounds (recordLive bounds graph transition).2 := by
  rcases recordLive_cases bounds graph transition with heq | ⟨hcheck, heq⟩
  · rw [heq]
    exact h
  rw [heq]
  obtain ⟨-, -, -, hkeys, hedges, hroutes⟩ := checkLive_eq_ok.mp hcheck
  rcases addEdge_spec graph transition with hsame | ⟨edge, hperm, hpre, hres⟩
  · rw [hsame]
    exact h
  have hsubset := identities_subset_of_perm hperm hpre hres
  refine ⟨(card_map_le _ hsubset).trans hkeys, ?_, (card_map_le _ hsubset).trans hroutes, ?_⟩
  · rw [liveEdgeCount_eq, hperm.length_eq, length_cons, ← liveEdgeCount_eq]
    exact hedges
  · intro key e he
    by_cases hany : (graph.edgesAt transition.preState.key).any (sameEdge transition) = true
    · rw [addEdge_of_any hany] at he
      exact h.filed key e he
    · simp only [addEdge, if_neg hany] at he
      rw [edgesAt_insert] at he
      by_cases hk : key = transition.preState.key
      · rw [if_pos hk, mem_append, mem_singleton] at he
        rcases he with he | rfl
        · rw [hk]
          exact h.filed _ e he
        · exact hk.symm
      · rw [if_neg hk] at he
        exact h.filed key e he

/-- Where keys tell states apart there are as many of the one as of the other. -/
theorem Kept.withinBudgets (h : Kept bounds graph) (hapart : KeysApart graph.identities) :
    WithinBudgets bounds graph := by
  refine ⟨?_, h.edges, h.routes⟩
  have hcard : (graph.identities.map (·.key)).toFinset.card = graph.identities.toFinset.card := by
    have himage : (graph.identities.map (·.key)).toFinset =
        graph.identities.toFinset.image (·.key) := by
      ext k
      simp
    rw [himage]
    apply Finset.card_image_of_injOn
    intro s hs s' hs' heq
    exact hapart s (mem_toFinset.mp hs) s' (mem_toFinset.mp hs') heq
  rw [← hcard]
  exact h.keys

/-- A clear call does what it is for. -/
theorem Kept.faithfulCall (h : Kept bounds graph) (hclear : Clear bounds graph transition) :
    FaithfulCall bounds graph transition := by
  refine ⟨fun e => refused_unchanged, fun hrecorded => ?_⟩
  obtain ⟨hsafe, hdeadline, hreference, hroom⟩ := hclear.room hrecorded
  obtain ⟨edge, hedge, hpre, haction, htarget, hres⟩ := hrecorded
  -- the recorded edge stands under the transition's key
  obtain ⟨key, hat⟩ := mem_transitions.mp hedge
  have hkey := h.filed key edge hat
  rw [hpre] at hkey
  have hany : (graph.edgesAt transition.preState.key).any (sameEdge transition) = true := by
    rw [hkey]
    exact any_eq_true.mpr ⟨edge, hat, by simp [sameEdge, haction, htarget, hres]⟩
  have hin : ∀ s ∈ graph.statesWith transition, s ∈ graph.identities := by
    intro s hs
    simp only [statesWith, mem_cons] at hs
    rcases hs with rfl | rfl | hs
    · exact mem_identities.mpr ⟨edge, hedge, .inl hpre.symm⟩
    · exact mem_identities.mpr ⟨edge, hedge, .inr hres.symm⟩
    · exact hs
  have hcheck : checkLive bounds graph transition = .ok () :=
    checkLive_eq_ok.mpr ⟨hsafe, hdeadline, hreference, (card_map_le _ hin).trans h.keys, hroom,
      (card_map_le _ hin).trans h.routes⟩
  rw [InteractionGraph.recordLive, hcheck, addEdge_of_any hany]

/-! ## Runs of calls -/

def RecordStep (bounds : DiscoveryBounds) (graph : InteractionGraph)
    (transition : LiveTransition) (graph' : InteractionGraph) : Prop :=
  (recordLive bounds graph transition).2 = graph'

theorem kept_empty (bounds : DiscoveryBounds) : Kept bounds empty := by
  refine ⟨Nat.zero_le _, Nat.zero_le _, Nat.zero_le _, ?_⟩
  intro key edge hedge
  cases hedge

/-- Every run keeps the budgets by key. -/
theorem kept_of_run {transitions : List LiveTransition}
    (h : Run (RecordStep bounds) empty transitions graph) : Kept bounds graph := by
  refine h.invariant ?_ (kept_empty bounds)
  rintro graph transition _ hkept rfl
  exact hkept.recordLive transition

theorem KeysApart.recordLive (hclear : Clear bounds graph transition) :
    KeysApart (recordLive bounds graph transition).2.identities := by
  have hold : KeysApart graph.identities := by
    intro s hs s' hs' heq
    exact hclear.apart s (mem_cons_of_mem _ (mem_cons_of_mem _ hs)) s'
      (mem_cons_of_mem _ (mem_cons_of_mem _ hs')) heq
  rcases recordLive_cases bounds graph transition with heq | ⟨-, heq⟩
  · rw [heq]
    exact hold
  rw [heq]
  rcases addEdge_spec graph transition with hsame | ⟨edge, hperm, hpre, hres⟩
  · rw [hsame]
    exact hold
  · have hsubset := identities_subset_of_perm hperm hpre hres
    intro s hs s' hs' heq
    exact hclear.apart s (hsubset s hs) s' (hsubset s' hs') heq

/-- **Runs of clear calls stay within the budgets, and each call does what it is for.** -/
theorem recordLive_run {transitions : List LiveTransition}
    (h : Run (RecordStep bounds) empty transitions graph)
    (hclear : Along (RecordStep bounds) (Clear bounds) empty transitions) :
    WithinBudgets bounds graph ∧
      Along (RecordStep bounds) (FaithfulCall bounds) empty transitions := by
  constructor
  · refine (kept_of_run h).withinBudgets ?_
    refine h.invariant_along (I := fun graph => KeysApart graph.identities) ?_ hclear ?_
    · rintro graph transition _ - hc rfl
      exact KeysApart.recordLive hc
    · intro s hs
      cases hs
  · refine Along.of_invariant (I := Kept bounds) ?_ (fun _ _ hkept hc => hkept.faithfulCall hc)
      hclear (kept_empty bounds)
    rintro graph transition _ hkept - rfl
    exact hkept.recordLive transition

/-! A click from one state of a page to another one, and one between states of one key. -/

def pageState (route : String) (generation : Nat) (fingerprint : String) : StateIdentity :=
  { route, documentGeneration := generation, semanticFingerprint := fingerprint
    viewport := none }

def clickBetween (preState resultingState : StateIdentity) : LiveTransition :=
  { action := .click, target := "@e1", safety := .readOnly, preState, resultingState
    elapsedMs := 10, evidenceRefs := [] }

def openMenu : LiveTransition := clickBetween (pageState "/" 1 "a") (pageState "/" 1 "b")

/-- Both states have the key `a|1|2|x|-`. -/
def clashingStates : LiveTransition :=
  clickBetween (pageState "a|1" 2 "x") (pageState "a" 1 "2|x")

def narrowBounds (maxNodes maxEdges : Nat) : DiscoveryBounds :=
  { maxNodes, maxEdges, maxRouteStates := 2, deadlineMs := 100 }

instance {states : List StateIdentity} : Decidable (KeysApart states) := by
  unfold KeysApart
  infer_instance

/-- A click from the menu to a state for which there is no room. -/
def leaveMenu : LiveTransition := clickBetween (pageState "/" 1 "b") (pageState "/" 1 "c")

/-- A click, the same again, and one that is refused. -/
theorem openMenu_run : let bounds := narrowBounds 2 2
    ∃ graph, WithinBudgets bounds graph ∧ (recordLive bounds graph leaveMenu).1.isOk = false ∧
      Along (RecordStep bounds) (FaithfulCall bounds) empty [openMenu, openMenu, leaveMenu] := by
  intro bounds
  have hunique : ∀ g t g' g'', RecordStep bounds g t g' → RecordStep bounds g t g'' → g' = g'' :=
    fun _ _ _ _ h h' => h.symm.trans h'
  have hrun : Run (RecordStep bounds) empty [openMenu, openMenu, leaveMenu] _ :=
    Run.cons rfl (Run.cons rfl (Run.cons rfl (Run.nil _)))
  obtain ⟨hwithin, hfaithful⟩ := recordLive_run hrun
    (.cons_unique hunique ⟨by decide +kernel, by decide +kernel⟩ rfl
      (.cons_unique hunique ⟨by decide +kernel, by decide +kernel⟩ rfl
        (.cons_unique hunique ⟨by decide +kernel, by decide +kernel⟩ rfl .nil)))
  exact ⟨_, hwithin, by decide +kernel, hfaithful⟩

/-- A recorded click is refused for want of room, and two states with one key are recorded
where one is allowed. -/
theorem recordLive_misses : (recordLive (narrowBounds 2 1) empty openMenu).1 = .ok () ∧
      (recordLive (narrowBounds 2 1) (recordLive (narrowBounds 2 1) empty openMenu).2
        openMenu).1 = .error .edgeBudgetExceeded ∧
      (recordLive (narrowBounds 1 1) empty clashingStates).1 = .ok () ∧
      (recordLive (narrowBounds 1 1) empty clashingStates).2.identities.toFinset.card = 2 := by
  decide +kernel

end InteractionGraph
end Localview
