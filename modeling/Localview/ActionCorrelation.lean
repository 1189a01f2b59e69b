import Localview.EarlyReturn
import Localview.ResourceGovernor
import Mathlib.Data.List.TakeWhile
import Mathlib.Data.Prod.Lex
import Mathlib.Data.String.Basic

/-! # Requests and the responses that follow them

`correlate_action_request_ui` of `causal/src/lib.rs`: of the signals seen around an action,
those in its window and on its route are put in the order of time and id, and each network
signal is linked to the UI signals after it.

Two caps cut the result.  What the cap on the signals takes away the trace marks as
`truncated`; what the cap on the responses of one request takes away it does not: of the
signals that follow a request only the first `max_responses_per_request` are linked.
-/
namespace Localview
open EarlyReturn List

/-- What a signal was seen on. -/
inductive RuntimeSignalKind
  | network
  | domMutation
  | layout
  | route
  | console
  | performance
  deriving DecidableEq

def RuntimeSignalKind.isUiResponse : RuntimeSignalKind → Bool
  | .domMutation | .layout | .route => true
  | .network | .console | .performance => false

/-- Something the page was seen to do. -/
structure RuntimeSignal where
  id : String
  kind : RuntimeSignalKind
  observedMs : Nat
  route : Option String
  deriving DecidableEq

/-- When and where an action ran. -/
structure ActionCorrelationWindow where
  actionId : String
  (startedMs completedMs : Nat)
  route : Option String

/-- The bounds of a correlation. -/
structure ActionRequestUiPolicy where
  (tailMs maxSignals maxResponsesPerRequest : Nat)

/-- Why two events are linked: time alone. -/
inductive CorrelationBasis
  | temporalWindow
  deriving DecidableEq

/-- A request and what the page did after it. -/
structure RequestUiLink where
  requestId : String
  responseIds : List String
  confidence : ℚ
  basis : CorrelationBasis
  deriving DecidableEq

structure ActionRequestUiTrace where
  actionId : String
  links : List RequestUiLink
  observedSignalCount : Nat
  truncated : Bool
  deriving DecidableEq

/-- Why a correlation is refused. -/
inductive ActionCorrelationError
  | invalidWindow
  | invalidPolicy
  deriving DecidableEq

namespace ActionCorrelation

def maxActionCorrelationTailMs : Nat := 10000

def maxActionCorrelationSignals : Nat := 4096

def maxActionCorrelationResponsesPerRequest : Nat := 64

section
variable (window : ActionCorrelationWindow) (policy : ActionRequestUiPolicy)

def endMs : Nat :=
  saturatingAdd window.completedMs policy.tailMs

def routeMatches (window : ActionCorrelationWindow) (signal : RuntimeSignal) : Bool :=
  match window.route with
  | some route => decide (signal.route = some route)
  | none => true

/-- The filter of `eligible`. -/
def isEligible (signal : RuntimeSignal) : Bool :=
  decide (window.startedMs ≤ signal.observedMs) &&
    decide (signal.observedMs ≤ endMs window policy) && routeMatches window signal

def sortKey (signal : RuntimeSignal) : Nat ×ₗ String := toLex (signal.observedMs, signal.id)

def eligible (signals : List RuntimeSignal) : List RuntimeSignal :=
  (signals.filter (isEligible window policy)).insertionSort
    fun left right => sortKey left ≤ sortKey right

/-- `response_ids` of a request, where `later` is what stands after it. -/
def responseIds (later : List RuntimeSignal) : List String :=
  (((later.takeWhile fun signal => decide (signal.observedMs ≤ endMs window policy)).filter
    fun signal => signal.kind.isUiResponse).take policy.maxResponsesPerRequest).map
      RuntimeSignal.id

/-- The turn of the loop for one signal: a link for a request with responses. -/
def link? (request : RuntimeSignal) (later : List RuntimeSignal) : Option RequestUiLink :=
  if request.kind ≠ .network then none
  else if responseIds window policy later = [] then none
  else some
    { requestId := request.id, responseIds := responseIds window policy later
      confidence := if window.route.isSome then 65 / 100 else 55 / 100, basis := .temporalWindow }

/-- The loop over the signals kept, each with those after it. -/
def linksFrom (window : ActionCorrelationWindow) (policy : ActionRequestUiPolicy) :
    List RuntimeSignal → List RequestUiLink
  | [] => []
  | request :: later =>
    (link? window policy request later).toList ++ linksFrom window policy later

def correlateActionRequestUi (window : ActionCorrelationWindow) (signals : List RuntimeSignal)
    (policy : ActionRequestUiPolicy) : Except ActionCorrelationError ActionRequestUiTrace := do
  rejectIf (window.actionId.isEmpty ∨ window.completedMs < window.startedMs) .invalidWindow
  rejectIf (policy.maxSignals = 0 ∨ maxActionCorrelationSignals < policy.maxSignals ∨
    policy.maxResponsesPerRequest = 0 ∨
    maxActionCorrelationResponsesPerRequest < policy.maxResponsesPerRequest ∨
    maxActionCorrelationTailMs < policy.tailMs) .invalidPolicy
  let kept := (eligible window policy signals).take policy.maxSignals
  return { actionId := window.actionId, links := linksFrom window policy kept
           observedSignalCount := kept.length
           truncated := decide (policy.maxSignals < (eligible window policy signals).length) }

/-- Both signals are in the window and on the route, and the second is a UI signal that
follows the first, a network signal, in the order of time and id. -/
structure Follows (signals : List RuntimeSignal) (request response : RuntimeSignal) : Prop where
  request_mem : request ∈ signals
  response_mem : response ∈ signals
  request_eligible : isEligible window policy request = true
  response_eligible : isEligible window policy response = true
  request_kind : request.kind = .network
  response_kind : response.kind.isUiResponse = true
  later : sortKey request < sortKey response

/-- The trace links the two. -/
def Links (trace : ActionRequestUiTrace) (requestId responseId : String) : Prop :=
  ∃ link ∈ trace.links, link.requestId = requestId ∧ responseId ∈ link.responseIds

/-- How many UI signals of the window stand between a request and a response. -/
def between (signals : List RuntimeSignal) (request response : RuntimeSignal) : Nat :=
  signals.countP fun signal => isEligible window policy signal && signal.kind.isUiResponse &&
    decide (sortKey request < sortKey signal) && decide (sortKey signal < sortKey response)

end

section
variable {window : ActionCorrelationWindow} {policy : ActionRequestUiPolicy}
  {signals signals' xs : List RuntimeSignal} {trace : ActionRequestUiTrace}
  {request response : RuntimeSignal} {requestId responseId : String}

/-! ## The order of the signals -/

theorem mem_eligible : response ∈ eligible window policy signals ↔
    response ∈ signals ∧ isEligible window policy response = true := by
  rw [eligible, mem_insertionSort, mem_filter]

theorem perm_eligible :
    (eligible window policy signals).Perm (signals.filter (isEligible window policy)) :=
  perm_insertionSort _ _

/-- Signals with ids of their own are put in one strict order. -/
theorem pairwise_eligible (hids : (signals.map RuntimeSignal.id).Nodup) :
    (eligible window policy signals).Pairwise fun left right => sortKey left < sortKey right := by
  have hsorted : (eligible window policy signals).Pairwise
      fun left right => sortKey left ≤ sortKey right := by
    have : IsTrans RuntimeSignal fun left right => sortKey left ≤ sortKey right :=
      ⟨fun _ _ _ => le_trans⟩
    have : Std.Total fun left right : RuntimeSignal => sortKey left ≤ sortKey right :=
      ⟨fun left right => le_total (sortKey left) (sortKey right)⟩
    exact pairwise_insertionSort _ _
  have hdistinct : (eligible window policy signals).Pairwise
      fun left right => left.id ≠ right.id := by
    have hkept : ((signals.filter (isEligible window policy)).map RuntimeSignal.id).Nodup :=
      hids.sublist (filter_sublist.map _)
    exact pairwise_map.mp ((perm_eligible.map RuntimeSignal.id).nodup_iff.mpr hkept)
  refine (hsorted.and hdistinct).imp ?_
  rintro left right ⟨hle, hne⟩
  refine lt_of_le_of_ne hle ?_
  intro heq
  exact hne (Prod.mk.inj (toLex.injective heq)).2

/-- However the signals come, they are put in the same order. -/
theorem eligible_eq_of_perm (hids : (signals.map RuntimeSignal.id).Nodup)
    (h : signals.Perm signals') :
    eligible window policy signals = eligible window policy signals' := by
  have hids' : (signals'.map RuntimeSignal.id).Nodup := (h.map _).nodup_iff.mp hids
  have hperm : (eligible window policy signals).Perm (eligible window policy signals') :=
    perm_eligible.trans ((h.filter _).trans perm_eligible.symm)
  refine List.Perm.eq_of_pairwise ?_ (pairwise_eligible hids) (pairwise_eligible hids') hperm
  intro left right _ _ hlt hgt
  exact absurd hgt (lt_asymm hlt)

/-- In a list in strict order, what stands after a signal is what is greater. -/
theorem later_eq {before later : List RuntimeSignal}
    (hsorted : xs.Pairwise fun left right => sortKey left < sortKey right)
    (hsplit : xs = before ++ request :: later) :
    later = xs.filter fun signal => decide (sortKey request < sortKey signal) := by
  subst hsplit
  obtain ⟨-, hrest, hacross⟩ := pairwise_append.mp hsorted
  have hbefore : (before.filter fun signal => decide (sortKey request < sortKey signal)) = [] := by
    rw [filter_eq_nil_iff]
    intro signal hmem
    rw [decide_eq_true_iff]
    exact lt_asymm (hacross signal hmem request mem_cons_self)
  have hlater : (later.filter fun signal => decide (sortKey request < sortKey signal)) = later := by
    rw [filter_eq_self]
    intro signal hmem
    exact decide_eq_true ((pairwise_cons.mp hrest).1 signal hmem)
  rw [filter_append, hbefore, filter_cons_of_neg (by simp), hlater, nil_append]

/-- A member of a list in strict order is among the first `n` if fewer than `n` are less. -/
theorem mem_take_iff {n : Nat}
    (hsorted : xs.Pairwise fun left right => sortKey left < sortKey right)
    (hmem : response ∈ xs) :
    response ∈ xs.take n ↔
      xs.countP (fun signal => decide (sortKey signal < sortKey response)) < n := by
  induction xs generalizing n with
  | nil => exact absurd hmem not_mem_nil
  | cons first rest ih =>
    obtain ⟨hfirst, hrest⟩ := pairwise_cons.mp hsorted
    cases n with
    | zero => simp
    | succ n =>
      rw [take_succ_cons, mem_cons, countP_cons]
      rcases mem_cons.mp hmem with rfl | hmem
      · -- nothing is less than the first signal
        have hnone : rest.countP (fun signal => decide (sortKey signal < sortKey response)) = 0 := by
          rw [countP_eq_zero]
          intro signal hsignal
          rw [decide_eq_true_iff]
          exact lt_asymm (hfirst signal hsignal)
        simp [hnone]
      · have hless := hfirst response hmem
        have hne : response ≠ first := by
          rintro rfl
          exact lt_irrefl _ hless
        rw [ih hrest hmem, if_pos (decide_eq_true hless)]
        simp only [hne, false_or]
        omega

/-! ## The links -/

theorem link?_eq_some {later : List RuntimeSignal} {link : RequestUiLink}
    (h : link? window policy request later = some link) :
    request.kind = .network ∧ link.requestId = request.id ∧
      link.responseIds = responseIds window policy later := by
  unfold link? at h
  by_cases hkind : request.kind = .network
  · by_cases hnone : responseIds window policy later = []
    · rw [if_neg (not_not.mpr hkind), if_pos hnone] at h
      cases h
    · rw [if_neg (not_not.mpr hkind), if_neg hnone] at h
      cases h
      exact ⟨hkind, rfl, rfl⟩
  · rw [if_pos hkind] at h
    cases h

theorem exists_link? {later : List RuntimeSignal} (hkind : request.kind = .network)
    (hresponse : responseId ∈ responseIds window policy later) :
    ∃ link, link? window policy request later = some link := by
  rw [link?, if_neg (not_not.mpr hkind), if_neg (ne_nil_of_mem hresponse)]
  exact ⟨_, rfl⟩

/-- Where a link comes from. -/
theorem mem_linksFrom {link : RequestUiLink} :
    link ∈ linksFrom window policy xs ↔
      ∃ before request later, xs = before ++ request :: later ∧
        link? window policy request later = some link := by
  induction xs with
  | nil =>
    constructor
    · intro h; cases h
    · rintro ⟨before, request, later, hsplit, -⟩
      cases before <;> cases hsplit
  | cons first rest ih =>
    rw [linksFrom, mem_append, Option.mem_toList, ih]
    constructor
    · rintro (h | ⟨before, request, later, rfl, h⟩)
      · exact ⟨[], first, rest, rfl, h⟩
      · exact ⟨first :: before, request, later, rfl, h⟩
    · rintro ⟨before, request, later, hsplit, h⟩
      cases before with
      | nil =>
        obtain ⟨rfl, rfl⟩ := List.cons.inj hsplit
        exact .inl h
      | cons b before =>
        obtain ⟨rfl, rfl⟩ := List.cons.inj hsplit
        exact .inr ⟨before, request, later, rfl, h⟩

theorem linked_iff : (∃ link ∈ linksFrom window policy xs,
      link.requestId = requestId ∧ responseId ∈ link.responseIds) ↔
    ∃ before request later, xs = before ++ request :: later ∧ request.kind = .network ∧
      request.id = requestId ∧ responseId ∈ responseIds window policy later := by
  constructor
  · rintro ⟨link, hlink, hrequest, hresponse⟩
    obtain ⟨before, request, later, hsplit, hsome⟩ := mem_linksFrom.mp hlink
    obtain ⟨hkind, hid, hids⟩ := link?_eq_some hsome
    exact ⟨before, request, later, hsplit, hkind, hid ▸ hrequest, hids ▸ hresponse⟩
  · rintro ⟨before, request, later, hsplit, hkind, hrequest, hresponse⟩
    obtain ⟨link, hsome⟩ := exists_link? hkind hresponse
    obtain ⟨-, hid, hids⟩ := link?_eq_some hsome
    exact ⟨link, mem_linksFrom.mpr ⟨before, request, later, hsplit, hsome⟩,
      hid.trans hrequest, hids ▸ hresponse⟩

theorem mem_responseIds {later : List RuntimeSignal}
    (h : responseId ∈ responseIds window policy later) :
    ∃ response ∈ later, response.kind.isUiResponse = true ∧ response.id = responseId := by
  obtain ⟨response, hmem, hid⟩ := mem_map.mp h
  obtain ⟨hwhile, hkind⟩ := mem_filter.mp (mem_of_mem_take hmem)
  exact ⟨response, (takeWhile_sublist _).subset hwhile, hkind, hid⟩

theorem correlateActionRequestUi_ok
    (h : correlateActionRequestUi window signals policy = .ok trace) :
    trace.links = linksFrom window policy ((eligible window policy signals).take policy.maxSignals) ∧
      trace.truncated = decide (policy.maxSignals < (eligible window policy signals).length) := by
  simp only [correlateActionRequestUi, bind_eq_ok, rejectIf_eq_ok] at h
  obtain ⟨_, -, _, -, htrace⟩ := h
  cases htrace
  exact ⟨rfl, rfl⟩

/-- A link is between signals of which one follows the other. -/
theorem follows_of_links (hids : (signals.map RuntimeSignal.id).Nodup)
    (h : correlateActionRequestUi window signals policy = .ok trace)
    (hlinks : Links trace requestId responseId) :
    ∃ request response, Follows window policy signals request response ∧
      request.id = requestId ∧ response.id = responseId := by
  rw [Links, (correlateActionRequestUi_ok h).1, linked_iff] at hlinks
  obtain ⟨before, request, later, hsplit, hkind, hrequest, hresponse⟩ := hlinks
  obtain ⟨response, hmem, hui, hid⟩ := mem_responseIds hresponse
  have hkept : ∀ signal ∈ before ++ request :: later, signal ∈ eligible window policy signals := by
    intro signal hsignal
    exact mem_of_mem_take (hsplit ▸ hsignal)
  have hsorted : ((eligible window policy signals).take policy.maxSignals).Pairwise
      fun left right => sortKey left < sortKey right :=
    (pairwise_eligible hids).sublist (take_sublist _ _)
  rw [hsplit] at hsorted
  have hrest := (pairwise_append.mp hsorted).2.1
  obtain ⟨hreqMem, hreqElig⟩ := mem_eligible.mp
    (hkept request (mem_append_right _ mem_cons_self))
  obtain ⟨hresMem, hresElig⟩ := mem_eligible.mp
    (hkept response (mem_append_right _ (mem_cons_of_mem _ hmem)))
  exact ⟨request, response,
    { request_mem := hreqMem, response_mem := hresMem, request_eligible := hreqElig
      response_eligible := hresElig, request_kind := hkind, response_kind := hui
      later := (pairwise_cons.mp hrest).1 response hmem },
    hrequest, hid⟩

def following (window : ActionCorrelationWindow) (policy : ActionRequestUiPolicy)
    (signals : List RuntimeSignal) (request : RuntimeSignal) : List RuntimeSignal :=
  ((eligible window policy signals).filter fun signal =>
    decide (sortKey request < sortKey signal)).filter fun signal => signal.kind.isUiResponse

theorem mem_following : response ∈ following window policy signals request ↔
    (response ∈ signals ∧ isEligible window policy response = true) ∧
      sortKey request < sortKey response ∧ response.kind.isUiResponse = true := by
  rw [following, mem_filter, mem_filter, mem_eligible, decide_eq_true_iff, and_assoc]

theorem countP_following : (following window policy signals request).countP
      (fun signal => decide (sortKey signal < sortKey response)) =
    between window policy signals request response := by
  rw [following, countP_filter, countP_filter, perm_eligible.countP_eq,
    countP_filter, between]
  refine countP_congr ?_
  intro signal _
  simp only [Bool.and_eq_true, decide_eq_true_iff]
  constructor
  · rintro ⟨⟨⟨hless, hui⟩, hafter⟩, helig⟩
    exact ⟨⟨⟨helig, hui⟩, hafter⟩, hless⟩
  · rintro ⟨⟨⟨helig, hui⟩, hafter⟩, hless⟩
    exact ⟨⟨⟨hless, hui⟩, hafter⟩, helig⟩

/-- A request's responses are the first of those that follow it. -/
theorem responseIds_eq {before later : List RuntimeSignal}
    (hids : (signals.map RuntimeSignal.id).Nodup)
    (hsplit : eligible window policy signals = before ++ request :: later) :
    responseIds window policy later =
      ((following window policy signals request).take policy.maxResponsesPerRequest).map
        RuntimeSignal.id := by
  have hwhile : (later.takeWhile fun signal =>
      decide (signal.observedMs ≤ endMs window policy)) = later := by
    rw [takeWhile_eq_self_iff]
    intro signal hsignal
    have hmem : signal ∈ eligible window policy signals := by
      rw [hsplit]
      exact mem_append_right _ (mem_cons_of_mem _ hsignal)
    have helig := (mem_eligible.mp hmem).2
    simp only [isEligible, Bool.and_eq_true] at helig
    exact helig.1.2
  rw [responseIds, hwhile, following, ← later_eq (pairwise_eligible hids) hsplit]

/-- In a trace that is not truncated a request is linked to the first of the signals that
follow it, as many as the policy allows. -/
theorem links_iff_between (hids : (signals.map RuntimeSignal.id).Nodup)
    (h : correlateActionRequestUi window signals policy = .ok trace)
    (hwhole : trace.truncated = false) (hfollows : Follows window policy signals request response) :
    Links trace request.id response.id ↔
      between window policy signals request response < policy.maxResponsesPerRequest := by
  obtain ⟨hlinks, htruncated⟩ := correlateActionRequestUi_ok h
  rw [hwhole, eq_comm, decide_eq_false_iff_not, not_lt] at htruncated
  rw [take_of_length_le htruncated] at hlinks
  have hfollowing : response ∈ following window policy signals request :=
    mem_following.mpr ⟨⟨hfollows.response_mem, hfollows.response_eligible⟩, hfollows.later,
      hfollows.response_kind⟩
  have hsorted : (following window policy signals request).Pairwise
      fun left right => sortKey left < sortKey right :=
    ((pairwise_eligible hids).filter _).filter _
  have hown : ∀ a ∈ signals, ∀ b ∈ signals, a.id = b.id → a = b := by
    intro a ha b hb hid
    exact inj_on_of_nodup_map hids ha hb hid
  rw [← countP_following, ← mem_take_iff hsorted hfollowing, Links, hlinks, linked_iff]
  constructor
  · rintro ⟨before, request', later, hsplit, -, hrequest, hresponse⟩
    have hmem : request' ∈ eligible window policy signals := by
      rw [hsplit]
      exact mem_append_right _ mem_cons_self
    obtain rfl := hown request' (mem_eligible.mp hmem).1 request hfollows.request_mem hrequest
    rw [responseIds_eq hids hsplit] at hresponse
    obtain ⟨response', htake, hid⟩ := mem_map.mp hresponse
    have hmem' := (mem_following.mp (mem_of_mem_take htake)).1.1
    obtain rfl := hown response' hmem' response hfollows.response_mem hid
    exact htake
  · intro htake
    have hmem : request ∈ eligible window policy signals :=
      mem_eligible.mpr ⟨hfollows.request_mem, hfollows.request_eligible⟩
    obtain ⟨before, later, hsplit⟩ := append_of_mem hmem
    refine ⟨before, request, later, hsplit, hfollows.request_kind, rfl, ?_⟩
    rw [responseIds_eq hids hsplit]
    exact mem_map_of_mem htake

end

/-- **Action correlation.**  The trace does not depend on the order of the signals; what it
links is a request and a response that follows it; and where it is not truncated a response
is linked just when fewer than `max_responses_per_request` UI signals stand between. -/
theorem correlateActionRequestUi_spec {window : ActionCorrelationWindow}
    {policy : ActionRequestUiPolicy} {signals : List RuntimeSignal} {trace : ActionRequestUiTrace}
    (hids : (signals.map RuntimeSignal.id).Nodup)
    (h : correlateActionRequestUi window signals policy = .ok trace) :
    (∀ signals', signals.Perm signals' →
      correlateActionRequestUi window signals' policy = .ok trace) ∧
    (∀ requestId responseId, Links trace requestId responseId →
      ∃ request response, Follows window policy signals request response ∧
        request.id = requestId ∧ response.id = responseId) ∧
    (trace.truncated = false → ∀ request response,
      Follows window policy signals request response →
      (Links trace request.id response.id ↔
        between window policy signals request response < policy.maxResponsesPerRequest)) := by
  refine ⟨?_, ?_, ?_⟩
  · intro signals' hperm
    rw [← h, correlateActionRequestUi, correlateActionRequestUi, eligible_eq_of_perm hids hperm]
  · intro requestId responseId hlinks
    exact follows_of_links hids h hlinks
  · intro hwhole request response hfollows
    exact links_iff_between hids h hwhole hfollows

/-! ## One response too many -/

def oneResponse : ActionRequestUiPolicy := ⟨100, 3, 1⟩

def shortWindow : ActionCorrelationWindow := ⟨"action", 0, 10, none⟩

def requestSignal : RuntimeSignal := ⟨"request", RuntimeSignalKind.network, 1, none⟩

def layoutSignal : RuntimeSignal := ⟨"layout", RuntimeSignalKind.layout, 2, none⟩

def routeSignal : RuntimeSignal := ⟨"route", RuntimeSignalKind.route, 3, none⟩

def layoutTrace : ActionRequestUiTrace :=
  { actionId := "action"
    links := [⟨"request", ["layout"], 55 / 100, CorrelationBasis.temporalWindow⟩]
    observedSignalCount := 3, truncated := false }

theorem correlate_layoutTrace :
    correlateActionRequestUi shortWindow [routeSignal, requestSignal, layoutSignal] oneResponse =
      .ok layoutTrace := by
  decide +kernel

theorem follows_layoutSignal : Follows shortWindow oneResponse
    [routeSignal, requestSignal, layoutSignal] requestSignal layoutSignal := by
  constructor <;> decide +kernel

theorem follows_routeSignal : Follows shortWindow oneResponse
    [routeSignal, requestSignal, layoutSignal] requestSignal routeSignal := by
  constructor <;> decide +kernel

theorem correlateActionRequestUi_spec_layoutTrace :
    Links layoutTrace requestSignal.id layoutSignal.id :=
  ((correlateActionRequestUi_spec (by decide +kernel) correlate_layoutTrace).2.2 rfl
    requestSignal layoutSignal follows_layoutSignal).mpr (by decide +kernel)

/-- A response is left out of a trace that is not truncated. -/
theorem response_cut_unmarked :
    ¬ ∀ window policy signals trace, (signals.map RuntimeSignal.id).Nodup →
      correlateActionRequestUi window signals policy = .ok trace → trace.truncated = false →
      ∀ request response, Follows window policy signals request response →
        Links trace request.id response.id := by
  intro hall
  obtain ⟨link, hlink, -, hresponse⟩ := hall _ _ _ _ (by decide +kernel) correlate_layoutTrace rfl
    requestSignal routeSignal follows_routeSignal
  obtain rfl := mem_singleton.mp hlink
  revert hresponse
  decide +kernel

end ActionCorrelation
end Localview
