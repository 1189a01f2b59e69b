import Localview.ArtifactStore
import Localview.SurfaceRecovery

/-! # Network fault plans

`canonicalize_fault_plan` of `network/src/lib.rs`: a plan of fault rules is checked and
fingerprinted before it is handed to a page.  The page takes the first rule whose transport,
method and path fit a request, and the design relies on a plan having at most one.

The check compares selectors as they are written.  Two rules for the same method and path
are told apart by their transport even where one of them says `both`, so an accepted plan
is unambiguous just when no rule for both transports shares its method and path with another
(`canonicalizeFaultPlan_unambiguous_iff`).
-/
namespace Localview
open EarlyReturn List

/-- The requests a rule is for. -/
inductive FaultTransport
  | fetch
  | xhr
  | both
  deriving DecidableEq

/-- The HTTP method a rule is for. -/
inductive FaultMethod
  | get
  | head
  | post
  | put
  | patch
  | delete
  | options
  deriving DecidableEq

/-- What a rule does to a request. -/
inductive NetworkFaultEffect
  | fail
  | delay (milliseconds : UInt64)
  | mockStatus (status : UInt16)

/-- A fault for the requests it selects. -/
structure NetworkFaultRule where
  id : String
  transport : FaultTransport
  method : FaultMethod
  path : String
  effect : NetworkFaultEffect
  maxHits : UInt16

/-- Rules, for a limited time. -/
structure NetworkFaultPlan where
  rules : List NetworkFaultRule
  leaseMs : UInt64

structure CanonicalNetworkFaultPlan where
  rules : List NetworkFaultRule
  leaseMs : UInt64
  fingerprint : String

/-- Why a plan is refused. -/
inductive NetworkFaultPolicyError
  | emptyRules
  | tooManyRules (count max : Nat)
  | invalidRuleId (id : String)
  | invalidPath (path : String)
  | duplicateSelector (transport : FaultTransport) (method : FaultMethod) (path : String)
  | invalidLease (milliseconds : UInt64)
  | invalidDelay (milliseconds : UInt64)
  | invalidStatus (status : UInt16)
  | invalidHitBudget (maxHits : UInt16)

namespace NetworkFault

def maxFaultRules : Nat := 16

def maxFaultPathBytes : Nat := 256

def validFaultRuleId (id : String) : Bool :=
  !id.isEmpty && decide (id.utf8ByteSize ≤ 64) &&
    id.toList.all fun c => c.isAlphanum || c = '-' || c = '_'

def validFaultPath (path : String) : Bool :=
  !path.isEmpty && decide (path.utf8ByteSize ≤ maxFaultPathBytes) &&
    ['/'].isPrefixOf path.toList && !(['/', '/'].isPrefixOf path.toList) &&
    !path.toList.contains '?' && !path.toList.contains '#' && !path.toList.any isControl

def effectTag : NetworkFaultEffect → String × UInt64
  | .fail => ("fail", 0)
  | .delay milliseconds => ("delay", milliseconds)
  | .mockStatus status => ("mock_status", status.toUInt64)

def methodTag : FaultMethod → String
  | .get => "get"
  | .head => "head"
  | .post => "post"
  | .put => "put"
  | .patch => "patch"
  | .delete => "delete"
  | .options => "options"

def transportTag : FaultTransport → String
  | .fetch => "fetch"
  | .xhr => "xhr"
  | .both => "both"

/-- The bytes of a number, the lowest first. -/
def leBytes (width : Nat) (n : Nat) : Bytes :=
  (List.range width).map fun i => UInt8.ofNat (n / 256 ^ i)

def feedFingerprint (hash : UInt64) (bytes : Bytes) : UInt64 :=
  let fed := bytes.foldl (fun hash byte => (hash ^^^ byte.toUInt64) * 0x100000001b3) hash
  (fed ^^^ 0xff) * 0x100000001b3

/-- What `fault_plan_fingerprint` feeds of one rule. -/
def feedRule (hash : UInt64) (rule : NetworkFaultRule) : UInt64 :=
  let (effect, value) := effectTag rule.effect
  [rule.id.toUTF8.toList, (transportTag rule.transport).toUTF8.toList,
    (methodTag rule.method).toUTF8.toList, rule.path.toUTF8.toList, effect.toUTF8.toList,
    leBytes 8 value.toNat, leBytes 2 rule.maxHits.toNat].foldl feedFingerprint hash

def faultPlanFingerprint (plan : NetworkFaultPlan) : String :=
  let hash := feedFingerprint 0xcbf29ce484222325 (leBytes 8 plan.leaseMs.toNat)
  let hash := feedFingerprint hash (leBytes 8 plan.rules.length)
  String.ofList (hexDigits16 (plan.rules.foldl feedRule hash))

/-- The check of a rule's effect. -/
def checkEffect : NetworkFaultEffect → Except NetworkFaultPolicyError Unit
  | .fail => .ok ()
  | .delay milliseconds =>
    rejectIf (¬ (1 ≤ milliseconds ∧ milliseconds ≤ 5000)) (.invalidDelay milliseconds)
  | .mockStatus status => rejectIf (¬ (200 ≤ status ∧ status ≤ 599)) (.invalidStatus status)

/-- What a rule selects requests by. -/
abbrev Selector := FaultTransport × FaultMethod × String

def selector (rule : NetworkFaultRule) : Selector := (rule.transport, rule.method, rule.path)

/-- The loop of `canonicalize_fault_plan` over the rules, with the selectors seen so far. -/
def checkRules : List Selector → List NetworkFaultRule → Except NetworkFaultPolicyError Unit
  | _, [] => .ok ()
  | selectors, rule :: rules => do
    rejectIf (validFaultRuleId rule.id = false) (.invalidRuleId rule.id)
    rejectIf (validFaultPath rule.path = false) (.invalidPath rule.path)
    rejectIf (¬ (1 ≤ rule.maxHits ∧ rule.maxHits ≤ 64)) (.invalidHitBudget rule.maxHits)
    checkEffect rule.effect
    rejectIf (selector rule ∈ selectors)
      (.duplicateSelector rule.transport rule.method rule.path)
    checkRules (selector rule :: selectors) rules

def canonicalizeFaultPlan (plan : NetworkFaultPlan) :
    Except NetworkFaultPolicyError CanonicalNetworkFaultPlan := do
  rejectIf (plan.rules.isEmpty) .emptyRules
  rejectIf (maxFaultRules < plan.rules.length) (.tooManyRules plan.rules.length maxFaultRules)
  rejectIf (¬ (100 ≤ plan.leaseMs ∧ plan.leaseMs ≤ 30000)) (.invalidLease plan.leaseMs)
  checkRules [] plan.rules
  return { rules := plan.rules, leaseMs := plan.leaseMs, fingerprint := faultPlanFingerprint plan }

/-! ## Requests and the rules that fit them -/

/-- How a request is made. -/
inductive RequestTransport
  | fetch
  | xhr

structure FaultRequest where
  transport : RequestTransport
  method : FaultMethod
  path : String

/-- The requests a transport of a rule stands for. -/
def covers : FaultTransport → RequestTransport → Bool
  | .fetch, .fetch => true
  | .xhr, .xhr => true
  | .both, _ => true
  | _, _ => false

/-- The rule fits the request. -/
def selects (request : FaultRequest) (rule : NetworkFaultRule) : Bool :=
  covers rule.transport request.transport && decide (rule.method = request.method) &&
    decide (rule.path = request.path)

/-- At most one rule fits each request. -/
def Unambiguous (rules : List NetworkFaultRule) : Prop :=
  ∀ request : FaultRequest, (rules.filter (selects request)).length ≤ 1

/-- Two rules for the same method and path both name a transport of their own. -/
def KeepsApart (a b : NetworkFaultRule) : Prop :=
  a.method = b.method → a.path = b.path → a.transport ≠ .both ∧ b.transport ≠ .both

section
variable {plan : NetworkFaultPlan} {canonical : CanonicalNetworkFaultPlan}
  {rules : List NetworkFaultRule} {selectors : List Selector} {a b : NetworkFaultRule}
  {request : FaultRequest}

@[simp] theorem selects_iff : selects request a = true ↔
    covers a.transport request.transport = true ∧ a.method = request.method ∧
      a.path = request.path := by
  simp [selects, and_assoc]

/-- Checked rules have selectors of their own. -/
theorem checkRules_ok (h : checkRules selectors rules = .ok ()) :
    (rules.map selector).Nodup ∧ ∀ rule ∈ rules, selector rule ∉ selectors := by
  induction rules generalizing selectors with
  | nil => exact ⟨nodup_nil, fun rule hrule => absurd hrule not_mem_nil⟩
  | cons rule rules ih =>
    simp only [checkRules, bind_eq_ok, rejectIf_eq_ok] at h
    obtain ⟨_, -, _, -, _, -, _, -, _, hnew, hrest⟩ := h
    obtain ⟨hnodup, hfresh⟩ := ih hrest
    refine ⟨?_, ?_⟩
    · rw [map_cons, nodup_cons]
      refine ⟨?_, hnodup⟩
      intro hmem
      obtain ⟨later, hlater, heq⟩ := mem_map.mp hmem
      refine hfresh later hlater ?_
      rw [heq]
      exact mem_cons_self
    · intro other hother
      rcases mem_cons.mp hother with rfl | hother
      · exact hnew
      · intro hmem
        exact hfresh other hother (mem_cons_of_mem _ hmem)

theorem canonicalizeFaultPlan_ok (h : canonicalizeFaultPlan plan = .ok canonical) :
    canonical.rules = plan.rules ∧ (plan.rules.map selector).Nodup := by
  simp only [canonicalizeFaultPlan, bind_eq_ok, rejectIf_eq_ok] at h
  obtain ⟨_, -, _, -, _, -, _, hcheck, hplan⟩ := h
  cases hplan
  exact ⟨rfl, (checkRules_ok hcheck).1⟩

/-- A transport covers something, and two cover a request only if they are equal or one
is for both. -/
theorem exists_covers (t : FaultTransport) : ∃ r, covers t r = true := by
  cases t with
  | fetch => exact ⟨.fetch, rfl⟩
  | xhr => exact ⟨.xhr, rfl⟩
  | both => exact ⟨.fetch, rfl⟩

theorem eq_of_covers {t u : FaultTransport} {r : RequestTransport} (ht : covers t r = true)
    (hu : covers u r = true) (htb : t ≠ .both) (hub : u ≠ .both) : t = u := by
  cases t <;> cases u <;> cases r <;> first | rfl | contradiction

theorem pairwise_false_iff {α : Type*} {xs : List α} :
    (xs.Pairwise fun _ _ => False) ↔ xs.length ≤ 1 := by
  cases xs with
  | nil => simp
  | cons x xs =>
    cases xs with
    | nil => simp
    | cons y ys =>
      refine ⟨fun h => ?_, fun h => absurd h (by simp)⟩
      exact absurd ((pairwise_cons.mp h).1 y mem_cons_self) not_false

/-- At most one rule fits just when no two of them do. -/
theorem unambiguous_iff :
    Unambiguous rules ↔ rules.Pairwise fun a b =>
      ∀ request, ¬ (selects request a = true ∧ selects request b = true) := by
  have hone : ∀ request, (rules.filter (selects request)).length ≤ 1 ↔
      rules.Pairwise fun a b => selects request a = true → selects request b = true → False := by
    intro request
    rw [← pairwise_false_iff, pairwise_filter]
  constructor
  · intro h
    rw [pairwise_iff_getElem]
    rintro i j hi hj hij request ⟨ha, hb⟩
    exact pairwise_iff_getElem.mp ((hone request).mp (h request)) i j hi hj hij ha hb
  · intro h request
    exact (hone request).mpr (h.imp fun hab ha hb => hab request ⟨ha, hb⟩)

/-- Two rules with selectors of their own fit no common request just when they are kept
apart. -/
theorem disjoint_iff (hne : selector a ≠ selector b) :
    (∀ request, ¬ (selects request a = true ∧ selects request b = true)) ↔ KeepsApart a b := by
  constructor
  · intro h hmethod hpath
    constructor
    · -- a rule for both transports also takes the requests of the other rule
      intro hboth
      obtain ⟨r, hr⟩ := exists_covers b.transport
      refine h ⟨r, b.method, b.path⟩ ⟨?_, ?_⟩
      · rw [selects_iff, hboth]
        exact ⟨by cases r <;> rfl, hmethod, hpath⟩
      · exact selects_iff.mpr ⟨hr, rfl, rfl⟩
    · intro hboth
      obtain ⟨r, hr⟩ := exists_covers a.transport
      refine h ⟨r, a.method, a.path⟩ ⟨?_, ?_⟩
      · exact selects_iff.mpr ⟨hr, rfl, rfl⟩
      · rw [selects_iff, hboth]
        exact ⟨by cases r <;> rfl, hmethod.symm, hpath.symm⟩
  · rintro h request ⟨ha, hb⟩
    obtain ⟨hca, hma, hpa⟩ := selects_iff.mp ha
    obtain ⟨hcb, hmb, hpb⟩ := selects_iff.mp hb
    have hmethod : a.method = b.method := hma.trans hmb.symm
    have hpath : a.path = b.path := hpa.trans hpb.symm
    obtain ⟨hab, hbb⟩ := h hmethod hpath
    apply hne
    rw [selector, selector, eq_of_covers hca hcb hab hbb, hmethod, hpath]

end

/-- **Accepted plans.**  At most one rule of an accepted plan fits each request just when
no rule for both transports shares its method and path with another rule. -/
theorem canonicalizeFaultPlan_unambiguous_iff {plan : NetworkFaultPlan}
    {canonical : CanonicalNetworkFaultPlan} (h : canonicalizeFaultPlan plan = .ok canonical) :
    Unambiguous canonical.rules ↔ plan.rules.Pairwise KeepsApart := by
  obtain ⟨hrules, hnodup⟩ := canonicalizeFaultPlan_ok h
  have hdistinct : plan.rules.Pairwise fun a b => selector a ≠ selector b :=
    pairwise_map.mp hnodup
  rw [hrules, unambiguous_iff]
  constructor
  · intro hdisjoint
    exact (hdistinct.and hdisjoint).imp fun hab => (disjoint_iff hab.1).mp hab.2
  · intro hapart
    exact (hdistinct.and hapart).imp fun hab => (disjoint_iff hab.1).mpr hab.2

def dataRule (id : String) (transport : FaultTransport) (effect : NetworkFaultEffect) :
    NetworkFaultRule :=
  { id, transport, method := FaultMethod.get, path := "/api/data", effect, maxHits := 1 }

def splitPlan : NetworkFaultPlan :=
  { rules := [dataRule "one" FaultTransport.fetch NetworkFaultEffect.fail,
      dataRule "two" FaultTransport.xhr (NetworkFaultEffect.delay 10)]
    leaseMs := 1000 }

/-- A rule for one transport beside a rule for both. -/
def overlappingPlan : NetworkFaultPlan :=
  { rules := [dataRule "one" FaultTransport.fetch NetworkFaultEffect.fail,
      dataRule "two" FaultTransport.both (NetworkFaultEffect.delay 10)]
    leaseMs := 1000 }

theorem exists_canonical {plan : NetworkFaultPlan}
    (h : (canonicalizeFaultPlan plan).isOk) :
    ∃ canonical, canonicalizeFaultPlan plan = .ok canonical := by
  cases hplan : canonicalizeFaultPlan plan with
  | ok canonical => exact ⟨canonical, rfl⟩
  | error e => rw [hplan] at h; cases h

theorem canonicalizeFaultPlan_splitPlan :
    ∃ canonical, canonicalizeFaultPlan splitPlan = .ok canonical ∧
      Unambiguous canonical.rules := by
  obtain ⟨canonical, hplan⟩ := @exists_canonical splitPlan (by decide +kernel)
  refine ⟨canonical, hplan, (canonicalizeFaultPlan_unambiguous_iff hplan).mpr ?_⟩
  rw [splitPlan, pairwise_pair]
  intro _ _
  exact ⟨by decide, by decide⟩

/-- Two rules of an accepted plan fit one request. -/
theorem overlapping_rules_accepted :
    ¬ ∀ plan canonical, canonicalizeFaultPlan plan = .ok canonical →
      Unambiguous canonical.rules := by
  intro hall
  obtain ⟨canonical, hplan⟩ := @exists_canonical overlappingPlan (by decide +kernel)
  have hone := hall _ _ hplan ⟨RequestTransport.fetch, FaultMethod.get, "/api/data"⟩
  rw [(canonicalizeFaultPlan_ok hplan).1] at hone
  revert hone
  decide +kernel

end NetworkFault
end Localview
