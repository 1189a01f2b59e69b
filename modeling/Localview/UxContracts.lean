import Mathlib.Data.Rat.Defs
import Mathlib.Data.String.Basic
import Localview.EarlyReturn
import Localview.OrderedSet

/-! # Contracts on runtime facts

A registry of contracts is compiled (parents followed, conflicts refused), and each
compiled contract is judged on the facts at hand: a fact may decide it at once, else the
facts of its kind have to be complete.

`f64` is a parameter (`Binary64`), and so are the JSON values that an equality compares.
-/
namespace Localview
open EarlyReturn

/-- What contracts and mutations compute with in `f64`. -/
class Binary64 (F : Type) where
  ofNat : Nat → F
  (add mul : F → F → F)
  (le lt eq : F → F → Bool)
  isFinite : F → Bool
  display : F → String

/-- Exact arithmetic, which `f64` agrees with on small integers. -/
instance rational64 : Binary64 ℚ where
  ofNat n := n
  add := (· + ·)
  mul := (· * ·)
  le x y := decide (x ≤ y)
  lt x y := decide (x < y)
  eq x y := decide (x = y)
  isFinite _ := true
  display := toString

/-- Whether a contract must hold. -/
inductive ContractStrength
  | hard
  | soft

/-- What a contract is about. -/
inductive ContractCategory
  | layout
  | accessibility
  | interaction
  | content
  | responsive
  | performance
  | network
  | visual
  | safety

/-- Where a contract applies. -/
structure ContractScope where
  (routes regions personas viewports : List String)
deriving DecidableEq

/-- Everywhere. -/
def ContractScope.global : ContractScope := ⟨[], [], [], []⟩

/-- What a contract asks of the page. -/
inductive ContractPredicate (F V : Type)
  | exists (selector : String)
  | notExists (selector : String)
  | metricAtMost (metric : String) (max : F)
  | metricAtLeast (metric : String) (min : F)
  | equals (key : String) (value : V)
  | noIssueCode (code : String)
  | everyInteractiveNamed

/-- Something the page must keep to. -/
structure UxContract (F V : Type) where
  (id title : String)
  category : ContractCategory
  strength : ContractStrength
  scope : ContractScope
  predicate : ContractPredicate F V
  provenance : String
  inheritedFrom : Option String

/-- A contract let off in one place. -/
structure ContractException where
  (contractId scopeKey reason approvedBy : String)
  expiresRevision : Option String

/-- What is known of the page. -/
structure RuntimeFacts (F V : Type) where
  selectors : OrderedSet String
  metrics : OrderedMap String F
  values : OrderedMap String V
  issueCodes : OrderedSet String
  unnamedInteractiveCount : Nat

/-- Nothing is known. -/
def RuntimeFacts.default {F V : Type} : RuntimeFacts F V :=
  ⟨.empty, .empty, .empty, .empty, 0⟩

/-- Whether a contract holds. -/
inductive ContractVerdict
  | pass
  | fail
  | excepted
  | unknown
deriving DecidableEq

/-- Whether a contract holds, and why. -/
structure ContractResult where
  contractId : String
  verdict : ContractVerdict
  explanation : String
  evidenceIds : List String

/-! ## The registry -/

/-- The contracts, by id. -/
abbrev ContractRegistry (F V : Type) := OrderedMap String (UxContract F V)

/-- Why contracts do not compile. -/
inductive ContractCompileError
  | missingContract (id : String)
  | missingParent (id : String)
  | inheritanceCycle (id : String)

/-- Two contracts that cannot both hold. -/
structure ContractConflict where
  (left right reason : String)

/-- Why a catalog does not compile. -/
inductive AutonomousContractCompileError
  | contract (e : ContractCompileError)
  | conflict (conflicts : List ContractConflict)

/-- Contracts that agree. -/
structure CompiledContractSet (F V : Type) where
  contracts : List (UxContract F V)
  contractIds : List String

section
variable {F V : Type}

/-- A later contract of the same id replaces the one there. -/
def ContractRegistry.register (r : ContractRegistry F V) (c : UxContract F V) :
    ContractRegistry F V := r.insert c.id c

/-- A child's own list stands, if it has one. -/
def choose (parent child : List String) : List String := if child.isEmpty then parent else child

/-- What a child inherits of its parent's scope. -/
def mergeScope (parent child : ContractScope) : ContractScope where
  routes := choose parent.routes child.routes
  regions := choose parent.regions child.regions
  personas := choose parent.personas child.personas
  viewports := choose parent.viewports child.viewports

/-- The loop that follows parents.  Every round but the last visits a further contract of
the registry, so there are at most `fuel` of them, one more than it has contracts. -/
def followParents (r : ContractRegistry F V) :
    Nat → OrderedSet String → UxContract F V → Except ContractCompileError (UxContract F V)
  | 0, _, current => .error (.inheritanceCycle current.id)
  | fuel + 1, visited, current =>
    match current.inheritedFrom with
    | none => .ok current
    | some parentId =>
      if visited.contains parentId then .error (.inheritanceCycle parentId)
      else match r.get parentId with
        | none => .error (.missingParent parentId)
        | some parent =>
          followParents r fuel (visited.insert parentId)
            { current with
              scope := mergeScope parent.scope current.scope
              provenance :=
                if current.provenance.isEmpty then parent.provenance else current.provenance
              inheritedFrom := parent.inheritedFrom }

/-- A contract with what its parents hand down. -/
def ContractRegistry.effectiveContract (r : ContractRegistry F V) (id : String) :
    Except ContractCompileError (UxContract F V) :=
  match r.get id with
  | none => .error (.missingContract id)
  | some current =>
    followParents r (r.entries.length + 1) (OrderedSet.empty.insert current.id) current

variable [Binary64 F] [DecidableEq V]

open Binary64

/-- Two predicates that no facts meet together. -/
def predicatesConflict : ContractPredicate F V → ContractPredicate F V → Bool
  | .exists a, .notExists b => a == b
  | .notExists a, .exists b => a == b
  | .metricAtMost a max, .metricAtLeast b min => a == b && lt max min
  | .metricAtLeast a min, .metricAtMost b max => a == b && lt max min
  | .equals a av, .equals b bv => a == b && av != bv
  | _, _ => false

/-- The conflicts of each contract with those after it. -/
def effectiveConflicts : List (UxContract F V) → List ContractConflict
  | [] => []
  | left :: rest =>
    (rest.filter fun right => decide (left.scope = right.scope) &&
        predicatesConflict left.predicate right.predicate).map
      (fun right => ⟨left.id, right.id, "effective scope contains incompatible predicates"⟩)
    ++ effectiveConflicts rest

/-- The contracts asked for, or all; none may conflict. -/
def ContractRegistry.compileAutonomousSubset (r : ContractRegistry F V)
    (requestedIds : OrderedSet String) :
    Except AutonomousContractCompileError (CompiledContractSet F V) := do
  let ids := if requestedIds.toList.isEmpty then r.entries.map Prod.fst else requestedIds.toList
  let contracts ← (ids.mapM r.effectiveContract).mapError AutonomousContractCompileError.contract
  let conflicts := effectiveConflicts contracts
  rejectIf (conflicts ≠ []) (AutonomousContractCompileError.conflict conflicts)
  return { contracts := contracts, contractIds := contracts.map (·.id) }

/-! ## One contract -/

/-- The verdict of a check that was made. -/
def boolResult (pass : Bool) (passMessage failMessage : String) : ContractVerdict × String :=
  if pass then (.pass, passMessage) else (.fail, failMessage)

/-- What the facts say of a predicate. -/
def evaluatePredicate (facts : RuntimeFacts F V) : ContractPredicate F V → ContractVerdict × String
  | .exists selector =>
    boolResult (facts.selectors.contains selector) s!"selector {selector} exists"
      s!"selector {selector} missing"
  | .notExists selector =>
    boolResult (!facts.selectors.contains selector) s!"selector {selector} absent"
      s!"selector {selector} unexpectedly exists"
  | .metricAtMost metric max =>
    match facts.metrics.get metric with
    | some value => boolResult (le value max)
        (metric ++ "=" ++ display value ++ " <= " ++ display max)
        (metric ++ "=" ++ display value ++ " > " ++ display max)
    | none => (.unknown, s!"metric {metric} unavailable")
  | .metricAtLeast metric min =>
    match facts.metrics.get metric with
    | some value => boolResult (le min value)
        (metric ++ "=" ++ display value ++ " >= " ++ display min)
        (metric ++ "=" ++ display value ++ " < " ++ display min)
    | none => (.unknown, s!"metric {metric} unavailable")
  | .equals key value =>
    match facts.values.get key with
    | some actual => boolResult (decide (actual = value)) s!"{key} matches contract value"
        s!"{key} differs from contract value"
    | none => (.unknown, s!"value {key} unavailable")
  | .noIssueCode code =>
    boolResult (!facts.issueCodes.contains code) s!"issue {code} absent" s!"issue {code} present"
  | .everyInteractiveNamed =>
    boolResult (facts.unnamedInteractiveCount == 0)
      "all interactive elements have accessible names"
      s!"{facts.unnamedInteractiveCount} interactive element(s) are unnamed"

/-- An exception comes before the facts. -/
def UxContract.evaluate (contract : UxContract F V) (facts : RuntimeFacts F V)
    (exception : Option ContractException) (evidenceIds : List String) : ContractResult :=
  if exception.any (fun item => item.contractId == contract.id) then
    ⟨contract.id, .excepted, "approved exception applies", evidenceIds⟩
  else
    ⟨contract.id, (evaluatePredicate facts contract.predicate).1,
      (evaluatePredicate facts contract.predicate).2, evidenceIds⟩

/-! ## Live facts -/

/-- What complete facts are complete in. -/
inductive RuntimeFactDomain
  | selectors
  | metrics
  | values
  | issueCodes
  | interactiveNames
deriving DecidableEq

/-- Facts, and how far they are complete. -/
structure LiveRuntimeFacts (F V : Type) where
  facts : RuntimeFacts F V
  completeDomains : List RuntimeFactDomain
  (metricKeys valueKeys : OrderedSet String)
  (evidenceIds staleEvidenceIds ignoredTaintedEvidenceIds : List String)
  ignoredNonAuthoritativeEvidenceIds : List String

/-- Nothing is known, and nothing complete. -/
def LiveRuntimeFacts.default {F V : Type} : LiveRuntimeFacts F V :=
  ⟨.default, [], .empty, .empty, [], [], [], []⟩

/-- What a fact at hand decides, whether or not its kind is complete. -/
def decisivePredicate (facts : RuntimeFacts F V) :
    ContractPredicate F V → Option (ContractVerdict × String)
  | .exists selector =>
    if facts.selectors.contains selector then
      some (.pass, s!"selector {selector} exists in fresh evidence")
    else none
  | .notExists selector =>
    if facts.selectors.contains selector then
      some (.fail, s!"selector {selector} unexpectedly exists")
    else none
  | .noIssueCode code =>
    if facts.issueCodes.contains code then some (.fail, s!"issue {code} present") else none
  | .everyInteractiveNamed =>
    if 0 < facts.unnamedInteractiveCount then
      some (.fail, s!"{facts.unnamedInteractiveCount} interactive element(s) are unnamed")
    else none
  | _ => none

section
variable (contract : UxContract F V) (live : LiveRuntimeFacts F V)

/-- What incomplete facts decide already. -/
def decisivePartialResult (exception : Option ContractException) : Option ContractResult :=
  if exception.isSome then some (contract.evaluate live.facts exception live.evidenceIds)
  else (decisivePredicate live.facts contract.predicate).map fun decided =>
    ⟨contract.id, decided.1, decided.2, live.evidenceIds⟩

/-- Whether the facts are complete for a predicate. -/
def domainKnown (live : LiveRuntimeFacts F V) : ContractPredicate F V → Bool
  | .exists _ | .notExists _ => live.completeDomains.contains .selectors
  | .metricAtMost metric _ | .metricAtLeast metric _ =>
    live.metricKeys.contains metric || live.completeDomains.contains .metrics
  | .equals key _ => live.valueKeys.contains key || live.completeDomains.contains .values
  | .noIssueCode _ => live.completeDomains.contains .issueCodes
  | .everyInteractiveNamed => live.completeDomains.contains .interactiveNames

/-- Undecided facts that are not complete leave a contract unknown. -/
def evaluateLiveContract
    (exception : Option ContractException) (revision : String) : ContractResult :=
  let exception := exception.filter fun exception =>
    exception.contractId == contract.id &&
      exception.expiresRevision.all fun bound => bound == revision
  match decisivePartialResult contract live exception with
  | some result => result
  | none =>
    if domainKnown live contract.predicate then
      contract.evaluate live.facts exception live.evidenceIds
    else
      ⟨contract.id, .unknown, "required runtime fact domain is incomplete", live.evidenceIds⟩

/-! ## All of them -/

/-- What became of one contract. -/
structure ContractEvaluationRecord where
  contractId : String
  strength : ContractStrength
  verdict : ContractVerdict
  explanation : String
  evidenceIds : List String

/-- What became of all contracts. -/
structure ContractEvaluationSummary where
  evaluated : List ContractEvaluationRecord
  (hardFailures hardUnknowns softWarnings : List String)
  (passCount exceptedCount : Nat)

/-- No contract is evaluated yet. -/
def ContractEvaluationSummary.default : ContractEvaluationSummary := ⟨[], [], [], [], 0, 0⟩

/-- A record counted and listed. -/
def ContractEvaluationSummary.push (summary : ContractEvaluationSummary)
    (record : ContractEvaluationRecord) : ContractEvaluationSummary :=
  let summary := { summary with evaluated := summary.evaluated ++ [record] }
  match record.strength, record.verdict with
  | _, .pass => { summary with passCount := summary.passCount + 1 }
  | _, .excepted => { summary with exceptedCount := summary.exceptedCount + 1 }
  | .hard, .fail => { summary with hardFailures := summary.hardFailures ++ [record.contractId] }
  | .hard, .unknown => { summary with hardUnknowns := summary.hardUnknowns ++ [record.contractId] }
  | .soft, _ => { summary with softWarnings := summary.softWarnings ++ [record.contractId] }

/-- What a summary keeps of one contract. -/
def evaluationRecord (exceptions : OrderedMap String ContractException) (revision : String) :
    ContractEvaluationRecord :=
  let result := evaluateLiveContract contract live (exceptions.get contract.id) revision
  ⟨contract.id, contract.strength, result.verdict, result.explanation, result.evidenceIds⟩

end

/-- All contracts, one after the other. -/
def evaluateCompiledContracts (compiled : CompiledContractSet F V) (live : LiveRuntimeFacts F V)
    (exceptions : OrderedMap String ContractException) (revision : String) :
    ContractEvaluationSummary :=
  compiled.contracts.foldl
    (fun summary contract => summary.push (evaluationRecord contract live exceptions revision))
    .default

end
end Localview
