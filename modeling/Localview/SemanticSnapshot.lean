import Localview.AssocMap
import Localview.SetValueExecution

/-! # Semantic snapshots

The snapshot revisions of a Windows UIA session with their nodes, and what
`windows-uia-provider/src/action_capability.rs` reads off a node: which UIA
patterns it supports, and whether a value may be set.
-/
namespace Localview

/-- A node, as far as a read and a preflight look at it. -/
structure NativeSemanticNodeObservation where
  elementRef : ProviderElementRef
  attributes : AssocMap String String

/-- The nodes of one capture. -/
structure SemanticSnapshot where
  revision : NativeSemanticSnapshotRevision
  cacheRevisionRef : String
  nodes : List NativeSemanticNodeObservation

namespace SemanticSnapshot
variable (snapshot : SemanticSnapshot)

def providerIncarnationRef : ProviderIncarnationRef :=
  snapshot.revision.receiptFields.providerIncarnationRef

def targetIncarnationRef : TargetIncarnationRef :=
  snapshot.revision.receiptFields.targetIncarnationRef

def snapshotCutRef : String := snapshot.revision.receiptFields.snapshotCutRef

def completeness : ReconciliationCompleteness := snapshot.revision.receiptFields.completeness

def observedDigest : String := snapshot.revision.receiptFields.observedDigest

end SemanticSnapshot

/-! ## Action capabilities -/

def windowsUiaActionCapabilityProfileV1 : String := "windows-uia-action-capabilities-v1"

def WindowsUiaPattern.attributeKey : WindowsUiaPattern → String
  | .invoke => "windows_uia.pattern.invoke"
  | .selectionItem => "windows_uia.pattern.selection_item"
  | .value => "windows_uia.pattern.value"
  | .toggle => "windows_uia.pattern.toggle"
  | .expandCollapse => "windows_uia.pattern.expand_collapse"
  | .scrollItem => "windows_uia.pattern.scroll_item"
  | .virtualizedItem => "windows_uia.pattern.virtualized_item"

/-- Whether an element has a pattern. -/
inductive WindowsUiaPatternSupport
  | supported
  | unsupported
  | unknown
  deriving DecidableEq

def WindowsUiaPatternSupport.fromWireValue (value : String) : WindowsUiaPatternSupport :=
  if value = "supported" then .supported
  else if value = "unsupported" then .unsupported
  else .unknown

/-- A fact that may not be known. -/
inductive WindowsUiaBooleanCapabilityFact
  | true
  | false
  | unknown
  deriving DecidableEq

def WindowsUiaBooleanCapabilityFact.fromWireValue (value : String) :
    WindowsUiaBooleanCapabilityFact :=
  if value = "true" then .true else if value = "false" then .false else .unknown

/-- Whether a value can be set. -/
structure WindowsUiaValueCapabilityFacts where
  valueSupport : WindowsUiaPatternSupport
  (isPassword isReadOnly : WindowsUiaBooleanCapabilityFact)

def WindowsUiaValueCapabilityFacts.permitsSetValue (facts : WindowsUiaValueCapabilityFacts) : Bool :=
  facts.valueSupport = .supported && facts.isPassword = .false && facts.isReadOnly = .false

namespace NativeSemanticNodeObservation
variable (node : NativeSemanticNodeObservation)

def hasDeclaredCapabilityProfile : Bool :=
  node.elementRef.providerFamily = "windows_uia" &&
    node.attributes.get "windows_uia.action_capability_profile" =
      some windowsUiaActionCapabilityProfileV1

/-- `WindowsUiaActionCapabilities::from_node`, then `support_for` -/
def supportFor (pattern : WindowsUiaPattern) : WindowsUiaPatternSupport :=
  if node.hasDeclaredCapabilityProfile then
    (node.attributes.get pattern.attributeKey).elim .unknown .fromWireValue
  else .unknown

def booleanFact (key : String) : WindowsUiaBooleanCapabilityFact :=
  (node.attributes.get key).elim .unknown .fromWireValue

/-- `WindowsUiaValueCapabilityFacts::from_node` -/
def valueCapabilityFacts : WindowsUiaValueCapabilityFacts :=
  if node.hasDeclaredCapabilityProfile then
    { valueSupport := node.supportFor .value
      isPassword := node.booleanFact "windows_uia.is_password"
      isReadOnly := node.booleanFact "windows_uia.value.is_read_only" }
  else { valueSupport := .unknown, isPassword := .unknown, isReadOnly := .unknown }

end NativeSemanticNodeObservation

end Localview
