import Mathlib.Data.List.Basic
import Mathlib.Algebra.GroupWithZero.Nat

/-! # Protocol vocabulary

The identifiers and the correctness enumerations shared by every crate
(`crates/protocol`): opaque references, what transport and dispatch can
establish, the verified world outcome, event continuity, and the receipt of a
reconciliation snapshot.  Strings are Lean strings; a `Uuid` is its 128 bits.
-/
namespace Localview

/-- The largest `u64`. -/
def u64Max : Nat := 18446744073709551615

/-- A 128-bit identifier; only its identity and its display are ever used. -/
abbrev Uuid := BitVec 128

abbrev SessionId := Uuid

/-- A `DateTime<Utc>`, in nanoseconds. -/
abbrev Timestamp := Int

/-- The characters of the Unicode `White_Space` property, which `str::trim`
removes. -/
def isWhiteSpace (c : Char) : Bool :=
  let n := c.toNat
  (0x09 ≤ n && n ≤ 0x0D) || n == 0x20 || n == 0x85 || n == 0xA0 || n == 0x1680 ||
    (0x2000 ≤ n && n ≤ 0x200A) || n == 0x2028 || n == 0x2029 || n == 0x202F ||
    n == 0x205F || n == 0x3000

def trimIsEmpty (s : String) : Bool := s.toList.all isWhiteSpace

/-- The hyphenated lower-case form a `Uuid` is displayed in. -/
def Uuid.display (u : Uuid) : String :=
  let digit (i : Nat) : Char := Nat.digitChar (u.toNat / 16 ^ (31 - i) % 16)
  let group (first count : Nat) : List Char := (List.range' first count).map digit
  String.ofList (group 0 8 ++ '-' :: group 8 4 ++ '-' :: group 12 4 ++ '-' :: group 16 4 ++
    '-' :: group 20 12)

/-- Who decides or acts. -/
structure PrincipalRef where
  asStr : String
  deriving DecidableEq

structure ProviderIncarnationRef where
  asStr : String
  deriving DecidableEq

structure TargetIncarnationRef where
  asStr : String
  deriving DecidableEq

/-- Whether the request crossed the transport boundary to the intended executor. -/
inductive TransportResult
  | deliveredToExecutor
  | rejectedBeforeExecutor
  | transportTimeout
  | transportDisconnected
  | transportAuthFailed
  | transportSchemaUnsupported
  deriving DecidableEq

/-- What the provider/executor can establish about dispatch itself. -/
inductive DispatchResult
  | notDispatched
  | dispatchedFull
  | dispatchedPartial
  | dispatchRejected
  | dispatchAmbiguous
  | dispatchBlockedPermission
  | dispatchBlockedIdentity
  | dispatchBlockedFocus
  | dispatchBlockedProvider
  deriving DecidableEq

/-- The independently verified post-dispatch world-state result. -/
inductive WorldOutcome
  | verifiedExpected
  | verifiedUnexpected
  | failedKnown
  | unknownOutcome
  | reconciliationRequired
  | compensatedVerified
  | compensationFailed
  deriving DecidableEq

/-- Continuity of the accepted provider event lineage. -/
inductive EventContinuityState
  | continuous
  | gapDetected
  | sequenceReset
  | providerReincarnated
  | orderingOpaque
  | reconciliationRequired
  | reconnectedUnreconciled
  | broken
  deriving DecidableEq

/-- Whether a bounded reconciliation observation re-establishes the declared
current semantic surface. -/
inductive ReconciliationCompleteness
  | established
  | incomplete
  | inconclusive
  | unsupported
  deriving DecidableEq

/-- Evidence that a fresh bounded observation re-established a declared current
semantic surface. -/
structure ReconciliationSnapshotReceipt where
  receiptId : String
  providerIncarnationRef : ProviderIncarnationRef
  targetIncarnationRef : TargetIncarnationRef
  (snapshotCutRef surfaceScope : String)
  completeness : ReconciliationCompleteness
  (cacheProfileRevision permissionVisibilityRevision : String)
  captureSequence : Nat
  observedDigest : String
  incompletenessDebt : List String

end Localview
