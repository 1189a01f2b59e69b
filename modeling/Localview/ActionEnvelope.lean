import Localview.Protocol

/-! # Canonical action envelopes

The authority metadata a canonical action carries above its transport object
(`live-bridge/src/action_envelope.rs`): who decided and who acts, under which
authorization revision, against which precondition snapshot and which
provider/target incarnation, at which risk, and which postcondition contracts
must hold afterwards.
-/
namespace Localview

/-- Minimum side-effect/risk floor for a canonical action. -/
inductive ActionRiskClass
  | observeOnly
  | reversibleUiState
  | localDataMutation
  | externalSideEffect
  | destructiveOrIrreversible
  | credentialOrAuthorityChange
  | unknown
  deriving DecidableEq

/-- Canonical V4 idempotency classes. -/
inductive ActionIdempotencyClass
  | pureRead
  | idempotentWriteWithKey
  | idempotentByObservedState
  | compensatableNonIdempotent
  | irreversible
  | unknown
  deriving DecidableEq

/-- Payload-free operation identity for canonical actions. -/
inductive CanonicalActionOperation
  | activate
  | select
  | toggle
  | expand
  | collapse
  | setValue
  | inputText
  | keyInput
  | scroll
  | focus
  | snapshot
  deriving DecidableEq

/-- Canonical authority metadata that lives above the compact transport action. -/
structure ActionEnvelopeMetadata where
  (decisionPrincipalRef actingPrincipalRef : PrincipalRef)
  (authorizationRevision preconditionSnapshotCutRef : String)
  providerIncarnationRef : ProviderIncarnationRef
  targetIncarnationRef : TargetIncarnationRef
  riskClass : ActionRiskClass
  idempotencyClass : ActionIdempotencyClass
  expectedPostconditionContractRefs : List String
  deriving DecidableEq

/-- The immutable canonical binding a transport action id points to. -/
structure CanonicalActionEnvelope where
  (envelopeId transportActionId : Uuid)
  sessionId : SessionId
  metadata : ActionEnvelopeMetadata
  deriving DecidableEq

end Localview
