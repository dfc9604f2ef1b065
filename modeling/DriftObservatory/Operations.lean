import DriftObservatory.Engine
import DriftObservatory.Persistence

/-! The evaluation of a whole ledger in one call, the operations that change a ledger, and its restarts. -/

namespace DriftObservatory

namespace FindingLedger

/-! ### Evaluating a ledger -/

/-- The verdict on a retained observation in a one-shot evaluation. Unlike `verdictFor` it gives recovered evidence
    no age. -/
def verdictOnce (policy : ObservatoryPolicy) (epoch : FabricEpoch) (now : NdoTime) (target : TargetId)
    (o : RetainedObservation) : FreshnessVerdict :=
  if o.recovered then { state := .recoveredNotFresh, reason := .evidenceRecoveredNotFresh }
  else evaluateFreshness o.snapshot (Observatory.freshnessFor policy target) now epoch false

def comparisonInputOnce (policy : ObservatoryPolicy) (epoch : FabricEpoch) (now : NdoTime) (ledger : FindingLedger)
    (target : TargetId) : TargetComparisonInput where
  target := target
  baseline := ledger.findBaseline target
  snapshots := (ledger.observationsFor target).map fun o => some o.snapshot
  freshness := (ledger.observationsFor target).map (verdictOnce policy epoch now target)

def evaluateLedgerOnce (ledger : FindingLedger) (policy : ObservatoryPolicy) (limits : RuntimeLimits)
    (epoch : FabricEpoch) (incarnation : Incarnation) (now : NdoTime) : Except Status EvaluationOutcome :=
  let status := policy.validate limits
  if !status.ok then .error status
  else
    .ok {
      now := now
      epoch := epoch
      incarnation := incarnation
      policy := policy.id
      policyDigest := policy.computeDigest
      resolutionConfirmations := policy.resolutionConfirmations
      sequence := 0
      targets := (Observatory.evaluationTargets policy ledger).map fun target =>
        compareTarget (comparisonInputOnce policy epoch now ledger target) policy limits }

/-! ### Operations -/

/-- An operation on a ledger with its arguments; `evaluate` evaluates the ledger and applies the outcome. -/
inductive Operation
  | commitIntent (document : IntentGenerationDocument) (now : NdoTime)
  | recordObservation (snapshot : ObservationSnapshot) (verdict : FreshnessVerdict) (recovered : Bool)
  | evaluate (policy : ObservatoryPolicy) (limits : RuntimeLimits) (epoch : FabricEpoch) (incarnation : Incarnation)
      (now : NdoTime)
  | applyEvaluation (outcome : EvaluationOutcome) (policy : ObservatoryPolicy) (now : NdoTime)
  | invalidateRetainedEvidence (reason : ReasonCode) (now : NdoTime)
  | recordEvent (entry : TimelineEntry)
  | suppress (finding : FindingId) (actor : ActorId) (reason : Text) (expiresAt : Option NdoTime) (now : NdoTime)
  | clearSuppression (finding : FindingId) (actor : ActorId) (now : NdoTime)
  | acknowledge (finding : FindingId) (actor : ActorId) (reason : Text) (now : NdoTime)
  | clearAcknowledgement (finding : FindingId) (actor : ActorId) (now : NdoTime)
  | expireSuppressions (now : NdoTime)

/-- The operation is an operator's, not a part of detection. -/
def Operation.isOperator : Operation → Bool
  | .suppress .. | .clearSuppression .. | .acknowledge .. | .clearAcknowledgement .. | .expireSuppressions .. => true
  | _ => false

section Operate
variable [DoubleChars]

def evaluateAndApply (L : FindingLedger) (policy : ObservatoryPolicy) (limits : RuntimeLimits) (epoch : FabricEpoch)
    (incarnation : Incarnation) (now : NdoTime) : FindingLedger :=
  match L.evaluateLedgerOnce policy limits epoch incarnation now with
  | .error _ => L
  | .ok outcome => (L.applyEvaluation outcome policy now).2.1

/-- The ledger an operation leaves behind, also when it refuses. -/
def operate (L : FindingLedger) : Operation → FindingLedger
  | .commitIntent document now => (L.commitIntent document now).2.1
  | .recordObservation snapshot verdict recovered => (L.recordObservation snapshot verdict recovered).2.1
  | .evaluate policy limits epoch incarnation now => L.evaluateAndApply policy limits epoch incarnation now
  | .applyEvaluation outcome policy now => (L.applyEvaluation outcome policy now).2.1
  | .invalidateRetainedEvidence reason now => L.invalidateRetainedEvidence reason now
  | .recordEvent entry => L.recordEvent entry
  | .suppress finding actor reason expiresAt now => (L.suppress finding actor reason expiresAt now).2
  | .clearSuppression finding actor now => (L.clearSuppression finding actor now).2
  | .acknowledge finding actor reason now => (L.acknowledge finding actor reason now).2
  | .clearAcknowledgement finding actor now => (L.clearAcknowledgement finding actor now).2
  | .expireSuppressions now => L.expireSuppressions now

end Operate

/-- The evaluation outcome an operation computes. -/
def outcomeOf (L : FindingLedger) : Operation → Option (Except Status EvaluationOutcome)
  | .evaluate policy limits epoch incarnation now => some (L.evaluateLedgerOnce policy limits epoch incarnation now)
  | _ => none

/-! ### Restarts -/

/-- A step in the life of a ledger: an operation, or a restart that writes it and reads it back. -/
inductive LedgerStep
  | operate (op : Operation)
  | restart (limits : RuntimeLimits) (epoch : FabricEpoch) (incarnation : Incarnation) (liveEpoch : FabricEpoch)

def advance [DoubleChars] (L : FindingLedger) : LedgerStep → FindingLedger
  | .operate op => L.operate op
  | .restart limits epoch incarnation liveEpoch => L.recover limits epoch incarnation liveEpoch

end FindingLedger

end DriftObservatory
