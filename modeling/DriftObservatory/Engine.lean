import DriftObservatory.Apply

/-! The observatory engine: configuration, lifecycle flags, sources and the ledger behind one mutex. An evaluation
    takes the lock three times (to build its input, to copy the policy and to publish) and compares targets in
    between on worker threads that only read two atomic flags. -/

namespace DriftObservatory

/-! ### State -/

structure ObservatoryConfig where
  policy : ObservatoryPolicy := {}
  limits : RuntimeLimits := {}
  epoch : FabricEpoch := default
  incarnation : Incarnation := default
  evaluationWorkers : Nat := 1
  requireStarted : Bool := true
  requireRegisteredSources : Bool := false

structure SourceDescriptor where
  id : SourceId
  capabilities : SourceCapabilities
  registeredAt : NdoTime
  epoch : FabricEpoch
  incarnation : Incarnation
  provenance : Text
  evidence : EvidenceClass := .unknown

structure ObservatoryCounters where
  intentsAccepted : UInt64 := 0
  intentsRejected : UInt64 := 0
  intentsDuplicateIdentical : UInt64 := 0
  observationsAccepted : UInt64 := 0
  observationsRejected : UInt64 := 0
  observationsDuplicateIdentical : UInt64 := 0
  observationsSuperseded : UInt64 := 0
  evaluations : UInt64 := 0
  evaluationsCancelled : UInt64 := 0
  evaluationsFenced : UInt64 := 0
  findingsCreated : UInt64 := 0
  findingsResolved : UInt64 := 0
  findingsReopened : UInt64 := 0
  findingsSuppressed : UInt64 := 0
  acknowledgements : UInt64 := 0
  recoveries : UInt64 := 0
  policyChanges : UInt64 := 0

structure Observatory where
  config : ObservatoryConfig
  ledger : FindingLedger
  sources : OrdMap SourceId SourceDescriptor := ∅
  evaluationSequence : Nat := 0
  started : Bool := false
  cancelled : Bool := false
  stopping : Bool := false
  activeEvaluations : Nat := 0
  counters : ObservatoryCounters := {}

namespace Observatory

/-- A new observatory: at least one worker, and no more than the envelope allows. -/
def make (config : ObservatoryConfig) : Observatory where
  config := { config with
    evaluationWorkers :=
      let workers := if config.evaluationWorkers = 0 then 1 else config.evaluationWorkers
      if config.limits.maxEvaluationWorkers < workers then config.limits.maxEvaluationWorkers else workers }
  ledger := { limits := config.limits }

/-! ### Lifecycle -/

def start (o : Observatory) : Status × Observatory :=
  if o.started then (.precondition .none (ascii "the observatory is already started"), o)
  else if !o.config.epoch.isSet || !o.config.incarnation.isSet then
    (.rejected .fencedStaleEpoch (ascii "the observatory requires an explicit epoch and incarnation"), o)
  else
    let status := o.config.policy.validate o.config.limits
    if !status.ok then (status, o)
    else if o.config.policy.evidence = .unknown then
      (.rejected .encodingMalformed (ascii "policy must declare its evidence class"), o)
    else
      (.okay, { o with
        ledger := { o.ledger with limits := o.config.limits }
        started := true, stopping := false, cancelled := false })

/-- The part of `Stop` that raises the flag; the wait for the evaluations in flight changes nothing. -/
def stop (o : Observatory) : Observatory := { o with stopping := true, started := false }

def rotateIncarnation (o : Observatory) (nextIncarnation : Incarnation) (nextEpoch : FabricEpoch) (now : NdoTime) :
    Status × Observatory :=
  if !nextIncarnation.isSet then
    (.rejected .fencedStaleIncarnation (ascii "the new incarnation must be positive"), o)
  else if nextIncarnation ≤ o.config.incarnation then
    (.rejected .fencedStaleIncarnation
      (ascii "the new incarnation must be strictly greater than the current one"), o)
  else if nextEpoch < o.config.epoch then
    (.rejected .fencedStaleEpoch (ascii "the new epoch must not be older than the current one"), o)
  else
    (.okay, { o with
      config := { o.config with incarnation := nextIncarnation, epoch := nextEpoch }
      ledger := o.ledger.invalidateRetainedEvidence .evidenceRecoveredNotFresh now
      counters := { o.counters with recoveries := o.counters.recoveries + 1 } })

def requestCancellation (o : Observatory) : Observatory := { o with cancelled := true }

def clearCancellation (o : Observatory) : Observatory := { o with cancelled := false }

/-- `Load` and `DecodeState` once the new ledger is decoded. -/
def replaceLedger (o : Observatory) (decoded : FindingLedger) : Observatory :=
  { o with ledger := decoded, counters := { o.counters with recoveries := o.counters.recoveries + 1 } }

/-! ### Ingestion -/

def registerSource (o : Observatory) (descriptor : SourceDescriptor) : Status × Observatory :=
  if descriptor.id.empty || !isValidIdentityText descriptor.id.str then
    (.rejected .encodingMalformed (ascii "source identity is invalid"), o)
  else if !descriptor.incarnation.isSet || !descriptor.epoch.isSet then
    (.rejected .fencedStaleIncarnation (ascii "source must declare its epoch and incarnation"), o)
  else
    let admitted := { o with sources := o.sources.insert descriptor.id descriptor }
    match o.sources.find? descriptor.id with
    | some existing =>
      if descriptor.incarnation < existing.incarnation then
        (.stale .fencedStaleIncarnation (ascii "source incarnation regressed; the registration is refused"), o)
      else (.okay, admitted)
    | none =>
      if o.config.limits.maxSources ≤ o.sources.size then
        (.limit .limitObjectsExceeded (ascii "source count exceeds the envelope"), o)
      else (.okay, admitted)

def notStarted : Status := .precondition .none (ascii "the observatory is not started")

section Operations
variable [DoubleChars]

def publishIntent (o : Observatory) (document : IntentGenerationDocument) (stamp : NdoTime) :
    Status × Observatory × IntentCommitReport :=
  if o.config.requireStarted && !o.started then (notStarted, o, {})
  else if document.epoch ≠ o.config.epoch then
    (.stale .fencedStaleEpoch (ascii "intent was authored under a different epoch"), o, {})
  else
    let (status, ledger, report) := o.ledger.commitIntent document stamp
    if !status.ok then
      (status, { o with
        ledger := ledger, counters := { o.counters with intentsRejected := o.counters.intentsRejected + 1 } }, report)
    else if report.duplicateIdentical then
      (.okay, { o with
        ledger := ledger
        counters := { o.counters with
          intentsDuplicateIdentical := o.counters.intentsDuplicateIdentical + 1 } }, report)
    else
      (.okay, { o with
        ledger := ledger, counters := { o.counters with intentsAccepted := o.counters.intentsAccepted + 1 } }, report)

end Operations

/-- The freshness rules of a policy for a target. -/
def freshnessFor (policy : ObservatoryPolicy) (target : TargetId) : FreshnessPolicy :=
  { policy.freshness with ttlNanos := policy.ttlFor target kTargetScopeObjectId [] }

def ingestObservation (o : Observatory) (snapshot : ObservationSnapshot) (receiveTime : NdoTime) :
    Status × Observatory × ObservationAdmission :=
  if o.config.requireStarted && !o.started then (notStarted, o, {})
  else
    let snapshot := { snapshot with receivedAt := receiveTime }
    let rejected := { o with
      counters := { o.counters with observationsRejected := o.counters.observationsRejected + 1 } }
    if o.config.requireRegisteredSources && !o.sources.contains snapshot.source then
      (.notFound .authorityMismatch (ascii "the observation source is not registered"), rejected, {})
    else
      let verdict := evaluateFreshness snapshot (freshnessFor o.config.policy snapshot.target) receiveTime
        o.config.epoch false
      let (status, ledger, report) := o.ledger.recordObservation snapshot verdict false
      if !status.ok then (status, { rejected with ledger := ledger }, report)
      else if report.duplicateIdentical then
        (.okay, { o with
          ledger := ledger
          counters := { o.counters with
            observationsDuplicateIdentical := o.counters.observationsDuplicateIdentical + 1 } }, report)
      else
        (.okay, { o with
          ledger := ledger
          counters := { o.counters with
            observationsAccepted := o.counters.observationsAccepted + 1
            observationsSuperseded :=
              if report.supersededOlder then o.counters.observationsSuperseded + 1
              else o.counters.observationsSuperseded } }, report)

/-! ### Policy -/

/-- The timeline entry about an installed policy. -/
def policyEvent (previous : Digest) (policy : ObservatoryPolicy) (now : NdoTime) : TimelineEntry where
  kind := .updated
  target := ⟨ascii "policy"⟩
  object := ⟨ascii "policy"⟩
  at_ := now
  stateAfter := .open
  klass := .none
  severity := .info
  reason := .none
  baselineGeneration := default
  baselineEpoch := default
  detail := ascii "policy " ++ policy.id.str ++ ascii " installed; previous digest " ++ previous.toShortHex

def setPolicy (o : Observatory) (policy : ObservatoryPolicy) (now : NdoTime) : Status × Observatory :=
  let status := policy.validate o.config.limits
  if !status.ok then (status, o)
  else
    (.okay, { o with
      config := { o.config with policy := policy }
      counters := { o.counters with policyChanges := o.counters.policyChanges + 1 }
      ledger := o.ledger.recordEvent (policyEvent o.config.policy.computeDigest policy now) })

/-! ### Operator actions -/

section Operators
variable [DoubleChars]

def suppressFinding (o : Observatory) (finding : FindingId) (actor : ActorId) (reason : Text)
    (expiresAt : Option NdoTime) (now : NdoTime) : Status × Observatory :=
  let (status, ledger) := o.ledger.suppress finding actor reason expiresAt now
  (status, { o with
    ledger := ledger
    counters := if status.ok then { o.counters with findingsSuppressed := o.counters.findingsSuppressed + 1 }
      else o.counters })

def clearSuppression (o : Observatory) (finding : FindingId) (actor : ActorId) (now : NdoTime) :
    Status × Observatory :=
  let (status, ledger) := o.ledger.clearSuppression finding actor now
  (status, { o with ledger := ledger })

def acknowledgeFinding (o : Observatory) (finding : FindingId) (actor : ActorId) (reason : Text) (now : NdoTime) :
    Status × Observatory :=
  let (status, ledger) := o.ledger.acknowledge finding actor reason now
  (status, { o with
    ledger := ledger
    counters := if status.ok then { o.counters with acknowledgements := o.counters.acknowledgements + 1 }
      else o.counters })

def clearAcknowledgement (o : Observatory) (finding : FindingId) (actor : ActorId) (now : NdoTime) :
    Status × Observatory :=
  let (status, ledger) := o.ledger.clearAcknowledgement finding actor now
  (status, { o with ledger := ledger })

def expireSuppressions (o : Observatory) (now : NdoTime) : Observatory :=
  { o with ledger := o.ledger.expireSuppressions now }

end Operators

/-! ### Evaluation -/

/-- What an evaluation copies under the lock. -/
structure EvaluationInput where
  now : NdoTime
  epoch : FabricEpoch
  incarnation : Incarnation
  policy : PolicyId
  policyDigest : Digest
  resolutionConfirmations : UInt32
  sequence : Nat
  targets : List TargetComparisonInput

/-- The verdict on a retained observation; recovered evidence is never fresh. -/
def verdictFor (policy : ObservatoryPolicy) (epoch : FabricEpoch) (now : NdoTime) (target : TargetId)
    (o : RetainedObservation) : FreshnessVerdict :=
  if o.recovered then
    { state := .recoveredNotFresh, reason := .evidenceRecoveredNotFresh
      ageNanos := (tryDifference now o.snapshot.collectedAt).getD 0 }
  else evaluateFreshness o.snapshot (freshnessFor policy target) now epoch false

def comparisonInput (policy : ObservatoryPolicy) (epoch : FabricEpoch) (now : NdoTime) (ledger : FindingLedger)
    (target : TargetId) : TargetComparisonInput where
  target := target
  baseline := ledger.findBaseline target
  snapshots := (ledger.observationsFor target).map fun o => some o.snapshot
  freshness := (ledger.observationsFor target).map (verdictFor policy epoch now target)

/-- The flat stores that the comparisons of an evaluation point into. -/
structure EvidenceStorage where
  snapshots : List ObservationSnapshot := []
  verdicts : List FreshnessVerdict := []

/-- The first pass over the targets: the stores take the observations of each in turn. -/
def storeEvidence (verdict : TargetId → RetainedObservation → FreshnessVerdict) (ledger : FindingLedger)
    (targets : List TargetId) : EvidenceStorage :=
  targets.foldl (fun storage target =>
    (ledger.observationsFor target).foldl (fun storage o =>
      { snapshots := storage.snapshots ++ [o.snapshot], verdicts := storage.verdicts ++ [verdict target o] }) storage) {}

/-- The second pass: each comparison gets as many entries from the cursor on as its target has observations. A read
    past the end of a store is `none`. -/
def attachStored (storage : EvidenceStorage) (ledger : FindingLedger) :
    Nat → List TargetId → Option (List TargetComparisonInput)
  | _, [] => some []
  | cursor, target :: rest => do
    let count := (ledger.observationsFor target).length
    let snapshots ← (List.range count).mapM fun index => storage.snapshots[cursor + index]?
    let verdicts ← (List.range count).mapM fun index => storage.verdicts[cursor + index]?
    let comparisons ← attachStored storage ledger (cursor + count) rest
    return { target := target, baseline := ledger.findBaseline target
             snapshots := snapshots.map some, freshness := verdicts } :: comparisons

def storedInputs (verdict : TargetId → RetainedObservation → FreshnessVerdict) (ledger : FindingLedger)
    (targets : List TargetId) : Option (List TargetComparisonInput) :=
  attachStored (storeEvidence verdict ledger targets) ledger 0 targets

/-- The targets of an evaluation: everything the ledger knows and everything the policy requires. -/
def evaluationTargets (policy : ObservatoryPolicy) (ledger : FindingLedger) : List TargetId :=
  ((ledger.targets ++ policy.requiredTargets).insertionSort (· ≤ ·)).dedup

def buildEvaluationInput (o : Observatory) (now : NdoTime) : EvaluationInput where
  now := now
  epoch := o.config.epoch
  incarnation := o.config.incarnation
  policy := o.config.policy.id
  policyDigest := o.config.policy.computeDigest
  resolutionConfirmations := o.config.policy.resolutionConfirmations
  sequence := o.evaluationSequence + 1
  targets := (evaluationTargets o.config.policy o.ledger).map
    (comparisonInput o.config.policy o.config.epoch now o.ledger)

/-- The first critical section of `EvaluateAt`. -/
def admitEvaluation (o : Observatory) (now : NdoTime) : Except Status EvaluationInput × Observatory :=
  if o.config.requireStarted && !o.started then (.error notStarted, o)
  else if o.cancelled then
    (.error ⟨.cancelled, .none, ascii "cancellation is requested"⟩,
      { o with counters := { o.counters with evaluationsCancelled := o.counters.evaluationsCancelled + 1 } })
  else (.ok (o.buildEvaluationInput now), { o with activeEvaluations := o.activeEvaluations + 1 })

/-- The outcome of an evaluation from its input and the compared targets. -/
def EvaluationInput.outcome (input : EvaluationInput) (targets : List TargetEvaluation) : EvaluationOutcome where
  now := input.now
  epoch := input.epoch
  incarnation := input.incarnation
  policy := input.policy
  policyDigest := input.policyDigest
  resolutionConfirmations := input.resolutionConfirmations
  sequence := input.sequence
  targets := targets

/-- The last critical section of an evaluation: publish the outcome or refuse it. -/
def publishEvaluation [DoubleChars] (o : Observatory) (input : EvaluationInput) (policy : ObservatoryPolicy)
    (targets : List TargetEvaluation) (apply : Bool) : Except Status EvaluationOutcome × Observatory :=
  let o := { o with activeEvaluations := o.activeEvaluations - 1 }
  let cancelled := { o with
    counters := { o.counters with evaluationsCancelled := o.counters.evaluationsCancelled + 1 } }
  if o.cancelled then
    (.error ⟨.cancelled, .none, ascii "the evaluation was cancelled; no outcome was published"⟩, cancelled)
  else if o.stopping || (o.config.requireStarted && !o.started) then
    (.error ⟨.cancelled, .none, ascii "the observatory stopped before the outcome was published"⟩, cancelled)
  else if input.epoch ≠ o.config.epoch ∨ input.incarnation ≠ o.config.incarnation then
    (.error (.stale .fencedStaleEpoch
        (ascii "the epoch or incarnation changed while the evaluation was running")),
      { o with counters := { o.counters with evaluationsFenced := o.counters.evaluationsFenced + 1 } })
  else
    let outcome := input.outcome targets
    if apply then
      let (status, ledger, report) := o.ledger.applyEvaluation outcome policy input.now
      if !status.ok then (.error status, { o with ledger := ledger })
      else
        (.ok outcome, { o with
          ledger := ledger
          counters := { o.counters with
            findingsCreated := o.counters.findingsCreated + UInt64.ofNat report.created
            findingsResolved := o.counters.findingsResolved + UInt64.ofNat report.resolved
            findingsReopened := o.counters.findingsReopened + UInt64.ofNat report.reopened
            findingsSuppressed := o.counters.findingsSuppressed + UInt64.ofNat report.suppressed
            evaluations := o.counters.evaluations + 1 } })
    else (.ok outcome, { o with counters := { o.counters with evaluations := o.counters.evaluations + 1 } })

end Observatory

end DriftObservatory
