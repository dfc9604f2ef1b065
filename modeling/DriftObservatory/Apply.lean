import DriftObservatory.Ledger

/-! Applying an evaluation outcome to the ledger, root-cause grouping and the operator actions. -/

namespace DriftObservatory

namespace FindingLedger

/-! ### Root-cause groups -/

def causeFor : DriftClass → RootCauseKind
  | .generationMismatch => .generationNotApplied
  | .partialApplication => .partialApplication
  | .sourceConflict => .sourceConflict
  | .staleObservation => .staleEvidence
  | .unknown => .insufficientCoverage
  | .unsupported => .unsupportedField
  | .intentMissing => .missingIntent
  | _ => .singleField

def causeFormsGroup (cause : RootCauseKind) (members : Nat) : Bool :=
  if 2 ≤ members then cause != .none
  else cause == .generationNotApplied || cause == .partialApplication

/-- The qualifier of a member, or its identity when it has none. -/
def memberQualifier (f : Finding) : Text :=
  if f.identity.qualifier.isSet then toHex f.identity.qualifier.bytes else toHex f.id.digest.bytes

def groupDiscriminator (members : List Finding) : Digest :=
  let qualifiers := ((members.map memberQualifier).insertionSort (· ≤ ·)).dedup
  hashBytes (lengthPrefixed (ascii "ndo/group-discriminator/v1") ++ bigEndian64 (UInt64.ofNat qualifiers.length) ++
    qualifiers.flatMap lengthPrefixed)

def groupIdentity (target : TargetId) (generation : IntentGeneration) (cause : RootCauseKind)
    (discriminator : Digest) : GroupId :=
  ⟨hashBytes (lengthPrefixed (ascii "ndo/root-cause-group/v1") ++ lengthPrefixed target.str ++
    bigEndian64 generation.value ++ lengthPrefixed cause.toText ++ discriminator.bytes)⟩

/-- The live findings of a target, in identity order. -/
def liveOf (L : FindingLedger) (target : TargetId) : List Finding :=
  L.findings.values.filter fun f => f.identity.target == target && f.isLive

/-- The bucket of a finding: its generation and its cause. -/
def bucketKey (f : Finding) : UInt64 ×ₗ Nat := toLex (f.baselineGeneration.value, (causeFor f.klass).rank)

/-- The live findings of a target by generation and cause. -/
def buckets (L : FindingLedger) (target : TargetId) : List (List Finding) :=
  (((L.liveOf target).map bucketKey).insertionSort (· ≤ ·)).dedup.map fun key =>
    (L.liveOf target).filter fun f => bucketKey f == key

/-- What the loop over the buckets carries. -/
structure GroupPass where
  groups : OrdMap GroupId RootCauseGroup
  produced : List GroupId := []
  assignment : OrdMap FindingId GroupId := ∅
  touched : Nat := 0

/-- The group a bucket stands for: its identity, cause and discriminator, when it forms one. -/
structure BucketGroup where
  id : GroupId
  generation : IntentGeneration
  epoch : FabricEpoch
  cause : RootCauseKind
  discriminator : Digest
  members : List Finding

def bucketGroup (target : TargetId) (bucket : List Finding) : Option BucketGroup :=
  match sortBy (fun a b => decide (a.id < b.id)) bucket with
  | [] => none
  | first :: rest =>
    let members := first :: rest
    let cause := causeFor first.klass
    if cause != .none && causeFormsGroup cause members.length then
      let discriminator := groupDiscriminator members
      some { id := groupIdentity target first.baselineGeneration cause discriminator
             generation := first.baselineGeneration
             epoch := first.baselineEpoch
             cause := cause
             discriminator := discriminator
             members := members }
    else none

/-- The group with the members of this pass. -/
def refreshedGroup (target : TargetId) (now : NdoTime) (b : BucketGroup) (existing : Option RootCauseGroup) :
    RootCauseGroup :=
  let objects := ((b.members.map fun f => f.identity.object).insertionSort (· ≤ ·)).dedup
  let summary := boundedDetail (b.cause.toText ++ ascii " explains " ++ decimal b.members.length ++
    ascii " finding(s) on target " ++ target.str)
  match existing with
  | none =>
    { id := b.id, target := target, baselineGeneration := b.generation, baselineEpoch := b.epoch, cause := b.cause
      discriminator := b.discriminator, members := b.members.map Finding.id, objects := objects, summary := summary
      observationCount := { value := 1 }, firstSeen := now, lastSeen := now }
  | some group =>
    { group with
      lastSeen := now, observationCount := group.observationCount.next, members := b.members.map Finding.id
      objects := objects, summary := summary }

/-- One round of the loop over the buckets; `none` when a new group would exceed the envelope. -/
def refreshBucket (limits : RuntimeLimits) (target : TargetId) (now : NdoTime) (pass : GroupPass) (b : BucketGroup) :
    Option GroupPass :=
  let existing := pass.groups.find? b.id
  if existing.isNone && limits.maxGroups ≤ pass.groups.size then none
  else
    some { groups := pass.groups.insert b.id (refreshedGroup target now b existing)
           produced := pass.produced ++ [b.id]
           assignment := b.members.foldl (fun m f => m.insert f.id b.id) pass.assignment
           touched := pass.touched + 1 }

/-- The loop over the buckets, which stops at the first group beyond the envelope. -/
def refreshBuckets (limits : RuntimeLimits) (target : TargetId) (now : NdoTime) :
    List BucketGroup → GroupPass → Bool × GroupPass
  | [], pass => (true, pass)
  | b :: rest, pass => match refreshBucket limits target now pass b with
    | none => (false, pass)
    | some next => refreshBuckets limits target now rest next

/-- Gives a live finding of the target its group, or takes it away. -/
def assignGroup (target : TargetId) (now : NdoTime) (assignment : OrdMap FindingId GroupId) (f : Finding) :
    Finding × List TimelineEntry :=
  if f.identity.target == target && f.isLive then
    match assignment.find? f.id with
    | some group =>
      if f.group = group then (f, [])
      else
        let f := { f with group := group, groupCause := causeFor f.klass }
        let event := f.event .grouped now .none
          (boundedDetail (ascii "attributed to root-cause group " ++ group.digest.toShortHex))
        (f.push event, [event])
    | none => ({ f with group := default, groupCause := causeFor f.klass }, [])
  else (f, [])

def groupEnvelopeExceeded : Status :=
  .limit .limitObjectsExceeded (ascii "root-cause group count exceeds the envelope")

/-- The bucket groups of a target in this pass. -/
def bucketGroups (L : FindingLedger) (target : TargetId) : List BucketGroup :=
  (L.buckets target).filterMap (bucketGroup target)

def refreshGroups (L : FindingLedger) (target : TargetId) (now : NdoTime) (report : LedgerApplyReport) :
    Status × FindingLedger × LedgerApplyReport :=
  let (done, pass) := refreshBuckets L.limits target now (L.bucketGroups target) { groups := L.groups }
  let report := { report with groupsTouched := report.groupsTouched + pass.touched }
  let L := { L with groups := pass.groups }
  if !done then (groupEnvelopeExceeded, L, report)
  else
    let L := L.sweep (assignGroup target now pass.assignment)
    (.okay, { L with groups := L.groups.filter fun id group => !(group.target == target && !pass.produced.contains id) },
      report)

/-! ### Suppression expiry -/

section Apply
variable [DoubleChars]

def suppressionExpires (now : NdoTime) (f : Finding) : Bool :=
  f.suppression.isSome && f.suppressionExpiresAt.any (· ≤ now)

def expireFinding (limits : RuntimeLimits) (now : NdoTime) (f : Finding) : Finding × List TimelineEntry :=
  if suppressionExpires now f then
    let expiredAt := f.suppressionExpiresAt.getD default
    let f := f.clearSuppression
    let event := f.event .suppressionExpired now .suppressionExpired
      (boundedDetail (ascii "suppression expired at " ++ formatTime expiredAt))
    ((f.push event).recomputeSummary limits, [event])
  else (f, [])

def expireSuppressions (L : FindingLedger) (now : NdoTime) : FindingLedger :=
  let expired := L.findings.values.countP (suppressionExpires now)
  let L' := { L.sweep (expireFinding L.limits now) with
    suppressionsActive := L.suppressionsActive - expired
    suppressionsExpired := L.suppressionsExpired + expired }
  if 0 < expired then L'.bumpRevision else L'

/-! ### Drafts -/

/-- The finding a new draft becomes, its creation event and whether policy suppresses it. -/
def createFinding (limits : RuntimeLimits) (outcome : EvaluationOutcome) (policy : ObservatoryPolicy) (now : NdoTime)
    (freshness : FreshnessState) (id : FindingId) (draft : FindingDraft) : Finding × TimelineEntry × Bool :=
  let f : Finding := {
    id := id, identity := draft.identity, klass := draft.klass, rawClass := draft.rawClass
    severity := draft.severity, state := .open, reason := draft.reason
    baselineGeneration := draft.baselineGeneration, baselineEpoch := draft.baselineEpoch
    baselineAuthority := draft.baselineAuthority, policy := outcome.policy, policyDigest := outcome.policyDigest
    hasIntended := draft.intended.isSome, intended := draft.intended.getD .makeNull
    hasObserved := draft.observed.isSome, observed := draft.observed.getD .makeNull, evidence := draft.evidence
    evidenceFreshness := freshness, observationCount := { value := 1 }, firstSeen := now, lastSeen := now
    lastEvaluated := now, complianceRelevant := draft.complianceRelevant }
  match policy.findSuppression draft.target draft.object draft.path draft.klass draft.severity now with
  | some rule =>
    let f := { f with
      state := .suppressed, suppressionOrigin := .policy, suppression := some rule.id, suppressedBy := rule.author
      suppressionReason := rule.reason, suppressionExpiresAt := rule.expiresAt }
    let event := { f.event .suppressed now .suppressedByPolicy
      (boundedDetail (ascii "suppressed by policy rule " ++ rule.id.str ++ ascii ": " ++ rule.reason)) with
      evidenceDigest := f.evidenceDigest }
    ((f.push event).recomputeSummary limits, event, true)
  | none =>
    let event := { f.event .created now .findingCreated
      (boundedDetail (ascii "finding created: " ++ draft.reason.toText)) with evidenceDigest := f.evidenceDigest }
    ((f.push event).recomputeSummary limits, event, false)

/-- The draft's data on an existing finding. -/
def absorbDraft (outcome : EvaluationOutcome) (now : NdoTime) (freshness : FreshnessState) (draft : FindingDraft)
    (f : Finding) : Finding :=
  { f with
    klass := draft.klass, rawClass := draft.rawClass, severity := draft.severity, reason := draft.reason
    baselineGeneration := draft.baselineGeneration, baselineEpoch := draft.baselineEpoch
    baselineAuthority := draft.baselineAuthority, policy := outcome.policy, policyDigest := outcome.policyDigest
    hasIntended := draft.intended.isSome, intended := draft.intended.getD .makeNull
    hasObserved := draft.observed.isSome, observed := draft.observed.getD .makeNull, evidence := draft.evidence
    evidenceFreshness := freshness, complianceRelevant := draft.complianceRelevant
    lastSeen := now, lastEvaluated := now, observationCount := f.observationCount.next }

/-- Records that an existing finding was drafted again: reopened, changed or unchanged. -/
def reopenOrUpdate (now : NdoTime) (before f : Finding) : Finding × List TimelineEntry :=
  if !before.isLive then
    let f := { f with
      state := .open, resolvedAt := default, resolutionConfirmations := 0, reopenCount := f.reopenCount + 1 }
    let event := { f.event .reopened now .findingReopened
      (boundedDetail (ascii "drift is present again under the current baseline")) with
      evidenceDigest := f.evidenceDigest }
    (f.push event, [event])
  else if f.severity ≠ before.severity || f.evidenceFreshness ≠ before.evidenceFreshness ||
      f.hasObserved ≠ before.hasObserved || !f.observed.beq before.observed then
    let event := { f.event .updated now .findingUpdated
      (boundedDetail (ascii "evidence changed: " ++ f.reason.toText)) with evidenceDigest := f.evidenceDigest }
    (f.push event, [event])
  else (f, [])

/-- Ends a policy suppression whose rule no longer applies. -/
def lapsePolicySuppression (policy : ObservatoryPolicy) (now : NdoTime) (f : Finding) : Finding × List TimelineEntry :=
  if f.suppression.isSome && f.suppressionOrigin == .policy &&
      (policy.findSuppression f.identity.target f.identity.object f.identity.path f.klass f.severity now).isNone then
    let f := f.clearSuppression
    let event := f.event .suppressionExpired now .suppressionExpired
      (ascii "the governing suppression no longer applies")
    (f.push event, [event])
  else (f, [])

def updateFinding (limits : RuntimeLimits) (outcome : EvaluationOutcome) (policy : ObservatoryPolicy) (now : NdoTime)
    (freshness : FreshnessState) (draft : FindingDraft) (before : Finding) : Finding × List TimelineEntry :=
  let (f, events) := reopenOrUpdate now before (absorbDraft outcome now freshness draft before)
  let (f, lapsed) := lapsePolicySuppression policy now f
  (f.recomputeSummary limits, events ++ lapsed)

/-- The drafts of a target by finding identity; the first of two equal identities stays. -/
def draftMap (drafts : List FindingDraft) : OrdMap FindingId FindingDraft :=
  drafts.foldl (fun m d => if m.contains d.identity.computeId then m else m.insert d.identity.computeId d) ∅

def applyDraft (outcome : EvaluationOutcome) (policy : ObservatoryPolicy) (now : NdoTime) (freshness : FreshnessState)
    (acc : FindingLedger × LedgerApplyReport) (entry : FindingId × FindingDraft) : FindingLedger × LedgerApplyReport :=
  let (L, report) := acc
  let (id, draft) := entry
  match L.findings.find? id with
  | none =>
    let (f, event, suppressed) := createFinding L.limits outcome policy now freshness id draft
    ({ L with findings := L.findings.insert id f }.appendTimeline event,
      { report with
        created := report.created + 1
        createdIds := report.createdIds ++ [id]
        suppressed := if suppressed then report.suppressed + 1 else report.suppressed })
  | some before =>
    let (f, events) := updateFinding L.limits outcome policy now freshness draft before
    ({ L with
        findings := L.findings.insert id f
        resolutionStreak := L.resolutionStreak.insert id 0 }.appendAll events,
      { report with
        updated := report.updated + 1
        reopened := if before.isLive then report.reopened else report.reopened + 1 })

def applyDrafts (outcome : EvaluationOutcome) (policy : ObservatoryPolicy) (now : NdoTime) (freshness : FreshnessState)
    (drafts : OrdMap FindingId FindingDraft) (L : FindingLedger) (report : LedgerApplyReport) :
    FindingLedger × LedgerApplyReport :=
  drafts.entries.foldl (applyDraft outcome policy now freshness) (L, report)

/-! ### Findings that were not drafted -/

/-- The live findings of the target that this evaluation did not draft. -/
def undrafted (L : FindingLedger) (target : TargetId) (drafts : OrdMap FindingId FindingDraft) : List FindingId :=
  (L.findings.entries.filter fun e =>
    e.2.identity.target == target && e.2.isLive && !drafts.contains e.1).map Prod.fst

/-- Another finding drafted in this pass explains the same location at the same generation. -/
def reclassified (L : FindingLedger) (drafts : OrdMap FindingId FindingDraft) (f : Finding) : Bool :=
  drafts.keys.any fun id => (L.findings.find? id).any fun other =>
    other.identity.object == f.identity.object && other.identity.path == f.identity.path &&
      other.baselineGeneration == f.baselineGeneration

/-- What the loop over the undrafted findings carries. -/
structure SettlePass where
  ledger : FindingLedger
  report : LedgerApplyReport
  drops : List GroupId := []

def supersedeFinding (now : NdoTime) (f : Finding) : Finding × TimelineEntry :=
  let f : Finding := { f with state := .superseded, reason := .findingReclassified, lastEvaluated := now }
  let f := if f.group.isSet then f.clearGroup else f
  let event := f.event .reclassified now .findingReclassified
    (ascii "the same location is now explained by a differently classified finding")
  (f.push event, event)

def resolveFinding (limits : RuntimeLimits) (now : NdoTime) (streak : Nat) (f : Finding) : Finding × TimelineEntry :=
  let f : Finding := { f with
    state := .resolved, reason := .findingResolved, resolvedAt := now, lastEvaluated := now
    resolutionConfirmations := streak }
  let f := (if f.group.isSet then f.clearGroup else f).recomputeSummary limits
  let event := f.event .resolved now .findingResolved
    (boundedDetail (ascii "fresh evidence agreed with intent for " ++ decimal streak ++ ascii " evaluation(s)"))
  (f.push event, event)

def groupOf (f : Finding) : List GroupId := if f.group.isSet then [f.group] else []

/-- The consecutive agreements a resolution needs. -/
def requiredConfirmations (outcome : EvaluationOutcome) : Nat := max 1 outcome.resolutionConfirmations.toNat

def settleFinding (outcome : EvaluationOutcome) (now : NdoTime) (decidable : Bool)
    (drafts : OrdMap FindingId FindingDraft) (pass : SettlePass) (id : FindingId) : SettlePass :=
  match pass.ledger.findings.find? id with
  | none => pass
  | some f =>
    let L := pass.ledger
    if !decidable then { pass with report := { pass.report with unchanged := pass.report.unchanged + 1 } }
    else if L.reclassified drafts f then
      let (f', event) := supersedeFinding now f
      { ledger := { L with findings := L.findings.insert id f' }.appendTimeline event
        report := { pass.report with superseded := pass.report.superseded + 1 }
        drops := pass.drops ++ groupOf f }
    else
      let streak := (L.resolutionStreak.find? id).getD 0 + 1
      let L := { L with resolutionStreak := L.resolutionStreak.insert id streak }
      if requiredConfirmations outcome ≤ streak then
        let (f', event) := resolveFinding L.limits now streak f
        { ledger := { L with findings := L.findings.insert id f' }.appendTimeline event
          report := { pass.report with
            resolved := pass.report.resolved + 1, resolvedIds := pass.report.resolvedIds ++ [id] }
          drops := pass.drops ++ groupOf f }
      else
        { pass with
          ledger := { L with findings := L.findings.insert id { f with resolutionConfirmations := streak } }
          report := { pass.report with unchanged := pass.report.unchanged + 1 } }

def settleUndrafted (outcome : EvaluationOutcome) (now : NdoTime) (decidable : Bool) (target : TargetId)
    (drafts : OrdMap FindingId FindingDraft) (L : FindingLedger) (report : LedgerApplyReport) : SettlePass :=
  (L.undrafted target drafts).foldl (settleFinding outcome now decidable drafts) { ledger := L, report := report }

/-! ### ApplyEvaluation -/

/-- Phase two for one accepted target. The groups left by settled findings are dropped last. -/
def applyTarget (outcome : EvaluationOutcome) (policy : ObservatoryPolicy) (now : NdoTime) (L : FindingLedger)
    (report : LedgerApplyReport) (e : TargetEvaluation) : Status × FindingLedger × LedgerApplyReport :=
  let drafts := draftMap e.drafts
  let (L, report) := applyDrafts outcome policy now e.bestFreshness drafts L report
  let pass := settleUndrafted outcome now e.complianceDecidable e.target drafts L report
  let (status, L, report) := pass.ledger.refreshGroups e.target now pass.report
  if !status.ok then (status, L, report) else (.okay, L.dropGroups pass.drops, report)

/-- The loop over the accepted targets, with its early return. -/
def applyTargets (outcome : EvaluationOutcome) (policy : ObservatoryPolicy) (now : NdoTime) :
    List TargetEvaluation → FindingLedger → LedgerApplyReport → Status × FindingLedger × LedgerApplyReport
  | [], L, report => (.okay, L, report)
  | e :: rest, L, report =>
    let (status, L, report) := applyTarget outcome policy now L report e
    if !status.ok then (status, L, report) else applyTargets outcome policy now rest L report

/-- The fence: the baseline the evaluation was computed against is still the committed one. -/
def accepts (L : FindingLedger) (e : TargetEvaluation) : Bool :=
  match L.findBaseline e.target with
  | none => !e.hasBaseline
  | some current => e.hasBaseline && current.generation == e.baselineGeneration

/-- The drafts of the accepted targets that name no finding yet. -/
def newFindings (L : FindingLedger) (targets : List TargetEvaluation) : Nat :=
  ((targets.filter L.accepts).map fun e =>
    e.drafts.countP fun d => !L.findings.contains d.identity.computeId).sum

def findingEnvelopeExceeded : Status :=
  .limit .limitFindingsExceeded (ascii "applying this evaluation would exceed the finding envelope")

def applyEvaluation (L : FindingLedger) (outcome : EvaluationOutcome) (policy : ObservatoryPolicy) (now : NdoTime) :
    Status × FindingLedger × LedgerApplyReport :=
  let accepted := outcome.targets.filter L.accepts
  let report : LedgerApplyReport := { fencedTargets := outcome.targets.length - accepted.length }
  if L.limits.maxFindings < L.findings.size + L.newFindings outcome.targets then
    (findingEnvelopeExceeded, L, report)
  else
    let (status, L, report) := applyTargets outcome policy now accepted L report
    if !status.ok then (status, L, report)
    else (.okay, (L.expireSuppressions now).bumpRevision.trimTimelineIfNeeded, report)

/-! ### Operator actions -/

/-- An operator action on one finding: the finding is replaced and the event recorded. -/
def actOn (L : FindingLedger) (id : FindingId) (f : Finding) (event : TimelineEntry) : FindingLedger :=
  ({ L with findings := L.findings.insert id ((f.push event).recomputeSummary L.limits) }.appendTimeline
    event).bumpRevision

def suppress (L : FindingLedger) (finding : FindingId) (actor : ActorId) (reason : Text) (expiresAt : Option NdoTime)
    (now : NdoTime) : Status × FindingLedger :=
  match L.findings.find? finding with
  | none => (.notFound .findingNotFound (ascii "no finding exists with the supplied identity"), L)
  | some f =>
    if actor.empty || !isValidIdentityText actor.str then
      (.rejected .encodingMalformed (ascii "suppression actor is invalid"), L)
    else if L.limits.maxSuppressions ≤ L.suppressionsActive && f.suppression.isNone then
      (.limit .limitFieldsExceeded (ascii "suppression count exceeds the envelope"), L)
    else
      let text := ascii "suppression/" ++ (toHex f.id.digest.bytes).take 24
      match StringId.tryParse text with
      | none => (⟨.internalError, .encodingMalformed, ascii "generated suppression identity is invalid"⟩, L)
      | some id =>
        let L := if f.suppression.isNone then { L with suppressionsActive := L.suppressionsActive + 1 } else L
        let f : Finding := { f with
          suppression := some id, suppressionOrigin := .operator, suppressedBy := actor
          suppressionReason := boundedDetail reason, suppressionExpiresAt := expiresAt
          state := if f.isLive then .suppressed else f.state }
        let event := { f.event .suppressed now .suppressedByOperator
          (boundedDetail (ascii "suppressed by " ++ actor.str ++ ascii ": " ++ f.suppressionReason)) with actor := actor }
        (.okay, L.actOn finding f event)

def clearSuppression (L : FindingLedger) (finding : FindingId) (actor : ActorId) (now : NdoTime) :
    Status × FindingLedger :=
  match L.findings.find? finding with
  | none => (.notFound .suppressionNotFound (ascii "no finding exists with that identity"), L)
  | some f =>
    if f.suppression.isNone then (.notFound .suppressionNotFound (ascii "the finding is not suppressed"), L)
    else
      let f := f.clearSuppression
      let event := { f.event .suppressionCleared now .none
        (ascii "suppression cleared; the underlying evidence is unchanged") with actor := actor }
      (.okay, { L with suppressionsActive := L.suppressionsActive - 1 }.actOn finding f event)

def acknowledge (L : FindingLedger) (finding : FindingId) (actor : ActorId) (reason : Text) (now : NdoTime) :
    Status × FindingLedger :=
  match L.findings.find? finding with
  | none => (.notFound .findingNotFound (ascii "no finding exists with that identity"), L)
  | some f =>
    if actor.empty || !isValidIdentityText actor.str then
      (.rejected .encodingMalformed (ascii "acknowledgement actor is invalid"), L)
    else
      let f : Finding := { f with
        acknowledgedBy := actor, acknowledgedAt := now, acknowledgementReason := boundedDetail reason
        state := if f.state = .open then .acknowledged else f.state }
      let event := { f.event .acknowledged now .acknowledgementRecorded
        (boundedDetail (ascii "acknowledged by " ++ actor.str ++ ascii ": " ++ f.acknowledgementReason)) with
        actor := actor }
      (.okay, L.actOn finding f event)

def clearAcknowledgement (L : FindingLedger) (finding : FindingId) (actor : ActorId) (now : NdoTime) :
    Status × FindingLedger :=
  match L.findings.find? finding with
  | none => (.notFound .findingNotFound (ascii "no finding exists with that identity"), L)
  | some f =>
    if f.acknowledgedBy.empty then
      (.notFound .acknowledgementRecorded (ascii "the finding is not acknowledged"), L)
    else
      let f : Finding := { f with
        acknowledgedBy := default, acknowledgedAt := default, acknowledgementReason := []
        state := if f.state = .acknowledged then .open else f.state }
      let event := { f.event .acknowledgementCleared now .none (ascii "acknowledgement cleared") with actor := actor }
      (.okay, L.actOn finding f event)

end Apply

end FindingLedger

end DriftObservatory
