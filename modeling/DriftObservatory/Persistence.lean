import DriftObservatory.Interchange
import DriftObservatory.Ledger

/-! The durable form of a ledger: a header, and a JSON payload under a digest. Recovery is all or nothing, and what it
    restores is never current. -/

namespace DriftObservatory

open Json

def FindingState.all : List FindingState := [.open, .acknowledged, .suppressed, .resolved, .superseded, .retired]

def FindingState.tryParse (text : Text) : Option FindingState := parseName all toText (cString text)

def SuppressionOrigin.all : List SuppressionOrigin := [.none, .policy, .operator]

def SuppressionOrigin.tryParse (text : Text) : Option SuppressionOrigin := parseName all toText (cString text)

def TimelineEventKind.all : List TimelineEventKind :=
  [.created, .updated, .reopened, .resolved, .suppressed, .suppressionExpired, .suppressionCleared, .acknowledged,
    .acknowledgementCleared, .reclassified, .rebased, .evidenceRecovered, .grouped, .retired]

def TimelineEventKind.tryParse (text : Text) : Option TimelineEventKind := parseName all toText (cString text)

def RootCauseKind.all : List RootCauseKind :=
  [.none, .singleField, .generationNotApplied, .partialApplication, .sourceConflict, .staleEvidence,
    .insufficientCoverage, .missingIntent, .unsupportedField]

/-- Compared as a whole text, not as a C string. -/
def RootCauseKind.tryParse (text : Text) : Option RootCauseKind := parseName all toText text

/-- A 64-bit counter as a document holds it. -/
def makeCount (n : Nat) : Value := .makeUint (UInt64.ofNat n)

/-! ### Timeline entries -/

def encodeTimelineEntry (entry : TimelineEntry) : Value :=
  object [
    ("kind", .makeString entry.kind.toText),
    ("sequence", makeCount entry.sequence),
    ("at", .makeString (formatTime entry.at_)),
    ("state", .makeString entry.stateAfter.toText),
    ("class", .makeString entry.klass.toText),
    ("severity", .makeString entry.severity.toText),
    ("reason", .makeString entry.reason.toText),
    ("baseline_generation", .makeUint entry.baselineGeneration.value),
    ("baseline_epoch", .makeUint entry.baselineEpoch.value),
    ("evidence_digest", .makeString entry.evidenceDigest.toHex),
    ("actor", .makeString entry.actor.str),
    ("detail", .makeString entry.detail),
    ("target", .makeString entry.target.str),
    ("object", .makeString entry.object.str),
    ("finding", .makeString entry.finding.toHexIfSet)]

def decodeTimelineEntry (v : Value) : Except Status TimelineEntry := do
  let what := "timeline entry"
  let map ← orRefuse (.rejected .ledgerDecodeFailed (ascii "timeline entry must be an object")) v.asMap
  checkMembers map ["kind", "sequence", "at", "state", "class", "severity", "reason", "baseline_generation",
    "baseline_epoch", "evidence_digest", "actor", "detail", "target", "object", "finding"] what
  let kind ← requireText map "kind" what TimelineEventKind.tryParse "is not recognized"
  let sequence ← requireUint map "sequence" what
  let at_ ← requireText map "at" what tryParseTime "is not an RFC 3339 timestamp"
  let stateAfter ← optionalText map "state" what FindingState.tryParse "is not recognized" .open
  let klass ← optionalText map "class" what DriftClass.tryParse "is not recognized" .none
  let severity ← optionalText map "severity" what Severity.tryParse "is not recognized" .medium
  let reason ← optionalText map "reason" what ReasonCode.tryParse "is not recognized" .none
  let evidenceDigest ← optionalNonEmpty map "evidence_digest" what Digest.tryFromHex "is not a digest" Digest.zero
  let actor ← optionalNonEmpty map "actor" what StringId.tryParse "is not a valid identity" default
  let target ← optionalNonEmpty map "target" what StringId.tryParse "is not a valid identity" default
  let object ← optionalNonEmpty map "object" what StringId.tryParse "is not a valid identity" default
  let finding ← optionalNonEmpty map "finding" what DigestId.tryParse "is not a finding identity" default
  .ok {
    kind := kind
    target := target
    object := object
    finding := finding
    sequence := sequence.toNat
    at_ := at_
    stateAfter := stateAfter
    klass := klass
    severity := severity
    reason := reason
    baselineGeneration := ⟨(optionalUint map "baseline_generation").getD 0⟩
    baselineEpoch := ⟨(optionalUint map "baseline_epoch").getD 0⟩
    evidenceDigest := evidenceDigest
    actor := actor
    detail := (optionalString map "detail").getD [] }

/-! ### Evidence references -/

def encodeEvidenceRef (ref : EvidenceRef) : Value :=
  object [
    ("source", .makeString ref.source.str),
    ("snapshot", .makeString ref.snapshot.str),
    ("epoch", .makeUint ref.epoch.value),
    ("incarnation", .makeUint ref.incarnation.value),
    ("sequence", .makeUint ref.sequence.value),
    ("collected_at", .makeString (formatTime ref.collectedAt)),
    ("received_at", .makeString (formatTime ref.receivedAt)),
    ("freshness", .makeString ref.freshness.toText),
    ("coverage", .makeString ref.coverage.toText),
    ("evidence", .makeString ref.evidence.toText),
    ("content_digest", .makeString ref.contentDigest.toHex)]

def decodeEvidenceRef (v : Value) : Except Status EvidenceRef := do
  let what := "evidence reference"
  let map ← orRefuse (.rejected .ledgerDecodeFailed (ascii "evidence reference must be an object")) v.asMap
  checkMembers map ["source", "snapshot", "epoch", "incarnation", "sequence", "collected_at", "received_at",
    "freshness", "coverage", "evidence", "content_digest"] what
  let source ← requireText map "source" what StringId.tryParse "is not a valid identity"
  let snapshot ← requireText map "snapshot" what StringId.tryParse "is not a valid identity"
  let epoch ← requireUint map "epoch" what
  let incarnation ← requireUint map "incarnation" what
  let sequence ← requireUint map "sequence" what
  let collectedAt ← optionalText map "collected_at" what tryParseTime "is not an RFC 3339 timestamp" default
  let receivedAt ← optionalText map "received_at" what tryParseTime "is not an RFC 3339 timestamp" default
  let freshness ← optionalText map "freshness" what FreshnessState.tryParse "is not recognized" .unknown
  let coverage ← optionalText map "coverage" what ObservationCoverage.tryParse "is not recognized" .unknown
  let evidence ← optionalText map "evidence" what EvidenceClass.tryParse "is not recognized" .unknown
  let contentDigest ← optionalText map "content_digest" what Digest.tryFromHex "is not a digest" Digest.zero
  .ok {
    source := source
    snapshot := snapshot
    epoch := ⟨epoch⟩
    incarnation := ⟨incarnation⟩
    sequence := ⟨sequence⟩
    collectedAt := collectedAt
    receivedAt := receivedAt
    freshness := freshness
    contentDigest := contentDigest
    coverage := coverage
    evidence := evidence }

/-! ### Findings -/

def encodeFinding (f : Finding) : Value :=
  object [
    ("id", .makeString f.id.toHex),
    ("target", .makeString f.identity.target.str),
    ("object", .makeString f.identity.object.str),
    ("path", .makeString (FieldPath.toText f.identity.path)),
    ("class", .makeString f.klass.toText),
    ("raw_class", .makeString f.rawClass.toText),
    ("severity", .makeString f.severity.toText),
    ("state", .makeString f.state.toText),
    ("reason", .makeString f.reason.toText),
    ("baseline_generation", .makeUint f.baselineGeneration.value),
    ("baseline_epoch", .makeUint f.baselineEpoch.value),
    ("baseline_authority", .makeString f.baselineAuthority.toText),
    ("policy", .makeString f.policy.str),
    ("policy_digest", .makeString f.policyDigest.toHex),
    ("qualifier", .makeString f.identity.qualifier.toHex),
    ("has_intended", .makeBool f.hasIntended),
    ("intended", f.intended),
    ("has_observed", .makeBool f.hasObserved),
    ("observed", f.observed),
    ("evidence_freshness", .makeString f.evidenceFreshness.toText),
    ("group", .makeString f.group.toHexIfSet),
    ("group_cause", .makeString f.groupCause.toText),
    ("observation_count", .makeUint f.observationCount.value),
    ("reopen_count", .makeUint f.reopenCount),
    ("resolution_confirmations", .makeUint (UInt64.ofNat (f.resolutionConfirmations % 2 ^ 32))),
    ("first_seen", .makeString (formatTime f.firstSeen)),
    ("last_seen", .makeString (formatTime f.lastSeen)),
    ("last_evaluated", .makeString (formatTime f.lastEvaluated)),
    ("resolved_at", .makeString (formatTime f.resolvedAt)),
    ("suppression", .makeString ((f.suppression.map StringId.str).getD [])),
    ("suppression_origin", .makeString f.suppressionOrigin.toText),
    ("suppressed_by", .makeString f.suppressedBy.str),
    ("suppression_reason", .makeString f.suppressionReason),
    ("suppression_expires_at", .makeString ((f.suppressionExpiresAt.map formatTime).getD [])),
    ("acknowledged_by", .makeString f.acknowledgedBy.str),
    ("acknowledged_at", .makeString (formatTime f.acknowledgedAt)),
    ("acknowledgement_reason", .makeString f.acknowledgementReason),
    ("compliance_relevant", .makeBool f.complianceRelevant),
    ("summary", .makeString f.summary),
    ("evidence", .makeList (f.evidence.map encodeEvidenceRef)),
    ("timeline", .makeList (f.timeline.map encodeTimelineEntry))]

/-- What a finding is about, up to the check that its identity members hash to its stored identity. -/
def decodeFindingSubject (limits : RuntimeLimits) (map : Members) : Except Status Finding := do
  let what := "finding"
  let id ← requireText map "id" what DigestId.tryParse "is not a finding identity"
  let target ← requireText map "target" what StringId.tryParse "is not a valid identity"
  let object ← requireText map "object" what StringId.tryParse "is not a valid identity"
  let path ← requireText map "path" what (FieldPath.tryParse limits) "is not a valid field path"
  let klass ← requireText map "class" what DriftClass.tryParse "is not recognized"
  let rawClass ← optionalText map "raw_class" what DriftClass.tryParse "is not recognized" klass
  let severity ← optionalText map "severity" what Severity.tryParse "is not recognized" .medium
  let state ← optionalText map "state" what FindingState.tryParse "is not recognized" .open
  let reason ← optionalText map "reason" what ReasonCode.tryParse "is not recognized" .none
  let generation ← requireUint map "baseline_generation" what
  let authority ← optionalText map "baseline_authority" what IntentAuthority.tryParse "is not recognized" .unknown
  let policy ← optionalText map "policy" what StringId.tryParse "is not a valid identity" default
  let policyDigest ← optionalText map "policy_digest" what Digest.tryFromHex "is not a digest" Digest.zero
  let qualifier ← optionalNonEmpty map "qualifier" what Digest.tryFromHex "is not a digest" Digest.zero
  let identity : FindingIdentity :=
    { target := target, object := object, path := path, klass := klass, baselineGeneration := ⟨generation⟩
      qualifier := qualifier }
  if identity.computeId ≠ id then
    .error (.rejected .ledgerIntegrityDigestMismatch (ascii "finding identity does not match its identity members"))
  else
    .ok {
      id := id
      identity := identity
      klass := klass
      rawClass := rawClass
      severity := severity
      state := state
      reason := reason
      baselineGeneration := ⟨generation⟩
      baselineEpoch := ⟨(optionalUint map "baseline_epoch").getD 0⟩
      baselineAuthority := authority
      policy := policy
      policyDigest := policyDigest
      hasIntended := (optionalBool map "has_intended").getD false
      intended := (findMember map "intended").getD .makeNull
      hasObserved := (optionalBool map "has_observed").getD false
      observed := (findMember map "observed").getD .makeNull
      evidence := []
      evidenceFreshness := .unknown
      firstSeen := default
      lastSeen := default
      lastEvaluated := default }

/-- The count of confirmations, a 32-bit counter. -/
def decodeConfirmations (map : Members) (what : String) : Except Status Nat :=
  match optionalUint map "resolution_confirmations" with
  | none => .ok 0
  | some count =>
    if 0xFFFFFFFF < count.toNat then
      .error (memberError what (ascii "resolution_confirmations") "is out of range")
    else .ok count.toNat

/-- The group, the counters and the times of a finding. -/
def decodeFindingProgress (map : Members) (f : Finding) : Except Status Finding := do
  let what := "finding"
  let freshness ← optionalText map "evidence_freshness" what FreshnessState.tryParse "is not recognized" .unknown
  let group ← optionalNonEmpty map "group" what DigestId.tryParse "is not a group identity" default
  let groupCause ← optionalText map "group_cause" what RootCauseKind.tryParse "is not recognized" .none
  let confirmations ← decodeConfirmations map what
  let firstSeen ← optionalNonEmpty map "first_seen" what tryParseTime "is not an RFC 3339 timestamp" default
  let lastSeen ← optionalNonEmpty map "last_seen" what tryParseTime "is not an RFC 3339 timestamp" default
  let lastEvaluated ← optionalNonEmpty map "last_evaluated" what tryParseTime "is not an RFC 3339 timestamp" default
  let resolvedAt ← optionalNonEmpty map "resolved_at" what tryParseTime "is not an RFC 3339 timestamp" default
  .ok { f with
    evidenceFreshness := freshness
    group := group
    groupCause := groupCause
    observationCount := { value := (optionalUint map "observation_count").getD 0 }
    reopenCount := (optionalUint map "reopen_count").getD 0
    resolutionConfirmations := confirmations
    firstSeen := firstSeen
    lastSeen := lastSeen
    lastEvaluated := lastEvaluated
    resolvedAt := resolvedAt }

/-- What operators and policy said about a finding, and its explanation. -/
def decodeFindingMarks (map : Members) (f : Finding) : Except Status Finding := do
  let what := "finding"
  let suppression ← optionalNonEmpty map "suppression" what (fun text => (StringId.tryParse text).map some)
    "is not a valid identity" none
  let origin ← optionalText map "suppression_origin" what SuppressionOrigin.tryParse "is not recognized" .none
  let suppressedBy ← optionalNonEmpty map "suppressed_by" what StringId.tryParse "is not a valid identity" default
  let expiresAt ← optionalNonEmpty map "suppression_expires_at" what (fun text => (tryParseTime text).map some)
    "is not an RFC 3339 timestamp" none
  let acknowledgedBy ← optionalNonEmpty map "acknowledged_by" what StringId.tryParse "is not a valid identity" default
  let acknowledgedAt ← optionalNonEmpty map "acknowledged_at" what tryParseTime "is not an RFC 3339 timestamp" default
  .ok { f with
    suppression := suppression
    suppressionOrigin := origin
    suppressedBy := suppressedBy
    suppressionReason := (optionalString map "suppression_reason").getD []
    suppressionExpiresAt := expiresAt
    acknowledgedBy := acknowledgedBy
    acknowledgedAt := acknowledgedAt
    acknowledgementReason := (optionalString map "acknowledgement_reason").getD []
    complianceRelevant := (optionalBool map "compliance_relevant").getD true
    summary := (optionalString map "summary").getD [] }

def decodeFinding (limits : RuntimeLimits) (v : Value) : Except Status Finding := do
  let what := "finding"
  let map ← orRefuse (.rejected .ledgerDecodeFailed (ascii "finding must be an object")) v.asMap
  checkMembers map ["id", "target", "object", "path", "class", "raw_class", "severity", "state", "reason",
    "baseline_generation", "baseline_epoch", "baseline_authority", "policy", "policy_digest", "qualifier",
    "has_intended", "intended", "has_observed", "observed", "evidence_freshness", "group", "group_cause",
    "observation_count", "reopen_count", "resolution_confirmations", "first_seen", "last_seen", "last_evaluated",
    "resolved_at", "suppression", "suppression_origin", "suppressed_by", "suppression_reason",
    "suppression_expires_at", "acknowledged_by", "acknowledged_at", "acknowledgement_reason", "compliance_relevant",
    "summary", "evidence", "timeline"] what
  let f ← decodeFindingSubject limits map
  let f ← decodeFindingProgress map f
  let f ← decodeFindingMarks map f
  let evidence ← optionalList map "evidence" what
  if limits.maxEvidenceRefsPerFinding < evidence.length then
    .error (.limit .limitBytesExceeded (ascii "evidence references exceed the envelope"))
  else
    let evidence ← evidence.mapM decodeEvidenceRef
    let timeline ← optionalList map "timeline" what
    if limits.maxTimelineEntriesPerFinding < timeline.length then
      .error (.limit .limitTimelineExceeded (ascii "finding timeline exceeds the envelope"))
    else
      let timeline ← timeline.mapM decodeTimelineEntry
      .ok { f with evidence := evidence, timeline := timeline }

/-! ### Groups -/

def encodeGroup (group : RootCauseGroup) : Value :=
  object [
    ("id", .makeString group.id.toHex),
    ("target", .makeString group.target.str),
    ("baseline_generation", .makeUint group.baselineGeneration.value),
    ("baseline_epoch", .makeUint group.baselineEpoch.value),
    ("cause", .makeString group.cause.toText),
    ("discriminator", .makeString group.discriminator.toHex),
    ("summary", .makeString group.summary),
    ("observation_count", .makeUint group.observationCount.value),
    ("first_seen", .makeString (formatTime group.firstSeen)),
    ("last_seen", .makeString (formatTime group.lastSeen)),
    ("members", .makeList (group.members.map fun member => .makeString member.toHex)),
    ("objects", .makeList (group.objects.map fun id => .makeString id.str))]

def decodeGroup (v : Value) : Except Status RootCauseGroup := do
  let what := "group"
  let map ← orRefuse (.rejected .ledgerDecodeFailed (ascii "group must be an object")) v.asMap
  checkMembers map ["id", "target", "baseline_generation", "baseline_epoch", "cause", "discriminator", "summary",
    "observation_count", "first_seen", "last_seen", "members", "objects"] what
  let id ← requireText map "id" what DigestId.tryParse "is not a group identity"
  let target ← requireText map "target" what StringId.tryParse "is not a valid identity"
  let generation ← requireUint map "baseline_generation" what
  let cause ← requireText map "cause" what RootCauseKind.tryParse "is not recognized"
  let discriminator ← optionalNonEmpty map "discriminator" what Digest.tryFromHex "is not a digest" Digest.zero
  let firstSeen ← optionalNonEmpty map "first_seen" what tryParseTime "is not an RFC 3339 timestamp" default
  let lastSeen ← optionalNonEmpty map "last_seen" what tryParseTime "is not an RFC 3339 timestamp" default
  let members ← optionalList map "members" what
  let members ← members.mapM (decodeIdentity "members" what DigestId.tryParse "entry is not a finding identity")
  let objects ← optionalList map "objects" what
  let objects ← objects.mapM (decodeIdentity "objects" what StringId.tryParse "entry is not a valid identity")
  .ok {
    id := id
    target := target
    baselineGeneration := ⟨generation⟩
    baselineEpoch := ⟨(optionalUint map "baseline_epoch").getD 0⟩
    cause := cause
    discriminator := discriminator
    members := members
    objects := objects
    summary := (optionalString map "summary").getD []
    observationCount := { value := (optionalUint map "observation_count").getD 0 }
    firstSeen := firstSeen
    lastSeen := lastSeen }

/-! ### Baselines -/

def encodeIntentField (path : FieldPath) (field : IntentField) : Value :=
  object [
    ("path", .makeString (FieldPath.toText path)),
    ("value", field.intended),
    ("comparability", .makeString field.comparability.toText)]

def encodeIntentObject (id : ObjectId) (declared : IntentObject) : Value :=
  object [
    ("id", .makeString id.str),
    ("existence", .makeString declared.existence.toText),
    ("fields", .makeList (declared.fields.entries.map fun field => encodeIntentField field.1 field.2))]

def encodeBaseline (baseline : IntentBaseline) : Value :=
  object [
    ("target", .makeString baseline.target.str),
    ("generation", .makeUint baseline.generation.value),
    ("epoch", .makeUint baseline.epoch.value),
    ("authority", .makeString baseline.authority.toText),
    ("policy", .makeString baseline.policy.str),
    ("committed_at", .makeString (formatTime baseline.committedAt)),
    ("content_digest", .makeString baseline.contentDigest.toHex),
    ("evidence", .makeString baseline.evidence.toText),
    ("objects", .makeList (baseline.objects.entries.map fun entry => encodeIntentObject entry.1 entry.2))]

def decodeIntentField (limits : RuntimeLimits) (v : Value) : Except Status (FieldPath × IntentField) := do
  let what := "baseline.field"
  let map ← orRefuse (.rejected .ledgerDecodeFailed (ascii "baseline field must be an object")) v.asMap
  checkMembers map ["path", "value", "comparability"] what
  let path ← decodeFieldPath map limits what
  let value ← requireMember map "value" what
  let comparability ← optionalText map "comparability" what FieldComparability.tryParse "is not recognized" .managed
  .ok (path, { path := path, intended := value, comparability := comparability })

def decodeIntentObject (limits : RuntimeLimits) (v : Value) : Except Status (ObjectId × IntentObject) := do
  let what := "baseline.object"
  let map ← orRefuse (.rejected .ledgerDecodeFailed (ascii "baseline object must be an object")) v.asMap
  checkMembers map ["id", "existence", "fields"] what
  let id ← requireText map "id" what StringId.tryParse "is not a valid identity"
  let existence ← optionalText map "existence" what ObjectExistence.tryParse "is not recognized" .required
  let fields ← requireList map "fields" what
  if limits.maxFieldsPerObject < fields.length then
    .error (.limit .limitFieldsExceeded (ascii "baseline field count exceeds the envelope"))
  else
    let fields ← fields.mapM (decodeIntentField limits)
    .ok (id, { id := id, existence := existence, fields := OrdMap.emplaceAll fields })

def decodeBaseline (limits : RuntimeLimits) (v : Value) : Except Status IntentBaseline := do
  let what := "baseline"
  let map ← orRefuse (.rejected .ledgerDecodeFailed (ascii "baseline must be an object")) v.asMap
  checkMembers map ["target", "generation", "epoch", "authority", "policy", "committed_at", "content_digest",
    "evidence", "objects"] what
  let target ← requireText map "target" what StringId.tryParse "is not a valid identity"
  let generation ← requireUint map "generation" what
  let epoch ← requireUint map "epoch" what
  let authority ← optionalText map "authority" what IntentAuthority.tryParse "is not recognized" .unknown
  let policy ← optionalText map "policy" what StringId.tryParse "is not a valid identity" default
  let committedAt ← optionalText map "committed_at" what tryParseTime "is not an RFC 3339 timestamp" default
  let contentDigest ← optionalText map "content_digest" what Digest.tryFromHex "is not a digest" Digest.zero
  let evidence ← optionalText map "evidence" what EvidenceClass.tryParse "is not recognized" .unknown
  let objects ← requireList map "objects" what
  if limits.maxObjectsPerTarget < objects.length then
    .error (.limit .limitObjectsExceeded (ascii "baseline object count exceeds the envelope"))
  else
    let objects ← objects.mapM (decodeIntentObject limits)
    .ok {
      target := target
      generation := ⟨generation⟩
      epoch := ⟨epoch⟩
      authority := authority
      policy := policy
      committedAt := committedAt
      contentDigest := contentDigest
      evidence := evidence
      objects := OrdMap.emplaceAll objects }

/-! ### Restoring -/

namespace FindingLedger

def restoreBaseline (L : FindingLedger) (baseline : IntentBaseline) : Except Status FindingLedger :=
  if L.limits.maxTargets ≤ L.baselines.size ∧ L.baselines.contains baseline.target = false then
    .error (.limit .limitObjectsExceeded (ascii "restored baseline count exceeds the envelope"))
  else .ok { L with baselines := L.baselines.insert baseline.target baseline }

/-- Restores an observation; recovered evidence is never fresh. -/
def restoreObservation (L : FindingLedger) (snapshot : ObservationSnapshot) : FindingLedger :=
  let key : SourceWindowKey := ⟨snapshot.target, snapshot.source⟩
  let window := (L.windows.find? key).getD []
  let window := if L.limits.maxRetainedSnapshotsPerSource ≤ window.length then window.tail else window
  let restored : RetainedObservation :=
    { snapshot := snapshot
      freshness := { state := .recoveredNotFresh, reason := .evidenceRecoveredNotFresh }
      recovered := true }
  { L with windows := L.windows.insert key (window ++ [restored]) }

/-- The event that a finding survived a restart with evidence that is no longer current. -/
def recoveryEvent (f : Finding) (sequence : Nat) : TimelineEntry :=
  { f.event .evidenceRecovered f.lastEvaluated .evidenceRecoveredNotFresh
      (ascii "evidence recovered from durable state is not current") with
    sequence := sequence }

/-- The recovery of a finding is worth an event, once. -/
def recoversNow (f : Finding) : Bool := f.isLive && f.evidenceFreshness != .recoveredNotFresh

/-- A finding as it is after recovery; `sequence` is the next number of the timeline. -/
def recoverFinding (limits : RuntimeLimits) (sequence : Nat) (f : Finding) : Finding :=
  { f with
    evidenceFreshness := .recoveredNotFresh
    timeline := keepLast limits.maxTimelineEntriesPerFinding
      (f.timeline ++ if recoversNow f then [recoveryEvent f sequence] else []) }

def restoreFinding (L : FindingLedger) (f : Finding) : Except Status FindingLedger :=
  if L.limits.maxFindings ≤ L.findings.size ∧ L.findings.contains f.id = false then
    .error (.limit .limitFindingsExceeded (ascii "restored finding count exceeds the envelope"))
  else if !f.id.isSet then .error (.rejected .ledgerDecodeFailed (ascii "restored finding has no identity"))
  else
    .ok { L with
      timelineSequence := if recoversNow f then L.timelineSequence + 1 else L.timelineSequence
      findings := L.findings.insert f.id (recoverFinding L.limits (L.timelineSequence + 1) f)
      suppressionsActive := if f.suppression.isSome then L.suppressionsActive + 1 else L.suppressionsActive }

def restoreGroup (L : FindingLedger) (group : RootCauseGroup) : Except Status FindingLedger :=
  if L.limits.maxGroups ≤ L.groups.size ∧ L.groups.contains group.id = false then
    .error (.limit .limitObjectsExceeded (ascii "restored group count exceeds the envelope"))
  else .ok { L with groups := L.groups.insert group.id group }

def restoreTimeline (L : FindingLedger) (entry : TimelineEntry) : FindingLedger :=
  { L with globalTimeline := L.globalTimeline ++ [entry] }.trimTimelineIfNeeded

end FindingLedger

/-! ### The ledger file -/

def kLedgerMagic : Text := ascii "NDOLEDG1"

def kLedgerHeaderBytes : Nat := 8 + 2 + 2 + 8 + 32 + 8 + 8

def kLedgerFormatVersion : Nat := 1

/-- The bytes of an unsigned value, least significant first. -/
def littleEndian : Nat → Nat → Text
  | 0, _ => []
  | width + 1, value => UInt8.ofNat value :: littleEndian width (value / 256)

def readLittleEndian (bytes : Text) : Nat := bytes.foldr (fun b value => b.toNat + 256 * value) 0

/-- `CheckedMul` and `CheckedAdd` of one step of the budget; zero when a step overflows. -/
def addBudget (budget count : Nat) : Nat :=
  if 2 ^ 64 ≤ 128 * count ∨ 2 ^ 64 ≤ budget + 128 * count then 0 else budget + 128 * count

/-- The nodes a payload may have; a step that overflows ends the sum. -/
def ledgerNodeBudget (limits : RuntimeLimits) : Nat :=
  [limits.maxFindings, limits.maxGlobalTimelineEntries, limits.maxTargets].foldl
    (fun budget count => if budget = 0 then 0 else addBudget budget count) 4096

/-- The envelope used to parse a ledger payload. -/
def ledgerPayloadLimits (limits : RuntimeLimits) : RuntimeLimits :=
  { limits with
    maxValueNodes := if ledgerNodeBudget limits = 0 then 100000000 else ledgerNodeBudget limits
    maxValueDepth := limits.maxValueDepth + 8
    maxFieldsPerObject := if 256 < limits.maxFieldsPerObject then limits.maxFieldsPerObject else 256
    maxDocumentBytes := limits.maxLedgerBytes }

structure LedgerRecoveryReport where
  revision : LedgerRevision
  findingsRestored : Nat
  groupsRestored : Nat
  baselinesRestored : Nat
  observationsRestored : Nat
  conservative : Bool := true
  reason : ReasonCode := .ledgerRecoveredConservatively

namespace FindingLedger

/-- The payload of a ledger file as a document. -/
def document (L : FindingLedger) : Value :=
  object [
    ("schema", .makeString (ascii "ndo/ledger/1")),
    ("format_version", .makeUint (UInt64.ofNat kLedgerFormatVersion)),
    ("revision", makeCount L.revision),
    ("timeline_sequence", makeCount L.timelineSequence),
    ("baselines", .makeList ((L.targets.filterMap L.findBaseline).map encodeBaseline)),
    ("observations", .makeList ((L.targets.flatMap L.observationsFor).map fun o =>
      object [("recovered", .makeBool true), ("document", encodeObservationDocument o.snapshot)])),
    ("findings", .makeList (L.findings.values.map encodeFinding)),
    ("groups", .makeList (L.groups.values.map encodeGroup)),
    ("timeline", .makeList (L.globalTimeline.map encodeTimelineEntry))]

/-- A payload behind its header. -/
def framePayload (epoch : FabricEpoch) (incarnation : Incarnation) (payload : Text) : Text :=
  kLedgerMagic ++ littleEndian 2 kLedgerFormatVersion ++ littleEndian 2 0 ++ littleEndian 8 payload.length ++
    (hashBytes payload).bytes ++ littleEndian 8 epoch.value.toNat ++ littleEndian 8 incarnation.value.toNat ++ payload

/-- The payload of a ledger file, when the header vouches for it. -/
def unframePayload (limits : RuntimeLimits) (liveEpoch : FabricEpoch) (bytes : Text) : Except Status Text :=
  let payloadBytes := readLittleEndian ((bytes.drop 12).take 8)
  let payload := bytes.drop kLedgerHeaderBytes
  let writeEpoch := readLittleEndian ((bytes.drop 52).take 8)
  if limits.maxLedgerBytes < bytes.length then
    .error (.limit .ledgerPayloadTooLarge (ascii "ledger exceeds the envelope"))
  else if bytes.length < kLedgerHeaderBytes then
    .error (.rejected .ledgerTruncated (ascii "ledger is shorter than its header"))
  else if bytes.take 8 ≠ kLedgerMagic then
    .error (.rejected .ledgerHeaderInvalid (ascii "ledger magic does not match"))
  else if readLittleEndian ((bytes.drop 8).take 2) ≠ kLedgerFormatVersion then
    .error (.rejected .ledgerSchemaUnsupported (ascii "ledger format version is not supported"))
  else if limits.maxRecordPayloadBytes < payloadBytes then
    .error (.limit .ledgerPayloadTooLarge (ascii "ledger payload exceeds the envelope"))
  else if bytes.length < kLedgerHeaderBytes + payloadBytes then
    .error (.rejected .ledgerTruncated (ascii "ledger payload is truncated"))
  else if kLedgerHeaderBytes + payloadBytes < bytes.length then
    .error (.rejected .ledgerTruncated (ascii "ledger carries bytes beyond its declared payload"))
  else if (hashBytes payload).bytes ≠ (bytes.drop 20).take kDigestBytes then
    .error (.integrity .ledgerIntegrityDigestMismatch (ascii "ledger payload digest does not match the header"))
  else if liveEpoch.isSet ∧ liveEpoch.value.toNat < writeEpoch then
    .error (.stale .ledgerVersionRegression (ascii "ledger was written by a newer epoch than the live one"))
  else .ok payload

def decodeRetainedObservation (limits : RuntimeLimits) (v : Value) : Except Status ObservationSnapshot := do
  let map ← orRefuse (memberError "ledger" (ascii "observations") "entries must be objects") v.asMap
  checkMembers map ["recovered", "document"] "ledger.observation"
  let document ← requireMember map "document" "ledger.observation"
  decodeObservationDocument limits document

/-- The loops of `DecodeLedger` over its records. -/
def restoreRecords (limits : RuntimeLimits) (map : Members) (L : FindingLedger) :
    Except Status (FindingLedger × LedgerRecoveryReport) := do
  let payloadLimits := ledgerPayloadLimits limits
  let baselines ← optionalList map "baselines" "ledger"
  let L ← baselines.foldlM (fun L entry => do
    let baseline ← decodeBaseline payloadLimits entry
    L.restoreBaseline baseline) L
  let observations ← optionalList map "observations" "ledger"
  let L ← observations.foldlM (fun L entry => do
    let snapshot ← decodeRetainedObservation payloadLimits entry
    .ok (L.restoreObservation snapshot)) L
  let findings ← optionalList map "findings" "ledger"
  if limits.maxFindings < findings.length then
    .error (.limit .limitFindingsExceeded (ascii "ledger finding count exceeds the envelope"))
  else
    let L ← findings.foldlM (fun L entry => do
      let f ← decodeFinding payloadLimits entry
      L.restoreFinding f) L
    let groups ← optionalList map "groups" "ledger"
    let L ← groups.foldlM (fun L entry => do
      let group ← decodeGroup entry
      L.restoreGroup group) L
    let timeline ← optionalList map "timeline" "ledger"
    if limits.maxGlobalTimelineEntries < timeline.length then
      .error (.limit .limitTimelineExceeded (ascii "ledger timeline exceeds the envelope"))
    else
      let L ← timeline.foldlM (fun L entry => do
        let entry ← decodeTimelineEntry entry
        .ok (L.restoreTimeline entry)) L
      .ok (L, {
        revision := ⟨UInt64.ofNat L.revision⟩
        findingsRestored := findings.length
        groupsRestored := groups.length
        baselinesRestored := baselines.length
        observationsRestored := observations.length })

/-- A ledger out of the document of its payload. -/
def decodeDocument (limits : RuntimeLimits) (v : Value) : Except Status (FindingLedger × LedgerRecoveryReport) := do
  let map ← orRefuse (.rejected .ledgerDecodeFailed (ascii "ledger payload must be an object")) v.asMap
  checkMembers map ["schema", "format_version", "revision", "timeline_sequence", "baselines", "observations",
    "findings", "groups", "timeline"] "ledger"
  let format ← requireUint map "format_version" "ledger"
  if format.toNat ≠ kLedgerFormatVersion then
    .error (.rejected .ledgerSchemaUnsupported (ascii "ledger payload declares an unsupported format version"))
  else
    let revision ← requireUint map "revision" "ledger"
    restoreRecords limits map {
      limits := limits
      revision := revision.toNat
      timelineSequence := ((optionalUint map "timeline_sequence").getD 0).toNat }

section Files
variable [DoubleChars]

def encodeLedger (L : FindingLedger) (epoch : FabricEpoch) (incarnation : Incarnation) : Text :=
  framePayload epoch incarnation (writeCanonicalJson L.document)

def decodeLedger (limits : RuntimeLimits) (liveEpoch : FabricEpoch) (bytes : Text) :
    Except Status (FindingLedger × LedgerRecoveryReport) := do
  let payload ← unframePayload limits liveEpoch bytes
  match parseJson (ledgerPayloadLimits limits) payload with
  | .error status => .error (.integrity .ledgerDecodeFailed
      (ascii "ledger payload did not parse: " ++ status.reason.toText))
  | .ok root => decodeDocument limits root

/-- The bytes `SaveLedgerFile` writes. -/
def saveLedgerFile (L : FindingLedger) (epoch : FabricEpoch) (incarnation : Incarnation) (maxBytes : Nat) :
    Except Status Text :=
  if maxBytes < (L.encodeLedger epoch incarnation).length then
    .error (.limit .ledgerPayloadTooLarge (ascii "encoded ledger exceeds the file envelope"))
  else .ok (L.encodeLedger epoch incarnation)

/-- The ledger a restart yields: what was written is read back, and the one at hand stays when that is refused. -/
def recover (L : FindingLedger) (limits : RuntimeLimits) (epoch : FabricEpoch) (incarnation : Incarnation)
    (liveEpoch : FabricEpoch) : FindingLedger :=
  match decodeLedger limits liveEpoch (L.encodeLedger epoch incarnation) with
  | .error _ => L
  | .ok (restored, _) => restored

end Files

end FindingLedger

end DriftObservatory
