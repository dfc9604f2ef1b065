import DriftObservatory.Identity

/-! The outcome vocabulary, the resource envelope and the drift classes. Each enumeration keeps the
    machine-readable text the source prints for it. -/

namespace DriftObservatory

/-! ### Statuses -/

inductive StatusCode
  | ok | rejected | conflictState | notFound | staleAuthority | limitExceeded | integrityFailure
  | unsupported | indeterminate | preconditionFailed | internalError | cancelled
deriving DecidableEq, Repr

/-- The precise reason behind a status, an event or a classification. -/
inductive ReasonCode
  | none
  | classifiedConverged | classifiedObjectMissing | classifiedObjectUnexpected | classifiedValueMismatch
  | classifiedFieldMissing | classifiedFieldUnexpected | classifiedFieldNotComparable
  | classifiedNotObservable | classifiedUnsupportedField | classifiedGenerationMismatch
  | classifiedPartialApplication | classifiedSourceConflict | classifiedStaleObservation
  | classifiedNoIntent
  | observationExpired | observationForeignEpoch | observationForeignIncarnation
  | observationClockRegression | observationSequenceRegressed | observationGenerationRegressed
  | observationDuplicateIdentical | observationDuplicateConflicting | observationCoveragePartial
  | observationCoverageUnknown | observationSourceCannotAssertAbsence | observationSourcesDisagree
  | observationOutOfOrder | observationSuperseded | intentGenerationRegressed | intentGenerationConflicting
  | intentGenerationDuplicateIdentical | intentTargetUndeclared | intentCoverageIncomplete
  | noFreshEvidence | evidenceRecoveredNotFresh
  | fencedStaleEpoch | fencedStaleIncarnation | fencedStaleSequence | fencedStaleGeneration
  | fencedRetiredSource | authorityMismatch | comparisonBaselineUnavailable
  | suppressedByPolicy | suppressedByOperator | suppressionExpired | suppressionNotFound
  | acknowledgementRecorded | findingResolved | findingReopened | findingUnchanged | findingCreated
  | findingUpdated | resolutionRefusedNoFreshEvidence | resolutionRefusedCoverageIncomplete
  | resolutionRefusedConflict | findingRebasedToNewGeneration | findingReclassified | findingNotFound
  | findingRetired
  | ledgerIntegrityDigestMismatch | ledgerSchemaUnsupported | ledgerTruncated | ledgerHeaderInvalid
  | ledgerPayloadTooLarge | ledgerRecoveredConservatively | ledgerVersionRegression | ledgerDecodeFailed
  | wireFrameTruncated | wireFrameOversize | wireFrameChecksumMismatch | wireProtocolVersionUnsupported
  | wireFrameMagicMismatch | wireHandshakeRequired | wireHandshakeRejected | wireSessionLimitExceeded
  | wireSessionClosed | wireFrameTypeUnsupported | wireSessionIdleExpired
  | limitObjectsExceeded | limitFieldsExceeded | limitDepthExceeded | limitBytesExceeded
  | limitFindingsExceeded | limitHistoryExceeded | limitTimelineExceeded | encodingMalformed
  | encodingUnexpectedToken | encodingInvalidUtf8 | encodingNumberOutOfRange | encodingDuplicateKey
  | encodingTrailingBytes | arithmeticOverflow
deriving DecidableEq, Repr

def ReasonCode.toText (value : ReasonCode) : Text := ascii <| match value with
  | .none => "None"
  | .classifiedConverged => "ClassifiedConverged"
  | .classifiedObjectMissing => "ClassifiedObjectMissing"
  | .classifiedObjectUnexpected => "ClassifiedObjectUnexpected"
  | .classifiedValueMismatch => "ClassifiedValueMismatch"
  | .classifiedFieldMissing => "ClassifiedFieldMissing"
  | .classifiedFieldUnexpected => "ClassifiedFieldUnexpected"
  | .classifiedFieldNotComparable => "ClassifiedFieldNotComparable"
  | .classifiedNotObservable => "ClassifiedNotObservable"
  | .classifiedUnsupportedField => "ClassifiedUnsupportedField"
  | .classifiedGenerationMismatch => "ClassifiedGenerationMismatch"
  | .classifiedPartialApplication => "ClassifiedPartialApplication"
  | .classifiedSourceConflict => "ClassifiedSourceConflict"
  | .classifiedStaleObservation => "ClassifiedStaleObservation"
  | .classifiedNoIntent => "ClassifiedNoIntent"
  | .observationExpired => "ObservationExpired"
  | .observationForeignEpoch => "ObservationForeignEpoch"
  | .observationForeignIncarnation => "ObservationForeignIncarnation"
  | .observationClockRegression => "ObservationClockRegression"
  | .observationSequenceRegressed => "ObservationSequenceRegressed"
  | .observationGenerationRegressed => "ObservationGenerationRegressed"
  | .observationDuplicateIdentical => "ObservationDuplicateIdentical"
  | .observationDuplicateConflicting => "ObservationDuplicateConflicting"
  | .observationCoveragePartial => "ObservationCoveragePartial"
  | .observationCoverageUnknown => "ObservationCoverageUnknown"
  | .observationSourceCannotAssertAbsence => "ObservationSourceCannotAssertAbsence"
  | .observationSourcesDisagree => "ObservationSourcesDisagree"
  | .observationOutOfOrder => "ObservationOutOfOrder"
  | .observationSuperseded => "ObservationSuperseded"
  | .intentGenerationRegressed => "IntentGenerationRegressed"
  | .intentGenerationConflicting => "IntentGenerationConflicting"
  | .intentGenerationDuplicateIdentical => "IntentGenerationDuplicateIdentical"
  | .intentTargetUndeclared => "IntentTargetUndeclared"
  | .intentCoverageIncomplete => "IntentCoverageIncomplete"
  | .noFreshEvidence => "NoFreshEvidence"
  | .evidenceRecoveredNotFresh => "EvidenceRecoveredNotFresh"
  | .fencedStaleEpoch => "FencedStaleEpoch"
  | .fencedStaleIncarnation => "FencedStaleIncarnation"
  | .fencedStaleSequence => "FencedStaleSequence"
  | .fencedStaleGeneration => "FencedStaleGeneration"
  | .fencedRetiredSource => "FencedRetiredSource"
  | .authorityMismatch => "AuthorityMismatch"
  | .comparisonBaselineUnavailable => "ComparisonBaselineUnavailable"
  | .suppressedByPolicy => "SuppressedByPolicy"
  | .suppressedByOperator => "SuppressedByOperator"
  | .suppressionExpired => "SuppressionExpired"
  | .suppressionNotFound => "SuppressionNotFound"
  | .acknowledgementRecorded => "AcknowledgementRecorded"
  | .findingResolved => "FindingResolved"
  | .findingReopened => "FindingReopened"
  | .findingUnchanged => "FindingUnchanged"
  | .findingCreated => "FindingCreated"
  | .findingUpdated => "FindingUpdated"
  | .resolutionRefusedNoFreshEvidence => "ResolutionRefusedNoFreshEvidence"
  | .resolutionRefusedCoverageIncomplete => "ResolutionRefusedCoverageIncomplete"
  | .resolutionRefusedConflict => "ResolutionRefusedConflict"
  | .findingRebasedToNewGeneration => "FindingRebasedToNewGeneration"
  | .findingReclassified => "FindingReclassified"
  | .findingNotFound => "FindingNotFound"
  | .findingRetired => "FindingRetired"
  | .ledgerIntegrityDigestMismatch => "LedgerIntegrityDigestMismatch"
  | .ledgerSchemaUnsupported => "LedgerSchemaUnsupported"
  | .ledgerTruncated => "LedgerTruncated"
  | .ledgerHeaderInvalid => "LedgerHeaderInvalid"
  | .ledgerPayloadTooLarge => "LedgerPayloadTooLarge"
  | .ledgerRecoveredConservatively => "LedgerRecoveredConservatively"
  | .ledgerVersionRegression => "LedgerVersionRegression"
  | .ledgerDecodeFailed => "LedgerDecodeFailed"
  | .wireFrameTruncated => "WireFrameTruncated"
  | .wireFrameOversize => "WireFrameOversize"
  | .wireFrameChecksumMismatch => "WireFrameChecksumMismatch"
  | .wireProtocolVersionUnsupported => "WireProtocolVersionUnsupported"
  | .wireFrameMagicMismatch => "WireFrameMagicMismatch"
  | .wireHandshakeRequired => "WireHandshakeRequired"
  | .wireHandshakeRejected => "WireHandshakeRejected"
  | .wireSessionLimitExceeded => "WireSessionLimitExceeded"
  | .wireSessionClosed => "WireSessionClosed"
  | .wireFrameTypeUnsupported => "WireFrameTypeUnsupported"
  | .wireSessionIdleExpired => "WireSessionIdleExpired"
  | .limitObjectsExceeded => "LimitObjectsExceeded"
  | .limitFieldsExceeded => "LimitFieldsExceeded"
  | .limitDepthExceeded => "LimitDepthExceeded"
  | .limitBytesExceeded => "LimitBytesExceeded"
  | .limitFindingsExceeded => "LimitFindingsExceeded"
  | .limitHistoryExceeded => "LimitHistoryExceeded"
  | .limitTimelineExceeded => "LimitTimelineExceeded"
  | .encodingMalformed => "EncodingMalformed"
  | .encodingUnexpectedToken => "EncodingUnexpectedToken"
  | .encodingInvalidUtf8 => "EncodingInvalidUtf8"
  | .encodingNumberOutOfRange => "EncodingNumberOutOfRange"
  | .encodingDuplicateKey => "EncodingDuplicateKey"
  | .encodingTrailingBytes => "EncodingTrailingBytes"
  | .arithmeticOverflow => "ArithmeticOverflow"

/-- A coarse status, its reason code and a detail no decision reads. -/
structure Status where
  code : StatusCode
  reason : ReasonCode
  detail : Text
deriving DecidableEq

namespace Status

def okay : Status := ⟨.ok, .none, []⟩

def ok (s : Status) : Bool := s.code == .ok

def rejected (r : ReasonCode) (detail : Text) : Status := ⟨.rejected, r, detail⟩
def conflict (r : ReasonCode) (detail : Text) : Status := ⟨.conflictState, r, detail⟩
def notFound (r : ReasonCode) (detail : Text) : Status := ⟨.notFound, r, detail⟩
def stale (r : ReasonCode) (detail : Text) : Status := ⟨.staleAuthority, r, detail⟩
def limit (r : ReasonCode) (detail : Text) : Status := ⟨.limitExceeded, r, detail⟩
def precondition (r : ReasonCode) (detail : Text) : Status := ⟨.preconditionFailed, r, detail⟩
def cancelled (r : ReasonCode) (detail : Text) : Status := ⟨.cancelled, r, detail⟩
def integrity (r : ReasonCode) (detail : Text) : Status := ⟨.integrityFailure, r, detail⟩

/-- A check that fails with `failure` unless `condition` holds. -/
def require (condition : Bool) (failure : Status) : Status := if condition then okay else failure

/-- The outcome of checks made one after the other with an early return. -/
def firstFailing (checks : List Status) : Status := (checks.find? fun s => !s.ok).getD okay

theorem ok_firstFailing {checks : List Status} : (firstFailing checks).ok = true ↔ ∀ check ∈ checks, check.ok = true := by
  rcases h : checks.find? fun s => !s.ok with _ | check
  · rw [firstFailing, h]
    exact ⟨fun _ => by simpa using List.find?_eq_none.mp h, fun _ => rfl⟩
  · have hbad : check.ok = false := by simpa using List.find?_some h
    rw [firstFailing, h, Option.getD_some, hbad]
    refine ⟨fun hok => (by cases hok), fun hall => ?_⟩
    rw [← hbad]
    exact hall check (List.mem_of_find?_eq_some h)

theorem ok_require {condition : Bool} {failure : Status} (hfailure : failure.ok = false) :
    (require condition failure).ok = true ↔ condition = true := by
  cases condition with
  | false => simp only [require, Bool.false_eq_true, if_false, hfailure]
  | true => exact ⟨fun _ => rfl, fun _ => rfl⟩

end Status

/-! ### The resource envelope -/

/-- How a piece of evidence was produced. -/
inductive EvidenceClass
  | unknown | real | synthetic | unsupported
deriving DecidableEq, Repr

def EvidenceClass.toText (value : EvidenceClass) : Text := ascii <| match value with
  | .unknown => "unknown"
  | .real => "real"
  | .synthetic => "synthetic"
  | .unsupported => "unsupported"

def EvidenceClass.toByte : EvidenceClass → UInt8
  | .unknown => 0
  | .real => 1
  | .synthetic => 2
  | .unsupported => 3

/-- The hard bounds of one observatory incarnation. -/
structure RuntimeLimits where
  maxTargets : Nat := 4096
  maxObjectsPerTarget : Nat := 200000
  maxFieldsPerObject : Nat := 512
  maxValueDepth : Nat := 16
  maxValueNodes : Nat := 4096
  maxLeafBytes : Nat := 4096
  maxDocumentBytes : Nat := 32 * 1024 * 1024
  maxPathSegments : Nat := 32
  maxPathKeyBytes : Nat := 256
  maxSources : Nat := 256
  maxRetainedSnapshotsPerSource : Nat := 8
  maxFindings : Nat := 500000
  maxTimelineEntriesPerFinding : Nat := 32
  maxGlobalTimelineEntries : Nat := 200000
  maxSuppressions : Nat := 65536
  maxGroups : Nat := 100000
  maxEvidenceRefsPerFinding : Nat := 8
  maxReportFindings : Nat := 500000
  maxLedgerBytes : Nat := 512 * 1024 * 1024
  maxRecordPayloadBytes : Nat := 64 * 1024 * 1024
  maxEvaluationWorkers : Nat := 16
  maxSessions : Nat := 64
  maxWirePayloadBytes : Nat := 16 * 1024 * 1024
deriving DecidableEq

/-! ### Drift classes and severities -/

inductive Severity
  | info | low | medium | high | critical
deriving DecidableEq, Repr

namespace Severity

def toText (value : Severity) : Text := ascii <| match value with
  | .info => "info"
  | .low => "low"
  | .medium => "medium"
  | .high => "high"
  | .critical => "critical"

/-- The rank that orders severities; larger is more severe. -/
def rank : Severity → Nat
  | .info => 0
  | .low => 1
  | .medium => 2
  | .high => 3
  | .critical => 4

theorem rank_injective : Function.Injective rank := by
  intro a b h
  cases a <;> cases b <;> first | rfl | cases h

end Severity

inductive DriftClass
  | none | missing | unexpected | valueMismatch | fieldMissing | fieldUnexpected | staleObservation
  | unknown | unsupported | generationMismatch | partialApplication | sourceConflict | intentMissing
  | evidenceInvalid
deriving DecidableEq, Repr

namespace DriftClass

def toText (value : DriftClass) : Text := ascii <| match value with
  | .none => "none"
  | .missing => "missing"
  | .unexpected => "unexpected"
  | .valueMismatch => "value-mismatch"
  | .fieldMissing => "field-missing"
  | .fieldUnexpected => "field-unexpected"
  | .staleObservation => "stale-observation"
  | .unknown => "unknown"
  | .unsupported => "unsupported"
  | .generationMismatch => "generation-mismatch"
  | .partialApplication => "partial-application"
  | .sourceConflict => "source-conflict"
  | .intentMissing => "intent-missing"
  | .evidenceInvalid => "evidence-invalid"

/-- The position in the declaration order, which `std::map` keys of this type follow. -/
def rank : DriftClass → Nat
  | .none => 0
  | .missing => 1
  | .unexpected => 2
  | .valueMismatch => 3
  | .fieldMissing => 4
  | .fieldUnexpected => 5
  | .staleObservation => 6
  | .unknown => 7
  | .unsupported => 8
  | .generationMismatch => 9
  | .partialApplication => 10
  | .sourceConflict => 11
  | .intentMissing => 12
  | .evidenceInvalid => 13

end DriftClass

end DriftObservatory
