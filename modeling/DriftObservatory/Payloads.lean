import DriftObservatory.Interchange
import DriftObservatory.Server

/-! The payloads of a session: the greeting, its acknowledgement, the acknowledgement of a document and the error that
    ends a session. -/

namespace DriftObservatory
open Json

/-- Which concern a reason code belongs to: the hundreds of its value. -/
def ReasonCode.domain : ReasonCode → Text
  | .none => ascii "none"
  | .classifiedConverged | .classifiedObjectMissing | .classifiedObjectUnexpected | .classifiedValueMismatch
  | .classifiedFieldMissing | .classifiedFieldUnexpected | .classifiedFieldNotComparable | .classifiedNotObservable
  | .classifiedUnsupportedField | .classifiedGenerationMismatch | .classifiedPartialApplication
  | .classifiedSourceConflict | .classifiedStaleObservation | .classifiedNoIntent => ascii "classification"
  | .observationExpired | .observationForeignEpoch | .observationForeignIncarnation | .observationClockRegression
  | .observationSequenceRegressed | .observationGenerationRegressed | .observationDuplicateIdentical
  | .observationDuplicateConflicting | .observationCoveragePartial | .observationCoverageUnknown
  | .observationSourceCannotAssertAbsence | .observationSourcesDisagree | .observationOutOfOrder
  | .observationSuperseded | .intentGenerationRegressed | .intentGenerationConflicting
  | .intentGenerationDuplicateIdentical | .intentTargetUndeclared | .intentCoverageIncomplete | .noFreshEvidence
  | .evidenceRecoveredNotFresh => ascii "freshness"
  | .fencedStaleEpoch | .fencedStaleIncarnation | .fencedStaleSequence | .fencedStaleGeneration | .fencedRetiredSource
  | .authorityMismatch | .comparisonBaselineUnavailable => ascii "authority"
  | .suppressedByPolicy | .suppressedByOperator | .suppressionExpired | .suppressionNotFound
  | .acknowledgementRecorded | .findingResolved | .findingReopened | .findingUnchanged | .findingCreated
  | .findingUpdated | .resolutionRefusedNoFreshEvidence | .resolutionRefusedCoverageIncomplete
  | .resolutionRefusedConflict | .findingRebasedToNewGeneration | .findingReclassified | .findingNotFound
  | .findingRetired => ascii "lifecycle"
  | .ledgerIntegrityDigestMismatch | .ledgerSchemaUnsupported | .ledgerTruncated | .ledgerHeaderInvalid
  | .ledgerPayloadTooLarge | .ledgerRecoveredConservatively | .ledgerVersionRegression
  | .ledgerDecodeFailed => ascii "persistence"
  | .wireFrameTruncated | .wireFrameOversize | .wireFrameChecksumMismatch | .wireProtocolVersionUnsupported
  | .wireFrameMagicMismatch | .wireHandshakeRequired | .wireHandshakeRejected | .wireSessionLimitExceeded
  | .wireSessionClosed | .wireFrameTypeUnsupported | .wireSessionIdleExpired => ascii "transport"
  | .limitObjectsExceeded | .limitFieldsExceeded | .limitDepthExceeded | .limitBytesExceeded | .limitFindingsExceeded
  | .limitHistoryExceeded | .limitTimelineExceeded | .encodingMalformed | .encodingUnexpectedToken
  | .encodingInvalidUtf8 | .encodingNumberOutOfRange | .encodingDuplicateKey | .encodingTrailingBytes
  | .arithmeticOverflow => ascii "bounds"

/-! ### Greetings -/

/-- A greeting with all it carries; the version of the product is not looked at. -/
structure HelloDocument extends HelloPayload where
  productVersion : Text := []

def encodeHello (hello : HelloDocument) : Value :=
  object [
    ("schema", .makeString (ascii "ndo/hello/1")),
    ("source", .makeString hello.source.str),
    ("epoch", .makeUint hello.epoch.value),
    ("incarnation", .makeUint hello.incarnation.value),
    ("start_sequence", .makeUint hello.startSequence.value),
    ("provenance", .makeString hello.provenance),
    ("product_version", .makeString hello.productVersion),
    ("capabilities", encodeCapabilities hello.capabilities)]

/-- A text that may be missing and must not be longer than a leaf. -/
def optionalLeaf (map : Members) (name : String) (limits : RuntimeLimits) (failure : String) : Except Status Text :=
  let text := (optionalString map name).getD []
  if limits.maxLeafBytes < text.length then .error (.limit .limitBytesExceeded (ascii failure)) else .ok text

/-- Unlike a document's, the capabilities of a greeting may have members of other names and kinds. -/
def decodeHelloCapabilities (map : Members) : Except Status SourceCapabilities := do
  let evidence ← optionalText map "evidence" "hello.capabilities" EvidenceClass.tryParse "is not recognized" .unknown
  .ok {
    assertsAbsence := (optionalBool map "asserts_absence").getD false
    completeCoverage := (optionalBool map "complete_coverage").getD false
    reportsNestedPaths := (optionalBool map "reports_nested_paths").getD false
    evidence := evidence }

def decodeHelloDocument (limits : RuntimeLimits) (v : Value) : Except Status HelloDocument := do
  let what := "hello"
  let map ← orRefuse (.rejected .wireHandshakeRejected (ascii "the hello payload must be an object")) v.asMap
  checkMembers map ["schema", "source", "epoch", "incarnation", "start_sequence", "provenance", "product_version",
    "capabilities"] what
  let source ← requireText map "source" what StringId.tryParse "is not a valid identity"
  let epoch ← requireUint map "epoch" what
  let incarnation ← requireUint map "incarnation" what
  let startSequence := (optionalUint map "start_sequence").getD 0
  let provenance ← optionalLeaf map "provenance" limits "provenance exceeds the envelope"
  let productVersion ← optionalLeaf map "product_version" limits "product version exceeds the envelope"
  let capabilities ← match findMember map "capabilities" with
    | none => .ok {}
    | some member => do
      let map ← orRefuse (memberError what (ascii "capabilities") "must be an object") member.asMap
      decodeHelloCapabilities map
  let hello : HelloDocument := {
    source := source, epoch := ⟨epoch⟩, incarnation := ⟨incarnation⟩, startSequence := ⟨startSequence⟩
    provenance := provenance, productVersion := productVersion, capabilities := capabilities }
  if !hello.epoch.isSet || !hello.incarnation.isSet then
    .error (.rejected .fencedStaleIncarnation (ascii "hello must declare a positive epoch and incarnation"))
  else .ok hello

/-! ### Acknowledgements -/

def encodeHelloAck (ack : HelloAckPayload) : Value :=
  object [
    ("schema", .makeString (ascii "ndo/hello-ack/1")),
    ("accepted", .makeBool ack.accepted),
    ("reason", .makeString ack.reason.toText),
    ("protocol_version", .makeUint ack.protocolVersion.toUInt64),
    ("server_epoch", .makeUint ack.serverEpoch.value),
    ("server_incarnation", .makeUint ack.serverIncarnation.value),
    ("session_id", .makeUint (UInt64.ofNat ack.sessionId)),
    ("max_payload_bytes", .makeUint ack.maxPayloadBytes.toUInt64),
    ("detail", .makeString ack.detail)]

def decodeHelloAck (v : Value) : Except Status HelloAckPayload := do
  let map ← orRefuse (.rejected .wireHandshakeRejected (ascii "the hello acknowledgement must be an object")) v.asMap
  let reason ← optionalText map "reason" "hello-ack" ReasonCode.tryParse "is not recognized" .none
  .ok {
    accepted := (optionalBool map "accepted").getD false
    reason := reason
    protocolVersion := ((optionalUint map "protocol_version").getD 0).toUInt16
    serverEpoch := ⟨(optionalUint map "server_epoch").getD 0⟩
    serverIncarnation := ⟨(optionalUint map "server_incarnation").getD 0⟩
    sessionId := ((optionalUint map "session_id").getD 0).toNat
    maxPayloadBytes := ((optionalUint map "max_payload_bytes").getD 0).toUInt32
    detail := (optionalString map "detail").getD [] }

def encodeAck (ack : AckPayload) : Value :=
  object [
    ("schema", .makeString (ascii "ndo/ack/1")),
    ("accepted", .makeBool ack.accepted),
    ("reason", .makeString ack.reason.toText),
    ("sequence", .makeUint ack.sequence.value),
    ("snapshot", .makeString ack.snapshot.str),
    ("generation", .makeUint ack.generation.value),
    ("detail", .makeString ack.detail)]

def decodeAck (v : Value) : Except Status AckPayload := do
  let map ← orRefuse (.rejected .encodingMalformed (ascii "the acknowledgement must be an object")) v.asMap
  let reason ← optionalText map "reason" "ack" ReasonCode.tryParse "is not recognized" .none
  let snapshot ← optionalNonEmpty map "snapshot" "ack" StringId.tryParse "is not a valid identity" default
  .ok {
    accepted := (optionalBool map "accepted").getD false
    reason := reason
    sequence := ⟨(optionalUint map "sequence").getD 0⟩
    snapshot := snapshot
    generation := ⟨(optionalUint map "generation").getD 0⟩
    detail := (optionalString map "detail").getD [] }

/-! ### Errors -/

def encodeError (reason : ReasonCode) (detail : Text) : Value :=
  object [
    ("schema", .makeString (ascii "ndo/error/1")),
    ("reason", .makeString reason.toText),
    ("domain", .makeString reason.domain),
    ("detail", .makeString detail)]

end DriftObservatory
