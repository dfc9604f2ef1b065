import DriftObservatory.Intent
import Mathlib.Data.List.Sort

/-! Observation snapshots and the freshness of the evidence they carry. -/

namespace DriftObservatory

/-! ### Snapshots -/

/-- What a source says about one object; `unknown` is never read as absence. -/
inductive ObjectPresence
  | absent | present | unknown
deriving DecidableEq, Repr

namespace ObjectPresence

def toText (value : ObjectPresence) : Text := ascii <| match value with
  | .absent => "absent"
  | .present => "present"
  | .unknown => "unknown"

def toByte : ObjectPresence → UInt8
  | absent => 0
  | present => 1
  | unknown => 2

end ObjectPresence

inductive ObservationCoverage
  | unknown | partial_ | complete
deriving DecidableEq, Repr

namespace ObservationCoverage

def toText (value : ObservationCoverage) : Text := ascii <| match value with
  | .unknown => "unknown"
  | .partial_ => "partial"
  | .complete => "complete"

def toByte : ObservationCoverage → UInt8
  | unknown => 0
  | partial_ => 1
  | complete => 2

end ObservationCoverage

structure SourceCapabilities where
  assertsAbsence : Bool := false
  completeCoverage : Bool := false
  reportsNestedPaths : Bool := false
  evidence : EvidenceClass := .unknown
deriving DecidableEq

structure ObservedObject where
  id : ObjectId
  presence : ObjectPresence
  fields : OrdMap FieldPath Value

/-- One observation of one target by one source. -/
structure ObservationSnapshot where
  snapshotId : SnapshotId
  source : SourceId
  epoch : FabricEpoch
  incarnation : Incarnation
  sequence : SourceSequence
  target : TargetId
  collectedAt : NdoTime
  receivedAt : NdoTime
  ttlNanos : Int64
  coverage : ObservationCoverage
  unobserved : List ObjectId
  objects : OrdMap ObjectId ObservedObject
  capabilities : SourceCapabilities
  evidence : EvidenceClass

namespace ObservationSnapshot

def kSnapshotIdentityTag : Text := ascii "ndo/observation-snapshot/v1"

def flagByte (flag : Bool) : UInt8 := if flag then 1 else 0

/-- The declared unobserved identities as a sorted set. -/
def unobservedView (snapshot : ObservationSnapshot) : List ObjectId :=
  (snapshot.unobserved.insertionSort (· ≤ ·)).dedup

def objectPreimage (id : ObjectId) (object : ObservedObject) : Text :=
  lengthPrefixed id.str ++ object.presence.toByte :: bigEndian64 (UInt64.ofNat object.fields.size) ++
    object.fields.entries.flatMap fun field => lengthPrefixed (FieldPath.toText field.1) ++ field.2.hashInto

/-- What the source asserted: every member but the identity and the receive time. -/
def contentPreimage (s : ObservationSnapshot) : Text :=
  lengthPrefixed kSnapshotIdentityTag ++ lengthPrefixed s.source.str ++ bigEndian64 s.epoch.value ++
    bigEndian64 s.incarnation.value ++ bigEndian64 s.sequence.value ++ lengthPrefixed s.target.str ++
    bigEndian64 s.collectedAt.unixNanos.toUInt64 ++ bigEndian64 s.ttlNanos.toUInt64 ++
    [s.coverage.toByte, s.evidence.toByte, flagByte s.capabilities.assertsAbsence,
      flagByte s.capabilities.completeCoverage, flagByte s.capabilities.reportsNestedPaths,
      s.capabilities.evidence.toByte] ++
    bigEndian64 (UInt64.ofNat s.unobservedView.length) ++
    (s.unobservedView.flatMap fun id => lengthPrefixed id.str) ++
    bigEndian64 (UInt64.ofNat s.objects.size) ++
    s.objects.entries.flatMap fun entry => objectPreimage entry.1 entry.2

def computeContentDigest (s : ObservationSnapshot) : Digest := hashBytes s.contentPreimage

def computeSnapshotId (s : ObservationSnapshot) : SnapshotId := ⟨toHex s.computeContentDigest.bytes⟩

def declaresCompleteCoverage (s : ObservationSnapshot) : Bool :=
  s.coverage == .complete && s.capabilities.completeCoverage

def mayAssertAbsence (s : ObservationSnapshot) : Bool := s.capabilities.assertsAbsence

def findObject (s : ObservationSnapshot) (id : ObjectId) : Option ObservedObject := s.objects.find? id

def declaresUnobserved (s : ObservationSnapshot) (id : ObjectId) : Bool := s.unobserved.contains id

def validateField (limits : RuntimeLimits) (path : FieldPath) (value : Value) : List Status :=
  [.require (path.length ≤ limits.maxPathSegments)
      (.limit .limitDepthExceeded (ascii "observed field path is too deep")),
    .require (path.all fun segment => match segment with
        | .key text => text.length ≤ limits.maxPathKeyBytes
        | .index _ => true)
      (.limit .limitBytesExceeded (ascii "observed field key is too long")),
    value.validate limits]

def validateObject (limits : RuntimeLimits) (s : ObservationSnapshot) (id : ObjectId) (object : ObservedObject) :
    List Status :=
  [.require (isValidIdentityText id.str)
      (.rejected .encodingMalformed (ascii "observed object identity is invalid")),
    .require (object.presence != .absent || s.capabilities.assertsAbsence)
      (.rejected .observationSourceCannotAssertAbsence
        (ascii "source reports absence without the capability to assert it")),
    .require (object.fields.size ≤ limits.maxFieldsPerObject)
      (.limit .limitFieldsExceeded (ascii "observed field count exceeds the envelope")),
    .require (object.presence != .absent || object.fields.entries.isEmpty)
      (.rejected .encodingMalformed (ascii "an absent object cannot carry observed fields"))] ++
    object.fields.entries.flatMap fun field => validateField limits field.1 field.2

def validate (limits : RuntimeLimits) (s : ObservationSnapshot) : Status :=
  .firstFailing <|
    [.require (isValidIdentityText s.source.str)
        (.rejected .encodingMalformed (ascii "observation source identity is invalid")),
      .require (isValidIdentityText s.target.str)
        (.rejected .encodingMalformed (ascii "observation target identity is invalid")),
      .require s.epoch.isSet
        (.rejected .fencedStaleEpoch (ascii "observation must declare the epoch it was collected under")),
      .require s.incarnation.isSet
        (.rejected .fencedStaleIncarnation
          (ascii "observation must declare the source incarnation that produced it")),
      .require s.sequence.isSet
        (.rejected .observationSequenceRegressed (ascii "observation sequence must be positive")),
      .require s.collectedAt.isSet
        (.rejected .observationClockRegression (ascii "observation must declare its collection time")),
      .require (0 ≤ s.ttlNanos) (.rejected .encodingMalformed (ascii "observation ttl must not be negative")),
      .require (s.unobserved.length ≤ limits.maxObjectsPerTarget)
        (.limit .limitObjectsExceeded (ascii "unobserved declaration exceeds the envelope")),
      .require (s.unobserved.all fun id => isValidIdentityText id.str)
        (.rejected .encodingMalformed (ascii "unobserved identity is invalid")),
      .require (s.objects.size ≤ limits.maxObjectsPerTarget)
        (.limit .limitObjectsExceeded (ascii "observation object count exceeds the envelope"))] ++
    (s.objects.entries.flatMap fun entry => validateObject limits s entry.1 entry.2) ++
    [.require (!s.snapshotId.empty)
        (.rejected .ledgerIntegrityDigestMismatch (ascii "observation snapshot identity is missing")),
      .require (s.snapshotId == s.computeSnapshotId)
        (.rejected .ledgerIntegrityDigestMismatch
          (ascii "declared snapshot identity does not match snapshot content"))]

end ObservationSnapshot

/-! ### Freshness -/

inductive FreshnessState
  | unknown | fresh | aging | stale | expired | future | recoveredNotFresh
deriving DecidableEq, Repr

def FreshnessState.toText (value : FreshnessState) : Text := ascii <| match value with
  | .unknown => "unknown"
  | .fresh => "fresh"
  | .aging => "aging"
  | .stale => "stale"
  | .expired => "expired"
  | .future => "future"
  | .recoveredNotFresh => "recovered-not-fresh"

structure FreshnessPolicy where
  ttlNanos : Int64 := 300000000000
  agingThresholdPercent : Int32 := 80
  maxClockSkewNanos : Int64 := 5000000000
  ttlAppliesToReceiveTime : Bool := true
deriving DecidableEq

structure FreshnessVerdict where
  state : FreshnessState := .unknown
  reason : ReasonCode := .noFreshEvidence
  ageNanos : Int64 := 0
  effectiveTtlNanos : Int64 := 0
  maySupportCompliance : Bool := false
  mayAssertAbsence : Bool := false
deriving DecidableEq

instance : Inhabited FreshnessVerdict := ⟨{}⟩

/-- The lifetime in force: a source may ask for a stricter one than the policy, never for a longer one. -/
def effectiveTtl (snapshot : ObservationSnapshot) (policy : FreshnessPolicy) : Int64 :=
  if 0 < snapshot.ttlNanos ∧ snapshot.ttlNanos < policy.ttlNanos then snapshot.ttlNanos else policy.ttlNanos

/-- The age past which evidence is aging; the division comes first so that nothing overflows. -/
def agingThreshold (policy : FreshnessPolicy) (ttl : Int64) : Int :=
  let percent := Max.max 0 (Min.min 100 policy.agingThresholdPercent.toInt)
  (ttl.toInt.tdiv 100) * percent + ((ttl.toInt.tmod 100) * percent).tdiv 100

def evaluateFreshness (snapshot : ObservationSnapshot) (policy : FreshnessPolicy) (now : NdoTime)
    (liveEpoch : FabricEpoch) (recoveredFromDurableState : Bool) : FreshnessVerdict :=
  let ttl := effectiveTtl snapshot policy
  let verdict : FreshnessVerdict := { effectiveTtlNanos := ttl }
  match if snapshot.collectedAt.isSet then tryDifference now snapshot.collectedAt else none with
  | none => { verdict with state := .unknown, reason := .noFreshEvidence }
  | some age =>
    let verdict := { verdict with ageNanos := age }
    if recoveredFromDurableState then
      { verdict with state := .recoveredNotFresh, reason := .evidenceRecoveredNotFresh }
    else if liveEpoch.isSet ∧ snapshot.epoch ≠ liveEpoch then
      { verdict with state := .expired, reason := .observationForeignEpoch }
    else if age.toInt < -policy.maxClockSkewNanos.toInt then
      { verdict with state := .future, reason := .observationClockRegression }
    else if ttl ≤ 0 then { verdict with state := .expired, reason := .observationExpired }
    else if ttl < age then { verdict with state := .stale, reason := .observationExpired }
    else
      let held : Option (FreshnessState × ReasonCode) :=
        if policy.ttlAppliesToReceiveTime ∧ snapshot.receivedAt.isSet then
          match tryDifference now snapshot.receivedAt with
          | none => some (.unknown, .observationClockRegression)
          | some receiveAge => if ttl < receiveAge then some (.stale, .observationExpired) else none
        else none
      match held with
      | some (state, reason) => { verdict with state := state, reason := reason }
      | none =>
        { verdict with
          state := if agingThreshold policy ttl < age.toInt then .aging else .fresh
          reason := .none
          maySupportCompliance := true
          mayAssertAbsence := snapshot.capabilities.assertsAbsence }

end DriftObservatory
