import DriftObservatory.Comparison

/-! Findings: the durable record of a divergence, its identity, its timeline and its explanation. -/

namespace DriftObservatory

/-! ### Printing times -/

/-- A number padded with zeros on the left. -/
def padded (width : Nat) (n : Nat) : Text :=
  List.replicate (width - (decimal n).length) 0x30 ++ decimal n

/-- Year, month and day of a day number, proleptic Gregorian. -/
def civilFromDays (days : Int) : Int × Nat × Nat :=
  let days := days + 719468
  let era := (if 0 ≤ days then days else days - 146096).tdiv 146097
  let dayOfEra := (days - era * 146097).toNat
  let yearOfEra := (dayOfEra - dayOfEra / 1460 + dayOfEra / 36524 - dayOfEra / 146096) / 365
  let dayOfYear := dayOfEra - (365 * yearOfEra + yearOfEra / 4 - yearOfEra / 100)
  let mp := (5 * dayOfYear + 2) / 153
  let day := dayOfYear - (153 * mp + 2) / 5 + 1
  let month := if mp < 10 then mp + 3 else mp - 9
  ((yearOfEra : Int) + era * 400 + (if month ≤ 2 then 1 else 0), month, day)

/-- RFC 3339 UTC with nanosecond precision. -/
def formatTime (time : NdoTime) : Text :=
  let nanos := time.unixNanos.toInt
  let fraction := nanos.tmod 1000000000
  let seconds := if fraction < 0 then nanos.tdiv 1000000000 - 1 else nanos.tdiv 1000000000
  let fraction := if fraction < 0 then fraction + 1000000000 else fraction
  let days := seconds.tdiv 86400
  let remainder := seconds.tmod 86400
  let remainder := (if remainder < 0 then remainder + 86400 else remainder).toNat
  let (year, month, day) := civilFromDays days
  padded 4 year.toNat ++ ascii "-" ++ padded 2 month ++ ascii "-" ++ padded 2 day ++ ascii "T" ++
    padded 2 (remainder / 3600) ++ ascii ":" ++ padded 2 (remainder % 3600 / 60) ++ ascii ":" ++
    padded 2 (remainder % 60) ++ ascii "." ++ padded 9 fraction.toNat ++ ascii "Z"

/-! ### The vocabulary of findings -/

inductive FindingState
  | «open» | acknowledged | suppressed | resolved | superseded | retired
deriving DecidableEq, Repr

namespace FindingState

def toText (value : FindingState) : Text := ascii <| match value with
  | .open => "open"
  | .acknowledged => "acknowledged"
  | .suppressed => "suppressed"
  | .resolved => "resolved"
  | .superseded => "superseded"
  | .retired => "retired"

/-- The state takes part in the current compliance computation. -/
def isLive : FindingState → Bool
  | .open | acknowledged | suppressed => true
  | _ => false

end FindingState

inductive SuppressionOrigin
  | none | policy | operator
deriving DecidableEq, Repr

def SuppressionOrigin.toText (value : SuppressionOrigin) : Text := ascii <| match value with
  | .none => "none"
  | .policy => "policy"
  | .operator => "operator"

inductive TimelineEventKind
  | created | updated | reopened | resolved | suppressed | suppressionExpired | suppressionCleared
  | acknowledged | acknowledgementCleared | reclassified | rebased | evidenceRecovered | grouped | retired
deriving DecidableEq, Repr

def TimelineEventKind.toText (value : TimelineEventKind) : Text := ascii <| match value with
  | .created => "created"
  | .updated => "updated"
  | .reopened => "reopened"
  | .resolved => "resolved"
  | .suppressed => "suppressed"
  | .suppressionExpired => "suppression-expired"
  | .suppressionCleared => "suppression-cleared"
  | .acknowledged => "acknowledged"
  | .acknowledgementCleared => "acknowledgement-cleared"
  | .reclassified => "reclassified"
  | .rebased => "rebased"
  | .evidenceRecovered => "evidence-recovered"
  | .grouped => "grouped"
  | .retired => "retired"

/-- One transition. The ledger assigns `sequence` to the copy on its global timeline only. -/
structure TimelineEntry where
  kind : TimelineEventKind
  target : TargetId
  object : ObjectId
  finding : FindingId := default
  sequence : Nat := 0
  at_ : NdoTime
  stateAfter : FindingState
  klass : DriftClass
  severity : Severity
  reason : ReasonCode
  baselineGeneration : IntentGeneration
  baselineEpoch : FabricEpoch
  evidenceDigest : Digest := Digest.zero
  actor : ActorId := default
  detail : Text
deriving DecidableEq

inductive RootCauseKind
  | none | singleField | generationNotApplied | partialApplication | sourceConflict | staleEvidence
  | insufficientCoverage | missingIntent | unsupportedField
deriving DecidableEq, Repr

namespace RootCauseKind

def toText (value : RootCauseKind) : Text := ascii <| match value with
  | .none => "none"
  | .singleField => "single-field"
  | .generationNotApplied => "generation-not-applied"
  | .partialApplication => "partial-application"
  | .sourceConflict => "source-conflict"
  | .staleEvidence => "stale-evidence"
  | .insufficientCoverage => "insufficient-coverage"
  | .missingIntent => "missing-intent"
  | .unsupportedField => "unsupported-field"

def rank : RootCauseKind → Nat
  | none => 0
  | singleField => 1
  | generationNotApplied => 2
  | partialApplication => 3
  | sourceConflict => 4
  | staleEvidence => 5
  | insufficientCoverage => 6
  | missingIntent => 7
  | unsupportedField => 8

end RootCauseKind

/-- A counter of 64 bits, which goes on at zero behind its last value. `laps` is no part of the source: it tells how often
    the counter has gone round, so that no two states it counts through are one. -/
structure Counter where
  value : UInt64 := 0
  laps : Nat := 0
deriving DecidableEq

namespace Counter

def next (c : Counter) : Counter where
  value := c.value + 1
  laps := if c.value + 1 = 0 then c.laps + 1 else c.laps

end Counter

structure RootCauseGroup where
  id : GroupId
  target : TargetId
  baselineGeneration : IntentGeneration
  baselineEpoch : FabricEpoch
  cause : RootCauseKind
  discriminator : Digest
  members : List FindingId
  objects : List ObjectId
  summary : Text
  observationCount : Counter
  firstSeen : NdoTime
  lastSeen : NdoTime
deriving DecidableEq

/-! ### Findings -/

/-- The identity inputs of a finding. -/
structure FindingIdentity where
  target : TargetId
  object : ObjectId
  path : FieldPath
  klass : DriftClass
  baselineGeneration : IntentGeneration
  qualifier : Digest
deriving DecidableEq

namespace FindingIdentity

def kFindingIdentityTag : Text := ascii "ndo/finding-identity/v1"

def preimage (identity : FindingIdentity) : Text :=
  lengthPrefixed kFindingIdentityTag ++ lengthPrefixed identity.target.str ++ lengthPrefixed identity.object.str ++
    lengthPrefixed (FieldPath.toText identity.path) ++ lengthPrefixed identity.klass.toText ++
    bigEndian64 identity.baselineGeneration.value ++
    if identity.qualifier.isSet then bigEndian64 1 ++ identity.qualifier.bytes else bigEndian64 0

def computeId (identity : FindingIdentity) : FindingId := ⟨hashBytes identity.preimage⟩

end FindingIdentity

namespace FindingDraft

/-- The identity a draft would have as a finding. -/
def identity (draft : FindingDraft) : FindingIdentity where
  target := draft.target
  object := draft.object
  path := draft.path
  klass := draft.klass
  baselineGeneration := draft.baselineGeneration
  qualifier := draft.qualifier

end FindingDraft

structure Finding where
  id : FindingId
  identity : FindingIdentity
  klass : DriftClass
  rawClass : DriftClass
  severity : Severity
  state : FindingState
  reason : ReasonCode
  baselineGeneration : IntentGeneration
  baselineEpoch : FabricEpoch
  baselineAuthority : IntentAuthority
  policy : PolicyId
  policyDigest : Digest
  hasIntended : Bool := false
  intended : Value := .makeNull
  hasObserved : Bool := false
  observed : Value := .makeNull
  evidence : List EvidenceRef
  evidenceFreshness : FreshnessState
  group : GroupId := default
  groupCause : RootCauseKind := .none
  observationCount : Counter := {}
  reopenCount : UInt64 := 0
  resolutionConfirmations : Nat := 0
  firstSeen : NdoTime
  lastSeen : NdoTime
  lastEvaluated : NdoTime
  resolvedAt : NdoTime := default
  suppression : Option SuppressionId := none
  suppressionOrigin : SuppressionOrigin := .none
  suppressedBy : ActorId := default
  suppressionReason : Text := []
  suppressionExpiresAt : Option NdoTime := none
  acknowledgedBy : ActorId := default
  acknowledgedAt : NdoTime := default
  acknowledgementReason : Text := []
  summary : Text := []
  complianceRelevant : Bool := true
  timeline : List TimelineEntry := []

/-- Keeps the first `limit` bytes of a text and marks the cut. -/
def bounded (limit : Nat) (text : Text) : Text :=
  if text.length ≤ limit then text else text.take limit ++ ascii "..."

def boundedDetail (text : Text) : Text := bounded 240 text

/-- Drops the oldest entries beyond a bound. -/
def keepLast {α : Type} (limit : Nat) (items : List α) : List α := items.drop (items.length - limit)

namespace Finding

def isLive (f : Finding) : Bool := f.state.isLive

/-- An event about the finding as it stands; callers set what differs. -/
def event (f : Finding) (kind : TimelineEventKind) (now : NdoTime) (reason : ReasonCode) (detail : Text) :
    TimelineEntry where
  kind := kind
  target := f.identity.target
  object := f.identity.object
  finding := f.id
  at_ := now
  stateAfter := f.state
  klass := f.klass
  severity := f.severity
  reason := reason
  baselineGeneration := f.baselineGeneration
  baselineEpoch := f.baselineEpoch
  detail := detail

/-- The digest of the finding's first evidence, if it has any. -/
def evidenceDigest (f : Finding) : Digest := (f.evidence.head?.map EvidenceRef.contentDigest).getD Digest.zero

def push (f : Finding) (entry : TimelineEntry) : Finding := { f with timeline := f.timeline ++ [entry] }

def clearGroup (f : Finding) : Finding := { f with group := default, groupCause := .none }

def clearSuppression (f : Finding) : Finding :=
  { f with
    suppression := none
    suppressionOrigin := .none
    suppressedBy := default
    suppressionReason := []
    suppressionExpiresAt := none
    state :=
      if f.state = .suppressed then if f.acknowledgedBy.empty then .open else .acknowledged else f.state }

section Explain
variable [DoubleChars]

def explain (f : Finding) : Text :=
  bounded 1024 <|
    f.klass.toText ++ ascii " at " ++ f.identity.target.str ++ ascii " " ++ f.identity.object.str ++ ascii " " ++
    FieldPath.describe f.identity.path ++ ascii "; baseline generation " ++
    decimal f.baselineGeneration.value.toNat ++ ascii " (" ++ f.baselineAuthority.toText ++ ascii ")" ++
    (if f.hasIntended then ascii "; intended " ++ f.intended.toDisplayText 96 else []) ++
    (if f.hasObserved then ascii "; observed " ++ f.observed.toDisplayText 96 else []) ++
    ascii "; evidence " ++ f.evidenceFreshness.toText ++
    (match f.evidence with
      | ref :: _ => ascii " from " ++ ref.source.str ++ ascii " snapshot " ++ ref.snapshot.str.take 12 ++
          ascii " collected " ++ formatTime ref.collectedAt
      | [] => []) ++
    ascii "; state " ++ f.state.toText ++ ascii "; severity " ++ f.severity.toText ++ ascii "; reason " ++
    f.reason.toText ++
    (if f.rawClass ≠ f.klass then ascii "; raw class " ++ f.rawClass.toText else []) ++
    (match f.suppression with
      | some id => ascii "; suppressed by " ++ f.suppressedBy.str ++ ascii " (" ++ id.str ++ ascii ") reason " ++
          f.suppressionReason
      | none => []) ++
    ascii "; observed " ++ decimal f.observationCount.value.toNat ++ ascii " time(s); reopened " ++
    decimal f.reopenCount.toNat ++ ascii " time(s)"

/-- Bounds the finding's history and explains its current state. -/
def recomputeSummary (limits : RuntimeLimits) (f : Finding) : Finding :=
  let f := { f with timeline := keepLast limits.maxTimelineEntriesPerFinding f.timeline }
  { f with summary := f.explain }

end Explain

end Finding

end DriftObservatory
