import DriftObservatory.Observation

/-! The observatory policy: selectors, rules, and the four decisions read from them. -/

namespace DriftObservatory

/-! ### Selectors and rules -/

/-- A location pattern; an unset member matches everything, a path matches by prefix. -/
structure PolicySelector where
  target : Option TargetId := none
  object : Option ObjectId := none
  pathPrefix : Option FieldPath := none
deriving DecidableEq

namespace PolicySelector

def matchesAt (selector : PolicySelector) (target : TargetId) (object : ObjectId) (path : FieldPath) : Bool :=
  selector.target.all (· == target) && selector.object.all (· == object) &&
    selector.pathPrefix.all fun front => FieldPath.isPrefixOf front path

def specificity (selector : PolicySelector) : Nat :=
  (if selector.target.isSome then 8 else 0) + (if selector.object.isSome then 4 else 0) +
    (if selector.pathPrefix.isSome then 2 else 0)

/-- The bytes a selector contributes to the policy digest. -/
def preimage (selector : PolicySelector) : Text :=
  lengthPrefixed ((selector.target.map StringId.str).getD []) ++
    lengthPrefixed ((selector.object.map StringId.str).getD []) ++
    lengthPrefixed ((selector.pathPrefix.map FieldPath.toText).getD [])

end PolicySelector

structure SeverityRule where
  selector : PolicySelector
  klass : Option DriftClass := none
  minSeverity : Option Severity := none
  severity : Severity
deriving DecidableEq

structure FreshnessRule where
  selector : PolicySelector
  ttlNanos : Int64
deriving DecidableEq

structure FieldClassRule where
  selector : PolicySelector
  comparability : FieldComparability
deriving DecidableEq

structure SuppressionRule where
  id : SuppressionId
  selector : PolicySelector
  klass : Option DriftClass := none
  minSeverity : Option Severity := none
  author : ActorId
  reason : Text
  createdAt : NdoTime
  expiresAt : Option NdoTime := none
deriving DecidableEq

def SuppressionRule.isExpiredAt (rule : SuppressionRule) (now : NdoTime) : Bool := rule.expiresAt.any (· ≤ now)

def kPolicyFormatVersion : UInt16 := 1

structure ObservatoryPolicy where
  id : PolicyId := ⟨ascii "policy/default"⟩
  formatVersion : UInt16 := kPolicyFormatVersion
  freshness : FreshnessPolicy := {}
  resolutionConfirmations : UInt32 := 1
  requireCompleteCoverageForCompliance : Bool := true
  requireAbsenceAuthority : Bool := true
  numericEquivalence : NumericEquivalence := .numeric
  defaultSeverity : Severity := .medium
  severityRules : List SeverityRule := []
  freshnessRules : List FreshnessRule := []
  fieldClassRules : List FieldClassRule := []
  suppressions : List SuppressionRule := []
  sourcePriority : List SourceId := []
  requiredTargets : List TargetId := []
  evidence : EvidenceClass := .unknown
deriving DecidableEq

namespace ObservatoryPolicy

/-! ### The digest -/

def kPolicyTag : Text := ascii "ndo/policy/v1"

def NumericEquivalence.toByte : NumericEquivalence → UInt8
  | .exact => 0
  | .numeric => 1

def minSeverityByte (minSeverity : Option Severity) : UInt8 :=
  (minSeverity.map fun s => UInt8.ofNat (s.rank + 1)).getD 0

def klassText (klass : Option DriftClass) : Text := (klass.map DriftClass.toText).getD []

def severityRulePreimage (rule : SeverityRule) : Text :=
  rule.selector.preimage ++ lengthPrefixed (klassText rule.klass) ++
    [minSeverityByte rule.minSeverity, UInt8.ofNat rule.severity.rank]

def freshnessRulePreimage (rule : FreshnessRule) : Text :=
  rule.selector.preimage ++ bigEndian64 rule.ttlNanos.toUInt64

def fieldClassRulePreimage (rule : FieldClassRule) : Text := rule.selector.preimage ++ [rule.comparability.toByte]

def suppressionRulePreimage (rule : SuppressionRule) : Text :=
  lengthPrefixed rule.id.str ++ rule.selector.preimage ++ lengthPrefixed (klassText rule.klass) ++
    minSeverityByte rule.minSeverity :: lengthPrefixed rule.author.str ++ lengthPrefixed rule.reason ++
    bigEndian64 rule.createdAt.unixNanos.toUInt64 ++
    bigEndian64 ((rule.expiresAt.map fun t => t.unixNanos.toUInt64).getD 0)

def counted {α : Type} (items : List α) (preimage : α → Text) : Text :=
  bigEndian64 (UInt64.ofNat items.length) ++ items.flatMap preimage

def digestPreimage (policy : ObservatoryPolicy) : Text :=
  lengthPrefixed kPolicyTag ++ bigEndian64 1 ++ lengthPrefixed policy.id.str ++
    bigEndian64 policy.formatVersion.toUInt64 ++ bigEndian64 policy.freshness.ttlNanos.toUInt64 ++
    bigEndian64 policy.freshness.agingThresholdPercent.toInt64.toUInt64 ++
    bigEndian64 policy.freshness.maxClockSkewNanos.toUInt64 ++
    ObservationSnapshot.flagByte policy.freshness.ttlAppliesToReceiveTime ::
    bigEndian64 policy.resolutionConfirmations.toUInt64 ++
    [ObservationSnapshot.flagByte policy.requireCompleteCoverageForCompliance,
      ObservationSnapshot.flagByte policy.requireAbsenceAuthority,
      NumericEquivalence.toByte policy.numericEquivalence, UInt8.ofNat policy.defaultSeverity.rank,
      policy.evidence.toByte] ++
    counted policy.severityRules severityRulePreimage ++ counted policy.freshnessRules freshnessRulePreimage ++
    counted policy.fieldClassRules fieldClassRulePreimage ++ counted policy.suppressions suppressionRulePreimage ++
    counted policy.sourcePriority (fun source => lengthPrefixed source.str) ++
    counted policy.requiredTargets (fun target => lengthPrefixed target.str)

def computeDigest (policy : ObservatoryPolicy) : Digest := hashBytes policy.digestPreimage

/-! ### Admission -/

def kMaxPolicyRules : Nat := 4096

def validate (limits : RuntimeLimits) (policy : ObservatoryPolicy) : Status :=
  .firstFailing <|
    [.require (!policy.id.empty && isValidIdentityText policy.id.str)
        (.rejected .encodingMalformed (ascii "policy identity is invalid")),
      .require (policy.formatVersion == kPolicyFormatVersion)
        (.rejected .ledgerSchemaUnsupported (ascii "policy format version is not supported")),
      .require (0 < policy.freshness.ttlNanos)
        (.rejected .encodingMalformed (ascii "freshness ttl must be positive")),
      .require (0 ≤ policy.freshness.agingThresholdPercent.toInt && policy.freshness.agingThresholdPercent.toInt ≤ 100)
        (.rejected .encodingMalformed (ascii "aging threshold percent must be within 0..100")),
      .require (0 ≤ policy.freshness.maxClockSkewNanos)
        (.rejected .encodingMalformed (ascii "clock skew tolerance must not be negative")),
      .require (policy.resolutionConfirmations != 0)
        (.rejected .encodingMalformed (ascii "resolution confirmations must be at least one")),
      .require (policy.severityRules.length ≤ kMaxPolicyRules && policy.freshnessRules.length ≤ kMaxPolicyRules &&
          policy.fieldClassRules.length ≤ kMaxPolicyRules)
        (.limit .limitFieldsExceeded (ascii "policy rule count exceeds the envelope")),
      .require (policy.suppressions.length ≤ limits.maxSuppressions)
        (.limit .limitFieldsExceeded (ascii "policy suppression count exceeds the envelope")),
      .require (policy.sourcePriority.length ≤ limits.maxSources)
        (.limit .limitObjectsExceeded (ascii "policy source order exceeds the envelope")),
      .require (policy.requiredTargets.length ≤ limits.maxTargets)
        (.limit .limitObjectsExceeded (ascii "policy target list exceeds the envelope")),
      .require (policy.severityRules.all fun rule =>
          rule.selector.pathPrefix.all fun front => front.length ≤ limits.maxPathSegments)
        (.limit .limitDepthExceeded (ascii "policy path prefix is too deep")),
      .require (policy.freshnessRules.all fun rule => 0 < rule.ttlNanos)
        (.rejected .encodingMalformed (ascii "freshness rule ttl must be positive"))] ++
    (policy.suppressions.flatMap fun rule =>
      [.require (!rule.id.empty) (.rejected .encodingMalformed (ascii "suppression identity is invalid")),
        .require (!rule.author.empty) (.rejected .encodingMalformed (ascii "suppression author is invalid"))]) ++
    [.require (policy.sourcePriority.all fun source => !source.empty && isValidIdentityText source.str)
        (.rejected .encodingMalformed (ascii "source priority identity is invalid")),
      .require (policy.requiredTargets.all fun target => !target.empty && isValidIdentityText target.str)
        (.rejected .encodingMalformed (ascii "required target identity is invalid"))]

/-! ### Decisions -/

section Decisions
variable (policy : ObservatoryPolicy) (target : TargetId) (object : ObjectId) (path : FieldPath)

/-- The lifetime of the last most specific matching rule; `best` starts below every specificity. -/
def ttlFor : Int64 :=
  (policy.freshnessRules.foldl (fun (acc : Int64 × Int) rule =>
    if rule.selector.matchesAt target object path && acc.2 ≤ (rule.selector.specificity : Int)
    then (rule.ttlNanos, (rule.selector.specificity : Int)) else acc) (policy.freshness.ttlNanos, -1)).1

/-- One round of the severity loop: the accumulator is the severity so far and the best specificity. -/
def severityStep (klass : DriftClass) (acc : Severity × Int) (rule : SeverityRule) : Severity × Int :=
  let specificity : Int := rule.selector.specificity * 4 + (if rule.klass.isSome then 1 else 0) +
    (if rule.minSeverity.isSome then 1 else 0)
  if rule.selector.matchesAt target object path && rule.klass.all (· == klass) &&
      rule.minSeverity.all (fun least => least.rank ≤ acc.1.rank) && acc.2 ≤ specificity
  then (rule.severity, specificity) else acc

def severityFor (klass : DriftClass) : Severity :=
  (policy.severityRules.foldl (severityStep target object path klass) (policy.defaultSeverity, -1)).1

/-- Policy narrows comparison only. -/
def classifyField (intentView : FieldComparability) : FieldComparability :=
  policy.fieldClassRules.foldl (fun rank rule =>
    if rule.selector.matchesAt target object path then rank.max rule.comparability else rank) intentView

/-- The first rule in declaration order that applies at `now`. -/
def findSuppression (klass : DriftClass) (severity : Severity) (now : NdoTime) : Option SuppressionRule :=
  policy.suppressions.find? fun rule =>
    !rule.isExpiredAt now && rule.selector.matchesAt target object path && rule.klass.all (· == klass) &&
      rule.minSeverity.all (fun least => least.rank ≤ severity.rank)

end Decisions

end ObservatoryPolicy

end DriftObservatory
