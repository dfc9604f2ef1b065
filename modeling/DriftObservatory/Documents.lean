import DriftObservatory.Engine
import DriftObservatory.Persistence

/-! The other interchange documents: intent generations, source descriptors and policies. -/

namespace DriftObservatory

open Json

/-! ### Intent generations -/

def encodeIntentDocument (document : IntentGenerationDocument) : Value :=
  object [
    ("schema", .makeString (ascii "ndo/intent-generation/1")),
    ("target", .makeString document.target.str),
    ("generation", .makeUint document.generation.value),
    ("epoch", .makeUint document.epoch.value),
    ("authority", .makeString document.authority.toText),
    ("policy", .makeString document.policy.str),
    ("authored_at", .makeString (formatTime document.authoredAt)),
    ("evidence", .makeString document.evidence.toText),
    ("objects", .makeList (document.objects.entries.map fun entry => encodeIntentObject entry.1 entry.2))]

/-- A field of an intent document. -/
def decodeDeclaredField (limits : RuntimeLimits) (v : Value) : Except Status (FieldPath × IntentField) := do
  let what := "intent document.field"
  let map ← orRefuse (.rejected .encodingMalformed (ascii "intent document: field must be an object")) v.asMap
  checkMembers map ["path", "value", "comparability"] what
  checkMemberKinds map [("path", .text), ("comparability", .text)] what
  let path ← decodeFieldPath map limits what
  let value ← requireMember map "value" what
  let comparability ← optionalText map "comparability" what FieldComparability.tryParse "is not recognized" .managed
  .ok (path, { path := path, intended := value, comparability := comparability })

/-- An object of an intent document. -/
def decodeDeclaredObject (limits : RuntimeLimits) (v : Value) : Except Status (ObjectId × IntentObject) := do
  let what := "intent document.object"
  let map ← orRefuse (.rejected .encodingMalformed (ascii "intent document: object must be an object")) v.asMap
  checkMembers map ["id", "existence", "fields"] what
  checkMemberKinds map [("id", .text), ("existence", .text), ("fields", .sequence)] what
  let id ← requireText map "id" what StringId.tryParse "is not a valid identity"
  let existence ← optionalText map "existence" what ObjectExistence.tryParse "is not recognized" .required
  let fields ← requireList map "fields" what
  if limits.maxFieldsPerObject < fields.length then
    .error (.limit .limitFieldsExceeded (ascii "intent field count exceeds the envelope"))
  else
    let fields ← fields.mapM (decodeDeclaredField limits)
    .ok (id, { id := id, existence := existence, fields := OrdMap.emplaceAll fields })

def decodeIntentDocument (limits : RuntimeLimits) (v : Value) : Except Status IntentGenerationDocument := do
  let what := "intent document"
  let root ← requireObject v what
  checkMembers root ["schema", "target", "generation", "epoch", "authority", "policy", "authored_at", "evidence",
    "objects"] what
  checkMemberKinds root [("target", .text), ("generation", .integer), ("epoch", .integer), ("authority", .text),
    ("policy", .text), ("authored_at", .text), ("evidence", .text), ("objects", .sequence)] what
  requireSchema root "ndo/intent-generation/1" what
  let target ← requireText root "target" what StringId.tryParse "is not a valid identity"
  let generation ← requireUint root "generation" what
  let epoch ← requireUint root "epoch" what
  let authority ← requireText root "authority" what IntentAuthority.tryParse "is not recognized"
  let policy ← requireText root "policy" what StringId.tryParse "is not a valid identity"
  let authoredAt ← requireText root "authored_at" what tryParseTime "is not an RFC 3339 timestamp"
  let evidence ← optionalText root "evidence" what EvidenceClass.tryParse "is not recognized" .unknown
  let objects ← requireList root "objects" what
  if limits.maxObjectsPerTarget < objects.length then
    .error (.limit .limitObjectsExceeded (ascii "intent object count exceeds the envelope"))
  else
    let objects ← objects.mapM (decodeDeclaredObject limits)
    let document : IntentGenerationDocument := {
      target := target, generation := ⟨generation⟩, epoch := ⟨epoch⟩, authority := authority, policy := policy
      authoredAt := authoredAt, objects := OrdMap.emplaceAll objects, evidence := evidence }
    let status := document.validate limits
    if status.ok then .ok document else .error status

/-! ### Source descriptors -/

def encodeSourceDescriptor (descriptor : SourceDescriptor) : Value :=
  object [
    ("schema", .makeString (ascii "ndo/source/1")),
    ("id", .makeString descriptor.id.str),
    ("epoch", .makeUint descriptor.epoch.value),
    ("incarnation", .makeUint descriptor.incarnation.value),
    ("registered_at", .makeString (formatTime descriptor.registeredAt)),
    ("provenance", .makeString descriptor.provenance),
    ("evidence", .makeString descriptor.evidence.toText),
    ("capabilities", encodeCapabilities descriptor.capabilities)]

/-- The capabilities of a document with the given name; `decodeCapabilities` is the reader of an observation. -/
def decodeCapabilitiesOf (what : String) (map : Members) : Except Status SourceCapabilities := do
  checkMembers map ["asserts_absence", "complete_coverage", "reports_nested_paths", "evidence"] what
  checkMemberKinds map [("asserts_absence", .boolean), ("complete_coverage", .boolean),
    ("reports_nested_paths", .boolean), ("evidence", .text)] what
  let evidence ← optionalText map "evidence" what EvidenceClass.tryParse "is not recognized" .unknown
  .ok {
    assertsAbsence := (optionalBool map "asserts_absence").getD false
    completeCoverage := (optionalBool map "complete_coverage").getD false
    reportsNestedPaths := (optionalBool map "reports_nested_paths").getD false
    evidence := evidence }

def decodeProvenance (map : Members) (limits : RuntimeLimits) : Except Status Text :=
  let provenance := (optionalString map "provenance").getD []
  if limits.maxLeafBytes < provenance.length then
    .error (.limit .limitBytesExceeded (ascii "provenance exceeds the envelope"))
  else .ok provenance

def decodeSourceDescriptor (limits : RuntimeLimits) (v : Value) : Except Status SourceDescriptor := do
  let what := "source descriptor"
  let root ← requireObject v what
  checkMembers root ["schema", "id", "epoch", "incarnation", "registered_at", "provenance", "evidence",
    "capabilities"] what
  checkMemberKinds root [("id", .text), ("epoch", .integer), ("incarnation", .integer), ("registered_at", .text),
    ("provenance", .text), ("evidence", .text), ("capabilities", .object)] what
  requireSchema root "ndo/source/1" what
  let id ← requireText root "id" what StringId.tryParse "is not a valid identity"
  let epoch ← requireUint root "epoch" what
  let incarnation ← requireUint root "incarnation" what
  let registeredAt ← optionalText root "registered_at" what tryParseTime "is not an RFC 3339 timestamp" default
  let provenance ← decodeProvenance root limits
  let evidence ← optionalText root "evidence" what EvidenceClass.tryParse "is not recognized" .unknown
  let capabilities ← match findMember root "capabilities" with
    | none => .ok {}
    | some member => do
      let map ← orRefuse (memberError what (ascii "capabilities") "must be an object") member.asMap
      decodeCapabilitiesOf "source descriptor.capabilities" map
  let descriptor : SourceDescriptor := {
    id := id, capabilities := capabilities, registeredAt := registeredAt, epoch := ⟨epoch⟩
    incarnation := ⟨incarnation⟩, provenance := provenance, evidence := evidence }
  if !descriptor.epoch.isSet || !descriptor.incarnation.isSet then
    .error (.rejected .fencedStaleIncarnation (ascii "source descriptor must declare its epoch and incarnation"))
  else .ok descriptor

/-! ### Encoding a policy -/

/-- The members that are there; the others are left out of the object. -/
def presentMembers (members : List (String × Option Value)) : List (String × Value) :=
  members.filterMap fun member => member.2.map fun value => (member.1, value)

def encodeSelector (selector : PolicySelector) : List (String × Option Value) := [
  ("target", selector.target.map fun id => .makeString id.str),
  ("object", selector.object.map fun id => .makeString id.str),
  ("path_prefix", selector.pathPrefix.map fun path => .makeString (FieldPath.toText path))]

def encodeSeverityRule (rule : SeverityRule) : Value :=
  object <| presentMembers <| encodeSelector rule.selector ++ [
    ("class", rule.klass.map fun klass => .makeString klass.toText),
    ("min_severity", rule.minSeverity.map fun severity => .makeString severity.toText),
    ("severity", some (.makeString rule.severity.toText))]

def encodeFreshnessRule (rule : FreshnessRule) : Value :=
  object <| presentMembers <| encodeSelector rule.selector ++ [("ttl_nanos", some (.makeInt rule.ttlNanos))]

def encodeFieldClassRule (rule : FieldClassRule) : Value :=
  object <| presentMembers <| encodeSelector rule.selector ++
    [("comparability", some (.makeString rule.comparability.toText))]

def encodeSuppressionRule (rule : SuppressionRule) : Value :=
  object <| presentMembers <| encodeSelector rule.selector ++ [
    ("id", some (.makeString rule.id.str)),
    ("class", rule.klass.map fun klass => .makeString klass.toText),
    ("min_severity", rule.minSeverity.map fun severity => .makeString severity.toText),
    ("author", some (.makeString rule.author.str)),
    ("reason", some (.makeString rule.reason)),
    ("created_at", some (.makeString (formatTime rule.createdAt))),
    ("expires_at", rule.expiresAt.map fun time => .makeString (formatTime time))]

def encodeFreshness (freshness : FreshnessPolicy) : Value :=
  object [
    ("ttl_nanos", .makeInt freshness.ttlNanos),
    ("aging_threshold_percent", .makeInt freshness.agingThresholdPercent.toInt64),
    ("max_clock_skew_nanos", .makeInt freshness.maxClockSkewNanos),
    ("ttl_applies_to_receive_time", .makeBool freshness.ttlAppliesToReceiveTime)]

def NumericEquivalence.toText : NumericEquivalence → Text
  | .exact => ascii "exact"
  | .numeric => ascii "numeric"

def encodePolicy (policy : ObservatoryPolicy) : Value :=
  object [
    ("schema", .makeString (ascii "ndo/policy/1")),
    ("id", .makeString policy.id.str),
    ("format_version", .makeUint policy.formatVersion.toUInt64),
    ("freshness", encodeFreshness policy.freshness),
    ("resolution_confirmations", .makeUint policy.resolutionConfirmations.toUInt64),
    ("require_complete_coverage_for_compliance", .makeBool policy.requireCompleteCoverageForCompliance),
    ("require_absence_authority", .makeBool policy.requireAbsenceAuthority),
    ("numeric_equivalence", .makeString policy.numericEquivalence.toText),
    ("default_severity", .makeString policy.defaultSeverity.toText),
    ("evidence", .makeString policy.evidence.toText),
    ("severity_rules", .makeList (policy.severityRules.map encodeSeverityRule)),
    ("freshness_rules", .makeList (policy.freshnessRules.map encodeFreshnessRule)),
    ("field_class_rules", .makeList (policy.fieldClassRules.map encodeFieldClassRule)),
    ("suppressions", .makeList (policy.suppressions.map encodeSuppressionRule)),
    ("source_priority", .makeList (policy.sourcePriority.map fun source => .makeString source.str)),
    ("required_targets", .makeList (policy.requiredTargets.map fun target => .makeString target.str))]

/-! ### Decoding a policy -/

def policyError (text : String) : Status := .rejected .encodingMalformed (ascii text)

/-- Reads a text member that may be missing. -/
def optionalParsed {α : Type} (map : Members) (name : String) (parse : Text → Option α) (failure : Status) :
    Except Status (Option α) :=
  match optionalString map name with
  | none => .ok none
  | some text => (orRefuse failure (parse text)).map some

/-- Reads a required text member that is refused with a text of its own. -/
def requireParsed {α : Type} (map : Members) (name what : String) (parse : Text → Option α) (failure : Status) :
    Except Status α := do
  let text ← requireString map name what
  orRefuse failure (parse text)

def decodeSelector (map : Members) (limits : RuntimeLimits) (what : String) : Except Status PolicySelector := do
  checkMemberKinds map [("target", .text), ("object", .text), ("path_prefix", .text)] what
  let target ← optionalParsed map "target" StringId.tryParse
    (memberError what (ascii "target") "is not a valid identity")
  let object ← optionalParsed map "object" StringId.tryParse
    (memberError what (ascii "object") "is not a valid identity")
  let pathPrefix ← optionalParsed map "path_prefix" (FieldPath.tryParse limits)
    (memberError what (ascii "path_prefix") "is not a valid field path")
  .ok { target := target, object := object, pathPrefix := pathPrefix }

def decodeSeverityRule (limits : RuntimeLimits) (v : Value) : Except Status SeverityRule := do
  let what := "policy.severity_rule"
  let map ← orRefuse (policyError "policy: severity rule must be an object") v.asMap
  checkMembers map ["target", "object", "path_prefix", "class", "min_severity", "severity"] what
  checkMemberKinds map [("class", .text), ("min_severity", .text), ("severity", .text)] what
  let selector ← decodeSelector map limits what
  let klass ← optionalParsed map "class" DriftClass.tryParse (policyError "policy: severity rule class is unknown")
  let minSeverity ← optionalParsed map "min_severity" Severity.tryParse
    (policyError "policy: severity rule min_severity is unknown")
  let severity ← optionalParsed map "severity" Severity.tryParse (policyError "policy: severity is unknown")
  .ok { selector := selector, klass := klass, minSeverity := minSeverity, severity := severity.getD .medium }

def decodeFreshnessRule (limits : RuntimeLimits) (v : Value) : Except Status FreshnessRule := do
  let what := "policy.freshness_rule"
  let map ← orRefuse (policyError "policy: freshness rule must be an object") v.asMap
  checkMembers map ["target", "object", "path_prefix", "ttl_nanos"] what
  checkMemberKinds map [("ttl_nanos", .integer)] what
  let selector ← decodeSelector map limits what
  let ttlNanos ← orRefuse (policyError "policy: freshness rule ttl is required")
    ((optionalInt map "ttl_nanos").filter fun ttl => 0 < ttl)
  .ok { selector := selector, ttlNanos := ttlNanos }

def decodeFieldClassRule (limits : RuntimeLimits) (v : Value) : Except Status FieldClassRule := do
  let what := "policy.field_class_rule"
  let map ← orRefuse (policyError "policy: field class rule must be an object") v.asMap
  checkMembers map ["target", "object", "path_prefix", "comparability"] what
  checkMemberKinds map [("comparability", .text)] what
  let selector ← decodeSelector map limits what
  let text ← orRefuse (policyError "policy: comparability is required") (optionalString map "comparability")
  let comparability ← orRefuse (policyError "policy: comparability is unknown") (FieldComparability.tryParse text)
  .ok { selector := selector, comparability := comparability }

def decodeSuppressionRule (limits : RuntimeLimits) (v : Value) : Except Status SuppressionRule := do
  let what := "policy.suppression"
  let map ← orRefuse (policyError "policy: suppression must be an object") v.asMap
  checkMembers map ["id", "target", "object", "path_prefix", "class", "min_severity", "author", "reason",
    "created_at", "expires_at"] what
  checkMemberKinds map [("id", .text), ("class", .text), ("min_severity", .text), ("author", .text),
    ("reason", .text), ("created_at", .text), ("expires_at", .text)] what
  let selector ← decodeSelector map limits what
  let id ← requireParsed map "id" what StringId.tryParse (policyError "policy: suppression id is invalid")
  let author ← requireParsed map "author" what StringId.tryParse (policyError "policy: suppression author is invalid")
  let reason ← requireString map "reason" what
  let createdAt ← requireParsed map "created_at" what tryParseTime
    (policyError "policy: suppression created_at is invalid")
  let expiresAt ← optionalParsed map "expires_at" tryParseTime
    (policyError "policy: suppression expires_at is invalid")
  let klass ← optionalParsed map "class" DriftClass.tryParse (policyError "policy: suppression class is unknown")
  let minSeverity ← optionalParsed map "min_severity" Severity.tryParse
    (policyError "policy: suppression min_severity is unknown")
  .ok {
    id := id, selector := selector, klass := klass, minSeverity := minSeverity, author := author, reason := reason
    createdAt := createdAt, expiresAt := expiresAt }

/-- The elements of a rule list that may be missing, at most `bound` of them. -/
def decodeRules {α : Type} (root : Members) (name : String) (bound : Nat) (decode : Value → Except Status α) :
    Except Status (List α) :=
  match findMember root name with
  | none => .ok []
  | some member => do
    let rules ← orRefuse
      (.rejected .encodingMalformed (ascii "policy: " ++ ascii name ++ ascii " must be a sequence")) member.asList
    if bound < rules.length then
      .error (.limit .limitFieldsExceeded (ascii "policy: " ++ ascii name ++ ascii " exceeds the envelope"))
    else rules.mapM decode

/-- The identities of a list that may be missing. -/
def decodeIdentities {tag : IdTag} (root : Members) (name : String) (notText invalid : Status) :
    Except Status (List (StringId tag)) :=
  match findMember root name with
  | none => .ok []
  | some member => do
    let entries ← orRefuse
      (.rejected .encodingMalformed (ascii "policy: " ++ ascii name ++ ascii " must be a sequence")) member.asList
    entries.mapM fun entry => do
      let text ← orRefuse notText entry.asString
      orRefuse invalid (StringId.tryParse text)

/-- The share of the lifetime after which evidence ages, when it is given. -/
def decodeAging (map : Members) (absent : Int32) : Except Status Int32 :=
  match optionalInt map "aging_threshold_percent" with
  | none => .ok absent
  | some aging =>
    if aging < 0 ∨ 100 < aging then
      .error (policyError "policy.freshness: aging_threshold_percent is out of range")
    else .ok aging.toInt32

def decodeFreshness (map : Members) : Except Status FreshnessPolicy := do
  let what := "policy.freshness"
  let absent : FreshnessPolicy := {}
  checkMembers map ["ttl_nanos", "aging_threshold_percent", "max_clock_skew_nanos", "ttl_applies_to_receive_time"] what
  checkMemberKinds map [("ttl_nanos", .integer), ("aging_threshold_percent", .integer),
    ("max_clock_skew_nanos", .integer), ("ttl_applies_to_receive_time", .boolean)] what
  let ttlNanos ← orRefuse (policyError "policy.freshness: ttl_nanos is required") (optionalInt map "ttl_nanos")
  let aging ← decodeAging map absent.agingThresholdPercent
  .ok {
    ttlNanos := ttlNanos
    agingThresholdPercent := aging
    maxClockSkewNanos := (optionalInt map "max_clock_skew_nanos").getD absent.maxClockSkewNanos
    ttlAppliesToReceiveTime :=
      (optionalBool map "ttl_applies_to_receive_time").getD absent.ttlAppliesToReceiveTime }

def decodeFormatVersion (root : Members) : Except Status UInt16 := do
  let version ← requireUint root "format_version" "policy"
  if 0xFFFF < version then .error (policyError "policy: format version is out of range")
  else if version.toUInt16 ≠ kPolicyFormatVersion then
    .error (.rejected .ledgerSchemaUnsupported (ascii "policy: format version is not supported"))
  else .ok version.toUInt16

/-- How many confirmations resolve a finding, when it is given. -/
def decodeRequiredConfirmations (root : Members) (absent : UInt32) : Except Status UInt32 :=
  match optionalUint root "resolution_confirmations" with
  | none => .ok absent
  | some count =>
    if count = 0 ∨ 0xFFFFFFFF < count then .error (policyError "policy: resolution_confirmations is out of range")
    else .ok count.toUInt32

/-- Compared as a whole text, not as a C string. -/
def NumericEquivalence.tryParse (text : Text) : Option NumericEquivalence := parseName [.exact, .numeric] toText text

def decodePolicy (limits : RuntimeLimits) (v : Value) : Except Status ObservatoryPolicy := do
  let what := "policy"
  let absent : ObservatoryPolicy := {}
  let root ← requireObject v what
  checkMembers root ["schema", "id", "format_version", "freshness", "resolution_confirmations",
    "require_complete_coverage_for_compliance", "require_absence_authority", "numeric_equivalence",
    "default_severity", "evidence", "severity_rules", "freshness_rules", "field_class_rules", "suppressions",
    "source_priority", "required_targets"] what
  checkMemberKinds root [("id", .text), ("format_version", .integer), ("resolution_confirmations", .integer),
    ("require_complete_coverage_for_compliance", .boolean), ("require_absence_authority", .boolean),
    ("numeric_equivalence", .text), ("default_severity", .text), ("evidence", .text), ("severity_rules", .sequence),
    ("freshness_rules", .sequence), ("field_class_rules", .sequence), ("suppressions", .sequence),
    ("source_priority", .sequence), ("required_targets", .sequence)] what
  let id ← requireParsed root "id" what StringId.tryParse (policyError "policy: id is not a valid identity")
  let formatVersion ← decodeFormatVersion root
  let member ← requireMember root "freshness" what
  let map ← orRefuse (memberError what (ascii "freshness") "must be an object") member.asMap
  let freshness ← decodeFreshness map
  let confirmations ← decodeRequiredConfirmations root absent.resolutionConfirmations
  let equivalence ← optionalParsed root "numeric_equivalence" NumericEquivalence.tryParse
    (policyError "policy: numeric_equivalence is not recognized")
  let defaultSeverity ← optionalParsed root "default_severity" Severity.tryParse
    (policyError "policy: default_severity is not recognized")
  let evidence ← optionalParsed root "evidence" EvidenceClass.tryParse (policyError "policy: evidence is not recognized")
  let severityRules ← decodeRules root "severity_rules" ObservatoryPolicy.kMaxPolicyRules (decodeSeverityRule limits)
  let freshnessRules ← decodeRules root "freshness_rules" ObservatoryPolicy.kMaxPolicyRules
    (decodeFreshnessRule limits)
  let fieldClassRules ← decodeRules root "field_class_rules" ObservatoryPolicy.kMaxPolicyRules
    (decodeFieldClassRule limits)
  let suppressions ← decodeRules root "suppressions" limits.maxSuppressions (decodeSuppressionRule limits)
  let sourcePriority ← decodeIdentities root "source_priority" (policyError "policy: source identity must be a string")
    (policyError "policy: source identity is invalid")
  let requiredTargets ← decodeIdentities root "required_targets"
    (policyError "policy: target identity must be a string") (policyError "policy: target identity is invalid")
  let policy : ObservatoryPolicy := {
    id := id
    formatVersion := formatVersion
    freshness := freshness
    resolutionConfirmations := confirmations
    requireCompleteCoverageForCompliance :=
      (optionalBool root "require_complete_coverage_for_compliance").getD absent.requireCompleteCoverageForCompliance
    requireAbsenceAuthority :=
      (optionalBool root "require_absence_authority").getD absent.requireAbsenceAuthority
    numericEquivalence := equivalence.getD absent.numericEquivalence
    defaultSeverity := defaultSeverity.getD absent.defaultSeverity
    severityRules := severityRules
    freshnessRules := freshnessRules
    fieldClassRules := fieldClassRules
    suppressions := suppressions
    sourcePriority := sourcePriority
    requiredTargets := requiredTargets
    evidence := evidence.getD absent.evidence }
  let status := policy.validate limits
  if status.ok then .ok policy else .error status

end DriftObservatory
