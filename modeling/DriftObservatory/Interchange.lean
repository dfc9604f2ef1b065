import DriftObservatory.Codec
import DriftObservatory.Finding

/-! The interchange document of an observation. -/

namespace DriftObservatory

open Json

/-- Refuses a document whose declared schema is missing or is not the expected one. -/
def requireSchema (map : Members) (expected what : String) : Except Status Unit := do
  let schema ← requireString map "schema" what
  if schema = ascii expected then .ok ()
  else .error (.rejected .ledgerSchemaUnsupported
    (ascii what ++ ascii ": schema " ++ schema ++ ascii " is not supported"))

def requireObject (v : Value) (what : String) : Except Status Members :=
  orRefuse (.rejected .encodingMalformed (ascii what ++ ascii ": top-level value must be an object")) v.asMap

/-! ### Encoding -/

def encodeField (path : FieldPath) (value : Value) : Value :=
  object [("path", .makeString (FieldPath.toText path)), ("value", value)]

def encodeObservedObject (id : ObjectId) (observed : ObservedObject) : Value :=
  object [
    ("id", .makeString id.str),
    ("presence", .makeString observed.presence.toText),
    ("fields", .makeList (observed.fields.entries.map fun field => encodeField field.1 field.2))]

def encodeCapabilities (capabilities : SourceCapabilities) : Value :=
  object [
    ("asserts_absence", .makeBool capabilities.assertsAbsence),
    ("complete_coverage", .makeBool capabilities.completeCoverage),
    ("reports_nested_paths", .makeBool capabilities.reportsNestedPaths),
    ("evidence", .makeString capabilities.evidence.toText)]

def encodeObservationDocument (s : ObservationSnapshot) : Value :=
  object [
    ("schema", .makeString (ascii "ndo/observation/1")),
    ("source", .makeString s.source.str),
    ("epoch", .makeUint s.epoch.value),
    ("incarnation", .makeUint s.incarnation.value),
    ("sequence", .makeUint s.sequence.value),
    ("target", .makeString s.target.str),
    ("collected_at", .makeString (formatTime s.collectedAt)),
    ("ttl_nanos", .makeInt s.ttlNanos),
    ("coverage", .makeString s.coverage.toText),
    ("evidence", .makeString s.evidence.toText),
    ("unobserved", .makeList (s.unobserved.map fun id => .makeString id.str)),
    ("capabilities", encodeCapabilities s.capabilities),
    ("objects", .makeList (s.objects.entries.map fun entry => encodeObservedObject entry.1 entry.2))]

/-! ### Decoding -/

def decodeFieldPath (map : Members) (limits : RuntimeLimits) (what : String) : Except Status FieldPath :=
  requireText map "path" what (FieldPath.tryParse limits) "is not a valid field path"

def decodeObservedField (limits : RuntimeLimits) (v : Value) : Except Status (FieldPath × Value) := do
  let map ← orRefuse (.rejected .encodingMalformed (ascii "observation document: field must be an object")) v.asMap
  checkMembers map ["path", "value"] "observation document.field"
  checkMemberKinds map [("path", .text)] "observation document.field"
  let path ← decodeFieldPath map limits "observation document.field"
  let value ← requireMember map "value" "observation document.field"
  .ok (path, value)

def decodeObservedObject (limits : RuntimeLimits) (v : Value) : Except Status (ObjectId × ObservedObject) := do
  let what := "observation document.object"
  let map ← orRefuse (.rejected .encodingMalformed (ascii "observation document: object must be an object")) v.asMap
  checkMembers map ["id", "presence", "fields"] what
  checkMemberKinds map [("id", .text), ("presence", .text), ("fields", .sequence)] what
  let id ← requireText map "id" what StringId.tryParse "is not a valid identity"
  let presence ← optionalText map "presence" what ObjectPresence.tryParse "is not recognized" .unknown
  let fields ← requireList map "fields" what
  if limits.maxFieldsPerObject < fields.length then
    .error (.limit .limitFieldsExceeded (ascii "observed field count exceeds the envelope"))
  else
    let fields ← fields.mapM (decodeObservedField limits)
    .ok (id, { id := id, presence := presence, fields := OrdMap.emplaceAll fields })

def decodeCapabilities (map : Members) : Except Status SourceCapabilities := do
  let what := "observation document.capabilities"
  checkMembers map ["asserts_absence", "complete_coverage", "reports_nested_paths", "evidence"] what
  checkMemberKinds map [("asserts_absence", .boolean), ("complete_coverage", .boolean),
    ("reports_nested_paths", .boolean), ("evidence", .text)] what
  let evidence ← optionalText map "evidence" what EvidenceClass.tryParse "is not recognized" .unknown
  .ok {
    assertsAbsence := (optionalBool map "asserts_absence").getD false
    completeCoverage := (optionalBool map "complete_coverage").getD false
    reportsNestedPaths := (optionalBool map "reports_nested_paths").getD false
    evidence := evidence }

/-- A sequence of identities. -/
def decodeIdentity {α : Type} (name what : String) (parse : Text → Option α) (detail : String) (v : Value) :
    Except Status α := do
  let text ← orRefuse (memberError what (ascii name) "entries must be strings") v.asString
  orRefuse (memberError what (ascii name) detail) (parse text)

def decodeTtl (map : Members) (what : String) : Except Status Int64 :=
  match optionalInt map "ttl_nanos" with
  | none => .ok 0
  | some ttl => if ttl < 0 then .error (memberError what (ascii "ttl_nanos") "must not be negative") else .ok ttl

def decodeObservationDocument (limits : RuntimeLimits) (v : Value) : Except Status ObservationSnapshot := do
  let what := "observation document"
  let root ← requireObject v what
  checkMembers root ["schema", "source", "epoch", "incarnation", "sequence", "target", "collected_at", "ttl_nanos",
    "coverage", "evidence", "unobserved", "capabilities", "objects", "snapshot_id"] what
  checkMemberKinds root [("source", .text), ("epoch", .integer), ("incarnation", .integer), ("sequence", .integer),
    ("target", .text), ("collected_at", .text), ("ttl_nanos", .integer), ("coverage", .text), ("evidence", .text),
    ("unobserved", .sequence), ("capabilities", .object), ("objects", .sequence), ("snapshot_id", .text)] what
  requireSchema root "ndo/observation/1" what
  let source ← requireText root "source" what StringId.tryParse "is not a valid identity"
  let epoch ← requireUint root "epoch" what
  let incarnation ← requireUint root "incarnation" what
  let sequence ← requireUint root "sequence" what
  let target ← requireText root "target" what StringId.tryParse "is not a valid identity"
  let collectedAt ← requireText root "collected_at" what tryParseTime "is not an RFC 3339 timestamp"
  let ttlNanos ← decodeTtl root what
  let coverage ← optionalText root "coverage" what ObservationCoverage.tryParse "is not recognized" .unknown
  let evidence ← optionalText root "evidence" what EvidenceClass.tryParse "is not recognized" .unknown
  let unobserved ← optionalList root "unobserved" what
  let unobserved ← unobserved.mapM
    (decodeIdentity "unobserved" what StringId.tryParse "entry is not a valid identity")
  let capabilities ← match findMember root "capabilities" with
    | none => .ok {}
    | some member => do
      let map ← orRefuse (memberError what (ascii "capabilities") "must be an object") member.asMap
      decodeCapabilities map
  let objects ← requireList root "objects" what
  if limits.maxObjectsPerTarget < objects.length then
    .error (.limit .limitObjectsExceeded (ascii "observation object count exceeds the envelope"))
  else
    let objects ← objects.mapM (decodeObservedObject limits)
    let snapshot : ObservationSnapshot := {
      snapshotId := default, source := source, epoch := ⟨epoch⟩, incarnation := ⟨incarnation⟩
      sequence := ⟨sequence⟩, target := target, collectedAt := collectedAt, receivedAt := default
      ttlNanos := ttlNanos, coverage := coverage, unobserved := unobserved, objects := OrdMap.emplaceAll objects
      capabilities := capabilities, evidence := evidence }
    let snapshot := { snapshot with snapshotId := snapshot.computeSnapshotId }
    if (optionalString root "snapshot_id").any (· != snapshot.snapshotId.str) then
      .error (.rejected .ledgerIntegrityDigestMismatch
        (ascii "declared snapshot identity does not match observation content"))
    else
      let status := snapshot.validate limits
      if status.ok then .ok snapshot else .error status

end DriftObservatory
