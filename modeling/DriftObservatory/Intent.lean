import DriftObservatory.Value
import DriftObservatory.Lib.OrdMap

/-! Observation time and authoritative intent: generation documents, their content digest and admission
    checks, and the committed baseline of a target. -/

namespace DriftObservatory

/-! ### Time -/

/-- Nanoseconds since the Unix epoch; zero means unset. -/
structure NdoTime where
  unixNanos : Int64
deriving DecidableEq

namespace NdoTime

instance : Inhabited NdoTime := ⟨⟨0⟩⟩

theorem unixNanos_injective : Function.Injective unixNanos := fun a b h => by
  cases a
  cases b
  simpa using h

instance : LinearOrder NdoTime := LinearOrder.lift' unixNanos unixNanos_injective

def isSet (t : NdoTime) : Bool := t.unixNanos != 0

end NdoTime

/-- `CheckedAddSigned`: the exact sum, refused when it leaves the 64-bit range. -/
def checkedAddSigned (a b : Int64) : Option Int64 :=
  let sum := a.toInt + b.toInt
  if -(2 ^ 63) ≤ sum ∧ sum < 2 ^ 63 then some (Int64.ofInt sum) else none

/-- `CheckedSubSigned`, which refuses to negate the least value. -/
def checkedSubSigned (a b : Int64) : Option Int64 :=
  if b = Int64.minValue then none else checkedAddSigned a (-b)

def tryDifference (later earlier : NdoTime) : Option Int64 := checkedSubSigned later.unixNanos earlier.unixNanos

/-! ### Intent documents -/

inductive IntentAuthority
  | unknown | intentFabric | configurationFabric | localPolicy | importedDocument
deriving DecidableEq, Repr

def IntentAuthority.toText (value : IntentAuthority) : Text := ascii <| match value with
  | .unknown => "unknown"
  | .intentFabric => "intent-fabric"
  | .configurationFabric => "configuration-fabric"
  | .localPolicy => "local-policy"
  | .importedDocument => "imported-document"

/-- How a field takes part in comparison, from the widest to the narrowest. -/
inductive FieldComparability
  | managed | observeOnly | unmanaged | unobservable | unsupported
deriving DecidableEq, Repr

namespace FieldComparability

def toText (value : FieldComparability) : Text := ascii <| match value with
  | .managed => "managed"
  | .observeOnly => "observe-only"
  | .unmanaged => "unmanaged"
  | .unobservable => "unobservable"
  | .unsupported => "unsupported"

def toByte : FieldComparability → UInt8
  | managed => 0
  | observeOnly => 1
  | unmanaged => 2
  | unobservable => 3
  | unsupported => 4

/-- The narrower of two views: the larger rank. -/
def max (a b : FieldComparability) : FieldComparability := if a.toByte < b.toByte then b else a

end FieldComparability

structure IntentField where
  path : FieldPath
  intended : Value
  comparability : FieldComparability := .managed

inductive ObjectExistence
  | required | forbidden
deriving DecidableEq, Repr

namespace ObjectExistence

def toText (value : ObjectExistence) : Text := ascii <| match value with
  | .required => "required"
  | .forbidden => "forbidden"

def toByte : ObjectExistence → UInt8
  | required => 0
  | forbidden => 1

end ObjectExistence

structure IntentObject where
  id : ObjectId
  existence : ObjectExistence := .required
  fields : OrdMap FieldPath IntentField

/-- One generation of intent for one target, as an authority publishes it. -/
structure IntentGenerationDocument where
  target : TargetId
  generation : IntentGeneration
  epoch : FabricEpoch
  authority : IntentAuthority
  policy : PolicyId
  authoredAt : NdoTime
  objects : OrdMap ObjectId IntentObject
  evidence : EvidenceClass

namespace IntentGenerationDocument

def kIntentContentTag : Text := ascii "ndo/intent-generation/v1"

/-- The bytes one declared object contributes to the content digest. -/
def objectPreimage (id : ObjectId) (object : IntentObject) : Text :=
  lengthPrefixed id.str ++ object.existence.toByte :: bigEndian64 (UInt64.ofNat object.fields.size) ++
    object.fields.entries.flatMap fun field =>
      lengthPrefixed (FieldPath.toText field.1) ++ field.2.comparability.toByte :: field.2.intended.hashInto

def contentPreimage (document : IntentGenerationDocument) : Text :=
  lengthPrefixed kIntentContentTag ++ lengthPrefixed document.target.str ++
    bigEndian64 document.generation.value ++ bigEndian64 document.epoch.value ++
    lengthPrefixed document.authority.toText ++ lengthPrefixed document.policy.str ++
    bigEndian64 document.authoredAt.unixNanos.toUInt64 ++ document.evidence.toByte ::
    bigEndian64 (UInt64.ofNat document.objects.size) ++
    document.objects.entries.flatMap fun entry => objectPreimage entry.1 entry.2

def computeContentDigest (document : IntentGenerationDocument) : Digest := hashBytes document.contentPreimage

/-- The path and value checks of one declared field. -/
def validateField (limits : RuntimeLimits) (path : FieldPath) (field : IntentField) : List Status :=
  [.require (path.length ≤ limits.maxPathSegments)
      (.limit .limitDepthExceeded (ascii "intent field path is too deep")),
    .require (path.all fun segment => match segment with
        | .key text => text.length ≤ limits.maxPathKeyBytes
        | .index _ => true)
      (.limit .limitBytesExceeded (ascii "intent field key is too long")),
    field.intended.validate limits]

def validateObject (limits : RuntimeLimits) (id : ObjectId) (object : IntentObject) : List Status :=
  [.require (isValidIdentityText id.str) (.rejected .encodingMalformed (ascii "intent object identity is invalid")),
    .require (object.fields.size ≤ limits.maxFieldsPerObject)
      (.limit .limitFieldsExceeded (ascii "intent field count exceeds the envelope"))] ++
    object.fields.entries.flatMap fun field => validateField limits field.1 field.2

def validate (limits : RuntimeLimits) (document : IntentGenerationDocument) : Status :=
  .firstFailing <|
    [.require (isValidIdentityText document.target.str)
        (.rejected .encodingMalformed (ascii "target identity is invalid")),
      .require document.generation.isSet
        (.rejected .intentTargetUndeclared (ascii "intent generation must be a positive generation")),
      .require document.epoch.isSet
        (.rejected .fencedStaleEpoch (ascii "intent generation must declare the epoch it was authored under")),
      .require (!document.policy.empty && isValidIdentityText document.policy.str)
        (.rejected .encodingMalformed (ascii "intent policy identity is invalid")),
      .require (document.authority != .unknown)
        (.rejected .authorityMismatch (ascii "intent generation must declare the authority that produced it")),
      .require (document.objects.size ≤ limits.maxObjectsPerTarget)
        (.limit .limitObjectsExceeded (ascii "intent object count exceeds the envelope"))] ++
    document.objects.entries.flatMap fun entry => validateObject limits entry.1 entry.2

end IntentGenerationDocument

/-- The committed intent of a target. -/
structure IntentBaseline where
  target : TargetId
  generation : IntentGeneration
  epoch : FabricEpoch
  authority : IntentAuthority
  policy : PolicyId
  committedAt : NdoTime
  contentDigest : Digest
  evidence : EvidenceClass
  objects : OrdMap ObjectId IntentObject

namespace IntentBaseline

def findObject (baseline : IntentBaseline) (id : ObjectId) : Option IntentObject := baseline.objects.find? id

end IntentBaseline

end DriftObservatory
