import DriftObservatory.Json
import DriftObservatory.Observation

/-! The readers and writers the document codecs share: members of objects, enumeration texts, times, digests, field
    paths, and the interchange form of an observation. A reader refuses what its format does not declare. -/

namespace DriftObservatory

open Json

/-! ### Objects -/

/-- The members of an object. -/
abbrev Members := OrdMap Text Value

def objectMembers (members : List (String × Value)) : Members :=
  OrdMap.ofList (members.map fun member => (ascii member.1, member.2))

/-- An object with the given members; the formats never repeat a name. -/
def object (members : List (String × Value)) : Value := .makeMap (objectMembers members)

def memberError (what : String) (member : Text) (detail : String) : Status :=
  .rejected .encodingMalformed (ascii what ++ ascii ": " ++ member ++ ascii ": " ++ ascii detail)

/-- What a step yields, or the refusal. -/
def orRefuse {α : Type} (failure : Status) : Option α → Except Status α
  | some a => .ok a
  | none => .error failure

def checkMembers (map : Members) (allowed : List String) (what : String) : Except Status Unit :=
  match map.keys.find? fun key => !(allowed.any fun name => ascii name == key) with
  | some key => .error (memberError what key "unknown member")
  | none => .ok ()

def findMember (map : Members) (name : String) : Option Value := map.find? (ascii name)

def requireMember (map : Members) (name what : String) : Except Status Value :=
  orRefuse (memberError what (ascii name) "missing required member") (findMember map name)

def requireString (map : Members) (name what : String) : Except Status Text := do
  let member ← requireMember map name what
  orRefuse (memberError what (ascii name) "must be a string") member.asString

def optionalString (map : Members) (name : String) : Option Text := (findMember map name).bind Value.asString

def optionalBool (map : Members) (name : String) : Option Bool := (findMember map name).bind Value.asBool

/-- The value of a non-negative integer. -/
def uintOf (v : Value) : Option UInt64 :=
  v.asUint.or (v.asInt.bind fun i => if 0 ≤ i then some i.toUInt64 else none)

def requireUint (map : Members) (name what : String) : Except Status UInt64 := do
  let member ← requireMember map name what
  orRefuse (memberError what (ascii name) "must be a non-negative integer") (uintOf member)

def optionalUint (map : Members) (name : String) : Option UInt64 := (findMember map name).bind uintOf

def optionalInt (map : Members) (name : String) : Option Int64 :=
  (findMember map name).bind fun member =>
    member.asInt.or (member.asUint.bind fun u => if u.toNat ≤ 9223372036854775807 then some u.toInt64 else none)

def requireList (map : Members) (name what : String) : Except Status (List Value) := do
  let member ← requireMember map name what
  orRefuse (memberError what (ascii name) "must be a sequence") member.asList

/-- The elements of a sequence that may be missing. -/
def optionalList (map : Members) (name what : String) : Except Status (List Value) :=
  match findMember map name with
  | none => .ok []
  | some member => orRefuse (memberError what (ascii name) "must be a sequence") member.asList

/-- The kind a declared member must have when it is present. -/
inductive MemberKind
  | any | integer | number | boolean | text | sequence | object
deriving DecidableEq

def memberHasKind (v : Value) : MemberKind → Bool
  | .any => true
  | .integer => v.asInt.isSome || v.asUint.isSome
  | .number => v.asInt.isSome || v.asUint.isSome || v.asDouble.isSome
  | .boolean => v.asBool.isSome
  | .text => v.asString.isSome
  | .sequence => v.asList.isSome
  | .object => v.asMap.isSome

def checkMemberKinds (map : Members) (expectations : List (String × MemberKind)) (what : String) :
    Except Status Unit :=
  match expectations.find? fun expectation =>
      (findMember map expectation.1).any fun member => !memberHasKind member expectation.2 with
  | some expectation => .error (memberError what (ascii expectation.1) "has the wrong kind")
  | none => .ok ()

/-! ### Texts with a meaning -/

/-- Reads a required text member. -/
def requireText {α : Type} (map : Members) (name what : String) (parse : Text → Option α) (detail : String) :
    Except Status α := do
  let text ← requireString map name what
  orRefuse (memberError what (ascii name) detail) (parse text)

/-- Reads a text member that keeps its default when it is absent. -/
def optionalText {α : Type} (map : Members) (name what : String) (parse : Text → Option α) (detail : String)
    (absent : α) : Except Status α :=
  match optionalString map name with
  | none => .ok absent
  | some text => orRefuse (memberError what (ascii name) detail) (parse text)

/-- Reads a text member that keeps its default also when it is empty. -/
def optionalNonEmpty {α : Type} (map : Members) (name what : String) (parse : Text → Option α) (detail : String)
    (absent : α) : Except Status α :=
  match optionalString map name with
  | none => .ok absent
  | some text => if text.isEmpty then .ok absent else orRefuse (memberError what (ascii name) detail) (parse text)

/-- The text a `const char*` parameter sees. -/
def cString (text : Text) : Text := text.takeWhile (· != 0)

/-- The enumerator with the given text. -/
def parseName {α : Type} (names : List α) (toText : α → Text) (text : Text) : Option α :=
  names.find? fun name => toText name == text

def EvidenceClass.all : List EvidenceClass := [.unknown, .real, .synthetic, .unsupported]

def EvidenceClass.tryParse (text : Text) : Option EvidenceClass := parseName all toText (cString text)

def Severity.all : List Severity := [.info, .low, .medium, .high, .critical]

def Severity.tryParse (text : Text) : Option Severity := parseName all toText (cString text)

def DriftClass.all : List DriftClass :=
  [.none, .missing, .unexpected, .valueMismatch, .fieldMissing, .fieldUnexpected, .staleObservation, .unknown,
    .unsupported, .generationMismatch, .partialApplication, .sourceConflict, .intentMissing, .evidenceInvalid]

def DriftClass.tryParse (text : Text) : Option DriftClass := parseName all toText (cString text)

def ReasonCode.all : List ReasonCode := [
  .none, .classifiedConverged, .classifiedObjectMissing, .classifiedObjectUnexpected, .classifiedValueMismatch,
  .classifiedFieldMissing, .classifiedFieldUnexpected, .classifiedFieldNotComparable, .classifiedNotObservable,
  .classifiedUnsupportedField, .classifiedGenerationMismatch, .classifiedPartialApplication,
  .classifiedSourceConflict, .classifiedStaleObservation, .classifiedNoIntent, .observationExpired,
  .observationForeignEpoch, .observationForeignIncarnation, .observationClockRegression,
  .observationSequenceRegressed, .observationGenerationRegressed, .observationDuplicateIdentical,
  .observationDuplicateConflicting, .observationCoveragePartial, .observationCoverageUnknown,
  .observationSourceCannotAssertAbsence, .observationSourcesDisagree, .observationOutOfOrder,
  .observationSuperseded, .intentGenerationRegressed, .intentGenerationConflicting,
  .intentGenerationDuplicateIdentical, .intentTargetUndeclared, .intentCoverageIncomplete, .noFreshEvidence,
  .evidenceRecoveredNotFresh, .fencedStaleEpoch, .fencedStaleIncarnation, .fencedStaleSequence,
  .fencedStaleGeneration, .fencedRetiredSource, .authorityMismatch, .comparisonBaselineUnavailable,
  .suppressedByPolicy, .suppressedByOperator, .suppressionExpired, .suppressionNotFound, .acknowledgementRecorded,
  .findingResolved, .findingReopened, .findingUnchanged, .findingCreated, .findingUpdated,
  .resolutionRefusedNoFreshEvidence, .resolutionRefusedCoverageIncomplete, .resolutionRefusedConflict,
  .findingRebasedToNewGeneration, .findingReclassified, .findingNotFound, .findingRetired,
  .ledgerIntegrityDigestMismatch, .ledgerSchemaUnsupported, .ledgerTruncated, .ledgerHeaderInvalid,
  .ledgerPayloadTooLarge, .ledgerRecoveredConservatively, .ledgerVersionRegression, .ledgerDecodeFailed,
  .wireFrameTruncated, .wireFrameOversize, .wireFrameChecksumMismatch, .wireProtocolVersionUnsupported,
  .wireFrameMagicMismatch, .wireHandshakeRequired, .wireHandshakeRejected, .wireSessionLimitExceeded,
  .wireSessionClosed, .wireFrameTypeUnsupported, .wireSessionIdleExpired, .limitObjectsExceeded,
  .limitFieldsExceeded, .limitDepthExceeded, .limitBytesExceeded, .limitFindingsExceeded, .limitHistoryExceeded,
  .limitTimelineExceeded, .encodingMalformed, .encodingUnexpectedToken, .encodingInvalidUtf8,
  .encodingNumberOutOfRange, .encodingDuplicateKey, .encodingTrailingBytes, .arithmeticOverflow]

def ReasonCode.tryParse (text : Text) : Option ReasonCode := parseName all toText (cString text)

def IntentAuthority.all : List IntentAuthority :=
  [.unknown, .intentFabric, .configurationFabric, .localPolicy, .importedDocument]

def IntentAuthority.tryParse (text : Text) : Option IntentAuthority := parseName all toText (cString text)

def FieldComparability.all : List FieldComparability :=
  [.managed, .observeOnly, .unmanaged, .unobservable, .unsupported]

def FieldComparability.tryParse (text : Text) : Option FieldComparability := parseName all toText (cString text)

/-- Compared as a whole text, not as a C string. -/
def ObjectExistence.tryParse (text : Text) : Option ObjectExistence := parseName [.required, .forbidden] toText text

def ObjectPresence.all : List ObjectPresence := [.absent, .present, .unknown]

def ObjectPresence.tryParse (text : Text) : Option ObjectPresence := parseName all toText (cString text)

def ObservationCoverage.all : List ObservationCoverage := [.unknown, .partial_, .complete]

def ObservationCoverage.tryParse (text : Text) : Option ObservationCoverage := parseName all toText (cString text)

def FreshnessState.all : List FreshnessState :=
  [.unknown, .fresh, .aging, .stale, .expired, .future, .recoveredNotFresh]

def FreshnessState.tryParse (text : Text) : Option FreshnessState := parseName all toText (cString text)

/-! ### Digests -/

namespace Digest

def toHex (d : Digest) : Text := DriftObservatory.toHex d.bytes

def tryFromHex (hex : Text) : Option Digest :=
  if hex.length = 2 * kDigestBytes then
    match fromHex hex with
    | some bytes => if h : bytes.length = kDigestBytes then some ⟨bytes, h⟩ else none
    | none => none
  else none

end Digest

namespace DigestId
variable {tag : DigestTag}

def toHex (id : DigestId tag) : Text := id.digest.toHex

def tryParse (hex : Text) : Option (DigestId tag) := (Digest.tryFromHex hex).map DigestId.mk

/-- The digits of a set digest; an unset one is written as the empty text. -/
def toHexIfSet (id : DigestId tag) : Text := if id.isSet then id.toHex else []

end DigestId

/-! ### Times -/

/-- Days from 1970-01-01 for a proleptic Gregorian date. -/
def daysFromCivil (year : Int) (month day : Nat) : Int :=
  let year := if month ≤ 2 then year - 1 else year
  let era := (if 0 ≤ year then year else year - 399).tdiv 400
  let yearOfEra := (year - era * 400).toNat
  let adjustedMonth := if 2 < month then month - 3 else month + 9
  let dayOfYear := (153 * adjustedMonth + 2) / 5 + day - 1
  let dayOfEra := yearOfEra * 365 + yearOfEra / 4 - yearOfEra / 100 + dayOfYear
  era * 146097 + (dayOfEra : Int) - 719468

def parseDigits (text : Text) (offset count : Nat) : Option Nat :=
  let digits := (text.drop offset).take count
  if digits.length = count ∧ digits.all Char8.isDigit then some (digitsValue digits) else none

/-- The fraction in nanoseconds, and the position behind it. -/
def parseFraction (text : Text) : Option (Nat × Nat) :=
  if text[19]? = some 0x2E then
    let digits := (text.drop 20).takeWhile Char8.isDigit
    if digits.length = 0 ∨ 9 < digits.length then none
    else some (digitsValue digits * 10 ^ (9 - digits.length), 20 + digits.length)
  else some (0, 19)

/-- The instant, refused when it leaves the 64-bit range. -/
def timeOf (seconds : Int) (fraction : Nat) : Option NdoTime :=
  if (9223372036854775807 - (fraction : Int)).tdiv 1000000000 < seconds ∨
      seconds < (-9223372036854775808 + (fraction : Int)).tdiv 1000000000 then none
  else some ⟨Int64.ofInt (seconds * 1000000000 + fraction)⟩

/-- `YYYY-MM-DDTHH:MM:SS[.fraction]Z`, strictly. -/
def tryParseTime (text : Text) : Option NdoTime := do
  if text.length < 20 ∨ text[4]? ≠ some 0x2D ∨ text[7]? ≠ some 0x2D ∨ text[10]? ≠ some 0x54 ∨
      text[13]? ≠ some 0x3A ∨ text[16]? ≠ some 0x3A ∨ text.getLast? ≠ some 0x5A then none
  else
    let year ← parseDigits text 0 4
    let month ← parseDigits text 5 2
    let day ← parseDigits text 8 2
    let hour ← parseDigits text 11 2
    let minute ← parseDigits text 14 2
    let second ← parseDigits text 17 2
    if month < 1 ∨ 12 < month ∨ day < 1 ∨ 31 < day ∨ 23 < hour ∨ 59 < minute ∨ 60 < second then none
    else
      let (fraction, position) ← parseFraction text
      if position ≠ text.length - 1 then none
      else timeOf (daysFromCivil year month day * 86400 + (hour * 3600 + minute * 60 + second : Nat)) fraction

/-! ### Field paths -/

namespace FieldPath

/-- The bytes of a key up to a separator, with the escapes undone, and the text behind. -/
def scanKey : Text → Option (Text × Text)
  | [] => some ([], [])
  | c :: rest =>
    if c == 0x5C then
      match rest with
      | [] => none
      | escaped :: rest =>
        if Char8.isEscapable escaped then (scanKey rest).map fun read => (escaped :: read.1, read.2) else none
    else if c == 0x2E || c == 0x5B then some ([], c :: rest)
    else if c == 0x5D || Char8.isControl c then none
    else (scanKey rest).map fun read => (c :: read.1, read.2)

def scanKeySegment (maxKeyBytes : Nat) (text : Text) : Option (PathSegment × Text) := do
  let (key, rest) ← scanKey text
  if key.isEmpty || maxKeyBytes < key.length then none else some (.key key, rest)

/-- An index segment behind its opening bracket, in its one canonical spelling. -/
def scanIndexSegment (text : Text) : Option (PathSegment × Text) :=
  let digits := text.takeWhile (· != 0x5D)
  let rest := text.drop digits.length
  if rest.isEmpty || digits.isEmpty || 20 < digits.length || (1 < digits.length && digits.head? == some 0x30) ||
      !digits.all Char8.isDigit || 2 ^ 64 ≤ digitsValue digits then none
  else some (.index (UInt64.ofNat (digitsValue digits)), rest.tail)

/-- Where the next segment starts: at a bracket, or behind a dot that a key follows. -/
def nextSegment : Text → Option Text
  | [] => some []
  | c :: rest =>
    if c == 0x5B then some (c :: rest)
    else if c == 0x2E then
      if rest.isEmpty || rest.head? == some 0x2E || rest.head? == some 0x5D || rest.head? == some 0x5B then none
      else some rest
    else none

/-- The loop of `TryParse`; each segment consumes at least one byte. -/
def tryParseFrom (maxSegments maxKeyBytes : Nat) : Nat → FieldPath → Text → Option FieldPath
  | _, path, [] => some path
  | 0, _, _ :: _ => none
  | fuel + 1, path, c :: rest =>
    if maxSegments ≤ path.length then none
    else do
      let (segment, text) ← if c == 0x5B then scanIndexSegment rest else scanKeySegment maxKeyBytes (c :: rest)
      let text ← nextSegment text
      tryParseFrom maxSegments maxKeyBytes fuel (path ++ [segment]) text

/-- The longest text `TryParse` looks at; the product is a `std::size_t`. -/
def textBound (limits : RuntimeLimits) : Nat := limits.maxPathSegments * (limits.maxPathKeyBytes + 4) % 2 ^ 64

def tryParse (limits : RuntimeLimits) (text : Text) : Option FieldPath :=
  if text.isEmpty then some []
  else if textBound limits < text.length then none
  else tryParseFrom limits.maxPathSegments limits.maxPathKeyBytes text.length [] text

end FieldPath

end DriftObservatory
