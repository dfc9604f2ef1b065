import DriftObservatory.Hash
import Mathlib.Data.Sum.Order

/-! Tagged identities, generations, epochs, incarnations and field paths. Two differently tagged values
    have different types, so no definition can compare them. -/

namespace DriftObservatory

/-- Maximum accepted length of a textual identity. -/
def kMaxIdentityLength : Nat := 200

namespace Char8

def isAlnum (c : UInt8) : Bool :=
  (0x61 ≤ c && c ≤ 0x7A) || (0x41 ≤ c && c ≤ 0x5A) || (0x30 ≤ c && c ≤ 0x39)

/-- One of `. _ - / : @ #`. -/
def isIdentitySeparator (c : UInt8) : Bool :=
  c == 0x2E || c == 0x5F || c == 0x2D || c == 0x2F || c == 0x3A || c == 0x40 || c == 0x23

/-- One of `\ . [ ]`. -/
def isEscapable (c : UInt8) : Bool := c == 0x5C || c == 0x2E || c == 0x5B || c == 0x5D

def isControl (c : UInt8) : Bool := c < 0x20 || c == 0x7F

def isDigit (c : UInt8) : Bool := 0x30 ≤ c && c ≤ 0x39

def hexValue (c : UInt8) : Option Nat :=
  if 0x30 ≤ c && c ≤ 0x39 then some (c.toNat - 0x30)
  else if 0x61 ≤ c && c ≤ 0x66 then some (c.toNat - 0x61 + 10)
  else if 0x41 ≤ c && c ≤ 0x46 then some (c.toNat - 0x41 + 10)
  else none

def hexDigit (n : Nat) : UInt8 := UInt8.ofNat (if n < 10 then 0x30 + n else 0x57 + n)

end Char8

/-- The components of a text between separators. -/
def splitOnByte (sep : UInt8) : Text → List Text
  | [] => [[]]
  | c :: rest =>
    if c == sep then [] :: splitOnByte sep rest
    else match splitOnByte sep rest with
      | [] => [[c]]
      | component :: components => (c :: component) :: components

def isValidIdentityText (text : Text) : Bool :=
  !text.isEmpty && text.length ≤ kMaxIdentityLength &&
    !(text.head?.any fun c => c == 0x2F || c == 0x2E || c == 0x2D) &&
    !(text.getLast?.any fun c => Char8.isIdentitySeparator c || c == 0x5C) &&
    text.all (fun c => !Char8.isControl c && c != 0x5C && (Char8.isAlnum c || Char8.isIdentitySeparator c)) &&
    (splitOnByte 0x2F text).all fun component => component != [0x2E] && component != [0x2E, 0x2E]

/-! ### Textual identities -/

inductive IdTag
  | target | object | source | snapshot | policy | suppression | actor
deriving DecidableEq

/-- A tagged textual identity. `tryParse` validates; `Trusted` construction is the constructor. -/
structure StringId (tag : IdTag) where
  str : Text
deriving DecidableEq

namespace StringId
variable {tag : IdTag}

instance : Inhabited (StringId tag) := ⟨⟨[]⟩⟩

theorem str_injective : Function.Injective (@str tag) := fun a b h => by
  cases a
  cases b
  simpa using h

instance : LinearOrder (StringId tag) := LinearOrder.lift' str str_injective

def empty (id : StringId tag) : Bool := id.str.isEmpty

def tryParse (text : Text) : Option (StringId tag) := if isValidIdentityText text then some ⟨text⟩ else none

end StringId

abbrev TargetId := StringId .target
abbrev ObjectId := StringId .object
abbrev SourceId := StringId .source
abbrev SnapshotId := StringId .snapshot
abbrev PolicyId := StringId .policy
abbrev SuppressionId := StringId .suppression
abbrev ActorId := StringId .actor

/-! ### Unsigned quantities -/

inductive UintTag
  | intentGeneration | fabricEpoch | incarnation | sourceSequence | ledgerRevision
deriving DecidableEq

/-- A tagged unsigned quantity; zero means unset. -/
structure StrongUint (tag : UintTag) where
  value : UInt64
deriving DecidableEq

namespace StrongUint
variable {tag : UintTag}

instance : Inhabited (StrongUint tag) := ⟨⟨0⟩⟩

theorem value_injective : Function.Injective (@value tag) := fun a b h => by
  cases a
  cases b
  simpa using h

instance : LinearOrder (StrongUint tag) := LinearOrder.lift' value value_injective

def isSet (q : StrongUint tag) : Bool := q.value != 0

end StrongUint

abbrev IntentGeneration := StrongUint .intentGeneration
abbrev FabricEpoch := StrongUint .fabricEpoch
abbrev Incarnation := StrongUint .incarnation
abbrev SourceSequence := StrongUint .sourceSequence
abbrev LedgerRevision := StrongUint .ledgerRevision

/-! ### Digest identities -/

def toHex (bytes : Text) : Text :=
  bytes.flatMap fun b => [Char8.hexDigit (b.toNat / 16), Char8.hexDigit (b.toNat % 16)]

namespace Digest

def toShortHex (d : Digest) : Text := (toHex d.bytes).take 12

end Digest

inductive DigestTag
  | finding | group
deriving DecidableEq

/-- A tagged digest. -/
structure DigestId (tag : DigestTag) where
  digest : Digest
deriving DecidableEq

namespace DigestId
variable {tag : DigestTag}

instance : Inhabited (DigestId tag) := ⟨⟨default⟩⟩

theorem digest_injective : Function.Injective (@digest tag) := fun a b h => by
  cases a
  cases b
  simpa using h

instance : LinearOrder (DigestId tag) := LinearOrder.lift' digest digest_injective

def isSet (id : DigestId tag) : Bool := id.digest.isSet

end DigestId

abbrev FindingId := DigestId .finding
abbrev GroupId := DigestId .group

/-! ### Field paths -/

/-- One segment of a field path; member names order before sequence indices. -/
inductive PathSegment
  | key (text : Text)
  | index (value : UInt64)
deriving DecidableEq

namespace PathSegment

def toSum : PathSegment → Text ⊕ₗ UInt64
  | key text => Sum.inlₗ text
  | index value => Sum.inrₗ value

theorem toSum_injective : Function.Injective toSum := fun a b h => by
  cases a <;> cases b <;> simp_all [toSum]

instance : LinearOrder PathSegment := LinearOrder.lift' toSum toSum_injective

end PathSegment

/-- A path from an object to one field, ordered segment by segment. -/
abbrev FieldPath := List PathSegment

namespace FieldPath

def escapedKey (key : Text) : Text :=
  key.flatMap fun c => if Char8.isEscapable c then [0x5C, c] else [c]

/-- The loop of `ToText`; `first` tells whether a separator precedes a key. -/
def toTextFrom : Bool → List PathSegment → Text
  | _, [] => []
  | _, .index value :: rest => 0x5B :: decimal value.toNat ++ 0x5D :: toTextFrom false rest
  | first, .key key :: rest => (if first then [] else [0x2E]) ++ escapedKey key ++ toTextFrom false rest

def toText (path : FieldPath) : Text := toTextFrom true path

def describe (path : FieldPath) : Text := if path.isEmpty then ascii "<root>" else toText path

def isPrefixOf (path other : FieldPath) : Bool := List.isPrefixOf path other

end FieldPath

end DriftObservatory
