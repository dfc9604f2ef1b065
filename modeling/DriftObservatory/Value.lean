import DriftObservatory.Vocabulary

/-! Observed and intended values: bounded trees of scalars, sequences and members, their canonical text,
    the bytes they feed to the hasher, and the three-valued relation two values stand in. -/

namespace DriftObservatory

/-- Hard recursion guard of every traversal in `value.cpp`. -/
def kHardRecursionLimit : Nat := 64

/-- What a traversal yields at a depth: `refused` past the recursion guard. -/
def guarded {α : Type} (depth : Nat) (refused value : α) : α := if depth > kHardRecursionLimit then refused else value

/-! ### Finite doubles -/

/-- A finite IEEE 754 binary64 value by its bit pattern; NaN and the infinities are excluded. -/
structure Double where
  bits : UInt64
  finite : bits.toNat / 2 ^ 52 % 2 ^ 11 ≠ 2 ^ 11 - 1
deriving DecidableEq

namespace Double

def negative (d : Double) : Bool := d.bits.toNat / 2 ^ 63 == 1

def exponentField (d : Double) : Nat := d.bits.toNat / 2 ^ 52 % 2 ^ 11

/-- The value is `± significand * 2 ^ (scale - 1075)`. -/
def significand (d : Double) : Nat :=
  if d.exponentField = 0 then d.bits.toNat % 2 ^ 52 else d.bits.toNat % 2 ^ 52 + 2 ^ 52

def scale (d : Double) : Nat := if d.exponentField = 0 then 1 else d.exponentField

/-- The magnitude, when it is an integer: `std::floor(v) == v` and the conversion after it. -/
def magnitude? (d : Double) : Option Nat :=
  if 1075 ≤ d.scale then some (d.significand * 2 ^ (d.scale - 1075))
  else if d.significand % 2 ^ (1075 - d.scale) = 0 then some (d.significand / 2 ^ (1075 - d.scale))
  else none

def toInt? (d : Double) : Option Int := d.magnitude?.map fun m => if d.negative then -(m : Int) else (m : Int)

/-- The built-in `==`: bit patterns agree, except that the two zeros are equal. -/
def eq (a b : Double) : Bool := a.bits == b.bits || (a.significand == 0 && b.significand == 0)

end Double

/-- `std::to_chars` and `std::from_chars` for doubles, from the C++ standard library. -/
class DoubleChars where
  toChars : Double → Text
  fromChars : Text → Option Double

/-! ### Value trees -/

inductive ValueKind
  | null | bool | int | uint | double | string | bytes | list | map
deriving DecidableEq, Repr

namespace ValueKind

def toByte : ValueKind → UInt8
  | null => 0
  | bool => 1
  | int => 2
  | uint => 3
  | double => 4
  | string => 5
  | bytes => 6
  | list => 7
  | map => 8

def isNumeric : ValueKind → Bool
  | int | uint | double => true
  | _ => false

end ValueKind

/-- A value as the variant of `value.hpp` stores it; a map lists its members in iteration order. -/
inductive ValueTree
  | null
  | bool (v : Bool)
  | int (v : Int64)
  | uint (v : UInt64)
  | double (v : Double)
  | string (v : Text)
  | bytes (v : Text)
  | list (elements : List ValueTree)
  | map (members : List (Text × ValueTree))

namespace ValueTree

def kind : ValueTree → ValueKind
  | null => .null
  | bool _ => .bool
  | int _ => .int
  | uint _ => .uint
  | double _ => .double
  | string _ => .string
  | bytes _ => .bytes
  | list _ => .list
  | map _ => .map

mutual

/-- The member names of every map strictly ascend, as in a `std::map`. -/
def WellFormed : ValueTree → Prop
  | list elements => WellFormedAll elements
  | map members => members.Pairwise (fun a b => a.1 < b.1) ∧ WellFormedMembers members
  | _ => True

def WellFormedAll : List ValueTree → Prop
  | [] => True
  | v :: rest => WellFormed v ∧ WellFormedAll rest

def WellFormedMembers : List (Text × ValueTree) → Prop
  | [] => True
  | (_, v) :: rest => WellFormed v ∧ WellFormedMembers rest

end

/-! ### Equality -/

mutual

/-- The structural `operator==`: kinds match and there is no numeric coercion. -/
def beq : ValueTree → ValueTree → Bool
  | null, null => true
  | bool a, bool b => a == b
  | int a, int b => a == b
  | uint a, uint b => a == b
  | double a, double b => Double.eq a b
  | string a, string b => a == b
  | bytes a, bytes b => a == b
  | list a, list b => beqAll a b
  | map a, map b => beqMembers a b
  | _, _ => false

def beqAll : List ValueTree → List ValueTree → Bool
  | [], [] => true
  | a :: as, b :: bs => beq a b && beqAll as bs
  | _, _ => false

def beqMembers : List (Text × ValueTree) → List (Text × ValueTree) → Bool
  | [], [] => true
  | (k, a) :: as, (l, b) :: bs => k == l && beq a b && beqMembers as bs
  | _, _ => false

end

/-! ### Canonical text -/

section CanonicalText
variable [DoubleChars]

def formatDouble (value : Double) : Text :=
  let text := DoubleChars.toChars value
  if text.any (fun c => c == 0x2E || c == 0x65 || c == 0x45) then text else text ++ ascii ".0"

mutual

def appendCanonical : Nat → ValueTree → Text
  | depth, null => guarded depth (ascii "!depth") (ascii "n")
  | depth, bool b => guarded depth (ascii "!depth") (if b then ascii "t" else ascii "f")
  | depth, int i => guarded depth (ascii "!depth") (ascii "i" ++ decimalInt i.toInt)
  | depth, uint u => guarded depth (ascii "!depth") (ascii "u" ++ decimal u.toNat)
  | depth, double d => guarded depth (ascii "!depth") (ascii "d" ++ formatDouble d)
  | depth, string text => guarded depth (ascii "!depth") (ascii "s" ++ decimal text.length ++ ascii ":" ++ text)
  | depth, bytes raw => guarded depth (ascii "!depth") (ascii "b" ++ decimal raw.length ++ ascii ":" ++ toHex raw)
  | depth, list elements => guarded depth (ascii "!depth")
      (ascii "l" ++ decimal elements.length ++ ascii "[" ++ appendCanonicalList (depth + 1) elements ++ ascii "]")
  | depth, map members => guarded depth (ascii "!depth")
      (ascii "m" ++ decimal members.length ++ ascii "\x7b" ++ appendCanonicalMap (depth + 1) true members ++
        ascii "\x7d")

def appendCanonicalList : Nat → List ValueTree → Text
  | _, [] => []
  | depth, v :: rest => appendCanonical depth v ++ ascii ";" ++ appendCanonicalList depth rest

def appendCanonicalMap : Nat → Bool → List (Text × ValueTree) → Text
  | _, _, [] => []
  | depth, first, (key, v) :: rest =>
    (if first then [] else ascii ",") ++ decimal key.length ++ ascii ":" ++ key ++ ascii "=" ++
      appendCanonical depth v ++ appendCanonicalMap depth false rest

end

def toCanonicalText (v : ValueTree) : Text := appendCanonical 0 v

def toDisplayText (maxBytes : Nat) (v : ValueTree) : Text :=
  let text := v.toCanonicalText
  if text.length ≤ maxBytes then text else text.take maxBytes ++ ascii "..."

end CanonicalText

/-! ### Hashing -/

mutual

/-- The bytes `HashValue` feeds to the hasher. -/
def hashValue : Nat → ValueTree → Text
  | depth, list elements => guarded depth (lengthPrefixed (ascii "!depth"))
      (ValueKind.list.toByte :: bigEndian64 (UInt64.ofNat elements.length) ++ hashList (depth + 1) elements)
  | depth, map members => guarded depth (lengthPrefixed (ascii "!depth"))
      (ValueKind.map.toByte :: bigEndian64 (UInt64.ofNat members.length) ++ hashMembers (depth + 1) members)
  | depth, null => guarded depth (lengthPrefixed (ascii "!depth")) [ValueKind.null.toByte]
  | depth, bool b => guarded depth (lengthPrefixed (ascii "!depth")) [ValueKind.bool.toByte, if b then 1 else 0]
  | depth, int i => guarded depth (lengthPrefixed (ascii "!depth")) (ValueKind.int.toByte :: bigEndian64 i.toUInt64)
  | depth, uint u => guarded depth (lengthPrefixed (ascii "!depth")) (ValueKind.uint.toByte :: bigEndian64 u)
  | depth, double d => guarded depth (lengthPrefixed (ascii "!depth")) (ValueKind.double.toByte :: bigEndian64 d.bits)
  | depth, string text => guarded depth (lengthPrefixed (ascii "!depth"))
      (ValueKind.string.toByte :: lengthPrefixed text)
  | depth, bytes raw => guarded depth (lengthPrefixed (ascii "!depth")) (ValueKind.bytes.toByte :: lengthPrefixed raw)

def hashList : Nat → List ValueTree → Text
  | _, [] => []
  | depth, v :: rest => hashValue depth v ++ hashList depth rest

def hashMembers : Nat → List (Text × ValueTree) → Text
  | _, [] => []
  | depth, (key, v) :: rest => lengthPrefixed key ++ hashValue depth v ++ hashMembers depth rest

end

def hashInto (v : ValueTree) : Text := hashValue 0 v

/-! ### Bounds -/

mutual

def countNodes : Nat → ValueTree → Nat
  | depth, list elements => guarded depth 1 (1 + countNodesList (depth + 1) elements)
  | depth, map members => guarded depth 1 (1 + countNodesMembers (depth + 1) members)
  | _, _ => 1

def countNodesList : Nat → List ValueTree → Nat
  | _, [] => 0
  | depth, v :: rest => countNodes depth v + countNodesList depth rest

def countNodesMembers : Nat → List (Text × ValueTree) → Nat
  | _, [] => 0
  | depth, (_, v) :: rest => countNodes depth v + countNodesMembers depth rest

end

mutual

/-- The deepest level below a value at a depth; nothing past the recursion guard is visited. -/
def countDepth : Nat → ValueTree → Nat
  | depth, list elements => guarded depth depth (countDepthList depth (depth + 1) elements)
  | depth, map members => guarded depth depth (countDepthMembers depth (depth + 1) members)
  | depth, _ => depth

/-- The loop over the elements, with the deepest level so far. -/
def countDepthList : Nat → Nat → List ValueTree → Nat
  | deepest, _, [] => deepest
  | deepest, depth, v :: rest => countDepthList (Max.max deepest (countDepth depth v)) depth rest

def countDepthMembers : Nat → Nat → List (Text × ValueTree) → Nat
  | deepest, _, [] => deepest
  | deepest, depth, (_, v) :: rest => countDepthMembers (Max.max deepest (countDepth depth v)) depth rest

end

def maxDepth (v : ValueTree) : Nat := countDepth 0 v

end ValueTree

/-- The text after its first code point, when that is well formed: no overlong form, no surrogate, no
    truncated sequence. -/
def utf8Step : Text → Option Text
  | [] => none
  | lead :: rest =>
    let raw := lead.toNat
    let continuation (taken : Nat) (codepoint : Nat) : Option Nat :=
      (rest.take taken).foldl
        (fun acc c => acc.bind fun cp => if c.toNat / 64 = 2 then some (cp * 64 + c.toNat % 64) else none)
        (if rest.length < taken then none else some codepoint)
    let accept (taken least : Nat) (codepoint : Nat) : Option Text :=
      (continuation taken codepoint).bind fun cp =>
        if cp < least || cp > 0x10FFFF || (0xD800 ≤ cp && cp ≤ 0xDFFF) then none else some (rest.drop taken)
    if raw < 0x80 then some rest
    else if raw / 32 = 6 then if raw % 32 = 0 then none else accept 1 0x80 (raw % 32)
    else if raw / 16 = 14 then accept 2 0x800 (raw % 16)
    else if raw / 8 = 30 then accept 3 0x10000 (raw % 8)
    else none

/-- The loop of `IsValidUtf8`; each round consumes at least one byte. -/
def isValidUtf8From : Nat → Text → Bool
  | _, [] => true
  | 0, _ :: _ => false
  | fuel + 1, text => match utf8Step text with
    | none => false
    | some rest => isValidUtf8From fuel rest

def isValidUtf8 (text : Text) : Bool := isValidUtf8From text.length text

namespace ValueTree

/-- The checks `ValidateValue` makes of a leaf. -/
def validateLeaf (limits : RuntimeLimits) : ValueTree → Status
  | string text => .firstFailing [
      .require (text.length ≤ limits.maxLeafBytes)
        (.limit .limitBytesExceeded (ascii "string leaf exceeds the envelope")),
      .require (isValidUtf8 text) (.rejected .encodingInvalidUtf8 (ascii "string leaf is not UTF-8"))]
  | bytes raw =>
    .require (raw.length ≤ limits.maxLeafBytes) (.limit .limitBytesExceeded (ascii "byte leaf exceeds the envelope"))
  | _ => .okay

/-- The nesting check `ValidateValue` makes first. -/
def validateDepth (limits : RuntimeLimits) (depth : Nat) : Status :=
  .require (depth ≤ limits.maxValueDepth && depth ≤ kHardRecursionLimit)
    (.limit .limitDepthExceeded (ascii "value nesting exceeds the envelope"))

mutual

/-- The statuses of the checks `ValidateValue` makes, in its order. -/
def validateValue (limits : RuntimeLimits) : Nat → ValueTree → List Status
  | depth, list elements => validateDepth limits depth ::
      .require (elements.length ≤ limits.maxValueNodes)
        (.limit .limitObjectsExceeded (ascii "sequence exceeds the envelope")) ::
      validateList limits (depth + 1) elements
  | depth, map members => validateDepth limits depth ::
      .require (members.length ≤ limits.maxValueNodes)
        (.limit .limitFieldsExceeded (ascii "member set exceeds the envelope")) ::
      validateMembers limits (depth + 1) members
  | depth, leaf => [validateDepth limits depth, validateLeaf limits leaf]

def validateList (limits : RuntimeLimits) : Nat → List ValueTree → List Status
  | _, [] => []
  | depth, v :: rest => validateValue limits depth v ++ validateList limits depth rest

def validateMembers (limits : RuntimeLimits) : Nat → List (Text × ValueTree) → List Status
  | _, [] => []
  | depth, (key, v) :: rest =>
    .require (key.length ≤ limits.maxLeafBytes)
        (.limit .limitBytesExceeded (ascii "member name exceeds the envelope")) ::
      .require (isValidUtf8 key) (.rejected .encodingInvalidUtf8 (ascii "member name is not UTF-8")) ::
      (validateValue limits depth v ++ validateMembers limits depth rest)

end

def validate (limits : RuntimeLimits) (v : ValueTree) : Status :=
  .firstFailing (.require (countNodes 0 v ≤ limits.maxValueNodes)
    (.limit .limitObjectsExceeded (ascii "value node count exceeds the envelope")) :: validateValue limits 0 v)

end ValueTree

/-! ### The relation between two values -/

/-- How two scalar values of different numeric kinds are compared. -/
inductive NumericEquivalence
  | exact | numeric
deriving DecidableEq, Repr

/-- Outcome of comparing two values. -/
inductive ValueRelation
  | equal | different | incomparable
deriving DecidableEq, Repr

namespace ValueTree

/-- `double` against `int64_t`: finite, integral, in range and equal after conversion. -/
def intEqDouble (i : Int64) (d : Double) : Bool :=
  d.toInt?.any fun z => -(2 ^ 63) ≤ z && z < 2 ^ 63 && z == i.toInt

/-- `double` against `uint64_t`. -/
def uintEqDouble (u : UInt64) (d : Double) : Bool :=
  d.toInt?.any fun z => 0 ≤ z && z < 2 ^ 64 && z == (u.toNat : Int)

/-- Whether two numeric values are equal; `none` when one of them is not numeric. -/
def relateNumerics : ValueTree → ValueTree → Option Bool
  | int a, int b => some (a == b)
  | uint a, uint b => some (a == b)
  | int a, uint b => some (0 ≤ a.toInt && a.toInt == (b.toNat : Int))
  | uint a, int b => some (0 ≤ b.toInt && b.toInt == (a.toNat : Int))
  | double a, double b => some (Double.eq a b)
  | int a, double b => some (intEqDouble a b)
  | double a, int b => some (intEqDouble b a)
  | uint a, double b => some (uintEqDouble a b)
  | double a, uint b => some (uintEqDouble b a)
  | _, _ => none

def relationOf (equal : Bool) : ValueRelation := if equal then .equal else .different

/-- The relation of two values that are not two sequences or two member sets. -/
def relateScalars (equivalence : NumericEquivalence) (lhs rhs : ValueTree) : ValueRelation :=
  if lhs.kind.isNumeric && rhs.kind.isNumeric && equivalence == .exact && lhs.kind != rhs.kind then .different
  else match relateNumerics lhs rhs with
    | some equal => relationOf equal
    | none => match lhs, rhs with
      | null, null => .equal
      | bool a, bool b => relationOf (a == b)
      | string a, string b => relationOf (a == b)
      | bytes a, bytes b => relationOf (a == b)
      | _, _ => .incomparable

mutual

def relateValuesAt (equivalence : NumericEquivalence) : Nat → ValueTree → ValueTree → ValueRelation
  | depth, list a, list b => guarded depth .incomparable
      (if a.length = b.length then relateElements equivalence (depth + 1) false a b else .different)
  | depth, map a, map b => guarded depth .incomparable
      (if a.length = b.length then relateMembers equivalence (depth + 1) false a b else .different)
  | depth, lhs, rhs => guarded depth .incomparable (relateScalars equivalence lhs rhs)

/-- The loop over two sequences; `incomparable` records an element pair that could not be compared. -/
def relateElements (equivalence : NumericEquivalence) :
    Nat → Bool → List ValueTree → List ValueTree → ValueRelation
  | depth, incomparable, a :: as, b :: bs => match relateValuesAt equivalence depth a b with
    | .different => .different
    | relation => relateElements equivalence depth (incomparable || relation == .incomparable) as bs
  | _, incomparable, _, _ => if incomparable then .incomparable else .equal

/-- The loop over two member sets in key order. -/
def relateMembers (equivalence : NumericEquivalence) :
    Nat → Bool → List (Text × ValueTree) → List (Text × ValueTree) → ValueRelation
  | depth, incomparable, (k, a) :: as, (l, b) :: bs =>
    if k = l then match relateValuesAt equivalence depth a b with
      | .different => .different
      | relation => relateMembers equivalence depth (incomparable || relation == .incomparable) as bs
    else .different
  | _, incomparable, _, _ => if incomparable then .incomparable else .equal

end

end ValueTree

/-! ### Values -/

/-- A value: a tree whose maps have their members in order. -/
structure Value where
  tree : ValueTree
  wellFormed : tree.WellFormed

namespace Value

instance : Inhabited Value := ⟨⟨.null, trivial⟩⟩

def makeNull : Value := ⟨.null, trivial⟩

def makeString (text : Text) : Value := ⟨.string text, trivial⟩

def makeInt (v : Int64) : Value := ⟨.int v, trivial⟩

/-- An unsigned value that fits the signed range is stored as a signed one. -/
def makeUint (v : UInt64) : Value :=
  if v.toNat ≤ 9223372036854775807 then ⟨.int v.toInt64, trivial⟩ else ⟨.uint v, trivial⟩

def kind (v : Value) : ValueKind := v.tree.kind

def beq (a b : Value) : Bool := a.tree.beq b.tree

def hashInto (v : Value) : Text := v.tree.hashInto

def validate (limits : RuntimeLimits) (v : Value) : Status := v.tree.validate limits

def toDisplayText [DoubleChars] (maxBytes : Nat) (v : Value) : Text := v.tree.toDisplayText maxBytes

end Value

def relateValues (lhs rhs : Value) (equivalence : NumericEquivalence) : ValueRelation :=
  ValueTree.relateValuesAt equivalence 0 lhs.tree rhs.tree

end DriftObservatory
