import DriftObservatory.Theorems.Legible
import DriftObservatory.Theorems.Spellings

/-! The grammar of RFC 8259 over bytes: phrases with all the white space they may carry, the text a phrase has and the
    value it denotes. Nothing here looks at the parser. -/

namespace DriftObservatory

namespace Json

/-! ### UTF-8 -/

/-- A continuation byte. -/
def Tail (c : UInt8) : Prop := 0x80 ≤ c ∧ c ≤ 0xBF

/-- The encoded characters, by the ranges of their bytes. -/
inductive Utf8Char : Text → Prop
  | one {a : UInt8} : a ≤ 0x7F → Utf8Char [a]
  | two {a b : UInt8} : 0xC2 ≤ a ∧ a ≤ 0xDF → Tail b → Utf8Char [a, b]
  | three {a b c : UInt8} : 0xE0 ≤ a ∧ a ≤ 0xEF → Tail b → (a = 0xE0 → 0xA0 ≤ b) → (a = 0xED → b ≤ 0x9F) → Tail c →
      Utf8Char [a, b, c]
  | four {a b c d : UInt8} : 0xF0 ≤ a ∧ a ≤ 0xF4 → Tail b → (a = 0xF0 → 0x90 ≤ b) → (a = 0xF4 → b ≤ 0x8F) → Tail c →
      Tail d → Utf8Char [a, b, c, d]

/-- A text is UTF-8 when it is a sequence of encoded characters. -/
inductive Utf8Text : Text → Prop
  | nil : Utf8Text []
  | cons {char rest : Text} : Utf8Char char → Utf8Text rest → Utf8Text (char ++ rest)

/-! ### Tokens -/

/-- White space. -/
structure Blank where
  text : Text
  space : ∀ c ∈ text, isSpace c = true

/-- The four digits of a `\u` escape. -/
structure Hex4 where
  digits : Text
  length_eq : digits.length = 4
  hex : ∀ c ∈ digits, (Char8.hexValue c).isSome = true

def Hex4.value (code : Hex4) : Nat :=
  code.digits.foldl (fun value c => value * 16 + (Char8.hexValue c).getD 0) 0

/-- The escapes of two bytes, with the byte each stands for. -/
def shortEscapes : List (UInt8 × UInt8) :=
  [(0x22, 0x22), (0x5C, 0x5C), (0x2F, 0x2F), (0x62, 0x08), (0x66, 0x0C), (0x6E, 0x0A), (0x72, 0x0D), (0x74, 0x09)]

/-- What a string is made of between its quotes. -/
inductive StringItem
  | plain (c : UInt8) (h : 0x20 ≤ c ∧ c ≠ 0x22 ∧ c ≠ 0x5C)
  | short (escape : UInt8 × UInt8) (h : escape ∈ shortEscapes)
  | unicode (code : Hex4)

namespace StringItem

def text : StringItem → Text
  | plain c _ => [c]
  | short escape _ => [0x5C, escape.1]
  | unicode code => 0x5C :: 0x75 :: code.digits

end StringItem

def IsHigh (code : Hex4) : Prop := 0xD800 ≤ code.value ∧ code.value ≤ 0xDBFF

def IsLow (code : Hex4) : Prop := 0xDC00 ≤ code.value ∧ code.value ≤ 0xDFFF

instance (code : Hex4) : Decidable (IsHigh code) := inferInstanceAs (Decidable (_ ∧ _))

instance (code : Hex4) : Decidable (IsLow code) := inferInstanceAs (Decidable (_ ∧ _))

/-- The bytes a string stands for; surrogate escapes stand for a character in pairs only. -/
def decodeItems : List StringItem → Option Text
  | [] => some []
  | .plain c _ :: rest => (decodeItems rest).map (c :: ·)
  | .short escape _ :: rest => (decodeItems rest).map (escape.2 :: ·)
  | .unicode code :: .unicode next :: rest =>
    if IsHigh code then
      if IsLow next then
        (decodeItems rest).map
          (appendUtf8 (0x10000 + (code.value - 0xD800) * 1024 + (next.value - 0xDC00)) ++ ·)
      else none
    else if IsLow code then none
    else (decodeItems (.unicode next :: rest)).map (appendUtf8 code.value ++ ·)
  | .unicode code :: rest =>
    if IsHigh code ∨ IsLow code then none else (decodeItems rest).map (appendUtf8 code.value ++ ·)

def itemsText (items : List StringItem) : Text := items.flatMap StringItem.text

def quoted (items : List StringItem) : Text := 0x22 :: itemsText items ++ [0x22]

/-- The integer a number without fraction and exponent is, when it fits a machine integer. -/
def NumberParts.integer? (p : NumberParts) : Option Value :=
  if p.fraction ≠ [] ∨ p.exponent ≠ [] then none
  else if p.sign = [] then
    if digitsValue p.digits < 2 ^ 64 then some (.makeUint (UInt64.ofNat (digitsValue p.digits))) else none
  else if digitsValue p.digits ≤ 2 ^ 63 then some (.makeInt (Int64.ofInt (-(digitsValue p.digits : Int)))) else none

/-- The value of a number: an integer, or the finite double it converts to. -/
def NumberParts.value? [DoubleChars] (p : NumberParts) : Option Value :=
  p.integer?.or ((DoubleChars.fromChars p.text).map .makeDouble)

/-! ### Phrases -/

/-- The white space around an element. -/
structure Gap where
  before : Blank
  after : Blank

/-- The name of a member with the white space around the name, the colon and the value. -/
structure Label where
  before : Blank
  name : List StringItem
  beforeColon : Blank
  afterColon : Blank
  after : Blank

def Label.text (label : Label) : Text :=
  label.before.text ++ quoted label.name ++ label.beforeColon.text ++ 0x3A :: label.afterColon.text

/-- A value as it is spelled. -/
inductive Phrase
  | null
  | bool (b : Bool)
  | number (parts : NumberParts)
  | string (items : List StringItem)
  | list (blank : Blank) (elements : List (Gap × Phrase))
  | object (blank : Blank) (members : List (Label × Phrase))

namespace Phrase

mutual

def text : Phrase → Text
  | null => ascii "null"
  | bool b => if b then ascii "true" else ascii "false"
  | number parts => parts.text
  | string items => quoted items
  | list blank elements => 0x5B :: blank.text ++ elementsText true elements ++ [0x5D]
  | object blank members => 0x7B :: blank.text ++ membersText true members ++ [0x7D]

def elementsText : Bool → List (Gap × Phrase) → Text
  | _, [] => []
  | first, (gap, v) :: rest =>
    (if first then [] else [0x2C]) ++ gap.before.text ++ text v ++ gap.after.text ++ elementsText false rest

def membersText : Bool → List (Label × Phrase) → Text
  | _, [] => []
  | first, (label, v) :: rest =>
    (if first then [] else [0x2C]) ++ label.text ++ text v ++ label.after.text ++ membersText false rest

end

/-- What an object stands for: its names are distinct, and the one member `$bytes` tags a byte string. -/
def denoteObject (members : List (Text × Value)) : Option Value :=
  if (members.map Prod.fst).Nodup then
    match members with
    | [(name, member)] =>
      if name = kBytesMember then (member.asString.bind fromHex).map .makeBytes
      else some (.makeMap (OrdMap.ofList [(name, member)]))
    | members => some (.makeMap (OrdMap.ofList members))
  else none

section Denote
variable [DoubleChars]

mutual

def denote : Phrase → Option Value
  | null => some .makeNull
  | bool b => some (.makeBool b)
  | number parts => parts.value?
  | string items => (decodeItems items).map .makeString
  | list _ elements => (denoteElements elements).map .makeList
  | object _ members => (denoteMembers members).bind denoteObject

def denoteElements : List (Gap × Phrase) → Option (List Value)
  | [] => some []
  | (_, v) :: rest => (denote v).bind fun value => (denoteElements rest).map (value :: ·)

def denoteMembers : List (Label × Phrase) → Option (List (Text × Value))
  | [] => some []
  | (label, v) :: rest => (decodeItems label.name).bind fun name =>
      (denote v).bind fun value => (denoteMembers rest).map ((name, value) :: ·)

end

end Denote

/-! ### The envelope -/

mutual

/-- How deep values are nested in a phrase. -/
def depth : Phrase → Nat
  | list _ elements => depthElements elements
  | object _ members => depthMembers members
  | _ => 0

def depthElements : List (Gap × Phrase) → Nat
  | [] => 0
  | (_, v) :: rest => max (depth v + 1) (depthElements rest)

def depthMembers : List (Label × Phrase) → Nat
  | [] => 0
  | (_, v) :: rest => max (depth v + 1) (depthMembers rest)

end

mutual

/-- How many values a phrase has. -/
def count : Phrase → Nat
  | list _ elements => 1 + countElements elements
  | object _ members => 1 + countMembers members
  | _ => 1

def countElements : List (Gap × Phrase) → Nat
  | [] => 0
  | (_, v) :: rest => count v + countElements rest

def countMembers : List (Label × Phrase) → Nat
  | [] => 0
  | (_, v) :: rest => count v + countMembers rest

end

/-- The bytes of a string are UTF-8 and fit a leaf. -/
def StringWithin (limits : RuntimeLimits) (items : List StringItem) : Prop :=
  ∀ bytes, decodeItems items = some bytes → Utf8Text bytes ∧ bytes.length ≤ limits.maxLeafBytes

mutual

/-- The strings and the objects of a phrase are within the envelope. The digits of a byte string are one of its
    strings, so the bytes they stand for fit a leaf as well. -/
def Within (limits : RuntimeLimits) : Phrase → Prop
  | string items => StringWithin limits items
  | list _ elements => WithinElements limits elements
  | object _ members => members.length ≤ limits.maxFieldsPerObject ∧ WithinMembers limits members
  | _ => True

def WithinElements (limits : RuntimeLimits) : List (Gap × Phrase) → Prop
  | [] => True
  | (_, v) :: rest => Within limits v ∧ WithinElements limits rest

def WithinMembers (limits : RuntimeLimits) : List (Label × Phrase) → Prop
  | [] => True
  | (label, v) :: rest => StringWithin limits label.name ∧ Within limits v ∧ WithinMembers limits rest

end

end Phrase

end Json

end DriftObservatory
