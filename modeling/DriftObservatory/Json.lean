import DriftObservatory.Value
import DriftObservatory.Lib.OrdMap

/-! JSON as `json.cpp` writes and reads it. A byte string has no spelling of its own: it is written as an object
    with the one member `$bytes`, and such an object is read back as a byte string. -/

namespace DriftObservatory

/-! ### Building values and taking them apart -/

namespace Value

def makeBool (v : Bool) : Value := ⟨.bool v, trivial⟩

def makeDouble (v : Double) : Value := ⟨.double v, trivial⟩

def makeBytes (raw : Text) : Value := ⟨.bytes raw, trivial⟩

theorem wellFormedAll_trees : ∀ elements : List Value, ValueTree.WellFormedAll (elements.map tree)
  | [] => trivial
  | v :: rest => ⟨v.wellFormed, wellFormedAll_trees rest⟩

theorem wellFormedMembers_trees :
    ∀ members : List (Text × Value), ValueTree.WellFormedMembers (members.map fun e => (e.1, e.2.tree))
  | [] => trivial
  | (_, v) :: rest => ⟨v.wellFormed, wellFormedMembers_trees rest⟩

def makeList (elements : List Value) : Value := ⟨.list (elements.map tree), wellFormedAll_trees elements⟩

def makeMap (members : OrdMap Text Value) : Value :=
  ⟨.map (members.mapValues fun _ v => v.tree).entries,
    (members.mapValues fun _ v => v.tree).sorted, wellFormedMembers_trees members.entries⟩

/-- The elements of a sequence as values. -/
def elementsOf : (elements : List ValueTree) → ValueTree.WellFormedAll elements → List Value
  | [], _ => []
  | v :: rest, h => ⟨v, h.1⟩ :: elementsOf rest h.2

/-- The members of a map as values. -/
def membersOf : (members : List (Text × ValueTree)) → ValueTree.WellFormedMembers members → List (Text × Value)
  | [], _ => []
  | (key, v) :: rest, h => (key, ⟨v, h.1⟩) :: membersOf rest h.2

theorem keys_membersOf : ∀ (members : List (Text × ValueTree)) (h : ValueTree.WellFormedMembers members),
    (membersOf members h).map Prod.fst = members.map Prod.fst
  | [], _ => rfl
  | (_, _) :: rest, h => congrArg _ (keys_membersOf rest h.2)

def asBool (v : Value) : Option Bool := match v.tree with
  | .bool b => some b
  | _ => none

def asInt (v : Value) : Option Int64 := match v.tree with
  | .int i => some i
  | _ => none

def asUint (v : Value) : Option UInt64 := match v.tree with
  | .uint u => some u
  | _ => none

def asDouble (v : Value) : Option Double := match v.tree with
  | .double d => some d
  | _ => none

def asString (v : Value) : Option Text := match v.tree with
  | .string text => some text
  | _ => none

def asList : Value → Option (List Value)
  | ⟨.list elements, h⟩ => some (elementsOf elements h)
  | _ => none

def asMap : Value → Option (OrdMap Text Value)
  | ⟨.map members, h⟩ => some ⟨membersOf members h.2, by
      rw [← List.pairwise_map (f := Prod.fst) (R := (· < ·)), keys_membersOf, List.pairwise_map]
      exact h.1⟩
  | _ => none

end Value

/-! ### Writing -/

namespace Json

/-- The spelling of one byte inside a string. -/
def escapeByte (c : UInt8) : Text :=
  if c == 0x22 then ascii "\\\""
  else if c == 0x5C then ascii "\\\\"
  else if c == 0x08 then ascii "\\b"
  else if c == 0x0C then ascii "\\f"
  else if c == 0x0A then ascii "\\n"
  else if c == 0x0D then ascii "\\r"
  else if c == 0x09 then ascii "\\t"
  else if c < 0x20 then ascii "\\u00" ++ [Char8.hexDigit (c.toNat / 16), Char8.hexDigit (c.toNat % 16)]
  else [c]

def appendEscaped (text : Text) : Text := 0x22 :: text.flatMap escapeByte ++ [0x22]

/-- The member that tags a byte string. -/
def kBytesMember : Text := ascii "$bytes"

section Write
variable [DoubleChars]

mutual

def writeCompact : ValueTree → Text
  | .null => ascii "null"
  | .bool b => if b then ascii "true" else ascii "false"
  | .int i => decimalInt i.toInt
  | .uint u => decimal u.toNat
  | .double d => ValueTree.formatDouble d
  | .string text => appendEscaped text
  | .bytes raw => 0x7B :: appendEscaped kBytesMember ++ ascii ":\"" ++ toHex raw ++ [0x22, 0x7D]
  | .list elements => 0x5B :: writeElements true elements ++ [0x5D]
  | .map members => 0x7B :: writeMembers true members ++ [0x7D]

def writeElements : Bool → List ValueTree → Text
  | _, [] => []
  | first, v :: rest => (if first then [] else [0x2C]) ++ writeCompact v ++ writeElements false rest

def writeMembers : Bool → List (Text × ValueTree) → Text
  | _, [] => []
  | first, (key, v) :: rest =>
    (if first then [] else [0x2C]) ++ appendEscaped key ++ 0x3A :: writeCompact v ++ writeMembers false rest

end

def writeCanonicalJson (v : Value) : Text := writeCompact v.tree

/-- A new line with its indent; the product is a `std::size_t`. -/
def writeIndent (width : UInt64) (depth : Nat) : Text :=
  if width == 0 then [] else 0x0A :: List.replicate (width.toNat * depth % 2 ^ 64) 0x20

mutual

def writePretty (width : UInt64) : Nat → ValueTree → Text
  | depth, .list elements =>
    if elements.isEmpty then ascii "[]"
    else 0x5B :: writePrettyElements width (depth + 1) true elements ++ writeIndent width depth ++ [0x5D]
  | depth, .map members =>
    if members.isEmpty then ascii "\x7b\x7d"
    else 0x7B :: writePrettyMembers width (depth + 1) true members ++ writeIndent width depth ++ [0x7D]
  | _, t => writeCompact t

def writePrettyElements (width : UInt64) : Nat → Bool → List ValueTree → Text
  | _, _, [] => []
  | depth, first, v :: rest =>
    (if first then [] else [0x2C]) ++ writeIndent width depth ++ writePretty width depth v ++
      writePrettyElements width depth false rest

/-- The loop of `WritePrettyMap`. -/
def writePrettyMembers (width : UInt64) : Nat → Bool → List (Text × ValueTree) → Text
  | _, _, [] => []
  | depth, first, (key, v) :: rest =>
    (if first then [] else [0x2C]) ++ writeIndent width depth ++ appendEscaped key ++ ascii ": " ++
      writePretty width depth v ++ writePrettyMembers width depth false rest

end

def writePrettyJson (v : Value) (indentWidth : UInt64) : Text := writePretty indentWidth 0 v.tree

end Write

/-! ### Reading -/

/-- A refusal of the document. -/
def fail {α : Type} (reason : ReasonCode) (detail : String) : Except Status α :=
  .error (.rejected reason (ascii detail))

/-- A refusal of the document by the envelope. -/
def exceed {α : Type} (reason : ReasonCode) (detail : String) : Except Status α :=
  .error (.limit reason (ascii detail))

def isSpace (c : UInt8) : Bool := c == 0x20 || c == 0x09 || c == 0x0A || c == 0x0D

def skipWhitespace (text : Text) : Text := text.dropWhile isSpace

def parseLiteral (literal : String) (value : Value) (text : Text) : Except Status (Value × Text) :=
  if (ascii literal).isPrefixOf text then .ok (value, text.drop (ascii literal).length)
  else fail .encodingUnexpectedToken "unrecognized literal"

def parseHex4 (text : Text) : Except Status (Nat × Text) :=
  if text.length < 4 then fail .encodingMalformed "truncated escape sequence"
  else match (text.take 4).mapM Char8.hexValue with
    | none => fail .encodingMalformed "invalid escape digit"
    | some digits => .ok (digits.foldl (fun value digit => value * 16 + digit) 0, text.drop 4)

def appendUtf8 (codepoint : Nat) : Text :=
  List.map UInt8.ofNat <|
    if codepoint < 0x80 then [codepoint]
    else if codepoint < 0x800 then [0xC0 + codepoint / 64, 0x80 + codepoint % 64]
    else if codepoint < 0x10000 then [0xE0 + codepoint / 4096, 0x80 + codepoint / 64 % 64, 0x80 + codepoint % 64]
    else [0xF0 + codepoint / 262144, 0x80 + codepoint / 4096 % 64, 0x80 + codepoint / 64 % 64, 0x80 + codepoint % 64]

/-- The code point of a `\u` escape, with the low half behind a high surrogate. -/
def parseCodepoint (text : Text) : Except Status (Nat × Text) := do
  let (codepoint, text) ← parseHex4 text
  if 0xD800 ≤ codepoint ∧ codepoint ≤ 0xDBFF then
    if (ascii "\\u").isPrefixOf text then
      let (low, text) ← parseHex4 (text.drop 2)
      if low < 0xDC00 ∨ 0xDFFF < low then
        fail .encodingInvalidUtf8 "high surrogate without a low surrogate"
      else .ok (0x10000 + (codepoint - 0xD800) * 1024 + (low - 0xDC00), text)
    else fail .encodingInvalidUtf8 "lone high surrogate"
  else if 0xDC00 ≤ codepoint ∧ codepoint ≤ 0xDFFF then fail .encodingInvalidUtf8 "lone low surrogate"
  else .ok (codepoint, text)

/-- What an escape stands for, and the text behind it. -/
def parseEscape : Text → Except Status (Text × Text)
  | [] => fail .encodingMalformed "truncated escape sequence"
  | escape :: rest =>
    if escape == 0x22 || escape == 0x5C || escape == 0x2F then .ok ([escape], rest)
    else if escape == 0x62 then .ok ([0x08], rest)
    else if escape == 0x66 then .ok ([0x0C], rest)
    else if escape == 0x6E then .ok ([0x0A], rest)
    else if escape == 0x72 then .ok ([0x0D], rest)
    else if escape == 0x74 then .ok ([0x09], rest)
    else if escape == 0x75 then do
      let (codepoint, rest) ← parseCodepoint rest
      .ok (appendUtf8 codepoint, rest)
    else fail .encodingMalformed "invalid escape sequence"

/-- The loop of `ParseString` behind the opening quote; each round consumes at least one byte. -/
def parseStringFrom (limits : RuntimeLimits) : Nat → Text → Text → Except Status (Text × Text)
  | 0, _, _ => fail .encodingMalformed "unterminated string"
  | _ + 1, _, [] => fail .encodingMalformed "unterminated string"
  | fuel + 1, out, c :: rest =>
    if c == 0x22 then
      if !isValidUtf8 out then fail .encodingInvalidUtf8 "string is not valid UTF-8"
      else if limits.maxLeafBytes < out.length then exceed .limitBytesExceeded "string exceeds the envelope"
      else .ok (out, rest)
    else if c == 0x5C then do
      let (bytes, rest) ← parseEscape rest
      if limits.maxLeafBytes < (out ++ bytes).length then exceed .limitBytesExceeded "string exceeds the envelope"
      else parseStringFrom limits fuel (out ++ bytes) rest
    else if c < 0x20 then fail .encodingMalformed "raw control character in string"
    else if limits.maxLeafBytes < (out ++ [c]).length then
      exceed .limitBytesExceeded "string exceeds the envelope"
    else parseStringFrom limits fuel (out ++ [c]) rest

def parseString (limits : RuntimeLimits) (text : Text) : Except Status (Text × Text) :=
  parseStringFrom limits (text.length + 1) [] text

/-! ### Numbers -/

/-- The value of a run of digits. -/
def digitsValue (digits : Text) : Nat := digits.foldl (fun value c => value * 10 + (c.toNat - 0x30)) 0

/-- The integer part: at least one digit, without a leading zero. -/
def scanInteger (text : Text) : Except Status Text :=
  let digits := text.takeWhile Char8.isDigit
  if digits.isEmpty then fail .encodingUnexpectedToken "not a value"
  else if digits.head? = some 0x30 ∧ 1 < digits.length then fail .encodingMalformed "number has a leading zero"
  else .ok digits

/-- The fraction with its point, if there is one. -/
def scanFraction : Text → Except Status Text
  | [] => .ok []
  | c :: rest =>
    if c == 0x2E then
      let digits := rest.takeWhile Char8.isDigit
      if digits.isEmpty then fail .encodingMalformed "fraction has no digits" else .ok (c :: digits)
    else .ok []

def exponentSign : Text → Text
  | [] => []
  | c :: _ => if c == 0x2B || c == 0x2D then [c] else []

/-- The exponent with its letter and sign, if there is one. -/
def scanExponent : Text → Except Status Text
  | [] => .ok []
  | c :: rest =>
    if c == 0x65 || c == 0x45 then
      let sign := exponentSign rest
      let digits := (rest.drop sign.length).takeWhile Char8.isDigit
      if digits.isEmpty then fail .encodingMalformed "exponent has no digits" else .ok (c :: sign ++ digits)
    else .ok []

/-- `std::from_chars` for the integers, which refuses a value out of range. -/
def integerOf (negative : Bool) (digits : Text) : Option Value :=
  let n := digitsValue digits
  if negative then if n ≤ 2 ^ 63 then some (.makeInt (Int64.ofInt (-(n : Int)))) else none
  else if n < 2 ^ 64 then some (.makeUint (UInt64.ofNat n))
  else none

def parseNumber [DoubleChars] (text : Text) : Except Status (Value × Text) := do
  let sign : Text := if text.head? = some 0x2D then [0x2D] else []
  let digits ← scanInteger (text.drop sign.length)
  let rest := text.drop (sign.length + digits.length)
  let fraction ← scanFraction rest
  let exponent ← scanExponent (rest.drop fraction.length)
  let token := sign ++ digits ++ fraction ++ exponent
  let integral := fraction.isEmpty && exponent.isEmpty && token.length ≤ 20
  match if integral then integerOf (!sign.isEmpty) digits else none with
  | some value => .ok (value, text.drop token.length)
  | none => match DoubleChars.fromChars token with
    | some d => .ok (.makeDouble d, text.drop token.length)
    | none => fail .encodingNumberOutOfRange "number is outside the representable range"

/-! ### Values -/

/-- `FromHex`, for digits of either case. -/
def fromHex : Text → Option Text
  | [] => some []
  | [_] => none
  | high :: low :: rest => do
    let high ← Char8.hexValue high
    let low ← Char8.hexValue low
    let raw ← fromHex rest
    some (UInt8.ofNat (high * 16 + low) :: raw)

/-- A completed object: a tagged byte string, or a map. -/
def finishObject (limits : RuntimeLimits) (map : OrdMap Text Value) : Except Status Value :=
  match if map.size = 1 then map.find? kBytesMember else none with
  | none => .ok (.makeMap map)
  | some tagged => match tagged.asString with
    | none => fail .encodingMalformed "the byte-string tag must carry a hex string"
    | some hex => match fromHex hex with
      | none => fail .encodingMalformed "the byte-string tag carries invalid hex"
      | some raw =>
        if limits.maxLeafBytes < raw.length then exceed .limitBytesExceeded "byte string exceeds the envelope"
        else .ok (.makeBytes raw)

/-- Consumes the one byte `c`. -/
def expect (c : UInt8) (detail : String) : Text → Except Status Text
  | [] => fail .encodingMalformed detail
  | d :: rest => if d == c then .ok rest else fail .encodingMalformed detail

/-- What follows an element or a member: the closing byte (`true`) or a comma (`false`). -/
def parseSeparator (close : UInt8) (unterminated unexpected : String) : Text → Except Status (Bool × Text)
  | [] => fail .encodingMalformed unterminated
  | c :: rest =>
    if c == 0x2C then .ok (false, rest)
    else if c == close then .ok (true, rest)
    else fail .encodingMalformed unexpected

/-- A member up to its value: its name and the text behind the colon. -/
def parseKey (limits : RuntimeLimits) (text : Text) : Except Status (Text × Text) := do
  let text ← expect 0x22 "member name must be a string" (skipWhitespace text)
  let (key, text) ← parseString limits text
  if limits.maxLeafBytes < key.length then exceed .limitBytesExceeded "member name exceeds the envelope"
  else
    let text ← expect 0x3A "member name must be followed by a colon" (skipWhitespace text)
    .ok (key, skipWhitespace text)

/-- Adds a member to an object. -/
def addMember (limits : RuntimeLimits) (map : OrdMap Text Value) (key : Text) (member : Value) :
    Except Status (OrdMap Text Value) :=
  if map.contains key then fail .encodingDuplicateKey "duplicate member name"
  else if limits.maxFieldsPerObject < (map.insert key member).size then
    exceed .limitFieldsExceeded "member count exceeds the envelope"
  else .ok (map.insert key member)

/-- Adds an element to a sequence. -/
def addElement (limits : RuntimeLimits) (list : List Value) (element : Value) : Except Status (List Value) :=
  if limits.maxValueNodes < (list ++ [element]).length then
    exceed .limitObjectsExceeded "sequence exceeds the envelope"
  else .ok (list ++ [element])

/-- The checks `ParseValue` makes before it looks at the text; `nodes` counts the values before this one. -/
def admitNode (limits : RuntimeLimits) (depth nodes : Nat) : Except Status Nat :=
  if limits.maxValueDepth < depth then exceed .limitDepthExceeded "document nesting exceeds the envelope"
  else if limits.maxValueNodes < nodes + 1 then
    exceed .limitObjectsExceeded "document node count exceeds the envelope"
  else .ok (nodes + 1)

section Parse
variable [DoubleChars]

/-- A value that is neither an object nor a sequence. -/
def parseScalar (limits : RuntimeLimits) : Text → Except Status (Value × Text)
  | [] => fail .encodingMalformed "document ended before a value"
  | c :: rest =>
    if c == 0x22 then (parseString limits rest).map fun read => (.makeString read.1, read.2)
    else if c == 0x74 then parseLiteral "true" (.makeBool true) (c :: rest)
    else if c == 0x66 then parseLiteral "false" (.makeBool false) (c :: rest)
    else if c == 0x6E then parseLiteral "null" .makeNull (c :: rest)
    else parseNumber (c :: rest)

mutual

/-- A value with the text behind it and the number of values read so far. Each call consumes a byte, so the length
    of the text bounds the calls and `fuel` does not run out. -/
def parseValue (limits : RuntimeLimits) : Nat → Nat → Nat → Text → Except Status (Value × Text × Nat)
  | 0, _, _, _ => fail .encodingMalformed "document ended before a value"
  | fuel + 1, depth, nodes, text => do
    let nodes ← admitNode limits depth nodes
    if text.head? = some 0x7B then
      let text := skipWhitespace text.tail
      if text.head? = some 0x7D then do
        let value ← finishObject limits ∅
        .ok (value, text.tail, nodes)
      else parseMembers limits fuel depth nodes ∅ text
    else if text.head? = some 0x5B then
      let text := skipWhitespace text.tail
      if text.head? = some 0x5D then .ok (.makeList [], text.tail, nodes)
      else parseElements limits fuel depth nodes [] text
    else do
      let (value, text) ← parseScalar limits text
      .ok (value, text, nodes)

/-- The loop of `ParseObject`. -/
def parseMembers (limits : RuntimeLimits) :
    Nat → Nat → Nat → OrdMap Text Value → Text → Except Status (Value × Text × Nat)
  | 0, _, _, _, _ => fail .encodingMalformed "unterminated object"
  | fuel + 1, depth, nodes, map, text => do
    let (key, text) ← parseKey limits text
    let (member, text, nodes) ← parseValue limits fuel (depth + 1) nodes text
    let map ← addMember limits map key member
    let (closed, text) ← parseSeparator 0x7D "unterminated object" "expected ',' or '\x7d'" (skipWhitespace text)
    if closed then do
      let value ← finishObject limits map
      .ok (value, text, nodes)
    else parseMembers limits fuel depth nodes map text

/-- The loop of `ParseArray`. -/
def parseElements (limits : RuntimeLimits) :
    Nat → Nat → Nat → List Value → Text → Except Status (Value × Text × Nat)
  | 0, _, _, _, _ => fail .encodingMalformed "unterminated sequence"
  | fuel + 1, depth, nodes, list, text => do
    let (element, text, nodes) ← parseValue limits fuel (depth + 1) nodes (skipWhitespace text)
    let list ← addElement limits list element
    let (closed, text) ← parseSeparator 0x5D "unterminated sequence" "expected ',' or ']'" (skipWhitespace text)
    if closed then .ok (.makeList list, text, nodes) else parseElements limits fuel depth nodes list text

end

/-- `Parser::Parse`: one value with nothing behind it. -/
def parse (limits : RuntimeLimits) (text : Text) : Except Status Value := do
  let text := skipWhitespace text
  if text.isEmpty then fail .encodingMalformed "empty document"
  else
    let (value, rest, _) ← parseValue limits (2 * text.length + 2) 0 0 text
    if (skipWhitespace rest).isEmpty then .ok value
    else fail .encodingTrailingBytes "document has bytes after the top-level value"

def parseJson (limits : RuntimeLimits) (text : Text) : Except Status Value :=
  if limits.maxDocumentBytes < text.length then exceed .limitBytesExceeded "document exceeds the envelope"
  else parse limits text

end Parse

end Json

end DriftObservatory
