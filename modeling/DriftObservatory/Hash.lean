import DriftObservatory.Text

/-! Incremental SHA-256 as `hash.cpp` computes it: eight chaining words, a block buffer and a byte count.
    Words are natural numbers below `2 ^ 32`; each operation that can leave that range reduces again. -/

namespace DriftObservatory

/-- Byte length of a SHA-256 digest. -/
def kDigestBytes : Nat := 32

/-- A SHA-256 digest. The default one, all zeros, is unset. -/
structure Digest where
  bytes : Text
  length_bytes : bytes.length = kDigestBytes
deriving DecidableEq

namespace Digest

def zero : Digest := ⟨List.replicate kDigestBytes 0, by decide⟩

instance : Inhabited Digest := ⟨zero⟩

instance : LinearOrder Digest :=
  LinearOrder.lift' bytes fun a b h => by
    cases a
    cases b
    simpa using h

def isSet (d : Digest) : Bool := d.bytes.any (· != 0)

end Digest

/-! ### Word arithmetic -/

/-- A 32-bit word. -/
abbrev Word := Nat

namespace Word

def add (x y : Word) : Word := Nat.mod (Nat.add x y) 0x100000000

def xor (x y : Word) : Word := Nat.xor x y

def and (x y : Word) : Word := Nat.land x y

def not (x : Word) : Word := Nat.sub 0xFFFFFFFF x

def shiftRight (value bits : Word) : Word := Nat.shiftRight value bits

def shiftLeft (value bits : Word) : Word := Nat.mod (Nat.shiftLeft value bits) 0x100000000

def rotateRight (value bits : Word) : Word :=
  Nat.lor (shiftRight value bits) (shiftLeft value (Nat.sub 32 bits))

/-- The four bytes of a word, most significant first. -/
def toBytes (value : Word) : Text :=
  [24, 16, 8, 0].map fun shift => UInt8.ofNat (Nat.shiftRight value shift)

end Word

/-! ### One block -/

def kSha256K : List Word := [
  0x428a2f98, 0x71374491, 0xb5c0fbcf, 0xe9b5dba5, 0x3956c25b, 0x59f111f1, 0x923f82a4, 0xab1c5ed5,
  0xd807aa98, 0x12835b01, 0x243185be, 0x550c7dc3, 0x72be5d74, 0x80deb1fe, 0x9bdc06a7, 0xc19bf174,
  0xe49b69c1, 0xefbe4786, 0x0fc19dc6, 0x240ca1cc, 0x2de92c6f, 0x4a7484aa, 0x5cb0a9dc, 0x76f988da,
  0x983e5152, 0xa831c66d, 0xb00327c8, 0xbf597fc7, 0xc6e00bf3, 0xd5a79147, 0x06ca6351, 0x14292967,
  0x27b70a85, 0x2e1b2138, 0x4d2c6dfc, 0x53380d13, 0x650a7354, 0x766a0abb, 0x81c2c92e, 0x92722c85,
  0xa2bfe8a1, 0xa81a664b, 0xc24b8b70, 0xc76c51a3, 0xd192e819, 0xd6990624, 0xf40e3585, 0x106aa070,
  0x19a4c116, 0x1e376c08, 0x2748774c, 0x34b0bcb5, 0x391c0cb3, 0x4ed8aa4a, 0x5b9cca4f, 0x682e6ff3,
  0x748f82ee, 0x78a5636f, 0x84c87814, 0x8cc70208, 0x90befffa, 0xa4506ceb, 0xbef9a3f7, 0xc67178f2]

/-- The eight chaining words `state_`. -/
structure HashState where
  (a b c d e f g h : Word)
deriving DecidableEq

namespace HashState

def initial : HashState :=
  ⟨0x6a09e667, 0xbb67ae85, 0x3c6ef372, 0xa54ff53a, 0x510e527f, 0x9b05688c, 0x1f83d9ab, 0x5be0cd19⟩

/-- One of the 64 rounds. -/
def round (s : HashState) (k w : Word) : HashState :=
  let s1 := Word.xor (Word.xor (Word.rotateRight s.e 6) (Word.rotateRight s.e 11)) (Word.rotateRight s.e 25)
  let ch := Word.xor (Word.and s.e s.f) (Word.and (Word.not s.e) s.g)
  let temp1 := Word.add (Word.add (Word.add (Word.add s.h s1) ch) k) w
  let s0 := Word.xor (Word.xor (Word.rotateRight s.a 2) (Word.rotateRight s.a 13)) (Word.rotateRight s.a 22)
  let maj := Word.xor (Word.xor (Word.and s.a s.b) (Word.and s.a s.c)) (Word.and s.b s.c)
  let temp2 := Word.add s0 maj
  ⟨Word.add temp1 temp2, s.a, s.b, s.c, Word.add s.d temp1, s.e, s.f, s.g⟩

def rounds : HashState → List Word → List Word → HashState
  | s, k :: ks, w :: ws => rounds (s.round k w) ks ws
  | s, _, _ => s

def add (s t : HashState) : HashState :=
  ⟨Word.add s.a t.a, Word.add s.b t.b, Word.add s.c t.c, Word.add s.d t.d,
    Word.add s.e t.e, Word.add s.f t.f, Word.add s.g t.g, Word.add s.h t.h⟩

def words (s : HashState) : List Word := [s.a, s.b, s.c, s.d, s.e, s.f, s.g, s.h]

end HashState

/-- The big-endian words of a block. -/
def blockWords : Text → List Word
  | b0 :: b1 :: b2 :: b3 :: rest =>
    Nat.lor (Nat.lor (Nat.lor (Word.shiftLeft b0.toNat 24) (Word.shiftLeft b1.toNat 16))
      (Word.shiftLeft b2.toNat 8)) b3.toNat :: blockWords rest
  | _ => []

/-- The message schedule: the window holds `w[index - 16]` to `w[index - 1]`, and each step emits the
    oldest word and appends the next one. -/
def schedule : Nat → List Word → List Word
  | n + 1, w0 :: w1 :: w2 :: w3 :: w4 :: w5 :: w6 :: w7 :: w8 :: w9 :: w10 :: w11 :: w12 :: w13 :: w14 :: w15 :: _ =>
    let s0 := Word.xor (Word.xor (Word.rotateRight w1 7) (Word.rotateRight w1 18)) (Word.shiftRight w1 3)
    let s1 := Word.xor (Word.xor (Word.rotateRight w14 17) (Word.rotateRight w14 19)) (Word.shiftRight w14 10)
    w0 :: schedule n [w1, w2, w3, w4, w5, w6, w7, w8, w9, w10, w11, w12, w13, w14, w15,
      Word.add (Word.add (Word.add w0 s0) w9) s1]
  | _, window => window

def compress (state : HashState) (block : Text) : HashState :=
  state.add (state.rounds kSha256K (schedule 48 (blockWords block)))

/-! ### The incremental hasher -/

/-- The hasher between calls: `buffer` holds the `buffered_` bytes not yet compressed. -/
structure Sha256 where
  state : HashState
  buffer : Text
  totalBytes : UInt64
  finalized : Bool
deriving DecidableEq

namespace Sha256

def initial : Sha256 := ⟨.initial, [], 0, false⟩

/-- The loop of `Update` over whole blocks; `fuel` bounds the number of blocks. -/
def absorbBlocks : Nat → HashState → Text → HashState × Text
  | fuel + 1, state, data =>
    if 64 ≤ data.length then absorbBlocks fuel (compress state (data.take 64)) (data.drop 64) else (state, data)
  | 0, state, data => (state, data)

def update (s : Sha256) (data : Text) : Sha256 :=
  if s.finalized || data.isEmpty then s
  else
    let total := s.totalBytes + UInt64.ofNat data.length
    if s.buffer.isEmpty then
      let (state, rest) := absorbBlocks data.length s.state data
      { s with state := state, buffer := rest, totalBytes := total }
    else
      let needed := 64 - s.buffer.length
      let buffer := s.buffer ++ data.take needed
      if buffer.length = 64 then
        let (state, rest) := absorbBlocks data.length (compress s.state buffer) (data.drop needed)
        { s with state := state, buffer := rest, totalBytes := total }
      else { s with buffer := buffer, totalBytes := total }

def updateByte (s : Sha256) (value : UInt8) : Sha256 := s.update [value]

def updateU64 (s : Sha256) (value : UInt64) : Sha256 := s.update (bigEndian64 value)

/-- The zero padding of `Final`; a block has at most 64 bytes left. -/
def padZeros : Nat → Sha256 → Sha256
  | fuel + 1, s => if s.buffer.length = 56 then s else padZeros fuel (s.update [0])
  | 0, s => s

/-- The chaining words after `Final`'s padding. -/
def final (s : Sha256) : Digest :=
  if s.finalized then Digest.zero
  else
    let totalBits := s.totalBytes * 8
    let padded := (padZeros 64 (s.update [0x80])).update (bigEndian64 totalBits)
    ⟨padded.state.words.flatMap Word.toBytes, by simp [HashState.words, Word.toBytes, kDigestBytes]⟩

end Sha256

/-- The digest of a byte string. -/
def hashBytes (data : Text) : Digest := (Sha256.initial.update data).final

/-! ### CRC-32 -/

/-- One bit of a table entry: a shift that takes the polynomial off when a bit leaves. -/
def crc32Shift (value : UInt32) : UInt32 :=
  if (value &&& 1) != 0 then (0xEDB88320 : UInt32) ^^^ (value >>> 1) else value >>> 1

def crc32Entry (index : UInt32) : UInt32 := (List.range 8).foldl (fun value _ => crc32Shift value) index

/-- The table by its positions. -/
def kCrc32Table (index : Fin 256) : UInt32 := crc32Entry (UInt32.ofNat index)

/-- The table position of a byte taken into the register. -/
def crc32Index (crc : UInt32) (byte : UInt8) : Fin 256 :=
  ⟨((crc ^^^ byte.toUInt32) &&& 0xFF).toNat, by
    rw [UInt32.toNat_and]
    exact Nat.lt_succ_of_le Nat.and_le_right⟩

def crc32Step (crc : UInt32) (byte : UInt8) : UInt32 := kCrc32Table (crc32Index crc byte) ^^^ (crc >>> 8)

def crc32 (data : Text) : UInt32 := data.foldl crc32Step 0xFFFFFFFF ^^^ 0xFFFFFFFF

end DriftObservatory
