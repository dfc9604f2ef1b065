import DriftObservatory.Wire
import DriftObservatory.Theorems.Checksums

/-! Frames round-trip through their header, and a payload damaged within a burst is refused. -/

namespace DriftObservatory
open Division

/-! ### Little-endian fields -/

section Fields
variable {w bytes : Nat}

@[simp] theorem length_appendLowBytes (value : BitVec w) : (appendLowBytes bytes value).length = bytes := by
  rw [appendLowBytes, List.length_map, List.length_range]

theorem getLsbD_readLowBytes (data : Text) (i : Nat) (hi : i < w) :
    (readLowBytes w bytes data).getLsbD i =
      (decide (i / 8 < bytes) && (data.getD (i / 8) 0).toBitVec.getLsbD (i % 8)) := by
  induction bytes with
  | zero => simp [readLowBytes]
  | succ n ih =>
    have hfold : readLowBytes w (n + 1) data =
        readLowBytes w n data ||| ((data.getD n 0).toBitVec.setWidth w <<< (8 * n)) := by
      rw [readLowBytes, List.range_succ, List.foldl_append]
      rfl
    rw [hfold, BitVec.getLsbD_or, ih, BitVec.getLsbD_shiftLeft, BitVec.getLsbD_setWidth]
    rcases Nat.lt_trichotomy (i / 8) n with hlt | heq | hgt
    · have hbelow : i < 8 * n := by omega
      simp [hlt, hbelow, Nat.lt_succ_of_lt hlt]
    · have hplace : i - 8 * n = i % 8 := by omega
      have habove : ¬ i < 8 * n := by omega
      have hwidth : i % 8 < w := by omega
      simp [heq, hplace, habove, hi, hwidth]
    · have hout : 8 ≤ i - 8 * n := by omega
      rw [BitVec.getLsbD_of_ge _ (i - 8 * n) hout]
      simp [show ¬ i / 8 < n by omega, show ¬ i / 8 < n + 1 by omega]

/-- **A field is read back** whatever stands behind it. -/
theorem readLowBytes_append (value : BitVec w) (hw : w = 8 * bytes) (rest : Text) :
    readLowBytes w bytes (appendLowBytes bytes value ++ rest) = value := by
  apply BitVec.eq_of_getLsbD_eq
  intro i hi
  have hbyte : i / 8 < bytes := by omega
  have hget : (appendLowBytes bytes value ++ rest).getD (i / 8) 0 =
      UInt8.ofBitVec ((value >>> (8 * (i / 8))).setWidth 8) := by
    rw [List.getD_eq_getElem?_getD, List.getElem?_append_left (by simpa using hbyte)]
    simp [appendLowBytes, hbyte]
  rw [getLsbD_readLowBytes _ i hi, decide_eq_true hbyte, Bool.true_and, hget]
  simp [Nat.mod_lt, Nat.div_add_mod]

theorem readU16_appendU16 (value : UInt16) (rest : Text) : readU16 (appendU16 value ++ rest) = value := by
  rw [readU16, appendU16, @readLowBytes_append 16 2 _ rfl]

theorem readU32_appendU32 (value : UInt32) (rest : Text) : readU32 (appendU32 value ++ rest) = value := by
  rw [readU32, appendU32, @readLowBytes_append 32 4 _ rfl]

theorem readU64_appendU64 (value : UInt64) (rest : Text) : readU64 (appendU64 value ++ rest) = value := by
  rw [readU64, appendU64, @readLowBytes_append 64 8 _ rfl]

@[simp] theorem length_appendU16 (value : UInt16) : (appendU16 value).length = 2 := length_appendLowBytes _

@[simp] theorem length_appendU32 (value : UInt32) : (appendU32 value).length = 4 := length_appendLowBytes _

@[simp] theorem length_appendU64 (value : UInt64) : (appendU64 value).length = 8 := length_appendLowBytes _

end Fields

/-! ### Headers -/

theorem length_kFrameMagic : kFrameMagic.length = 4 := by decide

theorem tryParseFrameType_raw (type : FrameType) : tryParseFrameType type.raw = some type := by
  cases type <;> rfl

section Header
variable {type : FrameType} {flags : UInt16} {sequence : UInt64} {payload : Text}

theorem length_frameHeaderBytes : (frameHeaderBytes type flags sequence payload).length = kFrameHeaderBytes := by
  simp only [frameHeaderBytes, List.length_append, length_appendU16, length_appendU32, length_appendU64,
    length_kFrameMagic, kFrameHeaderBytes]

theorem drop_next {data field rest : Text} {n k : Nat} (h : data.drop n = field ++ rest) (hk : field.length = k) :
    data.drop (n + k) = rest := by
  rw [← List.drop_drop, h, ← hk, List.drop_left]

/-- The header `DecodeFrameHeader` is to return. -/
def headerOf (type : FrameType) (flags : UInt16) (sequence : UInt64) (payload : Text) : FrameHeader :=
  { version := kWireProtocolVersion, type, flags, sequence,
    payloadBytes := UInt32.ofNat payload.length,
    checksum := crc32 payload }

/-- **A header decodes to the fields it was encoded from**, whatever stands behind it. -/
theorem decodeFrameHeader_frameHeaderBytes {limits : RuntimeLimits} (hlimit : payload.length ≤ limits.maxWirePayloadBytes)
    (hsize : payload.length < 2 ^ 32) (rest : Text) :
    decodeFrameHeader (frameHeaderBytes type flags sequence payload ++ rest) limits =
      .ok (headerOf type flags sequence payload) := by
  let H := frameHeaderBytes type flags sequence payload ++ rest
  have hlen : ¬ H.length < kFrameHeaderBytes := by
    rw [List.length_append, length_frameHeaderBytes]
    omega
  have hsplit : H = kFrameMagic ++ (appendU16 kWireProtocolVersion ++ (appendU16 type.raw ++ (appendU16 flags ++
      (appendU16 0 ++ (appendU32 (UInt32.ofNat payload.length) ++ (appendU32 (crc32 payload) ++
        (appendU64 sequence ++ rest))))))) := by
    simp only [H, frameHeaderBytes, List.append_assoc]
  have hmagic : H.take kFrameMagic.length = kFrameMagic := by
    rw [hsplit, List.take_left]
  have h4 : H.drop 4 = _ := drop_next (n := 0) hsplit length_kFrameMagic
  have h6 : H.drop 6 = _ := drop_next h4 (length_appendU16 _)
  have h8 : H.drop 8 = _ := drop_next h6 (length_appendU16 _)
  have h10 : H.drop 10 = _ := drop_next h8 (length_appendU16 _)
  have h12 : H.drop 12 = _ := drop_next h10 (length_appendU16 _)
  have h16 : H.drop 16 = _ := drop_next h12 (length_appendU32 _)
  have h20 : H.drop 20 = _ := drop_next h16 (length_appendU32 _)
  have hbytes : ¬ (UInt32.ofNat payload.length).toNat > limits.maxWirePayloadBytes := by
    rw [UInt32.toNat_ofNat_of_lt' hsize]
    exact Nat.not_lt.mpr hlimit
  change decodeFrameHeader H limits = _
  simp only [decodeFrameHeader, if_neg hlen, hmagic, h4, h6, h8, h12, h16, h20, readU16_appendU16, readU32_appendU32,
    readU64_appendU64, tryParseFrameType_raw, if_neg hbytes, ne_eq, not_true_eq_false, if_false]
  rfl

theorem verifyFramePayload_headerOf (hsize : payload.length < 2 ^ 32) :
    verifyFramePayload (headerOf type flags sequence payload) payload = .okay := by
  have hlen : payload.length = (UInt32.ofNat payload.length).toNat := (UInt32.toNat_ofNat_of_lt' hsize).symm
  rw [verifyFramePayload, headerOf, if_neg (not_not.mpr hlen), if_neg (not_not.mpr rfl)]

/-- A payload of the declared length is refused when its checksum is another. -/
theorem verifyFramePayload_damaged (hsize : payload.length < 2 ^ 32) {damaged : Text}
    (hlen : damaged.length = payload.length) (hcrc : crc32 damaged ≠ crc32 payload) :
    verifyFramePayload (headerOf type flags sequence payload) damaged =
      .rejected .wireFrameChecksumMismatch (ascii "the payload checksum does not match the header") := by
  have hdeclared : damaged.length = (UInt32.ofNat payload.length).toNat := by
    rw [hlen, UInt32.toNat_ofNat_of_lt' hsize]
  rw [verifyFramePayload, headerOf, if_neg (not_not.mpr hdeclared), if_pos hcrc]

end Header

/-- **A frame within the limits carries its fields and its payload**: its header decodes, whatever stands behind it, to
    the type, flags, sequence and length it was made of, the payload passes, and every payload of that length that
    differs from it within a burst of 32 bits is refused. The checksum behind it is the complemented remainder of a
    polynomial division. -/
theorem frames_exact (limits : RuntimeLimits) (type : FrameType) (flags : UInt16) (sequence : UInt64) (payload : Text)
    (hlimit : payload.length ≤ limits.maxWirePayloadBytes) (hsize : payload.length < 2 ^ 32) :
    ∃ (bytes : Text) (header : FrameHeader),
      encodeFrame type flags sequence payload limits = .ok (bytes ++ payload) ∧ bytes.length = kFrameHeaderBytes ∧
      (∀ rest, decodeFrameHeader (bytes ++ rest) limits = .ok header) ∧
      header.type = type ∧ header.flags = flags ∧ header.sequence = sequence ∧
      header.payloadBytes.toNat = payload.length ∧
      verifyFramePayload header payload = .okay ∧
      (∀ damaged : Text, damaged.length = payload.length → damaged ≠ payload →
        WithinBurst 32 (payloadBits payload) (payloadBits damaged) →
        verifyFramePayload header damaged =
          .rejected .wireFrameChecksumMismatch (ascii "the payload checksum does not match the header")) ∧
      ∀ data : Text, ofRegister (crc32 data).toBitVec = crc32Remainder data + ofBits (List.replicate 32 true) := by
  refine ⟨frameHeaderBytes type flags sequence payload, headerOf type flags sequence payload, ?_,
    length_frameHeaderBytes, decodeFrameHeader_frameHeaderBytes hlimit hsize, rfl, rfl, rfl,
    UInt32.toNat_ofNat_of_lt' hsize, verifyFramePayload_headerOf hsize, ?_, crc32_remainder⟩
  · rw [encodeFrame, if_neg (Nat.not_lt.mpr hlimit)]
  · intro damaged hlen hne hburst
    exact verifyFramePayload_damaged hsize hlen (crc32_ne_of_burst hlen hne hburst)

theorem frames_exact_small :
    ∃ (bytes : Text) (header : FrameHeader),
      encodeFrame .hello 1 7 [0x7B, 0x7D] {} = .ok (bytes ++ [0x7B, 0x7D]) ∧ bytes.length = kFrameHeaderBytes ∧
      (∀ rest, decodeFrameHeader (bytes ++ rest) {} = .ok header) ∧
      header.type = .hello ∧ header.flags = 1 ∧ header.sequence = 7 ∧ header.payloadBytes.toNat = 2 ∧
      verifyFramePayload header [0x7B, 0x7D] = .okay ∧
      (∀ damaged : Text, damaged.length = 2 → damaged ≠ [0x7B, 0x7D] →
        WithinBurst 32 (payloadBits [0x7B, 0x7D]) (payloadBits damaged) →
        verifyFramePayload header damaged =
          .rejected .wireFrameChecksumMismatch (ascii "the payload checksum does not match the header")) ∧
      ∀ data : Text, ofRegister (crc32 data).toBitVec = crc32Remainder data + ofBits (List.replicate 32 true) :=
  frames_exact {} .hello 1 7 [0x7B, 0x7D] (by decide) (by decide)

/-- Neighbouring bits are those the checksum takes one after the other: counted from the top of each byte, the 31 bits
    from the fifth on can change unnoticed. -/
example : crc32 [0x0A, 0x1E, 0xE9, 0xD5, 0xE0] = crc32 [0, 0, 0, 0, 0] := by decide +kernel

end DriftObservatory
