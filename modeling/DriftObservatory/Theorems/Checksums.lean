import DriftObservatory.Hash
import DriftObservatory.Lib.Division

/-! The table-driven CRC-32 is the remainder of a polynomial division, and so tells payloads apart that differ within
    a burst. -/

namespace DriftObservatory
open Division Polynomial

/-- The bits of a payload in the order the checksum takes them: the lowest of each byte first. -/
def payloadBits (payload : Text) : List Bool := payload.flatMap fun byte => registerBits byte.toBitVec

noncomputable def crc32Generator : (ZMod 2)[X] :=
  X ^ 32 + X ^ 26 + X ^ 23 + X ^ 22 + X ^ 16 + X ^ 12 + X ^ 11 + X ^ 10 + X ^ 8 + X ^ 7 + X ^ 5 + X ^ 4 + X ^ 2 + X + 1

/-- The remainder of a payload behind which 32 zeros stand, with its first 32 bits complemented. -/
noncomputable def crc32Remainder (payload : Text) : (ZMod 2)[X] :=
  (ofBits (payloadBits payload) * X ^ 32 + ofBits (List.replicate 32 true) * X ^ (payloadBits payload).length) %ₘ
    crc32Generator

def kCrc32Taps : BitVec 32 := 0xEDB88320

theorem divisor_kCrc32Taps : divisor kCrc32Taps = crc32Generator := by
  have hbits : registerBits kCrc32Taps =
      [false, false, false, false, false, true, false, false, true, true, false, false, false, false, false, true,
        false, false, false, true, true, true, false, true, true, false, true, true, false, true, true, true] := by
    decide
  rw [divisor, crc32Generator, ofRegister, hbits]
  simp only [ofBits, List.length_cons, List.length_nil, bit_false, bit_true, C_0, C_1, zero_mul, zero_add, one_mul,
    add_zero]
  ring

/-! ### The table -/

theorem crc32Shift_toBitVec (value : UInt32) : (crc32Shift value).toBitVec = shift kCrc32Taps value.toBitVec := by
  have hbit : ((value &&& 1) != 0) = value.toBitVec.getLsbD 0 := by
    rw [Bool.eq_iff_iff, bne_iff_ne, ne_eq, ← UInt32.toBitVec_inj, UInt32.toBitVec_and]
    have hand : value.toBitVec &&& (1 : UInt32).toBitVec = BitVec.setWidth 32 (BitVec.ofBool (value.toBitVec.getLsbD 0)) :=
      BitVec.and_one_eq_setWidth_ofBool_getLsbD
    rw [hand]
    cases value.toBitVec.getLsbD 0 <;> decide
  rw [crc32Shift, hbit, shift]
  split <;> simp [kCrc32Taps]

theorem crc32Entry_toBitVec (index : UInt32) :
    (crc32Entry index).toBitVec = (shift kCrc32Taps)^[8] index.toBitVec := by
  simp only [crc32Entry, List.range_succ, List.range_zero, List.nil_append, List.cons_append, List.foldl_cons,
    List.foldl_nil, crc32Shift_toBitVec, Function.iterate_succ, Function.iterate_zero, Function.comp_apply, id_eq]

/-- **One byte from the table** is eight shifts of the register with the byte in its low bits. -/
theorem table_step (crc : UInt32) (byte : UInt8) :
    (crc32Step crc byte).toBitVec =
      (shift kCrc32Taps)^[8] (crc.toBitVec ^^^ byte.toBitVec.setWidth 32) := by
  have hentry : kCrc32Table (crc32Index crc byte) = crc32Entry ((crc ^^^ byte.toUInt32) &&& 0xFF) := by
    rw [kCrc32Table, crc32Index, UInt32.ofNat_toNat]
  have hhigh : (crc.toBitVec ^^^ byte.toBitVec.setWidth 32) >>> 8 = (crc >>> 8).toBitVec := by
    apply BitVec.eq_of_getLsbD_eq
    intro i hi
    simp [UInt32.toBitVec_shiftRight]
  have hlow : ∀ i, ((crc ^^^ byte.toUInt32) &&& 0xFF).toBitVec.getLsbD i =
      (decide (i < 8) && (crc.toBitVec ^^^ byte.toBitVec.setWidth 32).getLsbD i) := by
    intro i
    have hmask : (255#32).getLsbD i = decide (i < 8) := by
      rw [BitVec.getLsbD_ofNat, show (255 : Nat) = 2 ^ 8 - 1 by rfl, Nat.testBit_two_pow_sub_one]
      rcases Nat.lt_or_ge i 32 with hlt | hge
      · simp [hlt]
      · simp [Nat.not_lt.mpr hge, show ¬ i < 8 by omega]
    simp [hmask, Bool.and_comm]
  rw [crc32Step, hentry, UInt32.toBitVec_xor, crc32Entry_toBitVec, shift_iterate_split hlow, hhigh]

/-! ### The remainder -/

theorem length_payloadBits (payload : Text) : (payloadBits payload).length = 8 * payload.length := by
  induction payload with
  | nil => rfl
  | cons byte payload ih =>
    rw [payloadBits, List.flatMap_cons, List.length_append, length_registerBits, List.length_cons]
    change 8 + (payloadBits payload).length = _
    omega

theorem payloadBits_injective {payload damaged : Text} (hlen : payload.length = damaged.length)
    (h : payloadBits payload = payloadBits damaged) : payload = damaged := by
  induction payload generalizing damaged with
  | nil => exact (List.length_eq_zero_iff.mp hlen.symm).symm
  | cons byte payload ih =>
    cases damaged with
    | nil => cases hlen
    | cons other damaged =>
      obtain ⟨hbyte, hrest⟩ := List.append_inj h (by rw [length_registerBits, length_registerBits])
      rw [UInt8.toBitVec_inj.mp (registerBits_injective hbyte), ih (Nat.succ.inj hlen) hrest]

theorem ofRegister_byte (byte : UInt8) :
    ofRegister (byte.toBitVec.setWidth 32) = ofBits (registerBits byte.toBitVec) * X ^ 24 :=
  ofRegister_setWidth (m := 24) byte.toBitVec

/-- A byte moves the register up and enters it, modulo the generator. -/
theorem dvd_crc32Step (crc : UInt32) (byte : UInt8) :
    crc32Generator ∣ ofRegister (crc32Step crc byte).toBitVec +
      (ofRegister crc.toBitVec + ofBits (registerBits byte.toBitVec) * X ^ 24) * X ^ 8 := by
  rw [table_step, ← divisor_kCrc32Taps, ← ofRegister_byte, ← ofRegister_xor]
  exact dvd_shift_iterate kCrc32Taps _ 8

/-- The register holds, modulo the generator, what it held before moved up, and the payload. -/
theorem dvd_foldl_crc32Step (crc : UInt32) (data : Text) :
    crc32Generator ∣ ofRegister (data.foldl crc32Step crc).toBitVec +
      (ofBits (payloadBits data) * X ^ 32 + ofRegister crc.toBitVec * X ^ (payloadBits data).length) := by
  induction data generalizing crc with
  | nil => simp [payloadBits, ofBits, CharTwo.add_self_eq_zero]
  | cons byte data ih =>
    obtain ⟨q, hq⟩ := ih (crc32Step crc byte)
    obtain ⟨r, hr⟩ := dvd_crc32Step crc byte
    have hbits : payloadBits (byte :: data) = registerBits byte.toBitVec ++ payloadBits data := List.flatMap_cons
    have htwice : ∀ p : (ZMod 2)[X], p + p = 0 := CharTwo.add_self_eq_zero
    rw [List.foldl_cons, hbits, ofBits_append, List.length_append, length_registerBits]
    refine ⟨q + r * X ^ (payloadBits data).length, ?_⟩
    linear_combination hq + X ^ (payloadBits data).length * hr -
      htwice (ofRegister (crc32Step crc byte).toBitVec * X ^ (payloadBits data).length)

theorem ofRegister_ones : ofRegister (0xFFFFFFFF : BitVec 32) = ofBits (List.replicate 32 true) := by
  rw [ofRegister]
  congr 1

/-- **The checksum of a payload** is the remainder of its division, complemented. -/
theorem crc32_remainder (payload : Text) :
    ofRegister (crc32 payload).toBitVec = crc32Remainder payload + ofBits (List.replicate 32 true) := by
  have hdvd := dvd_foldl_crc32Step 0xFFFFFFFF payload
  rw [← divisor_kCrc32Taps] at hdvd
  have hregister := eq_modByMonic hdvd
  rw [show (0xFFFFFFFF : UInt32).toBitVec = 0xFFFFFFFF by rfl, ofRegister_ones, divisor_kCrc32Taps] at hregister
  rw [crc32Remainder, ← hregister, ← ofRegister_ones, ← ofRegister_xor]
  rfl

/-- **Payloads of one length that differ within a burst of 32 bits** have different checksums. -/
theorem crc32_ne_of_burst {payload damaged : Text} (hlen : damaged.length = payload.length) (hne : damaged ≠ payload)
    (hburst : WithinBurst 32 (payloadBits payload) (payloadBits damaged)) : crc32 damaged ≠ crc32 payload := by
  intro hcrc
  have hbits : (payloadBits payload).length = (payloadBits damaged).length := by
    rw [length_payloadBits, length_payloadBits, hlen]
  have hdiffer : payloadBits payload ≠ payloadBits damaged := fun h => hne (payloadBits_injective hlen.symm h).symm
  obtain ⟨a, B, hB, hdegree, hdifference⟩ := hburst.exists_burst hbits hdiffer
  have hregister : damaged.foldl crc32Step 0xFFFFFFFF = payload.foldl crc32Step 0xFFFFFFFF := (UInt32.xor_left_inj _).mp hcrc
  obtain ⟨q, hq⟩ := dvd_foldl_crc32Step 0xFFFFFFFF payload
  obtain ⟨r, hr⟩ := dvd_foldl_crc32Step 0xFFFFFFFF damaged
  rw [hregister, ← hbits] at hr
  -- The two congruences differ by the burst alone.
  have hmultiple : divisor kCrc32Taps ∣ X ^ (a + 32) * B := by
    refine ⟨q + r, ?_⟩
    have htwice : ∀ p : (ZMod 2)[X], p + p = 0 := CharTwo.add_self_eq_zero
    rw [divisor_kCrc32Taps, mul_add, ← hq, ← hr, pow_add, mul_right_comm, ← hdifference]
    linear_combination -(htwice (ofRegister (payload.foldl crc32Step 0xFFFFFFFF).toBitVec)) -
      htwice (ofRegister (0xFFFFFFFF : UInt32).toBitVec * X ^ (payloadBits payload).length)
  exact not_dvd_burst (by decide) hB hdegree hmultiple

end DriftObservatory
