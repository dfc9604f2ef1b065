import DriftObservatory.Theorems.Frames
import DriftObservatory.Theorems.Recovery

/-! The layout of a ledger file. What is accepted is laid out byte for byte as it is written, but for the reserved field,
    so no accepted file begins another: a file that was cut or has grown is refused. -/

namespace DriftObservatory
open Outcome

namespace FindingLedger

/-! ### Numbers -/

theorem readLittleEndian_lt : ∀ bytes : Text, readLittleEndian bytes < 256 ^ bytes.length
  | [] => by simp [readLittleEndian]
  | b :: bytes => by
    have hrest := readLittleEndian_lt bytes
    rw [readLittleEndian] at hrest ⊢
    rw [List.foldr_cons, List.length_cons, Nat.pow_succ]
    have hbyte : b.toNat < 256 := b.toNat_lt
    generalize List.foldr _ 0 bytes = value at hrest ⊢
    omega

theorem littleEndian_readLittleEndian : ∀ bytes : Text, littleEndian bytes.length (readLittleEndian bytes) = bytes
  | [] => rfl
  | b :: bytes => by
    have hrest := littleEndian_readLittleEndian bytes
    have hbyte : b.toNat < 256 := b.toNat_lt
    rw [readLittleEndian] at hrest ⊢
    rw [List.foldr_cons, List.length_cons, littleEndian]
    have hquotient : ∀ value : Nat, (b.toNat + 256 * value) / 256 = value := fun value => by omega
    have hlow : ∀ value : Nat, UInt8.ofNat (b.toNat + 256 * value) = b := fun value => by
      apply UInt8.toNat_inj.mp
      rw [UInt8.toNat_ofNat']
      omega
    rw [hquotient, hlow, hrest]

/-- A field of known width is the number read from it. -/
theorem littleEndian_field {bytes : Text} {offset width : Nat} (h : offset + width ≤ bytes.length) :
    littleEndian width (readLittleEndian ((bytes.drop offset).take width)) = (bytes.drop offset).take width := by
  have hlength : ((bytes.drop offset).take width).length = width := by
    rw [List.length_take, List.length_drop]
    omega
  have hread := littleEndian_readLittleEndian ((bytes.drop offset).take width)
  rwa [hlength] at hread

/-! ### The layout -/

section Layout
variable {limits limits' : RuntimeLimits} {liveEpoch liveEpoch' epoch epoch' : FabricEpoch}
  {incarnation incarnation' : Incarnation} {reserved reserved' payload payload' bytes bytes' : Text}

/-- A ledger file with the given reserved field. -/
def laidOut (reserved : Text) (epoch : FabricEpoch) (incarnation : Incarnation) (payload : Text) : Text :=
  kLedgerMagic ++ (littleEndian 2 kLedgerFormatVersion ++ (reserved ++ (littleEndian 8 payload.length ++
    ((hashBytes payload).bytes ++ (littleEndian 8 epoch.value.toNat ++ (littleEndian 8 incarnation.value.toNat ++ payload))))))

theorem framePayload_laidOut :
    framePayload epoch incarnation payload = laidOut (littleEndian 2 0) epoch incarnation payload := by
  simp only [framePayload, laidOut, List.append_assoc]

theorem length_laidOut (h : reserved.length = 2) :
    (laidOut reserved epoch incarnation payload).length = kLedgerHeaderBytes + payload.length := by
  have hmagic : kLedgerMagic.length = 8 := by decide
  simp only [laidOut, List.length_append, length_littleEndian, (hashBytes payload).length_bytes, hmagic, h, kDigestBytes,
    kLedgerHeaderBytes]
  omega

theorem laidOut_parts (h : reserved.length = 2) :
    (laidOut reserved epoch incarnation payload).take 8 = kLedgerMagic ∧
    ((laidOut reserved epoch incarnation payload).drop 8).take 2 = littleEndian 2 kLedgerFormatVersion ∧
    ((laidOut reserved epoch incarnation payload).drop 12).take 8 = littleEndian 8 payload.length ∧
    ((laidOut reserved epoch incarnation payload).drop 20).take kDigestBytes = (hashBytes payload).bytes ∧
    ((laidOut reserved epoch incarnation payload).drop 52).take 8 = littleEndian 8 epoch.value.toNat ∧
    (laidOut reserved epoch incarnation payload).drop kLedgerHeaderBytes = payload := by
  let F := laidOut reserved epoch incarnation payload
  have hdigest := (hashBytes payload).length_bytes
  have h0 : F.drop 0 = kLedgerMagic ++ _ := rfl
  have h8 : F.drop 8 = _ := drop_next h0 (show kLedgerMagic.length = 8 by decide)
  have h10 : F.drop 10 = _ := drop_next h8 (length_littleEndian _ _)
  have h12 : F.drop 12 = _ := drop_next h10 h
  have h20 : F.drop 20 = _ := drop_next h12 (length_littleEndian _ _)
  have h52 : F.drop 52 = _ := drop_next h20 hdigest
  have h60 : F.drop 60 = _ := drop_next h52 (length_littleEndian _ _)
  have h68 : F.drop 68 = payload := drop_next h60 (length_littleEndian _ _)
  refine ⟨List.take_left' (by decide), ?_, ?_, ?_, ?_, h68⟩
  · rw [h8]
    exact List.take_left' (length_littleEndian _ _)
  · rw [h12]
    exact List.take_left' (length_littleEndian _ _)
  · rw [h20]
    exact List.take_left' hdigest
  · rw [h52]
    exact List.take_left' (length_littleEndian _ _)

/-- **A file passes its header if and only if it is laid out as it is written**, whatever stands in the reserved field,
    fits the envelopes and was not written by a newer epoch. -/
theorem unframePayload_eq_ok : unframePayload limits liveEpoch bytes = .ok payload ↔
    kLedgerHeaderBytes + payload.length ≤ limits.maxLedgerBytes ∧ payload.length ≤ limits.maxRecordPayloadBytes ∧
      payload.length < 2 ^ 64 ∧ ∃ (reserved : Text) (epoch : FabricEpoch) (incarnation : Incarnation), reserved.length = 2 ∧
        ¬ (liveEpoch.isSet = true ∧ liveEpoch.value < epoch.value) ∧
          bytes = laidOut reserved epoch incarnation payload := by
  constructor
  · intro h
    simp only [unframePayload, ite_error_eq_ok, not_lt, ne_eq, not_not, Except.ok.injEq] at h
    obtain ⟨hledger, hheader, hmagic, hversion, hrecord, hwhole, hexact, hdigest, hstale, rfl⟩ := h
    have hsize : kLedgerHeaderBytes = 68 := rfl
    have hsplit : ∀ offset width, (bytes.drop offset).take width ++ bytes.drop (offset + width) = bytes.drop offset :=
      fun offset width => by rw [← List.drop_drop, List.take_append_drop]
    have hwidth : ∀ offset, offset + 8 ≤ kLedgerHeaderBytes → readLittleEndian ((bytes.drop offset).take 8) < 2 ^ 64 := by
      intro offset hoffset
      have hread := readLittleEndian_lt ((bytes.drop offset).take 8)
      rw [List.length_take, List.length_drop, Nat.min_eq_left (by omega)] at hread
      exact hread
    have hnumber : ∀ offset, offset + 8 ≤ kLedgerHeaderBytes →
        littleEndian 8 (UInt64.ofNat (readLittleEndian ((bytes.drop offset).take 8))).toNat = (bytes.drop offset).take 8 := by
      intro offset hoffset
      rw [UInt64.toNat_ofNat_of_lt' (hwidth offset hoffset), littleEndian_field (by omega)]
    have hlength : (bytes.drop kLedgerHeaderBytes).length = readLittleEndian ((bytes.drop 12).take 8) := by
      rw [List.length_drop]
      omega
    rw [hlength]
    refine ⟨by omega, hrecord, hwidth 12 (by decide), (bytes.drop 10).take 2,
      ⟨UInt64.ofNat (readLittleEndian ((bytes.drop 52).take 8))⟩,
      ⟨UInt64.ofNat (readLittleEndian ((bytes.drop 60).take 8))⟩, ?_, ?_, ?_⟩
    · rw [List.length_take, List.length_drop]
      omega
    · rw [UInt64.lt_iff_toNat_lt, UInt64.toNat_ofNat_of_lt' (hwidth 52 (by decide))]
      exact hstale
    · rw [laidOut, hnumber 52 (by decide), hnumber 60 (by decide), hlength, littleEndian_field (by omega), ← hversion,
        littleEndian_field (by omega), hdigest, ← hmagic]
      have h60 : (bytes.drop 60).take 8 ++ bytes.drop kLedgerHeaderBytes = bytes.drop 60 := hsplit 60 8
      have h20 : (bytes.drop 20).take kDigestBytes ++ bytes.drop 52 = bytes.drop 20 := hsplit 20 kDigestBytes
      rw [h60, hsplit 52 8, h20, hsplit 12 8, hsplit 10 2, hsplit 8 2, List.take_append_drop]
  · rintro ⟨hledger, hrecord, hwidth, reserved, epoch, incarnation, hreserved, hstale, rfl⟩
    obtain ⟨hmagic, hversion, hcount, hdigest, hepoch, hpayload⟩ :=
      @laidOut_parts epoch incarnation reserved payload hreserved
    have hlength : payload.length % 256 ^ 8 = payload.length := Nat.mod_eq_of_lt (by simpa using hwidth)
    have hwritten : epoch.value.toNat % 256 ^ 8 = epoch.value.toNat := Nat.mod_eq_of_lt epoch.value.toNat_lt
    have hformat : kLedgerFormatVersion % 256 ^ 2 = kLedgerFormatVersion := by decide
    simp only [unframePayload, hmagic, hversion, hcount, hdigest, hepoch, hpayload, length_laidOut hreserved,
      readLittleEndian_littleEndian, hlength, hwritten, hformat, ite_error_eq_ok, not_lt, ne_eq, not_true_eq_false,
      not_false_eq_true, true_and, and_true, Nat.le_add_right, Nat.le_refl]
    exact ⟨hledger, hrecord, by rwa [UInt64.lt_iff_toNat_lt] at hstale⟩

/-- **No laid out file begins another**: the header tells where the payload ends. -/
theorem laidOut_prefix (hreserved : reserved.length = 2) (hreserved' : reserved'.length = 2) (hwidth : payload.length < 2 ^ 64)
    (hwidth' : payload'.length < 2 ^ 64)
    (h : laidOut reserved epoch incarnation payload <+: laidOut reserved' epoch' incarnation' payload') :
    laidOut reserved epoch incarnation payload = laidOut reserved' epoch' incarnation' payload' := by
  obtain ⟨-, -, hcount, -⟩ := @laidOut_parts epoch incarnation reserved payload hreserved
  obtain ⟨-, -, hcount', -⟩ := @laidOut_parts epoch' incarnation' reserved' payload' hreserved'
  have hsize := @length_laidOut epoch incarnation reserved payload hreserved
  have hsize' := @length_laidOut epoch' incarnation' reserved' payload' hreserved'
  refine h.eq_of_length ?_
  obtain ⟨extra, hextra⟩ := h
  have hheader : kLedgerHeaderBytes = 68 := rfl
  have hsame : littleEndian 8 payload.length = littleEndian 8 payload'.length := by
    rw [← hcount, ← hcount', ← hextra, List.drop_append_of_le_length (by omega),
      List.take_append_of_le_length (by rw [List.length_drop]; omega)]
  have hlength := congrArg readLittleEndian hsame
  rw [readLittleEndian_littleEndian, readLittleEndian_littleEndian, Nat.mod_eq_of_lt (by simpa using hwidth),
    Nat.mod_eq_of_lt (by simpa using hwidth')] at hlength
  rw [hsize, hsize', hlength]

variable [DoubleChars] {L : FindingLedger}

theorem encodeLedger_laidOut : L.encodeLedger epoch incarnation =
    laidOut (littleEndian 2 0) epoch incarnation (Json.writeCanonicalJson L.document) := framePayload_laidOut

theorem decodeLedger_laidOut {read : FindingLedger × LedgerRecoveryReport} (h : decodeLedger limits liveEpoch bytes = .ok read) :
    ∃ (reserved : Text) (epoch : FabricEpoch) (incarnation : Incarnation) (payload : Text), reserved.length = 2 ∧
      payload.length < 2 ^ 64 ∧ bytes = laidOut reserved epoch incarnation payload := by
  rw [decodeLedger] at h
  obtain ⟨payload, hframe, -⟩ := bind_eq_ok.mp h
  obtain ⟨-, -, hwidth, reserved, epoch, incarnation, hreserved, -, hbytes⟩ := unframePayload_eq_ok.mp hframe
  exact ⟨reserved, epoch, incarnation, payload, hreserved, hwidth, hbytes⟩

/-- A written ledger that was cut is refused. -/
theorem decodeLedger_cut (hwidth : (L.encodeLedger epoch incarnation).length < 2 ^ 64) {size : Nat}
    (hcut : size < (L.encodeLedger epoch incarnation).length) {read : FindingLedger × LedgerRecoveryReport} :
    decodeLedger limits liveEpoch ((L.encodeLedger epoch incarnation).take size) ≠ .ok read := by
  intro h
  obtain ⟨reserved, epoch', incarnation', payload, hreserved, hpayload, hbytes⟩ := decodeLedger_laidOut h
  have hprefix := List.take_prefix size (L.encodeLedger epoch incarnation)
  have hlength : (Json.writeCanonicalJson L.document).length < 2 ^ 64 := by
    rw [encodeLedger_laidOut, length_laidOut (length_littleEndian _ _)] at hwidth
    omega
  rw [hbytes, encodeLedger_laidOut] at hprefix
  have hsame := laidOut_prefix hreserved (length_littleEndian _ _) hpayload hlength hprefix
  rw [← hbytes, ← encodeLedger_laidOut] at hsame
  have hshort := congrArg List.length hsame
  rw [List.length_take] at hshort
  omega

/-- **A ledger file is accepted only as a whole.** The header vouches for a payload if and only if the file is laid out
    byte for byte as it is written, but for the reserved field, fits the envelopes and was not written by a newer epoch;
    and of two files that are accepted, under whatever limits, neither is the other one cut off or grown. -/
theorem ledger_files_exact :
    (∀ limits liveEpoch bytes payload, unframePayload limits liveEpoch bytes = .ok payload ↔
      kLedgerHeaderBytes + payload.length ≤ limits.maxLedgerBytes ∧ payload.length ≤ limits.maxRecordPayloadBytes ∧
        payload.length < 2 ^ 64 ∧ ∃ (reserved : Text) (epoch : FabricEpoch) (incarnation : Incarnation), reserved.length = 2 ∧
          ¬ (liveEpoch.isSet = true ∧ liveEpoch.value < epoch.value) ∧
            bytes = laidOut reserved epoch incarnation payload) ∧
    ∀ limits limits' liveEpoch liveEpoch' bytes bytes' read read', decodeLedger limits liveEpoch bytes = .ok read →
      decodeLedger limits' liveEpoch' bytes' = .ok read' → bytes <+: bytes' → bytes = bytes' := by
  refine ⟨fun limits liveEpoch bytes payload => unframePayload_eq_ok, ?_⟩
  intro limits limits' liveEpoch liveEpoch' bytes bytes' read read' h h' hprefix
  obtain ⟨reserved, epoch, incarnation, payload, hreserved, hpayload, rfl⟩ := decodeLedger_laidOut h
  obtain ⟨reserved', epoch', incarnation', payload', hreserved', hpayload', rfl⟩ := decodeLedger_laidOut h'
  exact laidOut_prefix hreserved hreserved' hpayload hpayload' hprefix

end Layout

end FindingLedger
end DriftObservatory
