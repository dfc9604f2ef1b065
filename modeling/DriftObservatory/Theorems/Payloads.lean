import DriftObservatory.Payloads
import DriftObservatory.Theorems.Documents

/-! The payloads of a session are read as what they were written from: a peer that can parse one at all decodes the
    greeting, the acknowledgement or the reason that was sent. -/

namespace DriftObservatory
open Json Outcome

/-! ### Greetings -/

/-- What the reader of a greeting asks for. -/
structure HelloDocument.Admissible (limits : RuntimeLimits) (hello : HelloDocument) : Prop where
  source : isValidIdentityText hello.source.str = true
  provenance : hello.provenance.length ≤ limits.maxLeafBytes
  version : hello.productVersion.length ≤ limits.maxLeafBytes
  authority : (!hello.epoch.isSet || !hello.incarnation.isSet) = false

section Greetings
variable {limits : RuntimeLimits} {v : Value} {hello : HelloDocument} {M : Members} {name failure : String} {text : Text}

theorem decodeHelloCapabilities_written (capabilities : SourceCapabilities) :
    ∃ M, (encodeCapabilities capabilities).canonical.asMap = some M ∧ decodeHelloCapabilities M = .ok capabilities := by
  have hreads : Reads (encodeCapabilities capabilities) _ := reads_object (by
    simp only [Named, memberNames, List.map_cons, List.map_nil, kBytesMember]
    repeat rw [ascii_ofList]
    decide)
  obtain ⟨M, hmap, -, -, hfind⟩ := hreads
  simp only [List.forall_mem_cons, List.not_mem_nil, false_implies, implies_true, and_true, Value.canonical_makeString,
    Value.canonical_makeBool] at hfind
  obtain ⟨habsence, hcoverage, hnested, hevidence⟩ := hfind
  refine ⟨M, hmap, ?_⟩
  simp only [decodeHelloCapabilities, optionalText_of hevidence, EvidenceClass.tryParse_toText, orRefuse_some, ok_bind,
    optionalBool_of habsence, optionalBool_of hcoverage, optionalBool_of hnested, Option.getD_some]

theorem optionalLeaf_eq_ok : optionalLeaf M name limits failure = .ok text ↔
    text = (optionalString M name).getD [] ∧ text.length ≤ limits.maxLeafBytes := by
  rw [optionalLeaf, ite_error_eq_ok, not_lt, Except.ok.injEq]
  exact ⟨fun ⟨h, heq⟩ => ⟨heq.symm, heq ▸ h⟩, fun ⟨heq, h⟩ => ⟨heq ▸ h, heq.symm⟩⟩

theorem decodeHelloDocument_written (h : hello.Admissible limits) :
    decodeHelloDocument limits (encodeHello hello).canonical = .ok hello := by
  have hreads : Reads (encodeHello hello) _ := reads_object (by
    simp only [Named, memberNames, List.map_cons, List.map_nil, kBytesMember]
    repeat rw [ascii_ofList]
    decide)
  obtain ⟨M, hmap, hcheck, -, hfind⟩ := hreads
  simp only [List.forall_mem_cons, List.not_mem_nil, false_implies, implies_true, and_true, Value.canonical_makeString,
    Value.canonical_makeUint] at hfind
  obtain ⟨-, hsource, hepoch, hincarnation, hsequence, hprovenance, hversion, hcapabilities⟩ := hfind
  obtain ⟨C, hC, hdecoded⟩ := decodeHelloCapabilities_written hello.capabilities
  have hprovenance' : optionalLeaf M "provenance" limits "provenance exceeds the envelope" = .ok hello.provenance :=
    optionalLeaf_eq_ok.mpr ⟨by rw [optionalString_of hprovenance, Option.getD_some], h.provenance⟩
  have hversion' : optionalLeaf M "product_version" limits "product version exceeds the envelope" =
      .ok hello.productVersion :=
    optionalLeaf_eq_ok.mpr ⟨by rw [optionalString_of hversion, Option.getD_some], h.version⟩
  rw [decodeHelloDocument, hmap, orRefuse_some, ok_bind, hcheck _ _ (by simp), ok_bind]
  simp only [ok_bind, requireText_of hsource, StringId.tryParse_str.mpr ⟨h.source, rfl⟩, requireUint_of hepoch,
    requireUint_of hincarnation, optionalUint_of hsequence, hprovenance', hversion', hcapabilities, hC, hdecoded,
    orRefuse_some, Option.getD_some]
  exact if_neg (by rw [h.authority]; exact Bool.false_ne_true)

theorem decodeHelloDocument_inv (h : decodeHelloDocument limits v = .ok hello) : hello.Admissible limits := by
  simp only [decodeHelloDocument, bind_eq_ok (β := HelloDocument)] at h
  obtain ⟨M, -, -, -, source, hsource, epoch, -, incarnation, -, provenance, hprovenance, version, hversion, h⟩ := h
  have hrest : ∃ capabilities : SourceCapabilities,
      (!(⟨epoch⟩ : FabricEpoch).isSet || !(⟨incarnation⟩ : Incarnation).isSet) = false ∧
      hello = {
        source := source, epoch := ⟨epoch⟩, incarnation := ⟨incarnation⟩
        startSequence := ⟨(optionalUint M "start_sequence").getD 0⟩, provenance := provenance
        productVersion := version, capabilities := capabilities } := by
    cases hmember : findMember M "capabilities" with
    | none =>
      rw [hmember] at h
      simp only [ok_bind, ite_error_eq_ok, Bool.not_eq_true, Except.ok.injEq] at h
      exact ⟨_, h.1, h.2.symm⟩
    | some member =>
      rw [hmember] at h
      simp only [bind_eq_ok, ite_error_eq_ok, Bool.not_eq_true, Except.ok.injEq] at h
      obtain ⟨_, -, capabilities, -, hset, heq⟩ := h
      exact ⟨capabilities, hset, heq.symm⟩
  obtain ⟨capabilities, hset, rfl⟩ := hrest
  obtain ⟨-, text, -, -, hparsed⟩ := requireText_eq_ok.mp hsource
  exact {
    source := (StringId.tryParse_str.mp (respells_id text source hparsed)).1
    provenance := (optionalLeaf_eq_ok.mp hprovenance).2
    version := (optionalLeaf_eq_ok.mp hversion).2
    authority := hset }

end Greetings

/-! ### Acknowledgements -/

section Acknowledgements

theorem decodeHelloAck_written {ack : HelloAckPayload} (h : ack.sessionId < 2 ^ 64) :
    decodeHelloAck (encodeHelloAck ack).canonical = .ok ack := by
  have hreads : Reads (encodeHelloAck ack) _ := reads_object (by
    simp only [Named, memberNames, List.map_cons, List.map_nil, kBytesMember]
    repeat rw [ascii_ofList]
    decide)
  obtain ⟨M, hmap, -, -, hfind⟩ := hreads
  simp only [List.forall_mem_cons, List.not_mem_nil, false_implies, implies_true, and_true, Value.canonical_makeString,
    Value.canonical_makeUint, Value.canonical_makeBool] at hfind
  obtain ⟨-, haccepted, hreason, hversion, hepoch, hincarnation, hsession, hmaximum, hdetail⟩ := hfind
  rw [decodeHelloAck, hmap, orRefuse_some, ok_bind]
  simp only [ok_bind, optionalText_of hreason, ReasonCode.tryParse_toText, orRefuse_some, optionalBool_of haccepted,
    optionalUint_of hversion, optionalUint_of hepoch, optionalUint_of hincarnation, optionalUint_of hsession,
    optionalUint_of hmaximum, optionalString_of hdetail, Option.getD_some, UInt64.toNat_ofNat', Nat.mod_eq_of_lt h,
    UInt16.toUInt16_toUInt64, UInt32.toUInt32_toUInt64]

theorem decodeAck_written {ack read : AckPayload} :
    decodeAck (encodeAck ack).canonical = .ok read ↔ ack.snapshot.Readable ∧ read = ack := by
  have hreads : Reads (encodeAck ack) _ := reads_object (by
    simp only [Named, memberNames, List.map_cons, List.map_nil, kBytesMember]
    repeat rw [ascii_ofList]
    decide)
  obtain ⟨M, hmap, -, -, hfind⟩ := hreads
  simp only [List.forall_mem_cons, List.not_mem_nil, false_implies, implies_true, and_true, Value.canonical_makeString,
    Value.canonical_makeUint, Value.canonical_makeBool] at hfind
  obtain ⟨-, haccepted, hreason, hsequence, hsnapshot, hgeneration, hdetail⟩ := hfind
  rw [decodeAck, hmap, orRefuse_some, ok_bind]
  simp only [ok_bind, bind_eq_ok, optionalText_of hreason, ReasonCode.tryParse_toText, orRefuse_some,
    optionalNonEmpty_id hsnapshot, optionalBool_of haccepted, optionalUint_of hsequence, optionalUint_of hgeneration,
    optionalString_of hdetail, Option.getD_some, Except.ok.injEq]
  constructor
  · rintro ⟨_, ⟨h, rfl⟩, rfl⟩
    exact ⟨h, rfl⟩
  · rintro ⟨h, hread⟩
    exact ⟨_, ⟨h, rfl⟩, hread.symm⟩

/-- The reason and the detail of an error, as the client looks for them. -/
theorem error_written (reason : ReasonCode) (detail : Text) :
    ∃ M, (encodeError reason detail).canonical.asMap = some M ∧ optionalString M "reason" = some reason.toText ∧
      optionalString M "detail" = some detail := by
  have hreads : Reads (encodeError reason detail) _ := reads_object (by
    simp only [Named, memberNames, List.map_cons, List.map_nil, kBytesMember]
    repeat rw [ascii_ofList]
    decide)
  obtain ⟨M, hmap, -, -, hfind⟩ := hreads
  simp only [List.forall_mem_cons, List.not_mem_nil, false_implies, implies_true, and_true,
    Value.canonical_makeString] at hfind
  obtain ⟨-, hreason, -, hdetail⟩ := hfind
  exact ⟨M, hmap, optionalString_of hreason, optionalString_of hdetail⟩

end Acknowledgements

/-! ### Over the wire -/

section Wire
variable [DoubleChars] [LawfulDoubleChars] {limits : RuntimeLimits} {v w : Value}

theorem parseJson_written (h : parseJson limits (writeCanonicalJson v) = .ok w) : w = v.canonical := by
  rw [parseJson, exceed, ite_error_eq_ok] at h
  exact (parse_written_eq_ok.mp h.2).2.2.2

/-- **What a peer can parse of a session's payloads it decodes as what was sent**, under its own limits and whatever
    the texts hold: a greeting exactly when its identity is valid, its authority set and its texts within a leaf,
    every acknowledgement of a greeting, an acknowledgement of a document exactly when its snapshot identity is empty
    or valid, and the reason and the detail of an error. No reader returns a greeting that would not survive. -/
theorem payloads_exact (limits : RuntimeLimits) :
    (∀ v hello, decodeHelloDocument limits v = .ok hello → hello.Admissible limits) ∧
    (∀ (hello : HelloDocument) v, parseJson limits (writeCanonicalJson (encodeHello hello)) = .ok v →
      (decodeHelloDocument limits v = .ok hello ↔ hello.Admissible limits)) ∧
    (∀ (ack : HelloAckPayload) v, ack.sessionId < 2 ^ 64 →
      parseJson limits (writeCanonicalJson (encodeHelloAck ack)) = .ok v → decodeHelloAck v = .ok ack) ∧
    (∀ (ack read : AckPayload) v, parseJson limits (writeCanonicalJson (encodeAck ack)) = .ok v →
      (decodeAck v = .ok read ↔ ack.snapshot.Readable ∧ read = ack)) ∧
    ∀ reason detail v, parseJson limits (writeCanonicalJson (encodeError reason detail)) = .ok v →
      ∃ M, v.asMap = some M ∧ (optionalString M "reason").bind ReasonCode.tryParse = some reason ∧
        optionalString M "detail" = some detail := by
  refine ⟨fun v hello h => decodeHelloDocument_inv h, fun hello v h => ?_, fun ack v hid h => ?_,
    fun ack read v h => ?_, fun reason detail v h => ?_⟩
  · rw [parseJson_written h]
    exact ⟨decodeHelloDocument_inv, decodeHelloDocument_written⟩
  · rw [parseJson_written h]
    exact decodeHelloAck_written hid
  · rw [parseJson_written h]
    exact decodeAck_written
  · obtain ⟨M, hmap, hreason, hdetail⟩ := error_written reason detail
    rw [parseJson_written h]
    exact ⟨M, hmap, by rw [hreason]; exact ReasonCode.tryParse_toText reason, hdetail⟩

end Wire

namespace Sample

def greeting : HelloDocument :=
  { source := ⟨ascii "probe"⟩, epoch := ⟨3⟩, incarnation := ⟨1⟩, provenance := ascii "\"lab\"" }

def refusal : AckPayload := { reason := .fencedStaleSequence, sequence := ⟨18446744073709551615⟩ }

end Sample

theorem payloads_exact_greeting :
    (∃ v, @parseJson Sample.bitDoubles {} (@writeCanonicalJson Sample.bitDoubles (encodeHello Sample.greeting)) = .ok v ∧
      decodeHelloDocument {} v = .ok Sample.greeting) ∧
    ∃ v, @parseJson Sample.bitDoubles {} (@writeCanonicalJson Sample.bitDoubles (encodeAck Sample.refusal)) = .ok v ∧
      decodeAck v = .ok Sample.refusal := by
  obtain ⟨-, hello, -, ack, -⟩ := @payloads_exact Sample.bitDoubles Sample.lawful_bitDoubles {}
  constructor
  · have hok : (@parseJson Sample.bitDoubles {}
        (@writeCanonicalJson Sample.bitDoubles (encodeHello Sample.greeting))).toOption.isSome = true := by decide +kernel
    obtain ⟨v, hv⟩ := Option.isSome_iff_exists.mp hok
    have hv := ok_of_toOption hv
    exact ⟨v, hv, (hello _ v hv).mpr ⟨by decide, by decide, by decide, by decide⟩⟩
  · have hok : (@parseJson Sample.bitDoubles {}
        (@writeCanonicalJson Sample.bitDoubles (encodeAck Sample.refusal))).toOption.isSome = true := by decide +kernel
    obtain ⟨v, hv⟩ := Option.isSome_iff_exists.mp hok
    have hv := ok_of_toOption hv
    exact ⟨v, hv, (ack _ _ v hv).mpr ⟨.inl rfl, rfl⟩⟩

end DriftObservatory
