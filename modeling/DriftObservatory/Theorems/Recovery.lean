import DriftObservatory.Theorems.Records

/-! Recovery: what reading back a written ledger yields, and when it is refused. -/

namespace DriftObservatory

open Json Outcome

/-! ### The header -/

theorem length_littleEndian : ∀ width value, (littleEndian width value).length = width
  | 0, _ => rfl
  | width + 1, value => congrArg (· + 1) (length_littleEndian width (value / 256))

theorem readLittleEndian_littleEndian : ∀ width value,
    readLittleEndian (littleEndian width value) = value % 256 ^ width
  | 0, value => by
    rw [Nat.pow_zero, Nat.mod_one]
    rfl
  | width + 1, value => by
    have hbyte : (UInt8.ofNat value).toNat = value % 256 := UInt8.toNat_ofNat'
    have hrest := readLittleEndian_littleEndian width (value / 256)
    rw [littleEndian, readLittleEndian, List.foldr_cons, hbyte]
    rw [readLittleEndian] at hrest
    rw [hrest, Nat.pow_succ, Nat.mul_comm (256 ^ width) 256, Nat.mod_mul]

/-- A part of a text behind a front of known length. -/
theorem take_drop_part {f part text : Text} {offset count : Nat} (h : f ++ part <+: text) (hoffset : f.length = offset)
    (hcount : part.length = count) : (text.drop offset).take count = part := by
  obtain ⟨rest, rfl⟩ := h
  rw [← hoffset, List.append_assoc, List.drop_left, ← hcount, List.take_left]

namespace FindingLedger

section Header
variable {epoch liveEpoch : FabricEpoch} {incarnation : Incarnation} {payload read : Text} {limits : RuntimeLimits}

theorem length_framePayload :
    (framePayload epoch incarnation payload).length = kLedgerHeaderBytes + payload.length := by
  have hmagic : kLedgerMagic.length = 8 := by decide
  simp only [framePayload, List.length_append, length_littleEndian, (hashBytes payload).length_bytes, hmagic,
    kDigestBytes, kLedgerHeaderBytes]

theorem framed_parts : (framePayload epoch incarnation payload).take 8 = kLedgerMagic ∧
    ((framePayload epoch incarnation payload).drop 8).take 2 = littleEndian 2 kLedgerFormatVersion ∧
    ((framePayload epoch incarnation payload).drop 12).take 8 = littleEndian 8 payload.length ∧
    ((framePayload epoch incarnation payload).drop 20).take kDigestBytes = (hashBytes payload).bytes ∧
    ((framePayload epoch incarnation payload).drop 52).take 8 = littleEndian 8 epoch.value.toNat ∧
    (framePayload epoch incarnation payload).drop kLedgerHeaderBytes = payload := by
  have hmagic : kLedgerMagic.length = 8 := by decide
  have hdigest := (hashBytes payload).length_bytes
  refine ⟨?_, ?_, ?_, ?_, ?_, ?_⟩
  · rw [← hmagic, framePayload]
    simp only [List.append_assoc, List.take_left]
  · refine take_drop_part (f := kLedgerMagic) ?_ hmagic (length_littleEndian _ _)
    repeat first | exact List.prefix_rfl | apply List.prefix_append_of_prefix
  · refine take_drop_part (f := kLedgerMagic ++ littleEndian 2 kLedgerFormatVersion ++ littleEndian 2 0) ?_ ?_
      (length_littleEndian _ _)
    · repeat first | exact List.prefix_rfl | apply List.prefix_append_of_prefix
    · simp only [List.length_append, length_littleEndian, hmagic]
  · refine take_drop_part (f := kLedgerMagic ++ littleEndian 2 kLedgerFormatVersion ++ littleEndian 2 0 ++
      littleEndian 8 payload.length) ?_ ?_ hdigest
    · repeat first | exact List.prefix_rfl | apply List.prefix_append_of_prefix
    · simp only [List.length_append, length_littleEndian, hmagic]
  · refine take_drop_part (f := kLedgerMagic ++ littleEndian 2 kLedgerFormatVersion ++ littleEndian 2 0 ++
      littleEndian 8 payload.length ++ (hashBytes payload).bytes) ?_ ?_ (length_littleEndian _ _)
    · repeat first | exact List.prefix_rfl | apply List.prefix_append_of_prefix
    · simp only [List.length_append, length_littleEndian, hmagic, hdigest, kDigestBytes]
  · have hlen : (kLedgerMagic ++ littleEndian 2 kLedgerFormatVersion ++ littleEndian 2 0 ++
        littleEndian 8 payload.length ++ (hashBytes payload).bytes ++ littleEndian 8 epoch.value.toNat ++
        littleEndian 8 incarnation.value.toNat).length = kLedgerHeaderBytes := by
      simp only [List.length_append, length_littleEndian, hmagic, hdigest, kDigestBytes, kLedgerHeaderBytes]
    rw [framePayload, ← hlen, List.drop_left]

/-- A framed payload is taken back when it fits the two envelopes and was not written by a newer epoch. -/
theorem unframePayload_framed :
    unframePayload limits liveEpoch (framePayload epoch incarnation payload) = .ok read ↔
      (kLedgerHeaderBytes + payload.length ≤ limits.maxLedgerBytes ∧ payload.length ≤ limits.maxRecordPayloadBytes ∧
        payload.length < 2 ^ 64 ∧ ¬ (liveEpoch.isSet = true ∧ liveEpoch.value < epoch.value)) ∧ read = payload := by
  obtain ⟨hmagic, hversion, hcount, hdigest, hepoch, hpayload⟩ := @framed_parts epoch incarnation payload
  have hwritten : epoch.value.toNat % 256 ^ 8 = epoch.value.toNat := Nat.mod_eq_of_lt epoch.value.toNat_lt
  have hformat : kLedgerFormatVersion % 256 ^ 2 = kLedgerFormatVersion := by decide
  -- a length that does not fit its field leaves bytes behind the declared payload
  have hwidth : kLedgerHeaderBytes + payload.length ≤ kLedgerHeaderBytes + payload.length % 256 ^ 8 ↔
      payload.length < 2 ^ 64 := by
    constructor
    · intro h
      have := Nat.mod_lt payload.length (show 0 < 256 ^ 8 by decide)
      omega
    · intro h
      rw [Nat.mod_eq_of_lt (by simpa using h)]
  simp only [unframePayload, hmagic, hversion, hcount, hdigest, hepoch, hpayload, length_framePayload,
    readLittleEndian_littleEndian, hwritten, hformat, ite_error_eq_ok, not_lt, ne_eq, not_true_eq_false,
    not_false_eq_true, true_and, Except.ok.injEq, UInt64.lt_iff_toNat_lt, Nat.le_add_right]
  constructor
  · rintro ⟨hfits, hrecord, -, hbeyond, hstale, rfl⟩
    have hlt := hwidth.mp hbeyond
    rw [Nat.mod_eq_of_lt (by simpa using hlt)] at hrecord
    exact ⟨⟨hfits, hrecord, hlt, hstale⟩, rfl⟩
  · rintro ⟨⟨hfits, hrecord, hlt, hstale⟩, hread⟩
    have hlength : payload.length % 256 ^ 8 = payload.length := Nat.mod_eq_of_lt (by simpa using hlt)
    exact ⟨hfits, hlength.symm ▸ hrecord, hlength.symm ▸ Nat.le_refl _, hwidth.mpr hlt, hstale, hread.symm⟩

end Header

/-! ### Restoring records -/

/-- The baselines a payload lists. -/
def listedBaselines (L : FindingLedger) : List IntentBaseline := L.targets.filterMap L.findBaseline

/-- The observations a payload lists. -/
def listedObservations (L : FindingLedger) : List RetainedObservation := L.targets.flatMap L.observationsFor

def bindBaseline (L : FindingLedger) (baseline : IntentBaseline) : FindingLedger :=
  { L with baselines := L.baselines.insert baseline.target baseline }

def bindFinding (L : FindingLedger) (f : Finding) : FindingLedger :=
  { L with
    timelineSequence := if recoversNow f then L.timelineSequence + 1 else L.timelineSequence
    findings := L.findings.insert f.id (recoverFinding L.limits (L.timelineSequence + 1) f)
    suppressionsActive := if f.suppression.isSome then L.suppressionsActive + 1 else L.suppressionsActive }

def bindGroup (L : FindingLedger) (group : RootCauseGroup) : FindingLedger :=
  { L with groups := L.groups.insert group.id group }

section Restore
variable {limits : RuntimeLimits} {L M : FindingLedger}

theorem foldlM_restoreBaseline {bs : List IntentBaseline} (hlimits : L.limits = limits) (hempty : L.baselines = ∅) :
    bs.foldlM restoreBaseline L = .ok M ↔
      (bs.foldl bindBaseline L).baselines.size ≤ limits.maxTargets ∧ M = bs.foldl bindBaseline L := by
  rw [OrdMap.foldlM_bounded restoreBaseline bindBaseline baselines IntentBaseline.target limits.maxTargets
    (fun L => L.limits = limits) (fun _ => True) (fun L b M hL => ?_) (fun L b => ⟨b, rfl⟩) (fun L b hL => hL) bs hlimits
    (by rw [hempty]; exact Nat.zero_le _)]
  · simp only [implies_true, true_and]
  · rw [restoreBaseline, ite_error_eq_ok, Except.ok.injEq, true_and, eq_comm (a := M), ← hL]
    rfl

theorem foldlM_restoreFinding {fs : List Finding} (hlimits : L.limits = limits) (hempty : L.findings = ∅) :
    fs.foldlM restoreFinding L = .ok M ↔ (fs.foldl bindFinding L).findings.size ≤ limits.maxFindings ∧
      (∀ f ∈ fs, f.id.isSet = true) ∧ M = fs.foldl bindFinding L := by
  refine OrdMap.foldlM_bounded restoreFinding bindFinding findings Finding.id limits.maxFindings
    (fun L => L.limits = limits) (fun f => f.id.isSet = true) (fun L f M hL => ?_) (fun L f => ⟨_, rfl⟩)
    (fun L f hL => hL) fs hlimits (by rw [hempty]; exact Nat.zero_le _)
  rw [restoreFinding, ite_error_eq_ok, ite_error_eq_ok, Except.ok.injEq, eq_comm (a := M), ← hL, Bool.not_eq_true',
    Bool.not_eq_false]
  rfl

theorem foldlM_restoreGroup {gs : List RootCauseGroup} (hlimits : L.limits = limits) (hempty : L.groups = ∅) :
    gs.foldlM restoreGroup L = .ok M ↔
      (gs.foldl bindGroup L).groups.size ≤ limits.maxGroups ∧ M = gs.foldl bindGroup L := by
  rw [OrdMap.foldlM_bounded restoreGroup bindGroup groups RootCauseGroup.id limits.maxGroups
    (fun L => L.limits = limits) (fun _ => True) (fun L g M hL => ?_) (fun L g => ⟨g, rfl⟩) (fun L g hL => hL) gs hlimits
    (by rw [hempty]; exact Nat.zero_le _)]
  · simp only [implies_true, true_and]
  · rw [restoreGroup, ite_error_eq_ok, Except.ok.injEq, true_and, eq_comm (a := M), ← hL]
    rfl

theorem foldl_bindBaseline : ∀ {bs : List IntentBaseline} {L : FindingLedger}, bs.foldl bindBaseline L =
    { L with baselines := bs.foldl (fun m b => m.insert b.target b) L.baselines }
  | [], _ => rfl
  | _ :: bs, _ => @foldl_bindBaseline bs _

theorem foldl_bindGroup : ∀ {gs : List RootCauseGroup} {L : FindingLedger}, gs.foldl bindGroup L =
    { L with groups := gs.foldl (fun m g => m.insert g.id g) L.groups }
  | [], _ => rfl
  | _ :: gs, _ => @foldl_bindGroup gs _

/-- The windows with one more recovered observation. -/
def retain (limits : RuntimeLimits) (windows : OrdMap SourceWindowKey (List RetainedObservation))
    (snapshot : ObservationSnapshot) : OrdMap SourceWindowKey (List RetainedObservation) :=
  (restoreObservation { limits := limits, windows := windows } snapshot).windows

theorem foldl_restoreObservation : ∀ {ss : List ObservationSnapshot} {L : FindingLedger},
    ss.foldl restoreObservation L = { L with windows := ss.foldl (retain L.limits) L.windows }
  | [], _ => rfl
  | _ :: ss, _ => @foldl_restoreObservation ss _

/-- Findings recovered one after the other behind a position of the timeline. -/
def recoverAll (limits : RuntimeLimits) : Nat → List Finding → List Finding
  | _, [] => []
  | sequence, f :: fs => recoverFinding limits (sequence + 1) f ::
      recoverAll limits (if recoversNow f then sequence + 1 else sequence) fs

theorem foldl_bindFinding : ∀ {fs : List Finding} {L : FindingLedger}, fs.foldl bindFinding L =
    { L with
      timelineSequence := L.timelineSequence + fs.countP recoversNow
      findings := (recoverAll L.limits L.timelineSequence fs).foldl (fun m f => m.insert f.id f) L.findings
      suppressionsActive := L.suppressionsActive + fs.countP fun f => f.suppression.isSome }
  | [], _ => rfl
  | f :: fs, L => by
    rw [List.foldl_cons, foldl_bindFinding, List.countP_cons, List.countP_cons]
    simp only [bindFinding, recoverAll, List.foldl_cons]
    congr 1
    · split_ifs <;> omega
    · split_ifs <;> omega

theorem foldl_restoreTimeline : ∀ {es : List TimelineEntry} {L : FindingLedger},
    L.globalTimeline.length + es.length ≤ L.limits.maxGlobalTimelineEntries →
      es.foldl restoreTimeline L = { L with globalTimeline := L.globalTimeline ++ es }
  | [], L, _ => by rw [List.append_nil, List.foldl_nil]
  | e :: es, L, h => by
    rw [List.length_cons] at h
    have hkept : L.restoreTimeline e = { L with globalTimeline := L.globalTimeline ++ [e] } := by
      rw [restoreTimeline, trimTimelineIfNeeded, keepLast]
      simp only [List.length_append, List.length_singleton]
      rw [show L.globalTimeline.length + 1 - L.limits.maxGlobalTimelineEntries = 0 by omega, List.drop_zero]
    rw [List.foldl_cons, hkept, foldl_restoreTimeline]
    · simp only [List.append_assoc, List.singleton_append]
    · simp only [List.length_append, List.length_singleton]
      omega

end Restore

/-! ### The restored ledger -/

/-- The findings of a ledger as its payload is read. -/
def rereadFindings (limits : RuntimeLimits) (L : FindingLedger) : List Finding :=
  L.findings.values.map (Finding.reread (ledgerPayloadLimits limits))

/-- What the payload of a ledger is restored as. -/
def restored (limits : RuntimeLimits) (L : FindingLedger) : FindingLedger where
  limits := limits
  revision := L.revision % 2 ^ 64
  timelineSequence := L.timelineSequence % 2 ^ 64 + (L.rereadFindings limits).countP recoversNow
  baselines := (L.listedBaselines.map (IntentBaseline.reread (ledgerPayloadLimits limits))).foldl
    (fun m b => m.insert b.target b) ∅
  windows := (L.listedObservations.map fun o => o.snapshot.reread (ledgerPayloadLimits limits)).foldl (retain limits) ∅
  findings := (recoverAll limits (L.timelineSequence % 2 ^ 64) (L.rereadFindings limits)).foldl
    (fun m f => m.insert f.id f) ∅
  groups := (L.groups.values.map RootCauseGroup.reread).foldl (fun m g => m.insert g.id g) ∅
  globalTimeline := L.globalTimeline.map TimelineEntry.reread
  suppressionsActive := (L.rereadFindings limits).countP fun f => f.suppression.isSome

/-- The records of a payload are read, and they fit the ledger they are read into. -/
structure Legible (limits : RuntimeLimits) (L : FindingLedger) : Prop where
  baselines : ∀ b ∈ L.listedBaselines, b.Readable (ledgerPayloadLimits limits)
  baselineCount : (L.restored limits).baselines.size ≤ limits.maxTargets
  observations : ∀ o ∈ L.listedObservations, o.snapshot.Readable (ledgerPayloadLimits limits)
  findings : ∀ f ∈ L.findings.values, f.Readable (ledgerPayloadLimits limits)
  identified : ∀ f ∈ L.findings.values, f.id.isSet = true
  findingCount : L.findings.size ≤ limits.maxFindings
  groups : ∀ g ∈ L.groups.values, g.Readable
  groupCount : (L.restored limits).groups.size ≤ limits.maxGroups
  timeline : ∀ e ∈ L.globalTimeline, e.Readable
  timelineCount : L.globalTimeline.length ≤ limits.maxGlobalTimelineEntries

theorem decodeRetainedObservation_written {limits : RuntimeLimits} (o : RetainedObservation)
    (read : ObservationSnapshot) :
    decodeRetainedObservation limits (object [("recovered", .makeBool true),
        ("document", encodeObservationDocument o.snapshot)]).canonical = .ok read ↔
      o.snapshot.Readable limits ∧ read = o.snapshot.reread limits := by
  have hreads : Reads (object [("recovered", .makeBool true), ("document", encodeObservationDocument o.snapshot)]) _ :=
    reads_object (by
      simp only [Named, memberNames, List.map_cons, List.map_nil, kBytesMember]
      repeat rw [ascii_ofList]
      decide)
  obtain ⟨M, hmap, hcheck, -, hfind⟩ := hreads
  simp only [List.forall_mem_cons, List.not_mem_nil, false_implies, implies_true, and_true] at hfind
  rw [decodeRetainedObservation, hmap, orRefuse_some, ok_bind, hcheck _ _ (by simp), ok_bind,
    requireMember_of hfind.2, ok_bind, decodeObservationDocument_written]

theorem size_foldl_bindFinding : ∀ {fs : List Finding} {L : FindingLedger},
    (fs.foldl bindFinding L).findings.size ≤ L.findings.size + fs.length
  | [], _ => Nat.le_refl _
  | f :: fs, L => by
    have hrest := @size_foldl_bindFinding fs (L.bindFinding f)
    have hone : (L.bindFinding f).findings.size ≤ L.findings.size + 1 := by
      simp only [bindFinding, OrdMap.size_insert]
      split_ifs <;> omega
    rw [List.foldl_cons, List.length_cons]
    omega

/-- The loops over the records of a payload, on an empty ledger. -/
theorem restore_loops {limits : RuntimeLimits} {revision sequence : Nat} {bs : List IntentBaseline}
    {ss : List ObservationSnapshot} {fs : List Finding} {gs : List RootCauseGroup} {es : List TimelineEntry}
    {E : FindingLedger} (hfs : fs.length ≤ limits.maxFindings) (hes : es.length ≤ limits.maxGlobalTimelineEntries) :
    (∃ A, bs.foldlM restoreBaseline { limits := limits, revision := revision, timelineSequence := sequence } = .ok A ∧
      ∃ C, fs.foldlM restoreFinding (ss.foldl restoreObservation A) = .ok C ∧
      ∃ D, gs.foldlM restoreGroup C = .ok D ∧ es.foldl restoreTimeline D = E) ↔
    ((bs.foldl (fun m b => m.insert b.target b) (∅ : OrdMap TargetId IntentBaseline)).size ≤ limits.maxTargets ∧
      (∀ f ∈ fs, f.id.isSet = true) ∧
      (gs.foldl (fun m g => m.insert g.id g) (∅ : OrdMap GroupId RootCauseGroup)).size ≤ limits.maxGroups) ∧
      E = {
        limits := limits
        revision := revision
        timelineSequence := sequence + fs.countP recoversNow
        baselines := bs.foldl (fun m b => m.insert b.target b) ∅
        windows := ss.foldl (retain limits) ∅
        findings := (recoverAll limits sequence fs).foldl (fun m f => m.insert f.id f) ∅
        groups := gs.foldl (fun m g => m.insert g.id g) ∅
        globalTimeline := es
        suppressionsActive := fs.countP fun f => f.suppression.isSome } := by
  constructor
  · rintro ⟨A, hA, C, hC, D, hD, rfl⟩
    obtain ⟨hbsize, rfl⟩ := (foldlM_restoreBaseline rfl rfl).mp hA
    rw [foldl_bindBaseline] at hbsize
    rw [foldl_bindBaseline, foldl_restoreObservation] at hC
    obtain ⟨-, hset, rfl⟩ := (foldlM_restoreFinding rfl rfl).mp hC
    rw [foldl_bindFinding] at hD
    obtain ⟨hgsize, rfl⟩ := (foldlM_restoreGroup rfl rfl).mp hD
    rw [foldl_bindGroup] at hgsize
    rw [foldl_bindGroup, foldl_restoreTimeline (by simpa using hes)]
    exact ⟨⟨hbsize, hset, hgsize⟩, by simp⟩
  · rintro ⟨⟨hbsize, hset, hgsize⟩, rfl⟩
    refine ⟨_, (foldlM_restoreBaseline rfl rfl).mpr ⟨?_, foldl_bindBaseline.symm⟩, ?_⟩
    · rw [foldl_bindBaseline]
      exact hbsize
    · rw [foldl_restoreObservation]
      refine ⟨_, (foldlM_restoreFinding rfl rfl).mpr ⟨?_, hset, foldl_bindFinding.symm⟩, ?_⟩
      · exact size_foldl_bindFinding.trans ((Nat.zero_add _).trans_le hfs)
      · refine ⟨_, (foldlM_restoreGroup rfl rfl).mpr ⟨?_, foldl_bindGroup.symm⟩, ?_⟩
        · rw [foldl_bindGroup]
          exact hgsize
        · rw [foldl_restoreTimeline (by simpa using hes)]
          simp

section Document
variable {limits : RuntimeLimits} {L restoredLedger : FindingLedger} {report : LedgerRecoveryReport}

/-- What a recovery reports. -/
def recoveryReport (L : FindingLedger) : LedgerRecoveryReport where
  revision := ⟨UInt64.ofNat L.revision⟩
  findingsRestored := L.findings.size
  groupsRestored := L.groups.size
  baselinesRestored := L.listedBaselines.length
  observationsRestored := L.listedObservations.length

theorem decodeDocument_written :
    decodeDocument limits L.document.canonical = .ok (restoredLedger, report) ↔
      L.Legible limits ∧ restoredLedger = L.restored limits ∧ report = L.recoveryReport := by
  have hreads : Reads L.document _ := reads_object (by
    simp only [Named, memberNames, List.map_cons, List.map_nil, kBytesMember]
    repeat rw [ascii_ofList]
    decide)
  obtain ⟨M, hmap, hcheck, -, hfind⟩ := hreads
  simp only [List.forall_mem_cons, List.not_mem_nil, false_implies, implies_true, and_true, makeCount,
    Value.canonical_makeString, Value.canonical_makeUint, Value.canonical_makeList, List.map_map, Function.comp_def]
    at hfind
  obtain ⟨-, hformat, hrevision, hsequence, hbaselines, hobservations, hfindings, hgroups, htimeline⟩ := hfind
  have hversion : (UInt64.ofNat kLedgerFormatVersion).toNat = kLedgerFormatVersion := by decide
  rw [decodeDocument, hmap, orRefuse_some, ok_bind, hcheck _ _ (by simp), ok_bind, requireUint_of hformat, ok_bind,
    if_neg (not_not_intro hversion), requireUint_of hrevision, ok_bind, optionalUint_of hsequence, Option.getD_some]
  simp only [restoreRecords, optionalList_of hbaselines, optionalList_of hobservations, optionalList_of hfindings,
    optionalList_of hgroups, optionalList_of htimeline, ok_bind]
  simp only [bind_eq_ok, ite_error_eq_ok, not_lt, List.length_map, UInt64.toNat_ofNat',
    foldlM_map_eq_ok (f := fun b => (encodeBaseline b).canonical) fun _ _ => decodeBaseline_written,
    foldlM_map_eq_ok decodeRetainedObservation_written,
    foldlM_map_eq_ok (f := fun f => (encodeFinding f).canonical) fun _ _ => decodeFinding_written,
    foldlM_map_eq_ok (f := fun g => (encodeGroup g).canonical) fun _ _ => decodeGroup_written,
    foldlM_map_eq_ok (f := fun e => (encodeTimelineEntry e).canonical) fun _ _ => decodeTimelineEntry_written,
    foldlM_ok, Except.ok.injEq, Prod.mk.injEq]
  clear hmap hcheck hformat hrevision hsequence hbaselines hobservations hfindings hgroups htimeline hversion
  constructor
  · rintro ⟨A, ⟨hb, hA⟩, B, ⟨ho, rfl⟩, hfcount, C, ⟨hf, hC⟩, D, ⟨hg, hD⟩, htcount, E, ⟨ht, hE⟩, rfl, rfl⟩
    obtain ⟨⟨hbsize, hset, hgsize⟩, rfl⟩ :=
      (restore_loops (by simpa using hfcount) (by simpa using htcount)).mp ⟨A, hA, C, hC, D, hD, hE⟩
    refine ⟨⟨hb, hbsize, ho, hf, fun f hmem => ?_, by simpa using hfcount, hg, hgsize, ht, htcount⟩, rfl, ?_⟩
    · exact hset (f.reread (ledgerPayloadLimits limits)) (List.mem_map_of_mem hmem)
    · simp only [recoveryReport, listedBaselines, listedObservations, UInt64.ofNat_mod_size, OrdMap.length_values]
  · rintro ⟨h, rfl, rfl⟩
    have hfcount : (L.rereadFindings limits).length ≤ limits.maxFindings := by
      simpa [rereadFindings] using h.findingCount
    have htcount : (L.globalTimeline.map TimelineEntry.reread).length ≤ limits.maxGlobalTimelineEntries := by
      simpa using h.timelineCount
    have hset : ∀ f ∈ L.rereadFindings limits, f.id.isSet = true := fun f hmem => by
      obtain ⟨g, hg, rfl⟩ := List.mem_map.mp hmem
      exact h.identified g hg
    obtain ⟨A, hA, C, hC, D, hD, hE⟩ := (restore_loops (E := L.restored limits) hfcount htcount).mpr
      ⟨⟨h.baselineCount, hset, h.groupCount⟩, rfl⟩
    refine ⟨A, ⟨h.baselines, hA⟩, _, ⟨h.observations, rfl⟩, by simpa using h.findingCount, C, ⟨h.findings, hC⟩, D,
      ⟨h.groups, hD⟩, h.timelineCount, _, ⟨h.timeline, hE⟩, rfl, ?_⟩
    simp only [restored, recoveryReport, listedBaselines, listedObservations, UInt64.ofNat_mod_size,
      OrdMap.length_values]

/-- A payload is read back exactly when it is encoded properly, fits the envelopes and its records are legible. -/
theorem decodeLedger_encodeLedger [DoubleChars] [LawfulDoubleChars] {epoch liveEpoch : FabricEpoch}
    {incarnation : Incarnation} :
    decodeLedger limits liveEpoch (L.encodeLedger epoch incarnation) = .ok (restoredLedger, report) ↔
      ((kLedgerHeaderBytes + (writeCanonicalJson L.document).length ≤ limits.maxLedgerBytes ∧
        (writeCanonicalJson L.document).length ≤ limits.maxRecordPayloadBytes ∧
        (writeCanonicalJson L.document).length < 2 ^ 64 ∧ ¬ (liveEpoch.isSet = true ∧ liveEpoch.value < epoch.value)) ∧
        L.document.tree.Fits (ledgerPayloadLimits limits) 0 ∧ L.document.tree.Encoded ∧
        L.document.tree.weight ≤ (ledgerPayloadLimits limits).maxValueNodes ∧ L.Legible limits) ∧
      restoredLedger = L.restored limits ∧ report = L.recoveryReport := by
  rw [decodeLedger, encodeLedger]
  simp only [bind_eq_ok, unframePayload_framed]
  have hdocument : kLedgerHeaderBytes + (writeCanonicalJson L.document).length ≤ limits.maxLedgerBytes →
      parseJson (ledgerPayloadLimits limits) (writeCanonicalJson L.document) =
        parse (ledgerPayloadLimits limits) (writeCanonicalJson L.document) := fun h =>
    if_neg (Nat.not_lt.mpr ((Nat.le_add_left _ _).trans h))
  constructor
  · rintro ⟨_, ⟨⟨hledger, hframe⟩, rfl⟩, h⟩
    rw [hdocument hledger] at h
    rcases hparse : parse (ledgerPayloadLimits limits) (writeCanonicalJson L.document) with status | root
    · rw [hparse] at h
      cases h
    · rw [hparse] at h
      obtain ⟨hfits, hencoded, hnodes, rfl⟩ := parse_written_eq_ok.mp hparse
      obtain ⟨hlegible, hread⟩ := decodeDocument_written.mp h
      exact ⟨⟨⟨hledger, hframe⟩, hfits, hencoded, hnodes, hlegible⟩, hread⟩
  · rintro ⟨⟨⟨hledger, hframe⟩, hfits, hencoded, hnodes, hlegible⟩, hread⟩
    refine ⟨_, ⟨⟨hledger, hframe⟩, rfl⟩, ?_⟩
    rw [hdocument hledger, parse_written_eq_ok.mpr ⟨hfits, hencoded, hnodes, rfl⟩]
    exact decodeDocument_written.mpr ⟨hlegible, hread⟩

end Document

end FindingLedger

end DriftObservatory
