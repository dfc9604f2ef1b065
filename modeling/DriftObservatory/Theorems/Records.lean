import DriftObservatory.Theorems.Members

/-! Records read back: which written records a ledger payload is read back from, and as what. Times before the epoch
    may move by a day, counters wrap at their width, values take their canonical form; all else stays. -/

namespace DriftObservatory

open Json Outcome

/-! ### Timeline entries -/

namespace TimelineEntry

structure Readable (e : TimelineEntry) : Prop where
  actor : e.actor.Readable
  target : e.target.Readable
  object : e.object.Readable

def reread (e : TimelineEntry) : TimelineEntry :=
  { e with sequence := e.sequence % 2 ^ 64, at_ := e.at_.reread }

end TimelineEntry

theorem decodeTimelineEntry_written {e read : TimelineEntry} :
    decodeTimelineEntry (encodeTimelineEntry e).canonical = .ok read ↔ e.Readable ∧ read = e.reread := by
  have hreads : Reads (encodeTimelineEntry e) _ := reads_object (by
    simp only [Named, memberNames, List.map_cons, List.map_nil, kBytesMember]
    repeat rw [ascii_ofList]
    decide)
  obtain ⟨M, hmap, hcheck, -, hfind⟩ := hreads
  simp only [List.forall_mem_cons, List.not_mem_nil, false_implies, implies_true, and_true, makeCount,
    Value.canonical_makeString, Value.canonical_makeUint] at hfind
  obtain ⟨hkind, hsequence, hat, hstate, hclass, hseverity, hreason, hgeneration, hepoch, hdigest, hactor, hdetail,
    htarget, hobject, hfinding⟩ := hfind
  rw [decodeTimelineEntry, hmap, orRefuse_some, ok_bind, hcheck _ _ (by simp), ok_bind]
  simp only [ok_bind, requireText_of hkind, requireUint_of hsequence, requireText_of hat, optionalText_of hstate,
    optionalText_of hclass, optionalText_of hseverity, optionalText_of hreason, optionalUint_of hgeneration,
    optionalUint_of hepoch, optionalNonEmpty_digest hdigest, optionalString_of hdetail,
    optionalNonEmpty_digestId hfinding, TimelineEventKind.tryParse_toText, tryParseTime_formatTime,
    FindingState.tryParse_toText, DriftClass.tryParse_toText, Severity.tryParse_toText, ReasonCode.tryParse_toText,
    orRefuse_some, bind_eq_ok, optionalNonEmpty_id hactor, optionalNonEmpty_id htarget, optionalNonEmpty_id hobject,
    Except.ok.injEq, Option.getD_some, UInt64.toNat_ofNat']
  refine ⟨?_, fun ⟨h, hread⟩ => ⟨_, ⟨h.actor, rfl⟩, _, ⟨h.target, rfl⟩, _, ⟨h.object, rfl⟩, hread.symm⟩⟩
  rintro ⟨_, ⟨ha, rfl⟩, _, ⟨ht, rfl⟩, _, ⟨ho, rfl⟩, rfl⟩
  exact ⟨⟨ha, ht, ho⟩, rfl⟩

/-! ### Evidence references -/

namespace EvidenceRef

structure Readable (ref : EvidenceRef) : Prop where
  source : isValidIdentityText ref.source.str = true
  snapshot : isValidIdentityText ref.snapshot.str = true

def reread (ref : EvidenceRef) : EvidenceRef :=
  { ref with collectedAt := ref.collectedAt.reread, receivedAt := ref.receivedAt.reread }

end EvidenceRef

theorem decodeEvidenceRef_written {ref read : EvidenceRef} :
    decodeEvidenceRef (encodeEvidenceRef ref).canonical = .ok read ↔ ref.Readable ∧ read = ref.reread := by
  have hreads : Reads (encodeEvidenceRef ref) _ := reads_object (by
    simp only [Named, memberNames, List.map_cons, List.map_nil, kBytesMember]
    repeat rw [ascii_ofList]
    decide)
  obtain ⟨M, hmap, hcheck, -, hfind⟩ := hreads
  simp only [List.forall_mem_cons, List.not_mem_nil, false_implies, implies_true, and_true,
    Value.canonical_makeString, Value.canonical_makeUint] at hfind
  obtain ⟨hsource, hsnapshot, hepoch, hincarnation, hsequence, hcollected, hreceived, hfreshness, hcoverage, hevidence,
    hdigest⟩ := hfind
  rw [decodeEvidenceRef, hmap, orRefuse_some, ok_bind, hcheck _ _ (by simp), ok_bind]
  simp only [ok_bind, requireText_of hsource, requireText_of hsnapshot, requireUint_of hepoch,
    requireUint_of hincarnation, requireUint_of hsequence, optionalText_of hcollected, optionalText_of hreceived,
    optionalText_of hfreshness, optionalText_of hcoverage, optionalText_of hevidence, optionalText_of hdigest,
    tryParseTime_formatTime, FreshnessState.tryParse_toText, ObservationCoverage.tryParse_toText,
    EvidenceClass.tryParse_toText, Digest.tryFromHex_toHex, orRefuse_some, bind_eq_ok, orRefuse_eq_ok,
    StringId.tryParse_str, Except.ok.injEq]
  refine ⟨?_, fun ⟨h, hread⟩ => ⟨_, ⟨h.source, rfl⟩, _, ⟨h.snapshot, rfl⟩, hread.symm⟩⟩
  rintro ⟨_, ⟨hs, rfl⟩, _, ⟨hn, rfl⟩, rfl⟩
  exact ⟨⟨hs, hn⟩, rfl⟩

/-! ### Findings -/

/-- The path a printed path is read as. -/
def FieldPath.reread (limits : RuntimeLimits) (path : FieldPath) : FieldPath :=
  (tryParse limits (toText path)).getD []

/-- A printed path that is read at all. -/
def FieldPath.Readable (limits : RuntimeLimits) (path : FieldPath) : Prop := (tryParse limits (toText path)).isSome = true

theorem FieldPath.tryParse_toText {limits : RuntimeLimits} {path read : FieldPath} :
    tryParse limits (toText path) = some read ↔ path.Readable limits ∧ read = path.reread limits := by
  rw [Readable, reread]
  cases tryParse limits (toText path) with
  | none => simp
  | some p => simp [eq_comm]

namespace Finding

/-- The identity a written finding declares. -/
def declaredIdentity (limits : RuntimeLimits) (f : Finding) : FindingIdentity :=
  { f.identity with
    path := f.identity.path.reread limits
    klass := f.klass
    baselineGeneration := f.baselineGeneration }

structure Readable (limits : RuntimeLimits) (f : Finding) : Prop where
  target : isValidIdentityText f.identity.target.str = true
  object : isValidIdentityText f.identity.object.str = true
  path : f.identity.path.Readable limits
  policy : isValidIdentityText f.policy.str = true
  identity : (f.declaredIdentity limits).computeId = f.id
  suppression : ∀ id, f.suppression = some id → id.Readable
  suppressedBy : f.suppressedBy.Readable
  acknowledgedBy : f.acknowledgedBy.Readable
  evidenceCount : f.evidence.length ≤ limits.maxEvidenceRefsPerFinding
  evidence : ∀ ref ∈ f.evidence, ref.Readable
  timelineCount : f.timeline.length ≤ limits.maxTimelineEntriesPerFinding
  timeline : ∀ e ∈ f.timeline, e.Readable

def reread (limits : RuntimeLimits) (f : Finding) : Finding :=
  { f with
    identity := f.declaredIdentity limits
    intended := f.intended.canonical
    observed := f.observed.canonical
    evidence := f.evidence.map EvidenceRef.reread
    observationCount := { value := f.observationCount.value }
    resolutionConfirmations := f.resolutionConfirmations % 2 ^ 32
    firstSeen := f.firstSeen.reread
    lastSeen := f.lastSeen.reread
    lastEvaluated := f.lastEvaluated.reread
    resolvedAt := f.resolvedAt.reread
    suppression := f.suppression.filter fun id => !id.empty
    suppressionExpiresAt := f.suppressionExpiresAt.map NdoTime.reread
    acknowledgedAt := f.acknowledgedAt.reread
    timeline := f.timeline.map TimelineEntry.reread }

end Finding

section Finding
variable {M : Members} {limits : RuntimeLimits} {f : Finding}

/-- What a finding is read as before its progress and its marks are. -/
def Finding.subject (limits : RuntimeLimits) (f : Finding) : Finding where
  id := f.id
  identity := f.declaredIdentity limits
  klass := f.klass
  rawClass := f.rawClass
  severity := f.severity
  state := f.state
  reason := f.reason
  baselineGeneration := f.baselineGeneration
  baselineEpoch := f.baselineEpoch
  baselineAuthority := f.baselineAuthority
  policy := f.policy
  policyDigest := f.policyDigest
  hasIntended := f.hasIntended
  intended := f.intended.canonical
  hasObserved := f.hasObserved
  observed := f.observed.canonical
  evidence := []
  evidenceFreshness := .unknown
  firstSeen := default
  lastSeen := default
  lastEvaluated := default

theorem decodeFindingSubject_written {read : Finding}
    (hid : findMember M "id" = some (.makeString f.id.toHex))
    (htarget : findMember M "target" = some (.makeString f.identity.target.str))
    (hobject : findMember M "object" = some (.makeString f.identity.object.str))
    (hpath : findMember M "path" = some (.makeString (FieldPath.toText f.identity.path)))
    (hclass : findMember M "class" = some (.makeString f.klass.toText))
    (hraw : findMember M "raw_class" = some (.makeString f.rawClass.toText))
    (hseverity : findMember M "severity" = some (.makeString f.severity.toText))
    (hstate : findMember M "state" = some (.makeString f.state.toText))
    (hreason : findMember M "reason" = some (.makeString f.reason.toText))
    (hgeneration : findMember M "baseline_generation" = some (.makeUint f.baselineGeneration.value))
    (hepoch : findMember M "baseline_epoch" = some (.makeUint f.baselineEpoch.value))
    (hauthority : findMember M "baseline_authority" = some (.makeString f.baselineAuthority.toText))
    (hpolicy : findMember M "policy" = some (.makeString f.policy.str))
    (hpolicyDigest : findMember M "policy_digest" = some (.makeString f.policyDigest.toHex))
    (hqualifier : findMember M "qualifier" = some (.makeString f.identity.qualifier.toHex))
    (hhasIntended : findMember M "has_intended" = some (.makeBool f.hasIntended))
    (hintended : findMember M "intended" = some f.intended.canonical)
    (hhasObserved : findMember M "has_observed" = some (.makeBool f.hasObserved))
    (hobserved : findMember M "observed" = some f.observed.canonical) :
    decodeFindingSubject limits M = .ok read ↔ (isValidIdentityText f.identity.target.str = true ∧
      isValidIdentityText f.identity.object.str = true ∧ f.identity.path.Readable limits ∧
      isValidIdentityText f.policy.str = true ∧ (f.declaredIdentity limits).computeId = f.id) ∧
        read = f.subject limits := by
  rw [decodeFindingSubject]
  simp only [ok_bind, requireText_of hid, requireText_of htarget, requireText_of hobject, requireText_of hpath,
    requireText_of hclass, optionalText_of hraw, optionalText_of hseverity, optionalText_of hstate,
    optionalText_of hreason, requireUint_of hgeneration, optionalUint_of hepoch, optionalText_of hauthority,
    optionalText_of hpolicy, optionalText_of hpolicyDigest, optionalNonEmpty_digest hqualifier,
    optionalBool_of hhasIntended, optionalBool_of hhasObserved, hintended, hobserved, DigestId.tryParse_toHex,
    DriftClass.tryParse_toText, Severity.tryParse_toText, FindingState.tryParse_toText, ReasonCode.tryParse_toText,
    IntentAuthority.tryParse_toText, Digest.tryFromHex_toHex, orRefuse_some, bind_eq_ok, orRefuse_eq_ok,
    StringId.tryParse_str, FieldPath.tryParse_toText, ite_error_eq_ok, Except.ok.injEq, not_not, Option.getD_some]
  constructor
  · rintro ⟨_, ⟨ht, rfl⟩, _, ⟨ho, rfl⟩, _, ⟨hp, rfl⟩, _, ⟨hq, rfl⟩, hi, rfl⟩
    exact ⟨⟨ht, ho, hp, hq, hi⟩, rfl⟩
  · rintro ⟨⟨ht, ho, hp, hq, hi⟩, rfl⟩
    exact ⟨_, ⟨ht, rfl⟩, _, ⟨ho, rfl⟩, _, ⟨hp, rfl⟩, _, ⟨hq, rfl⟩, hi, rfl⟩

theorem decodeFindingProgress_written {g : Finding}
    (hfreshness : findMember M "evidence_freshness" = some (.makeString f.evidenceFreshness.toText))
    (hgroup : findMember M "group" = some (.makeString f.group.toHexIfSet))
    (hcause : findMember M "group_cause" = some (.makeString f.groupCause.toText))
    (hcount : findMember M "observation_count" = some (.makeUint f.observationCount.value))
    (hreopen : findMember M "reopen_count" = some (.makeUint f.reopenCount))
    (hconfirmations : findMember M "resolution_confirmations" =
      some (.makeUint (UInt64.ofNat (f.resolutionConfirmations % 2 ^ 32))))
    (hfirst : findMember M "first_seen" = some (.makeString (formatTime f.firstSeen)))
    (hlast : findMember M "last_seen" = some (.makeString (formatTime f.lastSeen)))
    (hevaluated : findMember M "last_evaluated" = some (.makeString (formatTime f.lastEvaluated)))
    (hresolved : findMember M "resolved_at" = some (.makeString (formatTime f.resolvedAt))) :
    decodeFindingProgress M g = .ok { g with
      evidenceFreshness := f.evidenceFreshness
      group := f.group
      groupCause := f.groupCause
      observationCount := { value := f.observationCount.value }
      reopenCount := f.reopenCount
      resolutionConfirmations := f.resolutionConfirmations % 2 ^ 32
      firstSeen := f.firstSeen.reread
      lastSeen := f.lastSeen.reread
      lastEvaluated := f.lastEvaluated.reread
      resolvedAt := f.resolvedAt.reread } := by
  have hcounted : (UInt64.ofNat (f.resolutionConfirmations % 2 ^ 32)).toNat = f.resolutionConfirmations % 2 ^ 32 :=
    UInt64.toNat_ofNat_of_lt' (by simp only [UInt64.size]; omega)
  have hconfirmed : decodeConfirmations M "finding" = .ok (f.resolutionConfirmations % 2 ^ 32) := by
    rw [decodeConfirmations, optionalUint_of hconfirmations]
    simp only [hcounted]
    rw [if_neg (by omega)]
  rw [decodeFindingProgress]
  simp only [ok_bind, optionalText_of hfreshness, optionalNonEmpty_digestId hgroup, optionalText_of hcause, hconfirmed,
    optionalUint_of hcount, optionalUint_of hreopen, optionalNonEmpty_time hfirst, optionalNonEmpty_time hlast,
    optionalNonEmpty_time hevaluated, optionalNonEmpty_time hresolved, FreshnessState.tryParse_toText,
    RootCauseKind.tryParse_toText, orRefuse_some, Option.getD_some]

theorem optionalNonEmpty_suppression {name what detail : String} {id read : Option SuppressionId}
    (h : findMember M name = some (.makeString ((id.map StringId.str).getD []))) :
    optionalNonEmpty M name what (fun text => (StringId.tryParse text).map some) detail none = .ok read ↔
      (∀ id', id = some id' → id'.Readable) ∧ read = id.filter fun id => !id.empty := by
  rw [optionalNonEmpty_of h]
  cases id with
  | none => simp [eq_comm]
  | some id =>
    by_cases hempty : id.str = []
    · have hdropped : (some id).filter (fun id => !id.empty) = none := by
        simp [StringId.empty, hempty]
      have hreadable : id.Readable := Or.inl hempty
      rw [Option.map_some, Option.getD_some, hempty, hdropped]
      simp [hreadable, eq_comm]
    · have hkept : (some id).filter (fun id => !id.empty) = some id := by
        simp [StringId.empty, hempty]
      rw [Option.map_some, Option.getD_some, if_neg (by simpa using hempty), orRefuse_eq_ok, hkept]
      simp only [Option.map_eq_some_iff, StringId.tryParse_str, Option.some.injEq, forall_eq', StringId.Readable, hempty,
        false_or]
      constructor
      · rintro ⟨_, ⟨hvalid, rfl⟩, rfl⟩
        exact ⟨hvalid, rfl⟩
      · rintro ⟨hvalid, rfl⟩
        exact ⟨_, ⟨hvalid, rfl⟩, rfl⟩

theorem optionalNonEmpty_expiry {name what detail : String} {t : Option NdoTime}
    (h : findMember M name = some (.makeString ((t.map formatTime).getD []))) :
    optionalNonEmpty M name what (fun text => (tryParseTime text).map some) detail none =
      .ok (t.map NdoTime.reread) := by
  rw [optionalNonEmpty_of h]
  cases t with
  | none => rfl
  | some t =>
    rw [Option.map_some, Option.getD_some, formatTime_nonempty, tryParseTime_formatTime]
    rfl

theorem decodeFindingMarks_written {g read : Finding}
    (hsuppression : findMember M "suppression" = some (.makeString ((f.suppression.map StringId.str).getD [])))
    (horigin : findMember M "suppression_origin" = some (.makeString f.suppressionOrigin.toText))
    (hby : findMember M "suppressed_by" = some (.makeString f.suppressedBy.str))
    (hreason : findMember M "suppression_reason" = some (.makeString f.suppressionReason))
    (hexpires : findMember M "suppression_expires_at" =
      some (.makeString ((f.suppressionExpiresAt.map formatTime).getD [])))
    (hackBy : findMember M "acknowledged_by" = some (.makeString f.acknowledgedBy.str))
    (hackAt : findMember M "acknowledged_at" = some (.makeString (formatTime f.acknowledgedAt)))
    (hackReason : findMember M "acknowledgement_reason" = some (.makeString f.acknowledgementReason))
    (hrelevant : findMember M "compliance_relevant" = some (.makeBool f.complianceRelevant))
    (hsummary : findMember M "summary" = some (.makeString f.summary)) :
    decodeFindingMarks M g = .ok read ↔
      ((∀ id, f.suppression = some id → id.Readable) ∧ f.suppressedBy.Readable ∧ f.acknowledgedBy.Readable) ∧
        read = { g with
          suppression := f.suppression.filter fun id => !id.empty
          suppressionOrigin := f.suppressionOrigin
          suppressedBy := f.suppressedBy
          suppressionReason := f.suppressionReason
          suppressionExpiresAt := f.suppressionExpiresAt.map NdoTime.reread
          acknowledgedBy := f.acknowledgedBy
          acknowledgedAt := f.acknowledgedAt.reread
          acknowledgementReason := f.acknowledgementReason
          complianceRelevant := f.complianceRelevant
          summary := f.summary } := by
  rw [decodeFindingMarks]
  simp only [ok_bind, optionalText_of horigin, optionalNonEmpty_expiry hexpires, optionalNonEmpty_time hackAt,
    optionalString_of hreason, optionalString_of hackReason, optionalBool_of hrelevant, optionalString_of hsummary,
    SuppressionOrigin.tryParse_toText, orRefuse_some, bind_eq_ok, optionalNonEmpty_suppression hsuppression,
    optionalNonEmpty_id hby, optionalNonEmpty_id hackBy, Except.ok.injEq, Option.getD_some]
  constructor
  · rintro ⟨_, ⟨hs, rfl⟩, _, ⟨hb, rfl⟩, _, ⟨ha, rfl⟩, rfl⟩
    exact ⟨⟨hs, hb, ha⟩, rfl⟩
  · rintro ⟨⟨hs, hb, ha⟩, rfl⟩
    exact ⟨_, ⟨hs, rfl⟩, _, ⟨hb, rfl⟩, _, ⟨ha, rfl⟩, rfl⟩

theorem decodeFinding_written {read : Finding} :
    decodeFinding limits (encodeFinding f).canonical = .ok read ↔ f.Readable limits ∧ read = f.reread limits := by
  have hreads : Reads (encodeFinding f) _ := reads_object (by
    simp only [Named, memberNames, List.map_cons, List.map_nil, kBytesMember]
    repeat rw [ascii_ofList]
    decide)
  obtain ⟨M, hmap, hcheck, -, hfind⟩ := hreads
  simp only [List.forall_mem_cons, List.not_mem_nil, false_implies, implies_true, and_true,
    Value.canonical_makeString, Value.canonical_makeUint, Value.canonical_makeBool, Value.canonical_makeList,
    List.map_map] at hfind
  obtain ⟨hid, htarget, hobject, hpath, hclass, hraw, hseverity, hstate, hreason, hgeneration, hepoch, hauthority,
    hpolicy, hpolicyDigest, hqualifier, hhasIntended, hintended, hhasObserved, hobserved, hfreshness, hgroup, hcause,
    hcount, hreopen, hconfirmations, hfirst, hlast, hevaluated, hresolved, hsuppression, horigin, hby,
    hsuppressionReason, hexpires, hackBy, hackAt, hackReason, hrelevant, hsummary, hevidence, htimeline⟩ := hfind
  rw [decodeFinding, hmap, orRefuse_some, ok_bind, hcheck _ _ (by simp), ok_bind]
  simp only [bind_eq_ok, decodeFindingSubject_written hid htarget hobject hpath hclass hraw hseverity hstate hreason
      hgeneration hepoch hauthority hpolicy hpolicyDigest hqualifier hhasIntended hintended hhasObserved hobserved,
    decodeFindingProgress_written hfreshness hgroup hcause hcount hreopen hconfirmations hfirst hlast hevaluated
      hresolved,
    decodeFindingMarks_written hsuppression horigin hby hsuppressionReason hexpires hackBy hackAt hackReason hrelevant
      hsummary,
    optionalList_of hevidence, optionalList_of htimeline, ite_error_eq_ok, not_lt, List.length_map,
    mapM_map_eq_ok (f := Value.canonical ∘ encodeEvidenceRef) fun _ _ => decodeEvidenceRef_written,
    mapM_map_eq_ok (f := Value.canonical ∘ encodeTimelineEntry) fun _ _ => decodeTimelineEntry_written,
    Except.ok.injEq, exists_eq_left']
  constructor
  · rintro ⟨_, ⟨⟨ht, ho, hp, hq, hi⟩, rfl⟩, _, ⟨⟨hs, hb, ha⟩, rfl⟩, hec, _, ⟨he, rfl⟩, htc, _, ⟨htl, rfl⟩, rfl⟩
    exact ⟨⟨ht, ho, hp, hq, hi, hs, hb, ha, hec, he, htc, htl⟩, rfl⟩
  · rintro ⟨h, rfl⟩
    exact ⟨_, ⟨⟨h.target, h.object, h.path, h.policy, h.identity⟩, rfl⟩, _,
      ⟨⟨h.suppression, h.suppressedBy, h.acknowledgedBy⟩, rfl⟩, h.evidenceCount, _, ⟨h.evidence, rfl⟩,
      h.timelineCount, _, ⟨h.timeline, rfl⟩, rfl⟩

end Finding

/-! ### Groups -/

theorem decodeIdentity_digestId {name what detail : String} {tag : DigestTag} (id read : DigestId tag) :
    decodeIdentity name what DigestId.tryParse detail (.makeString id.toHex) = .ok read ↔ True ∧ read = id := by
  rw [decodeIdentity, Value.asString_makeString, orRefuse_some, ok_bind, DigestId.tryParse_toHex, orRefuse_some,
    Except.ok.injEq, true_and, eq_comm]

theorem decodeIdentity_stringId {name what detail : String} {tag : IdTag} (id read : StringId tag) :
    decodeIdentity name what StringId.tryParse detail (.makeString id.str) = .ok read ↔
      isValidIdentityText id.str = true ∧ read = id := by
  rw [decodeIdentity, Value.asString_makeString, orRefuse_some, ok_bind, orRefuse_eq_ok, StringId.tryParse_str]

namespace RootCauseGroup

structure Readable (group : RootCauseGroup) : Prop where
  target : isValidIdentityText group.target.str = true
  objects : ∀ id ∈ group.objects, isValidIdentityText id.str = true

def reread (group : RootCauseGroup) : RootCauseGroup :=
  { group with
    observationCount := { value := group.observationCount.value }
    firstSeen := group.firstSeen.reread
    lastSeen := group.lastSeen.reread }

end RootCauseGroup

theorem decodeGroup_written {group read : RootCauseGroup} :
    decodeGroup (encodeGroup group).canonical = .ok read ↔ group.Readable ∧ read = group.reread := by
  have hreads : Reads (encodeGroup group) _ := reads_object (by
    simp only [Named, memberNames, List.map_cons, List.map_nil, kBytesMember]
    repeat rw [ascii_ofList]
    decide)
  obtain ⟨M, hmap, hcheck, -, hfind⟩ := hreads
  simp only [List.forall_mem_cons, List.not_mem_nil, false_implies, implies_true, and_true,
    Value.canonical_makeString, Value.canonical_makeUint, Value.canonical_makeList, List.map_map, Function.comp_def]
    at hfind
  obtain ⟨hid, htarget, hgeneration, hepoch, hcause, hdiscriminator, hsummary, hcount, hfirst, hlast, hmembers,
    hobjects⟩ := hfind
  rw [decodeGroup, hmap, orRefuse_some, ok_bind, hcheck _ _ (by simp), ok_bind]
  simp only [ok_bind, requireText_of hid, requireText_of htarget, requireUint_of hgeneration, optionalUint_of hepoch,
    requireText_of hcause, optionalNonEmpty_digest hdiscriminator, optionalString_of hsummary, optionalUint_of hcount,
    optionalNonEmpty_time hfirst, optionalNonEmpty_time hlast, optionalList_of hmembers, optionalList_of hobjects,
    DigestId.tryParse_toHex, RootCauseKind.tryParse_toText, orRefuse_some, bind_eq_ok, orRefuse_eq_ok,
    StringId.tryParse_str, mapM_map_eq_ok decodeIdentity_digestId, mapM_map_eq_ok decodeIdentity_stringId,
    Except.ok.injEq, Option.getD_some, List.map_id']
  constructor
  · rintro ⟨_, ⟨ht, rfl⟩, _, ⟨-, rfl⟩, _, ⟨ho, rfl⟩, rfl⟩
    exact ⟨⟨ht, ho⟩, rfl⟩
  · rintro ⟨h, rfl⟩
    exact ⟨_, ⟨h.target, rfl⟩, _, ⟨fun _ _ => trivial, rfl⟩, _, ⟨h.objects, rfl⟩, rfl⟩

/-! ### Baselines -/

section Baseline
variable {limits : RuntimeLimits}

/-- A declared field with the path it is read under. -/
def rereadIntentField (limits : RuntimeLimits) (entry : FieldPath × IntentField) : FieldPath × IntentField :=
  (entry.1.reread limits,
    { path := entry.1.reread limits, intended := entry.2.intended.canonical, comparability := entry.2.comparability })

theorem decodeIntentField_written (entry read : FieldPath × IntentField) :
    decodeIntentField limits (encodeIntentField entry.1 entry.2).canonical = .ok read ↔
      entry.1.Readable limits ∧ read = rereadIntentField limits entry := by
  have hreads : Reads (encodeIntentField entry.1 entry.2) _ := reads_object (by
    simp only [Named, memberNames, List.map_cons, List.map_nil, kBytesMember]
    repeat rw [ascii_ofList]
    decide)
  obtain ⟨M, hmap, hcheck, -, hfind⟩ := hreads
  simp only [List.forall_mem_cons, List.not_mem_nil, false_implies, implies_true, and_true,
    Value.canonical_makeString] at hfind
  obtain ⟨hpath, hvalue, hcomparability⟩ := hfind
  rw [decodeIntentField, hmap, orRefuse_some, ok_bind, hcheck _ _ (by simp), ok_bind]
  simp only [ok_bind, decodeFieldPath, requireText_of hpath, requireMember_of hvalue, optionalText_of hcomparability,
    FieldComparability.tryParse_toText, orRefuse_some, bind_eq_ok, orRefuse_eq_ok, FieldPath.tryParse_toText,
    Except.ok.injEq]
  constructor
  · rintro ⟨_, ⟨hp, rfl⟩, rfl⟩
    exact ⟨hp, rfl⟩
  · rintro ⟨hp, rfl⟩
    exact ⟨_, ⟨hp, rfl⟩, rfl⟩

/-- A declared object of a baseline that is read back. -/
structure ReadableIntentObject (limits : RuntimeLimits) (entry : ObjectId × IntentObject) : Prop where
  id : isValidIdentityText entry.1.str = true
  count : entry.2.fields.size ≤ limits.maxFieldsPerObject
  fields : ∀ field ∈ entry.2.fields.entries, field.1.Readable limits

def rereadIntentObject (limits : RuntimeLimits) (entry : ObjectId × IntentObject) : ObjectId × IntentObject :=
  (entry.1,
    { id := entry.1
      existence := entry.2.existence
      fields := OrdMap.emplaceAll (entry.2.fields.entries.map (rereadIntentField limits)) })

theorem decodeIntentObject_written (entry read : ObjectId × IntentObject) :
    decodeIntentObject limits (encodeIntentObject entry.1 entry.2).canonical = .ok read ↔
      ReadableIntentObject limits entry ∧ read = rereadIntentObject limits entry := by
  have hreads : Reads (encodeIntentObject entry.1 entry.2) _ := reads_object (by
    simp only [Named, memberNames, List.map_cons, List.map_nil, kBytesMember]
    repeat rw [ascii_ofList]
    decide)
  obtain ⟨M, hmap, hcheck, -, hfind⟩ := hreads
  simp only [List.forall_mem_cons, List.not_mem_nil, false_implies, implies_true, and_true,
    Value.canonical_makeString, Value.canonical_makeList, List.map_map, Function.comp_def] at hfind
  obtain ⟨hid, hexistence, hfields⟩ := hfind
  rw [decodeIntentObject, hmap, orRefuse_some, ok_bind, hcheck _ _ (by simp), ok_bind]
  simp only [ok_bind, requireText_of hid, optionalText_of hexistence, requireList_of hfields,
    ObjectExistence.tryParse_toText, orRefuse_some, bind_eq_ok, orRefuse_eq_ok, StringId.tryParse_str,
    ite_error_eq_ok, not_lt, List.length_map,
    mapM_map_eq_ok decodeIntentField_written, Except.ok.injEq]
  constructor
  · rintro ⟨_, ⟨hi, rfl⟩, hc, _, ⟨hf, rfl⟩, rfl⟩
    exact ⟨⟨hi, hc, hf⟩, rfl⟩
  · rintro ⟨h, rfl⟩
    exact ⟨_, ⟨h.id, rfl⟩, h.count, _, ⟨h.fields, rfl⟩, rfl⟩

namespace IntentBaseline

structure Readable (limits : RuntimeLimits) (baseline : IntentBaseline) : Prop where
  target : isValidIdentityText baseline.target.str = true
  policy : isValidIdentityText baseline.policy.str = true
  count : baseline.objects.size ≤ limits.maxObjectsPerTarget
  objects : ∀ entry ∈ baseline.objects.entries, ReadableIntentObject limits entry

def reread (limits : RuntimeLimits) (baseline : IntentBaseline) : IntentBaseline :=
  { baseline with
    committedAt := baseline.committedAt.reread
    objects := OrdMap.emplaceAll (baseline.objects.entries.map (rereadIntentObject limits)) }

end IntentBaseline

theorem decodeBaseline_written {baseline read : IntentBaseline} :
    decodeBaseline limits (encodeBaseline baseline).canonical = .ok read ↔
      baseline.Readable limits ∧ read = baseline.reread limits := by
  have hreads : Reads (encodeBaseline baseline) _ := reads_object (by
    simp only [Named, memberNames, List.map_cons, List.map_nil, kBytesMember]
    repeat rw [ascii_ofList]
    decide)
  obtain ⟨M, hmap, hcheck, -, hfind⟩ := hreads
  simp only [List.forall_mem_cons, List.not_mem_nil, false_implies, implies_true, and_true,
    Value.canonical_makeString, Value.canonical_makeUint, Value.canonical_makeList, List.map_map, Function.comp_def]
    at hfind
  obtain ⟨htarget, hgeneration, hepoch, hauthority, hpolicy, hcommitted, hdigest, hevidence, hobjects⟩ := hfind
  rw [decodeBaseline, hmap, orRefuse_some, ok_bind, hcheck _ _ (by simp), ok_bind]
  simp only [ok_bind, requireText_of htarget, requireUint_of hgeneration, requireUint_of hepoch,
    optionalText_of hauthority, optionalText_of hpolicy, optionalText_of hcommitted, optionalText_of hdigest,
    optionalText_of hevidence, requireList_of hobjects, IntentAuthority.tryParse_toText, tryParseTime_formatTime,
    Digest.tryFromHex_toHex, EvidenceClass.tryParse_toText, orRefuse_some, bind_eq_ok, orRefuse_eq_ok,
    StringId.tryParse_str, ite_error_eq_ok, not_lt, List.length_map, mapM_map_eq_ok decodeIntentObject_written,
    Except.ok.injEq]
  constructor
  · rintro ⟨_, ⟨ht, rfl⟩, _, ⟨hp, rfl⟩, hc, _, ⟨ho, rfl⟩, rfl⟩
    exact ⟨⟨ht, hp, hc, ho⟩, rfl⟩
  · rintro ⟨h, rfl⟩
    exact ⟨_, ⟨h.target, rfl⟩, _, ⟨h.policy, rfl⟩, h.count, _, ⟨h.objects, rfl⟩, rfl⟩

end Baseline

/-! ### Observations -/

section Observation
variable {limits : RuntimeLimits}

def rereadField (limits : RuntimeLimits) (entry : FieldPath × Value) : FieldPath × Value :=
  (entry.1.reread limits, entry.2.canonical)

theorem decodeObservedField_written (entry read : FieldPath × Value) :
    decodeObservedField limits (encodeField entry.1 entry.2).canonical = .ok read ↔
      entry.1.Readable limits ∧ read = rereadField limits entry := by
  have hreads : Reads (encodeField entry.1 entry.2) _ := reads_object (by
    simp only [Named, memberNames, List.map_cons, List.map_nil, kBytesMember]
    repeat rw [ascii_ofList]
    decide)
  obtain ⟨M, hmap, hcheck, -, hfind⟩ := hreads
  simp only [List.forall_mem_cons, List.not_mem_nil, false_implies, implies_true, and_true,
    Value.canonical_makeString] at hfind
  obtain ⟨hpath, hvalue⟩ := hfind
  rw [decodeObservedField, hmap, orRefuse_some, ok_bind, hcheck _ _ (by simp), ok_bind,
    checkMemberKinds_of (by simp [hpath]), ok_bind]
  simp only [ok_bind, decodeFieldPath, requireText_of hpath, requireMember_of hvalue, bind_eq_ok, orRefuse_eq_ok,
    FieldPath.tryParse_toText, Except.ok.injEq]
  constructor
  · rintro ⟨_, ⟨hp, rfl⟩, rfl⟩
    exact ⟨hp, rfl⟩
  · rintro ⟨hp, rfl⟩
    exact ⟨_, ⟨hp, rfl⟩, rfl⟩

/-- A reported object that is read back. -/
structure ReadableObject (limits : RuntimeLimits) (entry : ObjectId × ObservedObject) : Prop where
  id : isValidIdentityText entry.1.str = true
  count : entry.2.fields.size ≤ limits.maxFieldsPerObject
  fields : ∀ field ∈ entry.2.fields.entries, field.1.Readable limits

def rereadObject (limits : RuntimeLimits) (entry : ObjectId × ObservedObject) : ObjectId × ObservedObject :=
  (entry.1,
    { id := entry.1
      presence := entry.2.presence
      fields := OrdMap.emplaceAll (entry.2.fields.entries.map (rereadField limits)) })

theorem decodeObservedObject_written (entry read : ObjectId × ObservedObject) :
    decodeObservedObject limits (encodeObservedObject entry.1 entry.2).canonical = .ok read ↔
      ReadableObject limits entry ∧ read = rereadObject limits entry := by
  have hreads : Reads (encodeObservedObject entry.1 entry.2) _ := reads_object (by
    simp only [Named, memberNames, List.map_cons, List.map_nil, kBytesMember]
    repeat rw [ascii_ofList]
    decide)
  obtain ⟨M, hmap, hcheck, -, hfind⟩ := hreads
  simp only [List.forall_mem_cons, List.not_mem_nil, false_implies, implies_true, and_true,
    Value.canonical_makeString, Value.canonical_makeList, List.map_map, Function.comp_def] at hfind
  obtain ⟨hid, hpresence, hfields⟩ := hfind
  rw [decodeObservedObject, hmap, orRefuse_some, ok_bind, hcheck _ _ (by simp), ok_bind,
    checkMemberKinds_of (by simp [hid, hpresence, hfields]), ok_bind]
  simp only [ok_bind, requireText_of hid, optionalText_of hpresence, requireList_of hfields,
    ObjectPresence.tryParse_toText, orRefuse_some, bind_eq_ok, orRefuse_eq_ok, StringId.tryParse_str,
    ite_error_eq_ok, not_lt, List.length_map, mapM_map_eq_ok decodeObservedField_written, Except.ok.injEq]
  constructor
  · rintro ⟨_, ⟨hi, rfl⟩, hc, _, ⟨hf, rfl⟩, rfl⟩
    exact ⟨⟨hi, hc, hf⟩, rfl⟩
  · rintro ⟨h, rfl⟩
    exact ⟨_, ⟨h.id, rfl⟩, h.count, _, ⟨h.fields, rfl⟩, rfl⟩

/-- The capabilities are read back as they are. -/
theorem decodeCapabilities_written (capabilities : SourceCapabilities) :
    ∃ M, (encodeCapabilities capabilities).canonical.asMap = some M ∧ decodeCapabilities M = .ok capabilities := by
  have hreads : Reads (encodeCapabilities capabilities) _ := reads_object (by
    simp only [Named, memberNames, List.map_cons, List.map_nil, kBytesMember]
    repeat rw [ascii_ofList]
    decide)
  obtain ⟨M, hmap, hcheck, -, hfind⟩ := hreads
  simp only [List.forall_mem_cons, List.not_mem_nil, false_implies, implies_true, and_true,
    Value.canonical_makeString, Value.canonical_makeBool] at hfind
  obtain ⟨habsence, hcoverage, hnested, hevidence⟩ := hfind
  refine ⟨M, hmap, ?_⟩
  rw [decodeCapabilities, hcheck _ _ (by simp), ok_bind,
    checkMemberKinds_of (by simp [habsence, hcoverage, hnested, hevidence]), ok_bind]
  simp only [ok_bind, optionalText_of hevidence, EvidenceClass.tryParse_toText, orRefuse_some, optionalBool_of habsence,
    optionalBool_of hcoverage, optionalBool_of hnested, Option.getD_some]

namespace ObservationSnapshot

/-- What a written observation says, before its identity is computed. -/
def reassembled (limits : RuntimeLimits) (s : ObservationSnapshot) : ObservationSnapshot :=
  { s with
    snapshotId := default
    collectedAt := s.collectedAt.reread
    receivedAt := default
    objects := OrdMap.emplaceAll (s.objects.entries.map (rereadObject limits)) }

def reread (limits : RuntimeLimits) (s : ObservationSnapshot) : ObservationSnapshot :=
  { s.reassembled limits with snapshotId := (s.reassembled limits).computeSnapshotId }

structure Readable (limits : RuntimeLimits) (s : ObservationSnapshot) : Prop where
  source : isValidIdentityText s.source.str = true
  target : isValidIdentityText s.target.str = true
  ttl : 0 ≤ s.ttlNanos
  unobserved : ∀ id ∈ s.unobserved, isValidIdentityText id.str = true
  count : s.objects.size ≤ limits.maxObjectsPerTarget
  objects : ∀ entry ∈ s.objects.entries, ReadableObject limits entry
  valid : ((s.reread limits).validate limits).ok = true

end ObservationSnapshot

theorem decodeTtl_written {M : Members} {what : String} {ttl read : Int64}
    (h : findMember M "ttl_nanos" = some (.makeInt ttl)) : decodeTtl M what = .ok read ↔ 0 ≤ ttl ∧ read = ttl := by
  rw [decodeTtl, optionalInt_of h]
  simp only [ite_error_eq_ok, Int64.not_lt, Except.ok.injEq, eq_comm (a := read)]

theorem hasKind_encodeCapabilities (capabilities : SourceCapabilities) :
    memberHasKind (encodeCapabilities capabilities).canonical .object = true := by
  obtain ⟨M, hM, -⟩ := decodeCapabilities_written capabilities
  simp [memberHasKind, hM]

theorem decodeObservationDocument_written {s read : ObservationSnapshot} :
    decodeObservationDocument limits (encodeObservationDocument s).canonical = .ok read ↔
      s.Readable limits ∧ read = s.reread limits := by
  have hreads : Reads (encodeObservationDocument s) _ := reads_object (by
    simp only [Named, memberNames, List.map_cons, List.map_nil, kBytesMember]
    repeat rw [ascii_ofList]
    decide)
  obtain ⟨M, hmap, hcheck, habsent, hfind⟩ := hreads
  -- the writer leaves the identity out, so the reader computes it
  have hidentity : findMember M "snapshot_id" = none := habsent _ (by
    simp only [memberNames, List.map_cons, List.map_nil]
    repeat rw [ascii_ofList]
    decide)
  simp only [List.forall_mem_cons, List.not_mem_nil, false_implies, implies_true, and_true,
    Value.canonical_makeString, Value.canonical_makeUint, Value.canonical_makeInt, Value.canonical_makeList,
    List.map_map, Function.comp_def] at hfind
  obtain ⟨hschema, hsource, hepoch, hincarnation, hsequence, htarget, hcollected, httl, hcoverage, hevidence,
    hunobserved, hcapabilities, hobjects⟩ := hfind
  obtain ⟨C, hC, hdecoded⟩ := decodeCapabilities_written s.capabilities
  have hdeclared : requireSchema M "ndo/observation/1" "observation document" = .ok () := by
    simp [requireSchema, requireString, requireMember_of hschema]
  rw [decodeObservationDocument]
  simp only [requireObject]
  rw [hmap, orRefuse_some, ok_bind, hcheck _ _ (by simp), ok_bind,
    checkMemberKinds_of (by simp [hsource, hepoch, hincarnation, hsequence, htarget, hcollected, httl, hcoverage,
      hevidence, hunobserved, hcapabilities, hobjects, hidentity, hasKind_encodeCapabilities]), ok_bind, hdeclared,
    ok_bind]
  simp only [ok_bind, requireText_of hsource, requireUint_of hepoch, requireUint_of hincarnation,
    requireUint_of hsequence, requireText_of htarget, requireText_of hcollected, optionalText_of hcoverage,
    optionalText_of hevidence, optionalList_of hunobserved, requireList_of hobjects, hcapabilities, hC, hdecoded,
    tryParseTime_formatTime, ObservationCoverage.tryParse_toText, EvidenceClass.tryParse_toText, orRefuse_some,
    bind_eq_ok, orRefuse_eq_ok, StringId.tryParse_str, decodeTtl_written httl, ite_error_eq_ok, not_lt,
    ite_ok_eq_ok, List.length_map, mapM_map_eq_ok decodeIdentity_stringId,
    mapM_map_eq_ok decodeObservedObject_written, List.map_id', optionalString, hidentity, Option.bind_none,
    Option.any_none, Bool.false_eq_true, not_false_eq_true, true_and]
  constructor
  · rintro ⟨_, ⟨hs, rfl⟩, _, ⟨ht, rfl⟩, _, ⟨hl, rfl⟩, _, ⟨hu, rfl⟩, hc, _, ⟨ho, rfl⟩, hv, rfl⟩
    exact ⟨⟨hs, ht, hl, hu, hc, ho, hv⟩, rfl⟩
  · rintro ⟨h, rfl⟩
    exact ⟨_, ⟨h.source, rfl⟩, _, ⟨h.target, rfl⟩, _, ⟨h.ttl, rfl⟩, _, ⟨h.unobserved, rfl⟩, h.count, _,
      ⟨h.objects, rfl⟩, h.valid, rfl⟩

end Observation

end DriftObservatory
