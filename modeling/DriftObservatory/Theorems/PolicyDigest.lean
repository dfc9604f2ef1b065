import DriftObservatory.Comparison
import DriftObservatory.Theorems.Preimages

/-! What the policy digest determines. Unset members are hashed as a text or a time that a set member can have too; where
    two policies agree on which members are set, equal bytes make equal policies. -/

namespace DriftObservatory

open Codes

/-! ### Selectors -/

namespace PolicySelector

/-- What of a selector is hashed: an unset member as the empty text. -/
def digested (selector : PolicySelector) : Text × Text × Text :=
  ((selector.target.map StringId.str).getD [], (selector.object.map StringId.str).getD [],
    (selector.pathPrefix.map FieldPath.toText).getD [])

/-- Texts with a size. -/
def SizedTexts (texts : Text × Text × Text) : Prop := Sized texts.1.length ∧ Sized texts.2.1.length ∧ Sized texts.2.2.length

def code (texts : Text × Text × Text) : Text :=
  lengthPrefixed texts.1 ++ (lengthPrefixed texts.2.1 ++ lengthPrefixed texts.2.2)

theorem code_separable : Separable SizedTexts code :=
  lengthPrefixed_separable.pair (lengthPrefixed_separable.pair lengthPrefixed_separable)

theorem preimage_eq (selector : PolicySelector) : selector.preimage = code selector.digested := by
  rw [preimage, code, List.append_assoc]
  rfl

/-- Two selectors have the same members set, and no two spellings of their paths agree by accident. -/
structure Alike (s t : PolicySelector) : Prop where
  target : s.target.isSome = t.target.isSome
  object : s.object.isSome = t.object.isSome
  pathPrefix : s.pathPrefix.isSome = t.pathPrefix.isSome
  spelling : ∀ front ∈ s.pathPrefix, ∀ front' ∈ t.pathPrefix,
    FieldPath.toText front = FieldPath.toText front' → front = front'

theorem Alike.refl (s : PolicySelector) : s.Alike s :=
  ⟨rfl, rfl, rfl, fun _ hfront _ hfront' _ => Option.mem_unique hfront hfront'⟩

/-- Members that are set alike are told apart by what stands for them. -/
theorem eq_of_getD {α β : Type} {f : α → β} {unset : β} {a b : Option α} (hset : a.isSome = b.isSome)
    (hf : ∀ x ∈ a, ∀ y ∈ b, f x = f y → x = y) (h : (a.map f).getD unset = (b.map f).getD unset) : a = b := by
  cases a <;> cases b
  · rfl
  · cases hset
  · cases hset
  · exact congrArg some (hf _ rfl _ rfl h)

theorem Alike.eq {s t : PolicySelector} (halike : s.Alike t) (h : s.digested = t.digested) : s = t := by
  obtain ⟨htarget, hrest⟩ := Prod.ext_iff.mp h
  obtain ⟨hobject, hpath⟩ := Prod.ext_iff.mp hrest
  have htarget := eq_of_getD halike.target (fun _ _ _ _ => (StringId.str_injective ·)) htarget
  have hobject := eq_of_getD halike.object (fun _ _ _ _ => (StringId.str_injective ·)) hobject
  have hpath := eq_of_getD halike.pathPrefix halike.spelling hpath
  cases s
  cases t
  subst htarget hobject hpath
  rfl

end PolicySelector

/-! ### Rules -/

theorem Severity.byte_injective : Function.Injective fun s : Severity => UInt8.ofNat s.rank := by
  intro a b h
  cases a <;> cases b <;> first | rfl | exact absurd h (by decide)

namespace ObservatoryPolicy

theorem minSeverityByte_injective : Function.Injective minSeverityByte := by
  rintro (_ | a) (_ | b) h
  · rfl
  · cases b <;> exact absurd h (by decide)
  · cases a <;> exact absurd h (by decide)
  · cases a <;> cases b <;> first | rfl | exact absurd h (by decide)

theorem klassText_injective : Function.Injective klassText := by
  rintro (_ | a) (_ | b) h
  · rfl
  · cases b <;> exact absurd h (by decide +kernel)
  · cases a <;> exact absurd h (by decide +kernel)
  · exact congrArg some (DriftClass.toText_injective h)

theorem sized_klassText (klass : Option DriftClass) : Sized (klassText klass).length := by
  cases klass with
  | none => exact (by decide : Sized 0)
  | some klass => exact sized_klass klass

theorem numericByte_injective : Function.Injective NumericEquivalence.toByte := by
  intro a b h
  cases a <;> cases b <;> first | rfl | exact absurd h (by decide)

section Rules
open PolicySelector (SizedTexts code_separable)

theorem klass_separable : Separable (fun _ => True) fun klass => lengthPrefixed (klassText klass) :=
  lengthPrefixed_separable.comp (fun klass _ => sized_klassText klass) fun _ _ _ _ h => klassText_injective h

/-- What of a severity rule is hashed. -/
def severityDigested (rule : SeverityRule) : (Text × Text × Text) × Option DriftClass × Option Severity × Severity :=
  (rule.selector.digested, rule.klass, rule.minSeverity, rule.severity)

def severityCode (rule : (Text × Text × Text) × Option DriftClass × Option Severity × Severity) : Text :=
  PolicySelector.code rule.1 ++ (lengthPrefixed (klassText rule.2.1) ++ ([minSeverityByte rule.2.2.1] ++
    [UInt8.ofNat rule.2.2.2.rank]))

theorem severityCode_separable : Separable (fun rule => SizedTexts rule.1 ∧ True ∧ True ∧ True) severityCode :=
  code_separable.pair (klass_separable.pair
    ((byte_separable minSeverityByte_injective).pair (byte_separable Severity.byte_injective)))

/-- What of a freshness rule is hashed. -/
def freshnessDigested (rule : FreshnessRule) : (Text × Text × Text) × Int64 := (rule.selector.digested, rule.ttlNanos)

def freshnessCode (rule : (Text × Text × Text) × Int64) : Text :=
  PolicySelector.code rule.1 ++ bigEndian64 rule.2.toUInt64

theorem freshnessCode_separable : Separable (fun rule => SizedTexts rule.1 ∧ True) freshnessCode :=
  code_separable.pair (word_separable toUInt64_injective)

/-- What of a field class rule is hashed. -/
def fieldClassDigested (rule : FieldClassRule) : (Text × Text × Text) × FieldComparability :=
  (rule.selector.digested, rule.comparability)

def fieldClassCode (rule : (Text × Text × Text) × FieldComparability) : Text :=
  PolicySelector.code rule.1 ++ [rule.2.toByte]

theorem fieldClassCode_separable : Separable (fun rule => SizedTexts rule.1 ∧ True) fieldClassCode :=
  code_separable.pair (byte_separable FieldComparability.toByte_injective)

/-- The expiry that is hashed: of a rule without expiry, the beginning of 1970. -/
def hashedExpiry (expiresAt : Option NdoTime) : UInt64 := (expiresAt.map fun t => t.unixNanos.toUInt64).getD 0

/-- What of a suppression is hashed. -/
def suppressionDigested (rule : SuppressionRule) : SuppressionId × (Text × Text × Text) × Option DriftClass ×
    Option Severity × ActorId × Text × NdoTime × UInt64 :=
  (rule.id, rule.selector.digested, rule.klass, rule.minSeverity, rule.author, rule.reason, rule.createdAt,
    hashedExpiry rule.expiresAt)

def suppressionCode (rule : SuppressionId × (Text × Text × Text) × Option DriftClass × Option Severity × ActorId ×
    Text × NdoTime × UInt64) : Text :=
  lengthPrefixed rule.1.str ++ (PolicySelector.code rule.2.1 ++ (lengthPrefixed (klassText rule.2.2.1) ++
    ([minSeverityByte rule.2.2.2.1] ++ (lengthPrefixed rule.2.2.2.2.1.str ++ (lengthPrefixed rule.2.2.2.2.2.1 ++
    (bigEndian64 rule.2.2.2.2.2.2.1.unixNanos.toUInt64 ++ bigEndian64 rule.2.2.2.2.2.2.2))))))

theorem suppressionCode_separable :
    Separable (fun rule => Sized rule.1.str.length ∧ SizedTexts rule.2.1 ∧ True ∧ True ∧
      Sized rule.2.2.2.2.1.str.length ∧ Sized rule.2.2.2.2.2.1.length ∧ True ∧ True) suppressionCode :=
  (named_separable StringId.str_injective).pair (code_separable.pair (klass_separable.pair
    ((byte_separable minSeverityByte_injective).pair ((named_separable StringId.str_injective).pair
      (lengthPrefixed_separable.pair ((word_separable NdoTime.word_injective).pair bigEndian64_separable))))))

/-- A list behind its length, of which each item is hashed by what is hashed of it. -/
theorem counted_eq {α β : Type} {preimage : α → Text} {digested : α → β} {code : β → Text}
    (h : ∀ a, preimage a = code (digested a)) (items : List α) : counted items preimage =
      bigEndian64 (UInt64.ofNat (items.map digested).length) ++ (items.map digested).flatMap code := by
  rw [counted, List.length_map, List.flatMap_map, funext h]

end Rules

/-! ### Policies -/

/-- Every text and every list has a size. -/
structure Storable (p : ObservatoryPolicy) : Prop where
  id : Sized p.id.str.length
  severityRules : Sized p.severityRules.length ∧ ∀ rule ∈ p.severityRules, PolicySelector.SizedTexts rule.selector.digested
  freshnessRules : Sized p.freshnessRules.length ∧ ∀ rule ∈ p.freshnessRules, PolicySelector.SizedTexts rule.selector.digested
  fieldClassRules : Sized p.fieldClassRules.length ∧ ∀ rule ∈ p.fieldClassRules, PolicySelector.SizedTexts rule.selector.digested
  suppressions : Sized p.suppressions.length ∧ ∀ rule ∈ p.suppressions, Sized rule.id.str.length ∧
    PolicySelector.SizedTexts rule.selector.digested ∧ Sized rule.author.str.length ∧ Sized rule.reason.length
  sourcePriority : Sized p.sourcePriority.length ∧ ∀ source ∈ p.sourcePriority, Sized source.str.length
  requiredTargets : Sized p.requiredTargets.length ∧ ∀ target ∈ p.requiredTargets, Sized target.str.length

/-- Two policies that differ at most in what stands for unset members. -/
structure SameDigested (p q : ObservatoryPolicy) : Prop where
  id : p.id = q.id
  formatVersion : p.formatVersion = q.formatVersion
  freshness : p.freshness = q.freshness
  resolutionConfirmations : p.resolutionConfirmations = q.resolutionConfirmations
  requireCompleteCoverageForCompliance : p.requireCompleteCoverageForCompliance = q.requireCompleteCoverageForCompliance
  requireAbsenceAuthority : p.requireAbsenceAuthority = q.requireAbsenceAuthority
  numericEquivalence : p.numericEquivalence = q.numericEquivalence
  defaultSeverity : p.defaultSeverity = q.defaultSeverity
  evidence : p.evidence = q.evidence
  severityRules : p.severityRules.map severityDigested = q.severityRules.map severityDigested
  freshnessRules : p.freshnessRules.map freshnessDigested = q.freshnessRules.map freshnessDigested
  fieldClassRules : p.fieldClassRules.map fieldClassDigested = q.fieldClassRules.map fieldClassDigested
  suppressions : p.suppressions.map suppressionDigested = q.suppressions.map suppressionDigested
  sourcePriority : p.sourcePriority = q.sourcePriority
  requiredTargets : p.requiredTargets = q.requiredTargets

theorem severityRulePreimage_eq (rule : SeverityRule) : severityRulePreimage rule = severityCode (severityDigested rule) := by
  simp [severityRulePreimage, severityCode, severityDigested, PolicySelector.preimage_eq]

theorem freshnessRulePreimage_eq (rule : FreshnessRule) :
    freshnessRulePreimage rule = freshnessCode (freshnessDigested rule) := by
  simp [freshnessRulePreimage, freshnessCode, freshnessDigested, PolicySelector.preimage_eq]

theorem fieldClassRulePreimage_eq (rule : FieldClassRule) :
    fieldClassRulePreimage rule = fieldClassCode (fieldClassDigested rule) := by
  simp [fieldClassRulePreimage, fieldClassCode, fieldClassDigested, PolicySelector.preimage_eq]

theorem suppressionRulePreimage_eq (rule : SuppressionRule) :
    suppressionRulePreimage rule = suppressionCode (suppressionDigested rule) := by
  simp [suppressionRulePreimage, suppressionCode, suppressionDigested, PolicySelector.preimage_eq, hashedExpiry]

/-- The preimage, part by part. -/
theorem digestPreimage_eq (p : ObservatoryPolicy) : p.digestPreimage =
    lengthPrefixed kPolicyTag ++ (bigEndian64 1 ++ (lengthPrefixed p.id.str ++
      (bigEndian64 p.formatVersion.toUInt64 ++ (bigEndian64 p.freshness.ttlNanos.toUInt64 ++
      (bigEndian64 p.freshness.agingThresholdPercent.toInt64.toUInt64 ++
      (bigEndian64 p.freshness.maxClockSkewNanos.toUInt64 ++
      ([ObservationSnapshot.flagByte p.freshness.ttlAppliesToReceiveTime] ++
      (bigEndian64 p.resolutionConfirmations.toUInt64 ++
      ([ObservationSnapshot.flagByte p.requireCompleteCoverageForCompliance] ++
      ([ObservationSnapshot.flagByte p.requireAbsenceAuthority] ++
      ([NumericEquivalence.toByte p.numericEquivalence] ++ ([UInt8.ofNat p.defaultSeverity.rank] ++
      ([p.evidence.toByte] ++
      ((bigEndian64 (UInt64.ofNat (p.severityRules.map severityDigested).length) ++
        (p.severityRules.map severityDigested).flatMap severityCode) ++
      ((bigEndian64 (UInt64.ofNat (p.freshnessRules.map freshnessDigested).length) ++
        (p.freshnessRules.map freshnessDigested).flatMap freshnessCode) ++
      ((bigEndian64 (UInt64.ofNat (p.fieldClassRules.map fieldClassDigested).length) ++
        (p.fieldClassRules.map fieldClassDigested).flatMap fieldClassCode) ++
      ((bigEndian64 (UInt64.ofNat (p.suppressions.map suppressionDigested).length) ++
        (p.suppressions.map suppressionDigested).flatMap suppressionCode) ++
      ((bigEndian64 (UInt64.ofNat p.sourcePriority.length) ++
        p.sourcePriority.flatMap fun source => lengthPrefixed source.str) ++
      ((bigEndian64 (UInt64.ofNat p.requiredTargets.length) ++
        p.requiredTargets.flatMap fun target => lengthPrefixed target.str) ++ []))))))))))))))))))) := by
  rw [digestPreimage, counted_eq severityRulePreimage_eq, counted_eq freshnessRulePreimage_eq,
    counted_eq fieldClassRulePreimage_eq, counted_eq suppressionRulePreimage_eq]
  simp only [counted, List.append_assoc, List.cons_append, List.nil_append, List.append_nil]

theorem sized_map {α β : Type} {digested : α → β} {items : List α} {sized : β → Prop}
    (h : Sized items.length ∧ ∀ a ∈ items, sized (digested a)) :
    Sized (items.map digested).length ∧ ∀ b ∈ items.map digested, sized b := by
  refine ⟨by rw [List.length_map]; exact h.1, fun b hb => ?_⟩
  obtain ⟨a, ha, rfl⟩ := List.mem_map.mp hb
  exact h.2 a ha

theorem percent_injective : Function.Injective fun percent : Int32 => percent.toInt64.toUInt64 := by
  intro a b h
  have hint := congrArg Int64.toInt (toUInt64_injective h)
  rw [Int32.toInt_toInt64, Int32.toInt_toInt64] at hint
  exact Int32.toInt_inj.mp hint

theorem digestPreimage_injective {p q : ObservatoryPolicy} (hp : p.Storable) (hq : q.Storable)
    (h : p.digestPreimage = q.digestPreimage) : p.SameDigested q := by
  rw [digestPreimage_eq, digestPreimage_eq, List.append_cancel_left_eq, List.append_cancel_left_eq] at h
  obtain ⟨hid, h⟩ := named_separable StringId.str_injective hp.id hq.id h
  obtain ⟨hformat, h⟩ := word_separable (fun _ _ => UInt16.toUInt64_inj.mp) trivial trivial h
  obtain ⟨httl, h⟩ := word_separable toUInt64_injective trivial trivial h
  obtain ⟨hpercent, h⟩ := word_separable percent_injective trivial trivial h
  obtain ⟨hskew, h⟩ := word_separable toUInt64_injective trivial trivial h
  obtain ⟨hreceive, h⟩ := byte_separable flagByte_injective trivial trivial h
  obtain ⟨hconfirmations, h⟩ := word_separable (fun _ _ => UInt32.toUInt64_inj.mp) trivial trivial h
  obtain ⟨hcoverage, h⟩ := byte_separable flagByte_injective trivial trivial h
  obtain ⟨habsence, h⟩ := byte_separable flagByte_injective trivial trivial h
  obtain ⟨hnumeric, h⟩ := byte_separable numericByte_injective trivial trivial h
  obtain ⟨hdefault, h⟩ := byte_separable Severity.byte_injective trivial trivial h
  obtain ⟨hevidence, h⟩ := byte_separable EvidenceClass.toByte_injective trivial trivial h
  obtain ⟨hseverity, h⟩ := (size_separable.counted severityCode_separable)
    (sized_map (hp.severityRules.imp_right fun hall rule hr => ⟨hall rule hr, trivial, trivial, trivial⟩))
    (sized_map (hq.severityRules.imp_right fun hall rule hr => ⟨hall rule hr, trivial, trivial, trivial⟩)) h
  obtain ⟨hfreshness, h⟩ := (size_separable.counted freshnessCode_separable)
    (sized_map (hp.freshnessRules.imp_right fun hall rule hr => ⟨hall rule hr, trivial⟩))
    (sized_map (hq.freshnessRules.imp_right fun hall rule hr => ⟨hall rule hr, trivial⟩)) h
  obtain ⟨hclass, h⟩ := (size_separable.counted fieldClassCode_separable)
    (sized_map (hp.fieldClassRules.imp_right fun hall rule hr => ⟨hall rule hr, trivial⟩))
    (sized_map (hq.fieldClassRules.imp_right fun hall rule hr => ⟨hall rule hr, trivial⟩)) h
  have hsuppression : ∀ {r : ObservatoryPolicy}, r.Storable → ∀ rule ∈ r.suppressions,
      Sized rule.id.str.length ∧ PolicySelector.SizedTexts rule.selector.digested ∧ True ∧ True ∧
        Sized rule.author.str.length ∧ Sized rule.reason.length ∧ True ∧ True := by
    intro r hr rule hrule
    obtain ⟨hname, hselector, hauthor, hreason⟩ := hr.suppressions.2 rule hrule
    exact ⟨hname, hselector, trivial, trivial, hauthor, hreason, trivial, trivial⟩
  obtain ⟨hsuppressions, h⟩ := (size_separable.counted suppressionCode_separable)
    (sized_map ⟨hp.suppressions.1, hsuppression hp⟩) (sized_map ⟨hq.suppressions.1, hsuppression hq⟩) h
  obtain ⟨hpriority, h⟩ := (size_separable.counted (named_separable StringId.str_injective)) hp.sourcePriority
    hq.sourcePriority h
  obtain ⟨htargets, -⟩ := (size_separable.counted (named_separable StringId.str_injective)) hp.requiredTargets
    hq.requiredTargets h
  have hlifetime : p.freshness = q.freshness := by
    cases hf : p.freshness
    cases hg : q.freshness
    rw [hf, hg] at httl hpercent hskew hreceive
    cases httl
    cases hpercent
    cases hskew
    cases hreceive
    rfl
  exact ⟨hid, hformat, hlifetime, hconfirmations, hcoverage, habsence, hnumeric, hdefault, hevidence, hseverity,
    hfreshness, hclass, hsuppressions, hpriority, htargets⟩

theorem digestPreimage_of_same {p q : ObservatoryPolicy} (h : p.SameDigested q) :
    p.digestPreimage = q.digestPreimage := by
  rw [digestPreimage_eq, digestPreimage_eq, h.id, h.formatVersion, h.freshness, h.resolutionConfirmations,
    h.requireCompleteCoverageForCompliance, h.requireAbsenceAuthority, h.numericEquivalence, h.defaultSeverity,
    h.evidence, h.severityRules, h.freshnessRules, h.fieldClassRules, h.suppressions, h.sourcePriority,
    h.requiredTargets]

/-! ### Decisions -/

/-- Rule by rule, two policies leave the same members unset. -/
structure Alike (p q : ObservatoryPolicy) : Prop where
  severityRules : List.Forall₂ (fun r r' => r.selector.Alike r'.selector) p.severityRules q.severityRules
  freshnessRules : List.Forall₂ (fun r r' => r.selector.Alike r'.selector) p.freshnessRules q.freshnessRules
  fieldClassRules : List.Forall₂ (fun r r' => r.selector.Alike r'.selector) p.fieldClassRules q.fieldClassRules
  suppressions : List.Forall₂ (fun r r' => r.selector.Alike r'.selector ∧ r.expiresAt.isSome = r'.expiresAt.isSome)
    p.suppressions q.suppressions

/-- Two policies decide alike, whatever they are asked. -/
structure DecidesAs (p q : ObservatoryPolicy) : Prop where
  ttlFor : ∀ target object path, p.ttlFor target object path = q.ttlFor target object path
  severityFor : ∀ target object path klass,
    p.severityFor target object path klass = q.severityFor target object path klass
  classifyField : ∀ target object path view,
    p.classifyField target object path view = q.classifyField target object path view
  findSuppression : ∀ target object path klass severity now,
    p.findSuppression target object path klass severity now = q.findSuppression target object path klass severity now
  compareTarget : ∀ input limits, compareTarget input p limits = compareTarget input q limits

theorem DecidesAs.refl (p : ObservatoryPolicy) : p.DecidesAs p :=
  ⟨fun _ _ _ => rfl, fun _ _ _ _ => rfl, fun _ _ _ _ => rfl, fun _ _ _ _ _ _ => rfl, fun _ _ => rfl⟩

theorem Alike.refl (p : ObservatoryPolicy) : p.Alike p :=
  ⟨List.forall₂_same.mpr fun _ _ => .refl _, List.forall₂_same.mpr fun _ _ => .refl _,
    List.forall₂_same.mpr fun _ _ => .refl _, List.forall₂_same.mpr fun _ _ => ⟨.refl _, rfl⟩⟩

theorem eq_of_digested {α β : Type} {digested : α → β} {R : α → α → Prop}
    (hrule : ∀ a b, R a b → digested a = digested b → a = b) {as bs : List α} (halike : List.Forall₂ R as bs)
    (h : as.map digested = bs.map digested) : as = bs := by
  induction halike with
  | nil => rfl
  | cons hab _ ih =>
    obtain ⟨hhead, htail⟩ := List.cons.inj h
    rw [hrule _ _ hab hhead, ih htail]

theorem severityRule_of_digested {r r' : SeverityRule} (halike : r.selector.Alike r'.selector)
    (h : severityDigested r = severityDigested r') : r = r' := by
  have hselector := halike.eq (congrArg Prod.fst h)
  cases r
  cases r'
  simp only [severityDigested, Prod.mk.injEq] at h
  obtain ⟨-, rfl, rfl, rfl⟩ := h
  cases hselector
  rfl

theorem freshnessRule_of_digested {r r' : FreshnessRule} (halike : r.selector.Alike r'.selector)
    (h : freshnessDigested r = freshnessDigested r') : r = r' := by
  have hselector := halike.eq (congrArg Prod.fst h)
  cases r
  cases r'
  simp only [freshnessDigested, Prod.mk.injEq] at h
  obtain ⟨-, rfl⟩ := h
  cases hselector
  rfl

theorem fieldClassRule_of_digested {r r' : FieldClassRule} (halike : r.selector.Alike r'.selector)
    (h : fieldClassDigested r = fieldClassDigested r') : r = r' := by
  have hselector := halike.eq (congrArg Prod.fst h)
  cases r
  cases r'
  simp only [fieldClassDigested, Prod.mk.injEq] at h
  obtain ⟨-, rfl⟩ := h
  cases hselector
  rfl

theorem suppression_of_digested {r r' : SuppressionRule}
    (halike : r.selector.Alike r'.selector ∧ r.expiresAt.isSome = r'.expiresAt.isSome)
    (h : suppressionDigested r = suppressionDigested r') : r = r' := by
  have hselector := halike.1.eq (congrArg (fun digested => digested.2.1) h)
  have hexpiry := PolicySelector.eq_of_getD halike.2 (fun _ _ _ _ => (NdoTime.word_injective ·))
    (congrArg (fun digested => digested.2.2.2.2.2.2.2) h)
  cases r
  cases r'
  simp only [suppressionDigested, Prod.mk.injEq] at h
  obtain ⟨rfl, -, rfl, rfl, rfl, rfl, rfl, -⟩ := h
  cases hselector
  cases hexpiry
  rfl

/-- Policies of one digest are told apart by which members they leave unset. -/
theorem SameDigested.alike_iff {p q : ObservatoryPolicy} (h : p.SameDigested q) : p.Alike q ↔ p = q := by
  refine ⟨fun halike => ?_, fun heq => heq ▸ .refl p⟩
  have hseverity := eq_of_digested (fun _ _ => severityRule_of_digested) halike.severityRules h.severityRules
  have hfreshness := eq_of_digested (fun _ _ => freshnessRule_of_digested) halike.freshnessRules h.freshnessRules
  have hclass := eq_of_digested (fun _ _ => fieldClassRule_of_digested) halike.fieldClassRules h.fieldClassRules
  have hsuppressions := eq_of_digested (fun _ _ => suppression_of_digested) halike.suppressions h.suppressions
  have hid := h.id
  have hformat := h.formatVersion
  have hlifetime := h.freshness
  have hconfirmations := h.resolutionConfirmations
  have hcoverage := h.requireCompleteCoverageForCompliance
  have habsence := h.requireAbsenceAuthority
  have hnumeric := h.numericEquivalence
  have hdefault := h.defaultSeverity
  have hevidence := h.evidence
  have hpriority := h.sourcePriority
  have htargets := h.requiredTargets
  cases p
  cases q
  subst hseverity hfreshness hclass hsuppressions hid hformat hlifetime hconfirmations hcoverage habsence hnumeric
    hdefault hevidence hpriority htargets
  rfl

/-- Among policies whose bytes for the hasher are equal, those that leave the same members unset are one policy, and
    decide alike. -/
theorem digest_decides {p q : ObservatoryPolicy} (hp : p.Storable) (hq : q.Storable)
    (h : p.digestPreimage = q.digestPreimage) : (p.Alike q ↔ p = q) ∧ (p.Alike q → p.DecidesAs q) := by
  have hiff := (digestPreimage_injective hp hq h).alike_iff
  refine ⟨hiff, fun halike => ?_⟩
  rw [hiff.mp halike]
  exact .refl q

end ObservatoryPolicy

namespace Sample

/-- A policy of two severity rules and a suppression; the path of the first rule and the expiry may be unset. -/
def sentinel (front : Option FieldPath) (expiresAt : Option NdoTime) : ObservatoryPolicy where
  severityRules := [⟨{ pathPrefix := front }, none, none, .critical⟩, ⟨{}, none, none, .low⟩]
  suppressions := [{ id := ⟨ascii "s"⟩, selector := {}, author := ⟨ascii "a"⟩, reason := [], createdAt := ⟨0⟩,
                     expiresAt := expiresAt }]

theorem storable_sentinel (front : Option FieldPath) (hfront : Sized ((front.map FieldPath.toText).getD []).length)
    (expiresAt : Option NdoTime) : (sentinel front expiresAt).Storable := by
  have hzero : Sized 0 := by decide
  have hone : Sized 1 := by decide
  refine ⟨(by decide : Sized (ascii "policy/default").length), ⟨(by decide : Sized 2), fun rule hrule => ?_⟩,
    ⟨hzero, List.forall_mem_nil _⟩, ⟨hzero, List.forall_mem_nil _⟩, ⟨hone, fun rule hrule => ?_⟩, ⟨hzero, List.forall_mem_nil _⟩,
    ⟨hzero, List.forall_mem_nil _⟩⟩
  · rcases List.mem_cons.mp hrule with rfl | hrule
    · exact ⟨hzero, hzero, hfront⟩
    · cases List.mem_singleton.mp hrule
      exact ⟨hzero, hzero, hzero⟩
  · cases List.mem_singleton.mp hrule
    exact ⟨hone, ⟨hzero, hzero, hzero⟩, hone, hzero⟩

end Sample

namespace ObservatoryPolicy

theorem digest_decides_sentinel :
    ¬(Sample.sentinel none none).Alike (Sample.sentinel (some []) (some ⟨0⟩)) ∧
      (Sample.sentinel none none).DecidesAs (Sample.sentinel none none) := by
  have hstored := Sample.storable_sentinel none (by decide) none
  have hset := Sample.storable_sentinel (some []) (by decide) (some ⟨0⟩)
  refine ⟨fun halike => ?_, (digest_decides hstored hstored rfl).2 (.refl _)⟩
  exact absurd ((digest_decides hstored hset (by decide +kernel)).1.mp halike) (by decide)

/-- Two admitted policies of one digest: a path that is unset and the path of the root, an expiry that is unset and an
    expiry that has passed. -/
theorem digest_decides_apart :
    (Sample.sentinel none none).validate {} = .okay ∧ (Sample.sentinel (some []) (some ⟨0⟩)).validate {} = .okay ∧
      (Sample.sentinel none none).digestPreimage = (Sample.sentinel (some []) (some ⟨0⟩)).digestPreimage ∧
      (Sample.sentinel none none).severityFor default default [] .missing ≠
        (Sample.sentinel (some []) (some ⟨0⟩)).severityFor default default [] .missing ∧
      (Sample.sentinel none none).findSuppression default default [] .missing .low ⟨1⟩ ≠
        (Sample.sentinel (some []) (some ⟨0⟩)).findSuppression default default [] .missing .low ⟨1⟩ := by
  decide +kernel

end ObservatoryPolicy

end DriftObservatory
