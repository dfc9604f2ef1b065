import DriftObservatory.Theorems.Identities
import DriftObservatory.Theorems.Relation

/-! The drafts of a comparison with one source that sees everything: the difference of two trees, leaf by leaf. -/

namespace DriftObservatory

/-! ### The difference of two trees -/

/-- One entry of a difference: where it is, what kind it is and the values on both sides. -/
structure Difference where
  object : ObjectId
  path : FieldPath
  klass : DriftClass
  intended : Option Value
  observed : Option Value

def FindingDraft.difference (d : FindingDraft) : Difference := ⟨d.object, d.path, d.klass, d.intended, d.observed⟩

def IntentBaseline.Declares (baseline : IntentBaseline) (id : ObjectId) : Prop :=
  ∃ declared, baseline.findObject id = some declared

/-- The intended value of a field. -/
def IntentBaseline.leaf (baseline : IntentBaseline) (id : ObjectId) (path : FieldPath) : Option Value :=
  (baseline.findObject id).bind fun declared => (declared.fields.find? path).map IntentField.intended

def ObservationSnapshot.Reports (snapshot : ObservationSnapshot) (id : ObjectId) : Prop :=
  ∃ observed, snapshot.findObject id = some observed ∧ observed.presence = .present

/-- The value a snapshot reports for a field of an object it reports present. -/
def ObservationSnapshot.leaf (snapshot : ObservationSnapshot) (id : ObjectId) (path : FieldPath) : Option Value :=
  (snapshot.findObject id).bind fun observed => if observed.presence = .present then observed.fields.find? path else none

/-- The difference at one path of an object that both trees have. -/
def differenceAt (equivalence : NumericEquivalence) (id : ObjectId) (path : FieldPath) :
    Option Value → Option Value → Option Difference
  | none, none => none
  | some intended, none => some ⟨id, path, .fieldMissing, some intended, none⟩
  | none, some observed => some ⟨id, path, .fieldUnexpected, none, some observed⟩
  | some intended, some observed =>
    match relateValues intended observed equivalence with
    | .equal => none
    | .incomparable => some ⟨id, path, .unsupported, some intended, some observed⟩
    | .different => some ⟨id, path, .valueMismatch, some intended, some observed⟩

/-- The difference between what is intended and what is observed. -/
inductive Differs (equivalence : NumericEquivalence) (baseline : IntentBaseline) (snapshot : ObservationSnapshot) :
    Difference → Prop
  | field (id : ObjectId) (path : FieldPath) {d : Difference} (hdeclared : baseline.Declares id)
      (hleaves : differenceAt equivalence id path (baseline.leaf id path) (snapshot.leaf id path) = some d) :
      Differs equivalence baseline snapshot d
  | object (id : ObjectId) (hundeclared : ¬ baseline.Declares id) (hreports : snapshot.Reports id) :
      Differs equivalence baseline snapshot ⟨id, [], .unexpected, none, some (.makeString (ascii "present"))⟩

namespace Difference

/-- A reserved location that only the source has: its metadata, not a difference. -/
def Reserved (d : Difference) : Prop :=
  d.klass = .fieldUnexpected ∧ isReservedPath d.path = true ∨ d.klass = .unexpected ∧ isReservedObjectId d.object = true

/-- What a source can prove of a difference: not that a field is missing from an object it lists as unobserved. -/
def proved (snapshot : ObservationSnapshot) (d : Difference) : Difference :=
  if d.klass = .fieldMissing ∧ snapshot.declaresUnobserved d.object = true then
    { d with klass := .unknown, intended := none }
  else d

/-- The same difference with the roles of the two trees exchanged. -/
def mirror (d : Difference) : Difference where
  object := d.object
  path := d.path
  klass := match d.klass with
    | .fieldMissing => .fieldUnexpected
    | .fieldUnexpected => .fieldMissing
    | klass => klass
  intended := d.observed
  observed := d.intended

theorem mirror_mirror (d : Difference) : d.mirror.mirror = d := by
  obtain ⟨object, path, klass, intended, observed⟩ := d
  cases klass <;> rfl

theorem object_proved {snapshot : ObservationSnapshot} (d : Difference) : (d.proved snapshot).object = d.object := by
  unfold proved
  split_ifs <;> rfl

theorem proved_of_observed {snapshot : ObservationSnapshot} {d : Difference}
    (h : snapshot.declaresUnobserved d.object = false) : d.proved snapshot = d := by
  rw [proved, h, if_neg fun hmissing => Bool.false_ne_true hmissing.2]

theorem proved_of_klass {snapshot : ObservationSnapshot} {d : Difference} (h : d.klass ≠ .fieldMissing) :
    d.proved snapshot = d := by
  rw [proved, if_neg fun hmissing => h hmissing.1]

end Difference

section Leaves
variable {equivalence : NumericEquivalence} {id : ObjectId} {path : FieldPath} {intended observed : Option Value}
  {d : Difference} {baseline : IntentBaseline} {snapshot : ObservationSnapshot}

/-- Only what the source alone has can be reserved. -/
theorem not_reserved_of_differenceAt {value : Value} (h : differenceAt equivalence id path (some value) observed = some d) :
    ¬ d.Reserved := by
  have hklass : d.klass ≠ .fieldUnexpected ∧ d.klass ≠ .unexpected := by
    cases observed with
    | none =>
      cases h
      exact ⟨nofun, nofun⟩
    | some found =>
      simp only [differenceAt] at h
      split at h
      · cases h
      · cases h
        exact ⟨nofun, nofun⟩
      · cases h
        exact ⟨nofun, nofun⟩
  rintro (⟨hunexpected, -⟩ | ⟨hunexpected, -⟩)
  · exact hklass.1 hunexpected
  · exact hklass.2 hunexpected

/-- Exchanging the two sides of a path mirrors its difference. -/
theorem differenceAt_comm :
    differenceAt equivalence id path observed intended =
      (differenceAt equivalence id path intended observed).map Difference.mirror := by
  cases intended with
  | none => cases observed <;> rfl
  | some a =>
    cases observed with
    | none => rfl
    | some b =>
      simp only [differenceAt, relateValues_comm b a]
      cases relateValues a b equivalence <;> rfl

theorem declares_of_leaf {value : Value} (h : baseline.leaf id path = some value) : baseline.Declares id := by
  obtain ⟨declared, hdeclared, -⟩ := Option.bind_eq_some_iff.mp h
  exact ⟨declared, hdeclared⟩

theorem leaf_of_declared {declared : IntentObject} (h : baseline.findObject id = some declared) :
    baseline.leaf id path = (declared.fields.find? path).map IntentField.intended := by
  rw [IntentBaseline.leaf, h, Option.bind_some]

theorem leaf_of_reported {reported : ObservedObject} (h : snapshot.findObject id = some reported)
    (hpresent : reported.presence = .present) : snapshot.leaf id path = reported.fields.find? path := by
  rw [ObservationSnapshot.leaf, h, Option.bind_some, if_pos hpresent]

end Leaves

/-! ### The comparison -/

/-- The primary view is the only usable one, sees everything and reports, without generation markers, every object of an
    intent that requires its objects and manages their fields; policy narrows no field. -/
structure Leafwise (policy : ObservatoryPolicy) (input : TargetComparisonInput) (baseline : IntentBaseline)
    (primary : EvidenceView) (rest : List EvidenceView) : Prop extends Reaches policy input baseline primary rest where
  rules : policy.fieldClassRules = []
  required : ∀ id declared, baseline.findObject id = some declared → declared.existence = .required
  managed : ∀ id declared, baseline.findObject id = some declared → ∀ path field, declared.fields.find? path = some field →
    field.comparability = .managed ∧ isReservedPath path = false
  alone : ∀ view ∈ rest, view.usable = false
  complete : primary.complete = true
  nested : primary.snapshot.capabilities.reportsNestedPaths = true
  authority : primary.absenceAuthority = true
  reported : ∀ id declared, baseline.findObject id = some declared → ∃ observed,
    primary.snapshot.findObject id = some observed ∧ observed.presence = .present ∧
      observed.fields.find? kAppliedGenerationPath = none

section Comparison
variable {policy : ObservatoryPolicy} {limits : RuntimeLimits} {input : TargetComparisonInput} {target : TargetId}
  {baseline : IntentBaseline} {primary : EvidenceView} {rest : List EvidenceView} {id : ObjectId} {path : FieldPath}
  {declared : IntentObject} {observed : ObservedObject}

theorem difference_primaryDraft {klass : DriftClass} {reason : ReasonCode} {intended found : Option Value}
    {rationale : List Text} :
    (primaryDraft policy limits target baseline primary id path klass reason intended found rationale).difference =
      ⟨id, path, klass, intended, found⟩ := by
  unfold primaryDraft attachEvidence
  split_ifs <;> rfl

/-- One usable source has nobody to disagree with. -/
theorem conflictDrafts_of_alone (halone : ∀ view ∈ rest, view.usable = false) :
    conflictDrafts policy limits target baseline (primary :: rest) = [] := by
  refine conflictScan_eq_nil.mpr (List.Pairwise.sublist (List.take_sublist _ _) (List.pairwise_cons.mpr ⟨?_, ?_⟩))
  · intro view hview _ husable
    rw [halone view hview] at husable
    cases husable
  · refine List.pairwise_of_forall_mem_list fun lhs hlhs _ _ husable => ?_
    rw [halone lhs hlhs] at husable
    cases husable

theorem Leafwise.drafts_eq (h : Leafwise policy input baseline primary rest) :
    (compareTarget input policy limits).drafts = primaryDrafts policy limits input.target baseline primary := by
  have hmarkers : appliedGenerations primary baseline.objects = [] := by
    refine List.filterMap_eq_nil_iff.mpr fun id hid => ?_
    obtain ⟨declared, hdeclared⟩ := OrdMap.contains_iff.mp (OrdMap.mem_keys.mp hid)
    obtain ⟨observed, hobserved, hpresent, hmarker⟩ := h.reported id declared hdeclared
    simp only [hobserved, hpresent, if_true, tryReadAppliedGeneration, hmarker]
  have hnone : ∀ drafts, regrouping (scanAppliedGenerations primary baseline.objects baseline.generation)
      baseline.generation drafts = none := by
    intro drafts
    simp [regrouping, scanAppliedGenerations, hmarkers]
  rw [h.compareTarget_eq, drafts_compareWithPrimary, comparedDrafts, regroupDrafts, hnone,
    conflictDrafts_of_alone h.alone, List.nil_append]

theorem difference_declaredFieldDrafts (h : Leafwise policy input baseline primary rest) {field : IntentField}
    (hdeclared : baseline.findObject id = some declared) (hfield : declared.fields.find? path = some field) :
    (declaredFieldDrafts policy limits input.target baseline primary id observed path field).map FindingDraft.difference =
      ((differenceAt policy.numericEquivalence id path (some field.intended) (observed.fields.find? path)).map
        (Difference.proved primary.snapshot)).toList := by
  obtain ⟨hmanaged, hreserved⟩ := h.managed id declared hdeclared path field hfield
  have hclass : policy.classifyField input.target id path field.comparability = .managed := by
    rw [ObservatoryPolicy.classifyField, h.rules, List.foldl_nil, hmanaged]
  have hvisible : primary.fieldVisible id path = !primary.snapshot.declaresUnobserved id := by
    simp only [EvidenceView.fieldVisible, EvidenceView.objectFullyVisible, h.complete, h.nested, Bool.and_true,
      Bool.not_true, Bool.and_false, Bool.not_false]
  simp only [declaredFieldDrafts, hreserved, hclass, hvisible, Bool.false_eq_true, if_false]
  cases observed.fields.find? path with
  | none =>
    cases hunobserved : primary.snapshot.declaresUnobserved id <;>
      simp [differenceAt, Difference.proved, difference_primaryDraft, hunobserved]
  | some value =>
    cases hrelation : relateValues field.intended value policy.numericEquivalence <;>
      simp [differenceAt, Difference.proved, difference_primaryDraft, hrelation]

theorem difference_undeclaredFieldDrafts {value : Value} :
    (undeclaredFieldDrafts policy limits target baseline primary id declared path value).map FindingDraft.difference =
      if isReservedPath path || declared.fields.contains path then []
      else [⟨id, path, .fieldUnexpected, none, some value⟩] := by
  unfold undeclaredFieldDrafts
  split_ifs
  · rfl
  · rw [List.map_singleton, difference_primaryDraft]

/-- The drafts of a declared object: its differences, but for the reserved paths only the source has. -/
theorem mem_objectFieldDrafts (h : Leafwise policy input baseline primary rest) {d : Difference}
    (hdeclared : baseline.findObject id = some declared) :
    d ∈ (objectFieldDrafts policy limits input.target baseline primary id declared observed).map
        FindingDraft.difference ↔
      ∃ path d', differenceAt policy.numericEquivalence id path ((declared.fields.find? path).map IntentField.intended)
        (observed.fields.find? path) = some d' ∧ ¬ d'.Reserved ∧ d = d'.proved primary.snapshot := by
  rw [objectFieldDrafts, List.map_append, List.map_flatMap, List.map_flatMap, List.mem_append, List.mem_flatMap,
    List.mem_flatMap]
  constructor
  · rintro (⟨⟨path, field⟩, hfield, hd⟩ | ⟨⟨path, value⟩, hvalue, hd⟩)
    · have hfield := OrdMap.mem_entries_iff.mp hfield
      rw [difference_declaredFieldDrafts h hdeclared hfield, Option.mem_toList, Option.map_eq_some_iff] at hd
      obtain ⟨d', hd', rfl⟩ := hd
      exact ⟨path, d', by rw [hfield]; exact hd', not_reserved_of_differenceAt hd', rfl⟩
    · rw [difference_undeclaredFieldDrafts] at hd
      split_ifs at hd with hignored
      · cases hd
      · rw [Bool.or_eq_true, not_or, Bool.not_eq_true, Bool.not_eq_true] at hignored
        refine ⟨path, _, by rw [OrdMap.contains_eq_false_iff.mp hignored.2, OrdMap.mem_entries_iff.mp hvalue]; rfl, ?_, ?_⟩
        · rintro (⟨-, hreserved⟩ | ⟨hklass, -⟩)
          · exact Bool.false_ne_true (hignored.1.symm.trans hreserved)
          · cases hklass
        · exact (List.mem_singleton.mp hd).trans (Difference.proved_of_klass DriftClass.noConfusion).symm
  · rintro ⟨path, d', hd', hkept, rfl⟩
    cases hfield : declared.fields.find? path with
    | some field =>
      rw [hfield] at hd'
      refine .inl ⟨(path, field), OrdMap.mem_entries_iff.mpr hfield, ?_⟩
      rw [difference_declaredFieldDrafts h hdeclared hfield, Option.mem_toList, Option.map_eq_some_iff]
      exact ⟨d', hd', rfl⟩
    | none =>
      rw [hfield] at hd'
      cases hvalue : observed.fields.find? path with
      | none =>
        rw [hvalue] at hd'
        cases hd'
      | some value =>
        rw [hvalue] at hd'
        cases hd'
        refine .inr ⟨(path, value), OrdMap.mem_entries_iff.mpr hvalue, ?_⟩
        have hreserved : isReservedPath path = false := Bool.eq_false_iff.mpr fun hreserved => hkept (.inl ⟨rfl, hreserved⟩)
        rw [difference_undeclaredFieldDrafts, hreserved, OrdMap.contains_eq_false_iff.mpr hfield, Bool.or_false,
          if_neg Bool.false_ne_true, Difference.proved_of_klass DriftClass.noConfusion]
        exact List.mem_singleton_self _

theorem Leafwise.declaredObjectDrafts_eq (h : Leafwise policy input baseline primary rest)
    (hdeclared : baseline.findObject id = some declared) (hobserved : primary.snapshot.findObject id = some observed)
    (hpresent : observed.presence = .present) :
    declaredObjectDrafts policy limits input.target baseline primary id declared =
      objectFieldDrafts policy limits input.target baseline primary id declared observed := by
  have hpresence : primary.presenceOf id = .present := by
    rw [EvidenceView.presenceOf, hobserved]
    exact hpresent
  simp only [declaredObjectDrafts, h.required id declared hdeclared, hpresence, hobserved]

theorem difference_undeclaredObjectDrafts :
    (undeclaredObjectDrafts policy limits target baseline primary id observed).map FindingDraft.difference =
      if isReservedObjectId id || baseline.objects.contains id || observed.presence != .present then []
      else [⟨id, [], .unexpected, none, some (.makeString (ascii "present"))⟩] := by
  unfold undeclaredObjectDrafts
  split_ifs
  · rfl
  · rw [List.map_singleton, difference_primaryDraft]

/-- The drafts are the differences between intent and observation as far as the source proves them, but for those at
    reserved locations. -/
theorem Leafwise.mem_drafts (h : Leafwise policy input baseline primary rest) {d : Difference} :
    d ∈ (compareTarget input policy limits).drafts.map FindingDraft.difference ↔
      ∃ d', Differs policy.numericEquivalence baseline primary.snapshot d' ∧ ¬ d'.Reserved ∧
        d = d'.proved primary.snapshot := by
  rw [h.drafts_eq, primaryDrafts, List.map_append, List.map_flatMap, List.map_flatMap, List.mem_append, List.mem_flatMap,
    List.mem_flatMap]
  constructor
  · rintro (⟨⟨id, declared⟩, hentry, hd⟩ | ⟨⟨id, observed⟩, hentry, hd⟩)
    · have hdeclared : baseline.findObject id = some declared := OrdMap.mem_entries_iff.mp hentry
      obtain ⟨observed, hobserved, hpresent, -⟩ := h.reported id declared hdeclared
      rw [h.declaredObjectDrafts_eq hdeclared hobserved hpresent, mem_objectFieldDrafts h hdeclared] at hd
      obtain ⟨path, d', hd', hkept, rfl⟩ := hd
      refine ⟨d', .field id path ⟨declared, hdeclared⟩ ?_, hkept, rfl⟩
      rw [leaf_of_declared hdeclared, leaf_of_reported hobserved hpresent, hd']
    · rw [difference_undeclaredObjectDrafts] at hd
      split_ifs at hd with hignored
      · cases hd
      · simp only [Bool.or_eq_true, bne_iff_ne, not_or, not_not, Bool.not_eq_true] at hignored
        obtain ⟨⟨hreserved, hundeclared⟩, hpresent⟩ := hignored
        refine ⟨_, .object id ?_ ⟨observed, OrdMap.mem_entries_iff.mp hentry, hpresent⟩, ?_, ?_⟩
        · rintro ⟨declared, hdeclared⟩
          cases (OrdMap.contains_eq_false_iff.mp hundeclared).symm.trans hdeclared
        · rintro (⟨hklass, -⟩ | ⟨-, hreserved'⟩)
          · cases hklass
          · exact Bool.false_ne_true (hreserved.symm.trans hreserved')
        · exact (List.mem_singleton.mp hd).trans (Difference.proved_of_klass DriftClass.noConfusion).symm
  · rintro ⟨d', hd', hkept, rfl⟩
    cases hd' with
    | field id path hdeclared hleaves =>
      obtain ⟨declared, hdeclared⟩ := hdeclared
      obtain ⟨observed, hobserved, hpresent, -⟩ := h.reported id declared hdeclared
      rw [leaf_of_declared hdeclared, leaf_of_reported hobserved hpresent] at hleaves
      refine .inl ⟨(id, declared), OrdMap.mem_entries_iff.mpr hdeclared, ?_⟩
      rw [h.declaredObjectDrafts_eq hdeclared hobserved hpresent]
      exact (mem_objectFieldDrafts h hdeclared).mpr ⟨path, d', hleaves, hkept, rfl⟩
    | object id hundeclared hreports =>
      obtain ⟨observed, hobserved, hpresent⟩ := hreports
      have hreserved : isReservedObjectId id = false :=
        Bool.eq_false_iff.mpr fun hreserved => hkept (.inr ⟨rfl, hreserved⟩)
      have habsent : baseline.objects.contains id = false :=
        Bool.eq_false_iff.mpr fun hcontains => hundeclared (OrdMap.contains_iff.mp hcontains)
      refine .inr ⟨(id, observed), OrdMap.mem_entries_iff.mpr hobserved, ?_⟩
      rw [difference_undeclaredObjectDrafts, hreserved, habsent, hpresent, Difference.proved]
      exact List.mem_singleton_self _

end Comparison

/-! ### Exchanging the roles -/

/-- One intent and one snapshot with the trees of another snapshot and another intent. -/
structure Exchanged (baseline : IntentBaseline) (snapshot : ObservationSnapshot) (baseline' : IntentBaseline)
    (snapshot' : ObservationSnapshot) : Prop where
  declares : ∀ id, baseline'.Declares id ↔ snapshot.Reports id
  reports : ∀ id, snapshot'.Reports id ↔ baseline.Declares id
  intended : ∀ id path, baseline'.leaf id path = snapshot.leaf id path
  observed : ∀ id path, snapshot'.leaf id path = baseline.leaf id path

section Exchange
variable {equivalence : NumericEquivalence} {baseline baseline' : IntentBaseline} {snapshot snapshot' : ObservationSnapshot}
  {d : Difference}

theorem Exchanged.symm (h : Exchanged baseline snapshot baseline' snapshot') :
    Exchanged baseline' snapshot' baseline snapshot where
  declares id := (h.reports id).symm
  reports id := (h.declares id).symm
  intended id path := (h.observed id path).symm
  observed id path := (h.intended id path).symm

theorem Differs.mirror (h : Exchanged baseline snapshot baseline' snapshot')
    (hequal : ∀ id, baseline.Declares id ↔ snapshot.Reports id) (hd : Differs equivalence baseline snapshot d) :
    Differs equivalence baseline' snapshot' d.mirror := by
  cases hd with
  | field id path hdeclared hleaves =>
    refine .field id path ((h.declares id).mpr ((hequal id).mp hdeclared)) ?_
    rw [h.intended, h.observed, differenceAt_comm, hleaves, Option.map_some]
  | object id hundeclared hreports => exact absurd ((hequal id).mpr hreports) hundeclared

end Exchange

section Exact
variable {policy : ObservatoryPolicy} {limits : RuntimeLimits} {input input' : TargetComparisonInput}
  {baseline baseline' : IntentBaseline} {primary primary' : EvidenceView} {rest rest' : List EvidenceView} {d : Difference}

theorem Leafwise.mem_drafts_of_observed (h : Leafwise policy input baseline primary rest)
    (hobserved : primary.snapshot.declaresUnobserved d.object = false) :
    d ∈ (compareTarget input policy limits).drafts.map FindingDraft.difference ↔
      Differs policy.numericEquivalence baseline primary.snapshot d ∧ ¬ d.Reserved := by
  rw [h.mem_drafts]
  constructor
  · rintro ⟨d', hd', hkept, rfl⟩
    rw [Difference.object_proved] at hobserved
    rw [Difference.proved_of_observed hobserved]
    exact ⟨hd', hkept⟩
  · rintro ⟨hd, hkept⟩
    exact ⟨d, hd, hkept, (Difference.proved_of_observed hobserved).symm⟩

theorem Leafwise.path_of_leaf (h : Leafwise policy input baseline primary rest) {id : ObjectId} {path : FieldPath}
    {value : Value} (hleaf : baseline.leaf id path = some value) : isReservedPath path = false := by
  obtain ⟨declared, hdeclared⟩ := declares_of_leaf hleaf
  rw [leaf_of_declared hdeclared, Option.map_eq_some_iff] at hleaf
  obtain ⟨field, hfield, -⟩ := hleaf
  exact (h.managed id declared hdeclared path field hfield).2

/-- A tree that can be an intent has no reserved locations of its own. -/
theorem Leafwise.not_reserved (h : Leafwise policy input' baseline' primary' rest')
    (hexchanged : Exchanged baseline primary.snapshot baseline' primary'.snapshot)
    (hequal : ∀ id, baseline.Declares id ↔ primary.snapshot.Reports id)
    (hd : Differs policy.numericEquivalence baseline primary.snapshot d) : ¬ d.Reserved := by
  cases hd with
  | field id path hdeclared hleaves =>
    cases hintended : baseline.leaf id path with
    | some value =>
      rw [hintended] at hleaves
      exact not_reserved_of_differenceAt hleaves
    | none =>
      cases hobserved : primary.snapshot.leaf id path with
      | none =>
        rw [hintended, hobserved] at hleaves
        cases hleaves
      | some value =>
        rw [hintended, hobserved] at hleaves
        cases hleaves
        rintro (⟨-, hreserved⟩ | ⟨hklass, -⟩)
        · have hleaf := (hexchanged.intended id path).trans hobserved
          exact Bool.false_ne_true ((h.path_of_leaf hleaf).symm.trans hreserved)
        · cases hklass
  | object id hundeclared hreports => exact absurd ((hequal id).mpr hreports) hundeclared

theorem Leafwise.mirror_mem (h : Leafwise policy input baseline primary rest)
    (h' : Leafwise policy input' baseline' primary' rest')
    (hexchanged : Exchanged baseline primary.snapshot baseline' primary'.snapshot)
    (hequal : ∀ id, baseline.Declares id ↔ primary.snapshot.Reports id)
    (hobserved : primary.snapshot.declaresUnobserved d.object = false)
    (hobserved' : primary'.snapshot.declaresUnobserved d.object = false)
    (hd : d ∈ (compareTarget input policy limits).drafts.map FindingDraft.difference) :
    d.mirror ∈ (compareTarget input' policy limits).drafts.map FindingDraft.difference := by
  have hequal' : ∀ id, baseline'.Declares id ↔ primary'.snapshot.Reports id := fun id => by
    rw [hexchanged.declares, hexchanged.reports, hequal]
  have hmirror := ((h.mem_drafts_of_observed hobserved).mp hd).1.mirror hexchanged hequal
  exact (h'.mem_drafts_of_observed (d := d.mirror) hobserved').mpr ⟨hmirror, h.not_reserved hexchanged.symm hequal' hmirror⟩

end Exact

/-- Where one source sees everything, the drafts are the difference of the two trees, one for a location: without what the
    source reports at reserved locations, and with an unknown for a field missing from an object that the source lists as
    unobserved. Between trees of the same objects, exchanging the roles mirrors the drafts of observed objects. -/
theorem leaf_classification {policy : ObservatoryPolicy} {limits : RuntimeLimits} {input : TargetComparisonInput}
    {baseline : IntentBaseline} {primary : EvidenceView} {rest : List EvidenceView}
    (h : Leafwise policy input baseline primary rest) :
    ((compareTarget input policy limits).drafts.map FindingDraft.site).Nodup ∧
      (∀ d, d ∈ (compareTarget input policy limits).drafts.map FindingDraft.difference ↔
        ∃ d', Differs policy.numericEquivalence baseline primary.snapshot d' ∧ ¬ d'.Reserved ∧
          d = d'.proved primary.snapshot) ∧
      ∀ input' baseline' primary' rest', Leafwise policy input' baseline' primary' rest' →
        Exchanged baseline primary.snapshot baseline' primary'.snapshot →
        (∀ id, baseline.Declares id ↔ primary.snapshot.Reports id) →
        ∀ d, primary.snapshot.declaresUnobserved d.object = false → primary'.snapshot.declaresUnobserved d.object = false →
          (d ∈ (compareTarget input policy limits).drafts.map FindingDraft.difference ↔
            d.mirror ∈ (compareTarget input' policy limits).drafts.map FindingDraft.difference) := by
  refine ⟨?_, fun d => h.mem_drafts, fun input' baseline' primary' rest' h' hexchanged hequal d hobserved hobserved' => ?_⟩
  · rw [h.drafts_eq]
    exact List.pairwise_map.mpr pairwise_primaryDrafts
  · refine ⟨h.mirror_mem h' hexchanged hequal hobserved hobserved', fun hd => ?_⟩
    have hequal' : ∀ id, baseline'.Declares id ↔ primary'.snapshot.Reports id := fun id => by
      rw [hexchanged.declares, hexchanged.reports, hequal]
    have hback := h'.mirror_mem (d := d.mirror) h hexchanged.symm hequal' hobserved' hobserved hd
    rwa [Difference.mirror_mirror] at hback

namespace Sample

/-- An intent with one field. -/
def intending (value : Int64) : IntentBaseline :=
  baseline { id := object, fields := OrdMap.ofList [(path, { path := path, intended := .makeInt value })] }

/-- A source that reports the object with the fields. -/
def observing (fields : OrdMap FieldPath Value) : ObservationSnapshot :=
  snapshot "a" { id := object, presence := .present, fields := fields }

def solely (value : Int64) (fields : OrdMap FieldPath Value) : TargetComparisonInput :=
  .ofPairs target (some (intending value)) [(some (observing fields), fresh)]

def single (value : Int64) : OrdMap FieldPath Value := OrdMap.ofList [(path, .makeInt value)]

/-- What is intended, with a note of the source. -/
def annotated : OrdMap FieldPath Value := OrdMap.ofList [(path, .makeInt 1), ([.key (ascii "@note")], .makeInt 7)]

theorem findObject_intending {value : Int64} {id : ObjectId} {declared : IntentObject}
    (h : (intending value).findObject id = some declared) :
    id = object ∧ declared =
      { id := object, fields := OrdMap.ofList [(path, { path := path, intended := .makeInt value })] } := by
  rw [IntentBaseline.findObject, intending, baseline, OrdMap.find?_ofList_singleton] at h
  split_ifs at h with hid
  exact ⟨hid.symm, (Option.some.inj h).symm⟩

theorem findObject_observing {fields : OrdMap FieldPath Value} :
    (observing fields).findObject object = some { id := object, presence := .present, fields := fields } :=
  OrdMap.find?_insert_self

theorem reaches_solely {value : Int64} {fields : OrdMap FieldPath Value} :
    Reaches {} (solely value fields) (intending value) (EvidenceView.make {} (observing fields) fresh) [] :=
  ⟨rfl, rfl, rfl, rfl⟩

theorem leafwise_solely {value : Int64} {fields : OrdMap FieldPath Value}
    (hmarker : fields.find? kAppliedGenerationPath = none) :
    Leafwise {} (solely value fields) (intending value) (EvidenceView.make {} (observing fields) fresh) [] where
  toReaches := reaches_solely
  rules := rfl
  required id declared h := by
    obtain ⟨-, rfl⟩ := findObject_intending h
    rfl
  managed id declared h path' field hfield := by
    obtain ⟨-, rfl⟩ := findObject_intending h
    rw [OrdMap.find?_ofList_singleton] at hfield
    split_ifs at hfield with hpath
    obtain rfl := Option.some.inj hfield
    subst hpath
    exact ⟨rfl, rfl⟩
  alone view hview := absurd hview List.not_mem_nil
  complete := rfl
  nested := rfl
  authority := rfl
  reported id declared h := by
    obtain ⟨rfl, rfl⟩ := findObject_intending h
    exact ⟨{ id := object, presence := .present, fields := fields }, findObject_observing, rfl, hmarker⟩

theorem leaf_intending {value : Int64} {id : ObjectId} {path' : FieldPath} : (intending value).leaf id path' =
    if object = id then (single value).find? path' else none := by
  rw [IntentBaseline.leaf, IntentBaseline.findObject, intending, baseline, OrdMap.find?_ofList_singleton]
  split_ifs
  · rw [Option.bind_some, OrdMap.find?_ofList_singleton, single, OrdMap.find?_ofList_singleton]
    split_ifs <;> rfl
  · rfl

theorem leaf_observing {fields : OrdMap FieldPath Value} {id : ObjectId} {path' : FieldPath} :
    (observing fields).leaf id path' = if object = id then fields.find? path' else none := by
  rw [ObservationSnapshot.leaf, ObservationSnapshot.findObject, observing, snapshot, OrdMap.find?_ofList_singleton]
  split_ifs
  · rfl
  · rfl

/-- The object is declared and reported, and no other is. -/
theorem declares_intending {value : Int64} {id : ObjectId} : (intending value).Declares id ↔ object = id := by
  constructor
  · rintro ⟨declared, hdeclared⟩
    exact (findObject_intending hdeclared).1.symm
  · rintro rfl
    exact ⟨_, OrdMap.find?_insert_self⟩

theorem reports_observing {fields : OrdMap FieldPath Value} {id : ObjectId} :
    (observing fields).Reports id ↔ object = id := by
  constructor
  · rintro ⟨observed, hobserved, -⟩
    rw [ObservationSnapshot.findObject, observing, snapshot, OrdMap.find?_ofList_singleton] at hobserved
    split_ifs at hobserved with hid
    exact hid
  · rintro rfl
    exact ⟨_, findObject_observing, rfl⟩

theorem exchanged_single {v w : Int64} :
    Exchanged (intending v) (observing (single w)) (intending w) (observing (single v)) where
  declares _ := declares_intending.trans reports_observing.symm
  reports _ := reports_observing.trans declares_intending.symm
  intended _ _ := leaf_intending.trans leaf_observing.symm
  observed _ _ := leaf_observing.trans leaf_intending.symm

end Sample

/-- A field with another value, from both sides. -/
theorem leaf_classification_single :
    ⟨Sample.object, Sample.path, .valueMismatch, some (.makeInt 1), some (.makeInt 2)⟩ ∈
        (compareTarget (Sample.solely 1 (Sample.single 2)) {} {}).drafts.map FindingDraft.difference ∧
      ⟨Sample.object, Sample.path, .valueMismatch, some (.makeInt 2), some (.makeInt 1)⟩ ∈
        (compareTarget (Sample.solely 2 (Sample.single 1)) {} {}).drafts.map FindingDraft.difference := by
  obtain ⟨-, hdrafts, hmirror⟩ := @leaf_classification {} {} _ _ _ _
    (@Sample.leafwise_solely 1 (Sample.single 2) (by decide))
  have hdifferent : ⟨Sample.object, Sample.path, .valueMismatch, some (.makeInt 1), some (.makeInt 2)⟩ ∈
      (compareTarget (Sample.solely 1 (Sample.single 2)) {} {}).drafts.map FindingDraft.difference := by
    refine (hdrafts _).mpr ⟨_, .field Sample.object Sample.path (Sample.declares_intending.mpr rfl) ?_, ?_,
      (Difference.proved_of_observed rfl).symm⟩
    · rw [Sample.leaf_intending, if_pos rfl]
      refine (congrArg (differenceAt _ _ _ _) (Sample.leaf_observing.trans (if_pos rfl))).trans ?_
      rfl
    · rintro (⟨hklass, -⟩ | ⟨hklass, -⟩)
      · cases hklass
      · cases hklass
  refine ⟨hdifferent, ?_⟩
  exact (hmirror _ _ _ _ (@Sample.leafwise_solely 2 (Sample.single 1) (by decide)) Sample.exchanged_single
    (fun id => Sample.declares_intending.trans Sample.reports_observing.symm) _ rfl rfl).mp hdifferent

/-- A source that reports what is intended and a note of its own: the note is a field the intent does not have. -/
theorem annotation_not_drafted :
    Leafwise {} (Sample.solely 1 Sample.annotated) (Sample.intending 1)
        (EvidenceView.make {} (Sample.observing Sample.annotated) Sample.fresh) [] ∧
      ¬ ∀ d, d ∈ (compareTarget (Sample.solely 1 Sample.annotated) {} {}).drafts.map FindingDraft.difference ↔
        Differs (ObservatoryPolicy.numericEquivalence {}) (Sample.intending 1) (Sample.observing Sample.annotated) d := by
  have h := @Sample.leafwise_solely 1 Sample.annotated (by decide)
  refine ⟨h, fun hexact => ?_⟩
  have hnote : Differs (ObservatoryPolicy.numericEquivalence {}) (Sample.intending 1) (Sample.observing Sample.annotated)
      ⟨Sample.object, [.key (ascii "@note")], .fieldUnexpected, none, some (.makeInt 7)⟩ := by
    refine .field Sample.object [.key (ascii "@note")] (Sample.declares_intending.mpr rfl) ?_
    rw [Sample.leaf_intending, if_pos rfl, Sample.leaf_observing, if_pos rfl]
    rfl
  exact ((h.mem_drafts_of_observed rfl).mp ((hexact _).mpr hnote)).2 (.inl ⟨rfl, by decide⟩)

end DriftObservatory
