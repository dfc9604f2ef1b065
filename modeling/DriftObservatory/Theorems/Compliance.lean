import DriftObservatory.Theorems.Conflicts

/-! When the comparator calls a target compliant. The verdict is the absence of drafts, so each branch
    that can draft is characterised by the inputs on which it stays silent; together they say exactly
    which inputs are compliant. -/

namespace DriftObservatory

/-! ### What the inputs say -/

namespace EvidenceView

/-- The view reports the object present. -/
def ReportsPresent (view : EvidenceView) (id : ObjectId) : Prop :=
  ∃ observed, view.snapshot.findObject id = some observed ∧ observed.presence = .present

/-- The view establishes that the object does not exist: it reports it absent, or it covers the whole target,
    does not exempt the object and does not report it. -/
def EstablishesAbsence (view : EvidenceView) (id : ObjectId) : Prop :=
  (∃ observed, view.snapshot.findObject id = some observed ∧ observed.presence = .absent) ∨
    (view.snapshot.findObject id = none ∧ view.snapshot.declaresUnobserved id = false ∧
      view.snapshot.declaresCompleteCoverage = true)

theorem presenceOf_eq_present {view : EvidenceView} {id : ObjectId} :
    view.presenceOf id = .present ↔ view.ReportsPresent id := by
  unfold presenceOf ReportsPresent
  cases view.snapshot.findObject id with
  | some observed => simp
  | none => split_ifs <;> simp

theorem presenceOf_eq_absent {view : EvidenceView} {id : ObjectId}
    (hc : view.complete = view.snapshot.declaresCompleteCoverage) :
    view.presenceOf id = .absent ↔ view.EstablishesAbsence id := by
  unfold presenceOf EstablishesAbsence
  cases view.snapshot.findObject id with
  | some observed => simp
  | none =>
    cases hu : view.snapshot.declaresUnobserved id <;> simp [objectFullyVisible, hu, hc]

/-- Two views say nothing definitely different about an object both report. -/
def Agree (policy : ObservatoryPolicy) (lhs rhs : EvidenceView) : Prop :=
  ∀ id reported other, lhs.snapshot.findObject id = some reported → rhs.snapshot.findObject id = some other →
    (reported.presence ≠ other.presence → reported.presence = .unknown ∨ other.presence = .unknown) ∧
    (reported.presence = other.presence → ∀ path v w, reported.fields.find? path = some v →
      other.fields.find? path = some w → relateValues v w policy.numericEquivalence ≠ .different)

end EvidenceView

/-- The views the conflict scan reads agree pairwise. -/
def Agreement (policy : ObservatoryPolicy) (views : List EvidenceView) : Prop :=
  (views.take kMaxConflictSources).Pairwise fun lhs rhs =>
    lhs.usable = true → rhs.usable = true → EvidenceView.Agree policy lhs rhs

/-- What the primary reports is what the intent declares: required objects exist with their managed values, and
    nothing undeclared is reported outside the reserved names. -/
structure MatchesIntent (policy : ObservatoryPolicy) (target : TargetId) (baseline : IntentBaseline)
    (primary : EvidenceView) : Prop where
  required : ∀ id declared, baseline.findObject id = some declared → declared.existence = .required →
    primary.ReportsPresent id
  managed : ∀ id declared, baseline.findObject id = some declared → declared.existence = .required →
    ∀ path field, declared.fields.find? path = some field → isReservedPath path = false →
      policy.classifyField target id path field.comparability = .managed →
      ∃ observed value, primary.snapshot.findObject id = some observed ∧ observed.fields.find? path = some value ∧
        relateValues field.intended value policy.numericEquivalence = .equal
  undeclaredObject : ∀ id observed, primary.snapshot.findObject id = some observed → isReservedObjectId id = false →
    observed.presence = .present → ∃ declared, baseline.findObject id = some declared
  undeclaredField : ∀ id declared observed, baseline.findObject id = some declared →
    primary.snapshot.findObject id = some observed → observed.presence = .present →
    ∀ path value, observed.fields.find? path = some value → isReservedPath path = false →
      ∃ field, declared.fields.find? path = some field

/-- The comparison has a committed baseline and a usable primary view that covers what the policy asks for. -/
structure Compared (policy : ObservatoryPolicy) (input : TargetComparisonInput) (baseline : IntentBaseline)
    (primary : EvidenceView) : Prop where
  committed : input.baseline = some baseline
  preferred : (orderedViews policy input).head? = some primary
  usable : primary.usable = true
  coverage : policy.requireCompleteCoverageForCompliance = true → primary.snapshot.declaresCompleteCoverage = true

/-- Nothing in the input makes the comparator draft or refuse to decide. -/
structure Unblocked (policy : ObservatoryPolicy) (input : TargetComparisonInput) (baseline : IntentBaseline)
    (primary : EvidenceView) : Prop extends Compared policy input baseline primary,
    MatchesIntent policy input.target baseline primary where
  counts : input.snapshots.length = input.freshness.length
  comparable : ∀ id declared, baseline.findObject id = some declared → declared.existence = .required →
    ∀ path field, declared.fields.find? path = some field → isReservedPath path = false →
      policy.classifyField input.target id path field.comparability ≠ .unobservable ∧
      policy.classifyField input.target id path field.comparability ≠ .unsupported
  forbidden : ∀ id declared, baseline.findObject id = some declared → declared.existence = .forbidden →
    ¬ primary.ReportsPresent id
  agreement : Agreement policy (orderedViews policy input)

/-! ### Every draft blocks compliance -/

/-- A draft that leaves the target undecided or makes it non-compliant. -/
def FindingDraft.Blocks (d : FindingDraft) : Prop := d.blocksDecision = true ∨ d.blocksCompliance = true

theorem FindingDraft.blocks_iff {d : FindingDraft} : d.Blocks ↔ d.klass ≠ .none := by
  unfold Blocks blocksCompliance blocksDecision
  cases d.klass <;> simp [DriftClass.isIndeterminate, DriftClass.isActionable]

section Drafting
variable {policy : ObservatoryPolicy} {limits : RuntimeLimits} {target : TargetId} {baseline : IntentBaseline}
  {primary : EvidenceView} {d : FindingDraft}

@[simp] theorem klass_primaryDraft {object : ObjectId} {path : FieldPath} {klass : DriftClass} {reason : ReasonCode}
    {intended observed : Option Value} {rationale : List Text} :
    (primaryDraft policy limits target baseline primary object path klass reason intended observed rationale).klass =
      klass := by
  simp [primaryDraft, makeDraft]

/-- The draft rests on the primary view and has a class. -/
def Primary (policy : ObservatoryPolicy) (limits : RuntimeLimits) (target : TargetId) (baseline : IntentBaseline)
    (primary : EvidenceView) (d : FindingDraft) : Prop :=
  ∃ object path klass reason intended observed rationale, klass ≠ .none ∧
    d = primaryDraft policy limits target baseline primary object path klass reason intended observed rationale

/-- A class that the comparison with the primary view gives. -/
def DriftClass.isLeaf : DriftClass → Bool
  | missing | unexpected | valueMismatch | fieldMissing | fieldUnexpected | unknown | unsupported => true
  | _ => false

/-- The primary view has at most one draft for the place. -/
def AtMost (policy : ObservatoryPolicy) (limits : RuntimeLimits) (target : TargetId) (baseline : IntentBaseline)
    (primary : EvidenceView) (object : ObjectId) (path : FieldPath) (drafts : List FindingDraft) : Prop :=
  drafts = [] ∨ ∃ klass reason intended observed rationale, klass.isLeaf = true ∧
    drafts = [primaryDraft policy limits target baseline primary object path klass reason intended observed rationale]

section Places
variable {id : ObjectId} {declared : IntentObject} {observed : ObservedObject} {path : FieldPath}

theorem atMost_singleton {klass : DriftClass} {reason : ReasonCode} {intended found : Option Value}
    {rationale : List Text} (h : klass.isLeaf = true) :
    AtMost policy limits target baseline primary id path
      [primaryDraft policy limits target baseline primary id path klass reason intended found rationale] :=
  .inr ⟨klass, reason, intended, found, rationale, h, rfl⟩

theorem atMost_declaredFieldDrafts {field : IntentField} : AtMost policy limits target baseline primary id path
    (declaredFieldDrafts policy limits target baseline primary id observed path field) := by
  unfold declaredFieldDrafts
  dsimp only
  split
  · exact .inl rfl
  · split
    · exact .inl rfl
    · exact .inl rfl
    · exact atMost_singleton rfl
    · exact atMost_singleton rfl
    · split
      · split_ifs
        · exact atMost_singleton rfl
        · exact atMost_singleton rfl
      · split
        · exact .inl rfl
        · exact atMost_singleton rfl
        · exact atMost_singleton rfl

theorem atMost_undeclaredFieldDrafts {value : Value} : AtMost policy limits target baseline primary id path
    (undeclaredFieldDrafts policy limits target baseline primary id declared path value) := by
  unfold undeclaredFieldDrafts
  split_ifs
  · exact .inl rfl
  · exact atMost_singleton rfl

theorem atMost_undeclaredObjectDrafts : AtMost policy limits target baseline primary id []
    (undeclaredObjectDrafts policy limits target baseline primary id observed) := by
  unfold undeclaredObjectDrafts
  split_ifs
  · exact .inl rfl
  · exact atMost_singleton rfl

/-- A declared object is drafted as a whole, or the primary reports it present and its fields are compared. -/
theorem declaredObjectDrafts_cases :
    AtMost policy limits target baseline primary id []
      (declaredObjectDrafts policy limits target baseline primary id declared) ∨
    ∃ observed, primary.snapshot.findObject id = some observed ∧ observed.presence = .present ∧
      declared.existence = .required ∧ declaredObjectDrafts policy limits target baseline primary id declared =
        objectFieldDrafts policy limits target baseline primary id declared observed := by
  cases hexistence : declared.existence <;> cases hpresence : primary.presenceOf id <;>
    simp only [declaredObjectDrafts, hexistence, hpresence]
  case required.present =>
    obtain ⟨observed, hfound, hpresent⟩ := EvidenceView.presenceOf_eq_present.mp hpresence
    rw [hfound]
    exact .inr ⟨observed, rfl, hpresent, trivial, rfl⟩
  case required.absent =>
    split_ifs
    · exact .inl (atMost_singleton rfl)
    · exact .inl (atMost_singleton rfl)
  case required.unknown => exact .inl (atMost_singleton rfl)
  case forbidden.present => exact .inl (atMost_singleton rfl)
  case forbidden.absent => exact .inl (.inl rfl)
  case forbidden.unknown => exact .inl (.inl rfl)

theorem AtMost.of_mem {drafts : List FindingDraft}
    (h : AtMost policy limits target baseline primary id path drafts) (hd : d ∈ drafts) :
    ∃ klass reason intended found rationale, klass.isLeaf = true ∧
      d = primaryDraft policy limits target baseline primary id path klass reason intended found rationale := by
  rcases h with rfl | ⟨klass, reason, intended, found, rationale, hleaf, rfl⟩
  · cases hd
  · exact ⟨klass, reason, intended, found, rationale, hleaf, List.mem_singleton.mp hd⟩

end Places

/-- A draft of the comparison with the primary view rests on that view and has a leaf class. -/
theorem leaf_of_mem_primaryDrafts (h : d ∈ primaryDrafts policy limits target baseline primary) :
    ∃ object path klass reason intended observed rationale, klass.isLeaf = true ∧
      d = primaryDraft policy limits target baseline primary object path klass reason intended observed rationale := by
  rcases List.mem_append.mp h with h | h
  · obtain ⟨⟨id, declared⟩, -, h⟩ := List.mem_flatMap.mp h
    rcases @declaredObjectDrafts_cases policy limits target baseline primary id declared with hone |
      ⟨observed, -, -, -, hfields⟩
    · exact ⟨id, [], hone.of_mem h⟩
    · rw [hfields] at h
      rcases List.mem_append.mp h with h | h
      · obtain ⟨field, -, h⟩ := List.mem_flatMap.mp h
        exact ⟨id, field.1, atMost_declaredFieldDrafts.of_mem h⟩
      · obtain ⟨field, -, h⟩ := List.mem_flatMap.mp h
        exact ⟨id, field.1, atMost_undeclaredFieldDrafts.of_mem h⟩
  · obtain ⟨entry, -, h⟩ := List.mem_flatMap.mp h
    exact ⟨entry.1, [], atMost_undeclaredObjectDrafts.of_mem h⟩

theorem shape_of_mem_primaryDrafts (h : d ∈ primaryDrafts policy limits target baseline primary) :
    Primary policy limits target baseline primary d := by
  obtain ⟨object, path, klass, reason, intended, observed, rationale, hleaf, rfl⟩ := leaf_of_mem_primaryDrafts h
  exact ⟨object, path, klass, reason, intended, observed, rationale, fun hnone => by simp [hnone, DriftClass.isLeaf] at hleaf,
    rfl⟩

theorem klass_ne_none_of_mem_primaryDrafts (h : d ∈ primaryDrafts policy limits target baseline primary) :
    d.klass ≠ .none := by
  obtain ⟨object, path, klass, reason, intended, observed, rationale, hklass, rfl⟩ := shape_of_mem_primaryDrafts h
  rw [klass_primaryDraft]
  exact hklass

theorem klass_regroupDraft_eq_none {isPartial : Bool} {qualifier : Digest} :
    (regroupDraft policy isPartial qualifier d).klass = .none ↔ d.klass = .none := by
  unfold regroupDraft
  by_cases hd : isDeviation d.klass = true
  · have hne : d.klass ≠ .none := fun h => by simp [h, isDeviation] at hd
    cases isPartial <;> simp [hd, hne]
  · simp [hd]

/-! ### Where the comparator stays silent -/

/-- Views agree when they contradict each other nowhere. -/
theorem agree_iff {lhs rhs : EvidenceView} :
    EvidenceView.Agree policy lhs rhs ↔ ∀ spot, ¬ EvidenceView.Contradicts policy lhs rhs spot := by
  constructor
  · rintro h spot ⟨-, reported, other, hreported, hother, hcontradicts⟩
    obtain ⟨hdiffer, hsame⟩ := h spot.1 reported other hreported hother
    rcases hcontradicts with ⟨hne, hknown, hknown', -⟩ | ⟨heq, v, w, hv, hw, hdifferent⟩
    · exact (hdiffer hne).elim hknown hknown'
    · exact hsame heq spot.2.1 v w hv hw hdifferent
  · intro h id reported other hreported hother
    refine ⟨fun hne => ?_, fun heq path v w hv hw hdifferent => ?_⟩
    · by_contra hknown
      rw [not_or] at hknown
      exact h (id, [], _) ⟨rfl, reported, other, hreported, hother, .inl ⟨hne, hknown.1, hknown.2, rfl⟩⟩
    · exact h (id, path, _) ⟨rfl, reported, other, hreported, hother, .inr ⟨heq, v, w, hv, hw, hdifferent⟩⟩

theorem conflictScan_eq_nil {views : List EvidenceView} :
    conflictScan policy limits target baseline views = [] ↔
      views.Pairwise fun lhs rhs => lhs.usable = true → rhs.usable = true → EvidenceView.Agree policy lhs rhs := by
  have hnil : conflictScan policy limits target baseline views = [] ↔
      ∀ spot, ∀ d ∈ conflictScan policy limits target baseline views, d.spot ≠ spot := by
    rw [List.eq_nil_iff_forall_not_mem]
    exact ⟨fun h _ d hd => absurd hd (h d), fun h d hd => h d.spot d hd rfl⟩
  constructor
  · intro h
    refine List.pairwise_iff_forall_sublist.mpr fun hsub hl hr => agree_iff.mpr fun spot => ?_
    exact List.pairwise_iff_forall_sublist.mp (forall_mem_conflictScan.mp (hnil.mp h spot)) hsub hl hr
  · intro h
    refine hnil.mpr fun spot => forall_mem_conflictScan.mpr ?_
    exact h.imp fun hagree hl hr => agree_iff.mp (hagree hl hr) spot

section Fields
variable {id : ObjectId} {declared : IntentObject} {observed : ObservedObject} {path : FieldPath}

theorem declaredFieldDrafts_eq_nil {field : IntentField} :
    declaredFieldDrafts policy limits target baseline primary id observed path field = [] ↔
      (isReservedPath path = false →
        policy.classifyField target id path field.comparability ≠ .unobservable ∧
        policy.classifyField target id path field.comparability ≠ .unsupported ∧
        (policy.classifyField target id path field.comparability = .managed →
          ∃ value, observed.fields.find? path = some value ∧
            relateValues field.intended value policy.numericEquivalence = .equal)) := by
  unfold declaredFieldDrafts
  cases hres : isReservedPath path with
  | true => simp
  | false =>
    cases hcl : policy.classifyField target id path field.comparability with
    | managed =>
      cases hf : observed.fields.find? path with
      | none => cases primary.fieldVisible id path <;> simp
      | some value => cases hrel : relateValues field.intended value policy.numericEquivalence <;> simp [hrel]
    | observeOnly => simp
    | unmanaged => simp
    | unobservable => simp
    | unsupported => simp

theorem undeclaredFieldDrafts_eq_nil {value : Value} :
    undeclaredFieldDrafts policy limits target baseline primary id declared path value = [] ↔
      (isReservedPath path = false → ∃ field, declared.fields.find? path = some field) := by
  rw [← OrdMap.contains_iff]
  unfold undeclaredFieldDrafts
  cases isReservedPath path <;> cases declared.fields.contains path <;> simp

theorem objectFieldDrafts_eq_nil :
    objectFieldDrafts policy limits target baseline primary id declared observed = [] ↔
      (∀ path field, declared.fields.find? path = some field → isReservedPath path = false →
        policy.classifyField target id path field.comparability ≠ .unobservable ∧
        policy.classifyField target id path field.comparability ≠ .unsupported ∧
        (policy.classifyField target id path field.comparability = .managed →
          ∃ value, observed.fields.find? path = some value ∧
            relateValues field.intended value policy.numericEquivalence = .equal)) ∧
      (∀ path value, observed.fields.find? path = some value → isReservedPath path = false →
        ∃ field, declared.fields.find? path = some field) := by
  simp only [objectFieldDrafts, List.append_eq_nil_iff, List.flatMap_eq_nil_iff, Prod.forall,
    OrdMap.mem_entries_iff, declaredFieldDrafts_eq_nil, undeclaredFieldDrafts_eq_nil]

theorem declaredObjectDrafts_eq_nil_of_required (h : declared.existence = .required) :
    declaredObjectDrafts policy limits target baseline primary id declared = [] ↔
      ∃ observed, primary.snapshot.findObject id = some observed ∧ observed.presence = .present ∧
        objectFieldDrafts policy limits target baseline primary id declared observed = [] := by
  unfold declaredObjectDrafts
  rw [h]
  cases hp : primary.presenceOf id with
  | present =>
    obtain ⟨observed, ho, hpres⟩ := EvidenceView.presenceOf_eq_present.mp hp
    simp [ho, hpres]
  | absent =>
    have hno : ¬ primary.ReportsPresent id := fun hr => by
      rw [EvidenceView.presenceOf_eq_present.mpr hr] at hp
      cases hp
    constructor
    · intro hnil
      split_ifs at hnil
    · rintro ⟨observed, ho, hpres, -⟩
      exact absurd ⟨observed, ho, hpres⟩ hno
  | unknown =>
    have hno : ¬ primary.ReportsPresent id := fun hr => by
      rw [EvidenceView.presenceOf_eq_present.mpr hr] at hp
      cases hp
    constructor
    · intro hnil
      cases hnil
    · rintro ⟨observed, ho, hpres, -⟩
      exact absurd ⟨observed, ho, hpres⟩ hno

theorem declaredObjectDrafts_eq_nil_of_forbidden (h : declared.existence = .forbidden) :
    declaredObjectDrafts policy limits target baseline primary id declared = [] ↔ ¬ primary.ReportsPresent id := by
  rw [← EvidenceView.presenceOf_eq_present]
  unfold declaredObjectDrafts
  rw [h]
  cases primary.presenceOf id <;> simp

theorem undeclaredObjectDrafts_eq_nil :
    undeclaredObjectDrafts policy limits target baseline primary id observed = [] ↔
      (isReservedObjectId id = false → observed.presence = .present →
        ∃ declared, baseline.findObject id = some declared) := by
  unfold IntentBaseline.findObject
  rw [← OrdMap.contains_iff]
  unfold undeclaredObjectDrafts
  cases isReservedObjectId id <;> cases baseline.objects.contains id <;> cases observed.presence <;> simp

end Fields

/-- The comparison with the primary drafts nothing exactly when the primary matches the intent, every field can be
    compared and no forbidden object is reported present. -/
theorem primaryDrafts_eq_nil :
    primaryDrafts policy limits target baseline primary = [] ↔
      MatchesIntent policy target baseline primary ∧
      (∀ id declared, baseline.findObject id = some declared → declared.existence = .required →
        ∀ path field, declared.fields.find? path = some field → isReservedPath path = false →
          policy.classifyField target id path field.comparability ≠ .unobservable ∧
          policy.classifyField target id path field.comparability ≠ .unsupported) ∧
      (∀ id declared, baseline.findObject id = some declared → declared.existence = .forbidden →
        ¬ primary.ReportsPresent id) := by
  simp only [primaryDrafts, List.append_eq_nil_iff, List.flatMap_eq_nil_iff, Prod.forall, OrdMap.mem_entries_iff,
    undeclaredObjectDrafts_eq_nil]
  constructor
  · rintro ⟨hdecl, hundecl⟩
    have hreq : ∀ id declared, baseline.findObject id = some declared → declared.existence = .required →
        ∃ observed, primary.snapshot.findObject id = some observed ∧ observed.presence = .present ∧
          objectFieldDrafts policy limits target baseline primary id declared observed = [] :=
      fun id declared hd he => (declaredObjectDrafts_eq_nil_of_required he).mp (hdecl id declared hd)
    have hforb : ∀ id declared, baseline.findObject id = some declared → declared.existence = .forbidden →
        ¬ primary.ReportsPresent id :=
      fun id declared hd he => (declaredObjectDrafts_eq_nil_of_forbidden he).mp (hdecl id declared hd)
    refine ⟨⟨?_, ?_, hundecl, ?_⟩, ?_, hforb⟩
    · intro id declared hd he
      obtain ⟨observed, ho, hp, -⟩ := hreq id declared hd he
      exact ⟨observed, ho, hp⟩
    · intro id declared hd he path field hf hr hm
      obtain ⟨observed, ho, -, hnil⟩ := hreq id declared hd he
      obtain ⟨value, hv, hrel⟩ := ((objectFieldDrafts_eq_nil.mp hnil).1 path field hf hr).2.2 hm
      exact ⟨observed, value, ho, hv, hrel⟩
    · intro id declared observed hd ho hp path value hv hr
      cases he : declared.existence with
      | forbidden => exact absurd ⟨observed, ho, hp⟩ (hforb id declared hd he)
      | required =>
        obtain ⟨observed', ho', -, hnil⟩ := hreq id declared hd he
        obtain rfl : observed = observed' := Option.some.inj (ho.symm.trans ho')
        exact (objectFieldDrafts_eq_nil.mp hnil).2 path value hv hr
    · intro id declared hd he path field hf hr
      obtain ⟨observed, -, -, hnil⟩ := hreq id declared hd he
      have hcl := (objectFieldDrafts_eq_nil.mp hnil).1 path field hf hr
      exact ⟨hcl.1, hcl.2.1⟩
  · rintro ⟨hmatch, hcomp, hforb⟩
    refine ⟨fun id declared hd => ?_, hmatch.undeclaredObject⟩
    cases he : declared.existence with
    | forbidden => exact (declaredObjectDrafts_eq_nil_of_forbidden he).mpr (hforb id declared hd he)
    | required =>
      obtain ⟨observed, ho, hp⟩ := hmatch.required id declared hd he
      refine (declaredObjectDrafts_eq_nil_of_required he).mpr ⟨observed, ho, hp, objectFieldDrafts_eq_nil.mpr ⟨?_, ?_⟩⟩
      · intro path field hf hr
        refine ⟨(hcomp id declared hd he path field hf hr).1, (hcomp id declared hd he path field hf hr).2, fun hm => ?_⟩
        obtain ⟨observed', value, ho', hv, hrel⟩ := hmatch.managed id declared hd he path field hf hr hm
        obtain rfl : observed = observed' := Option.some.inj (ho.symm.trans ho')
        exact ⟨value, hv, hrel⟩
      · intro path value hv hr
        exact hmatch.undeclaredField id declared observed hd ho hp path value hv hr

theorem klass_ne_none_of_mem_drafts {views : List EvidenceView}
    (h : d ∈ conflictDrafts policy limits target baseline views ++ primaryDrafts policy limits target baseline primary) :
    d.klass ≠ .none := by
  rcases List.mem_append.mp h with h | h
  · rw [klass_of_mem_conflictScan h]
    simp
  · exact klass_ne_none_of_mem_primaryDrafts h

theorem regroupDrafts_eq_nil {scan : GenerationScan} {generation : IntentGeneration} {drafts : List FindingDraft} :
    regroupDrafts policy scan generation drafts = [] ↔ drafts = [] := by
  unfold regroupDrafts
  split <;> simp

theorem klass_ne_none_of_mem_regroupDrafts {scan : GenerationScan} {generation : IntentGeneration}
    {drafts : List FindingDraft} (hall : ∀ d ∈ drafts, d.klass ≠ .none)
    (h : d ∈ regroupDrafts policy scan generation drafts) : d.klass ≠ .none := by
  unfold regroupDrafts at h
  split at h
  · exact hall d h
  · obtain ⟨d', hd', rfl⟩ := List.mem_map.mp h
    exact fun hn => hall d' hd' (klass_regroupDraft_eq_none.mp hn)

end Drafting

/-! ### The verdict -/

namespace TargetEvaluation
variable {e : TargetEvaluation} {text : Text} {condition : Bool}

@[simp] theorem compliant_appendTrace : (e.appendTrace text).compliant = e.compliant := by
  unfold appendTrace
  split_ifs <;> rfl

@[simp] theorem complianceDecidable_appendTrace :
    (e.appendTrace text).complianceDecidable = e.complianceDecidable := by
  unfold appendTrace
  split_ifs <;> rfl

@[simp] theorem drafts_appendTrace : (e.appendTrace text).drafts = e.drafts := by
  unfold appendTrace
  split_ifs <;> rfl

@[simp] theorem compliant_appendTraceIf : (e.appendTraceIf condition text).compliant = e.compliant := by
  cases condition <;> simp [appendTraceIf]

@[simp] theorem complianceDecidable_appendTraceIf :
    (e.appendTraceIf condition text).complianceDecidable = e.complianceDecidable := by
  cases condition <;> simp [appendTraceIf]

@[simp] theorem drafts_appendTraceIf : (e.appendTraceIf condition text).drafts = e.drafts := by
  cases condition <;> simp [appendTraceIf]

end TargetEvaluation

theorem compliant_decideCompliance {e : TargetEvaluation} {coverageOk : Bool}
    (hall : ∀ d ∈ e.drafts, d.klass ≠ .none) :
    (decideCompliance e coverageOk).compliant = true ↔ coverageOk = true ∧ e.drafts = [] := by
  have hdrafts : e.drafts = [] ↔ ∀ d ∈ e.drafts, d.blocksDecision = false ∧ d.blocksCompliance = false := by
    refine ⟨fun h d hd => absurd (h ▸ hd) List.not_mem_nil, fun h => ?_⟩
    by_contra hne
    obtain ⟨d, hd⟩ := List.exists_mem_of_ne_nil _ hne
    rcases FindingDraft.blocks_iff.mpr (hall d hd) with hb | hb
    · rw [(h d hd).1] at hb
      cases hb
    · rw [(h d hd).2] at hb
      cases hb
  rw [hdrafts]
  simp only [decideCompliance, TargetEvaluation.compliant_appendTrace, TargetEvaluation.compliant_appendTraceIf,
    Bool.and_eq_true, Bool.not_eq_true', List.any_eq_false, Bool.not_eq_true]
  constructor
  · rintro ⟨⟨hdec, hcov⟩, hcomp⟩
    exact ⟨hcov, fun d hd => ⟨hdec d hd, hcomp d hd⟩⟩
  · rintro ⟨hcov, h⟩
    exact ⟨⟨fun d hd => (h d hd).1, hcov⟩, fun d hd => (h d hd).2⟩

theorem compliant_compareWithPrimary {policy : ObservatoryPolicy} {limits : RuntimeLimits} {target : TargetId}
    {baseline : IntentBaseline} {views : List EvidenceView} {primary : EvidenceView} {e : TargetEvaluation} :
    (compareWithPrimary policy limits target baseline views primary e).compliant = true ↔
      (policy.requireCompleteCoverageForCompliance = true → primary.complete = true) ∧
      Agreement policy views ∧ primaryDrafts policy limits target baseline primary = [] := by
  unfold compareWithPrimary
  rw [compliant_decideCompliance fun d hd =>
      klass_ne_none_of_mem_regroupDrafts (fun d hd => klass_ne_none_of_mem_drafts hd) hd]
  have hcov : (!policy.requireCompleteCoverageForCompliance || primary.complete) = true ↔
      (policy.requireCompleteCoverageForCompliance = true → primary.complete = true) := by
    cases policy.requireCompleteCoverageForCompliance <;> simp
  rw [hcov, regroupDrafts_eq_nil, List.append_eq_nil_iff]
  exact and_congr_right fun _ => and_congr_left fun _ => conflictScan_eq_nil

section Verdict
variable {policy : ObservatoryPolicy} {limits : RuntimeLimits} {input : TargetComparisonInput}

theorem not_compliant_noIntent {target : TargetId} {views : List EvidenceView} {e : TargetEvaluation} :
    (noIntentEvaluation policy limits target views e).compliant = false := rfl

theorem not_compliant_noEvidence {target : TargetId} {baseline : IntentBaseline} {views : List EvidenceView}
    {e : TargetEvaluation} : (noEvidenceEvaluation policy limits target baseline views e).compliant = false := by
  simp [noEvidenceEvaluation]

/-- A target is called compliant exactly when nothing in the input blocks it. -/
theorem compliant_iff_unblocked :
    (compareTarget input policy limits).compliant = true ↔
      ∃ baseline primary, Unblocked policy input baseline primary := by
  unfold compareTarget compareTargetWith
  by_cases hlen : input.snapshots.length = input.freshness.length
  · simp only [hlen, ne_eq, not_true_eq_false, if_false]
    cases hb : input.baseline with
    | none =>
      simp only [not_compliant_noIntent, Bool.false_eq_true, false_iff]
      rintro ⟨baseline, primary, hu⟩
      rw [hu.committed] at hb
      cases hb
    | some baseline =>
      cases hv : orderedViews policy input with
      | nil =>
        simp only [not_compliant_noEvidence, Bool.false_eq_true, false_iff]
        rintro ⟨baseline', primary, hu⟩
        have hp := hu.preferred
        rw [hv] at hp
        cases hp
      | cons primary rest =>
        by_cases hany : (primary :: rest).any EvidenceView.usable = true
        · have hcomplete : primary.complete = primary.snapshot.declaresCompleteCoverage :=
            complete_of_mem_orderedViews (hv ▸ List.mem_cons_self)
          simp only [hany, if_true, compliant_compareWithPrimary, primaryDrafts_eq_nil, hcomplete]
          constructor
          · rintro ⟨hcov, hagree, hmatch, hcomp, hforb⟩
            exact ⟨baseline, primary, {
              committed := hb
              preferred := congrArg List.head? hv
              usable := usable_head hv hany
              coverage := hcov
              toMatchesIntent := hmatch
              counts := hlen
              comparable := hcomp
              forbidden := hforb
              agreement := by
                rw [hv]
                exact hagree }⟩
          · rintro ⟨baseline', primary', hu⟩
            obtain rfl : baseline = baseline' := Option.some.inj (hb.symm.trans hu.committed)
            have hp := hu.preferred
            rw [hv] at hp
            obtain rfl : primary = primary' := Option.some.inj hp
            have hagree := hu.agreement
            rw [hv] at hagree
            exact ⟨hu.coverage, hagree, hu.toMatchesIntent, hu.comparable, hu.forbidden⟩
        · simp only [hany, not_compliant_noEvidence, Bool.false_eq_true, if_false, false_iff]
          rintro ⟨baseline', primary', hu⟩
          have hp := hu.preferred
          rw [hv] at hp
          obtain rfl : primary = primary' := Option.some.inj hp
          exact hany (List.any_eq_true.mpr ⟨primary, List.mem_cons_self, hu.usable⟩)
  · simp only [hlen, ne_eq, not_false_eq_true, if_true, TargetEvaluation.compliant_appendTrace, Bool.false_eq_true,
      false_iff]
    rintro ⟨baseline, primary, hu⟩
    exact hlen hu.counts

end Verdict

end DriftObservatory
