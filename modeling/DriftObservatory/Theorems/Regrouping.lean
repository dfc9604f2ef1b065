import DriftObservatory.Theorems.Sources

/-! The generation-regrouping step of the comparator: what it may change of a result, and which divergence it names. -/

namespace DriftObservatory

/-! ### The comparison without the step -/

/-- `compareWithPrimary` without its regrouping step. -/
def compareUngrouped (policy : ObservatoryPolicy) (limits : RuntimeLimits) (target : TargetId)
    (baseline : IntentBaseline) (views : List EvidenceView) (primary : EvidenceView) (e : TargetEvaluation) :
    TargetEvaluation :=
  let e := e.appendTrace (ascii "primary source: " ++ primary.snapshot.source.str)
  let e := e.appendTrace (ascii "baseline generation: " ++ decimal baseline.generation.value.toNat)
  let e := e.appendTraceIf (kMaxConflictSources < views.countP EvidenceView.usable)
    (ascii "cross-source scan bounded; further sources not compared")
  decideCompliance { e with
      drafts := conflictDrafts policy limits target baseline views ++ primaryDrafts policy limits target baseline primary }
    (!policy.requireCompleteCoverageForCompliance || primary.complete)

/-- `compareTarget` without the regrouping step. -/
def compareTargetUngrouped (input : TargetComparisonInput) (policy : ObservatoryPolicy) (limits : RuntimeLimits) :
    TargetEvaluation :=
  compareTargetWith (compareUngrouped policy limits input.target) input policy limits

namespace TargetEvaluation

/-- An evaluation but for its drafts, its trace and the reason of its decision. -/
def outline (e : TargetEvaluation) : TargetEvaluation := { e with drafts := [], trace := [], decisionReason := .none }

@[simp] theorem outline_appendTrace {e : TargetEvaluation} {text : Text} : (e.appendTrace text).outline = e.outline := by
  unfold appendTrace
  split_ifs <;> rfl

@[simp] theorem outline_appendTraceIf {e : TargetEvaluation} {condition : Bool} {text : Text} :
    (e.appendTraceIf condition text).outline = e.outline := by
  cases condition <;> simp [appendTraceIf]

end TargetEvaluation

/-- What the step may make of a draft: of one whose leaf class a diverging generation explains, it replaces the class,
    the reason, the qualifier and the severity, and adds a line to the rationale. -/
def FindingDraft.RegroupedFrom (leaf d : FindingDraft) : Prop :=
  d = leaf ∨ isDeviation leaf.rawClass = true ∧ ∃ klass reason qualifier severity line,
    d = { leaf with
      klass := klass, reason := reason, qualifier := qualifier, severity := severity,
      rationale := leaf.rationale ++ [line] }

section Conservative
variable {policy : ObservatoryPolicy} {limits : RuntimeLimits} {target : TargetId} {baseline : IntentBaseline}
  {views : List EvidenceView} {primary : EvidenceView} {input : TargetComparisonInput} {e : TargetEvaluation}
  {d : FindingDraft}

@[simp] theorem rawClass_attachEvidence (view : EvidenceView) : (attachEvidence limits d view).rawClass = d.rawClass := by
  unfold attachEvidence
  split_ifs <;> rfl

/-- Before the step, every draft has its leaf class. -/
theorem rawClass_of_mem (h : d ∈ conflictDrafts policy limits target baseline views ++
    primaryDrafts policy limits target baseline primary) : d.rawClass = d.klass := by
  rcases List.mem_append.mp h with h | h
  · obtain ⟨lhs, rhs, object, path, observed, intended, what, rfl⟩ := shape_of_mem_conflictScan h
    simp [conflictDraft, makeDraft]
  · obtain ⟨object, path, klass, reason, intended, observed, rationale, -, rfl⟩ := leaf_of_mem_primaryDrafts h
    simp [primaryDraft, makeDraft]

theorem regroupedFrom_regroupDraft {isPartial : Bool} {qualifier : Digest} (h : d.rawClass = d.klass) :
    d.RegroupedFrom (regroupDraft policy isPartial qualifier d) := by
  by_cases hd : isDeviation d.klass = true
  · rw [regroupDraft, if_pos hd]
    exact .inr ⟨h ▸ hd, _, _, _, _, _, rfl⟩
  · rw [regroupDraft, if_neg hd]
    exact .inl rfl

/-- The step changes neither of the flags of a draft that the decision reads. -/
theorem blocks_regroupDraft {isPartial : Bool} {qualifier : Digest} :
    (regroupDraft policy isPartial qualifier d).blocksDecision = d.blocksDecision ∧
      (regroupDraft policy isPartial qualifier d).blocksCompliance = d.blocksCompliance := by
  by_cases hd : isDeviation d.klass = true
  · rw [regroupDraft, if_pos hd]
    simp only [isDeviation, Bool.or_eq_true, beq_iff_eq] at hd
    rcases hd with (hd | hd) | hd <;> cases isPartial <;>
      simp [FindingDraft.blocksCompliance, FindingDraft.blocksDecision, hd, DriftClass.isIndeterminate,
        DriftClass.isActionable]
  · rw [regroupDraft, if_neg hd]
    exact ⟨rfl, rfl⟩

theorem outline_decideCompliance {coverageOk : Bool} {drafts : List FindingDraft} :
    (decideCompliance { e with drafts := drafts } coverageOk).outline =
      { e.outline with
        complianceDecidable := !drafts.any FindingDraft.blocksDecision && coverageOk
        compliant := (!drafts.any FindingDraft.blocksDecision && coverageOk) &&
          !drafts.any FindingDraft.blocksCompliance } := by
  simp only [decideCompliance, TargetEvaluation.outline_appendTrace, TargetEvaluation.outline_appendTraceIf]
  rfl

theorem any_regroupDrafts {scan : GenerationScan} {generation : IntentGeneration} {drafts : List FindingDraft} :
    (regroupDrafts policy scan generation drafts).any FindingDraft.blocksDecision =
        drafts.any FindingDraft.blocksDecision ∧
      (regroupDrafts policy scan generation drafts).any FindingDraft.blocksCompliance =
        drafts.any FindingDraft.blocksCompliance := by
  unfold regroupDrafts
  split
  · exact ⟨rfl, rfl⟩
  · simp only [List.any_map, Function.comp_def, blocks_regroupDraft, and_self]

theorem drafts_compareUngrouped : (compareUngrouped policy limits target baseline views primary e).drafts =
    conflictDrafts policy limits target baseline views ++ primaryDrafts policy limits target baseline primary := by
  simp only [compareUngrouped, decideCompliance, TargetEvaluation.drafts_appendTrace,
    TargetEvaluation.drafts_appendTraceIf]

theorem outline_compareUngrouped : (compareUngrouped policy limits target baseline views primary e).outline =
    (compareWithPrimary policy limits target baseline views primary e).outline := by
  simp only [compareUngrouped, compareWithPrimary, outline_decideCompliance, any_regroupDrafts]
  split <;> simp only [TargetEvaluation.outline_appendTrace, TargetEvaluation.outline_appendTraceIf]

theorem forall₂_comparedDrafts : List.Forall₂ FindingDraft.RegroupedFrom
    (conflictDrafts policy limits target baseline views ++ primaryDrafts policy limits target baseline primary)
    (comparedDrafts policy limits target baseline views primary) := by
  unfold comparedDrafts regroupDrafts
  split
  · exact List.forall₂_same.mpr fun d _ => .inl rfl
  · exact List.forall₂_map_right_iff.mpr
      (List.forall₂_same.mpr fun d hd => regroupedFrom_regroupDraft (rawClass_of_mem hd))

theorem compareTargetUngrouped_of_reaches {rest : List EvidenceView} (h : Reaches policy input baseline primary rest) :
    compareTargetUngrouped input policy limits =
      compareUngrouped policy limits input.target baseline (primary :: rest) primary (considered policy input) := by
  have hany : (primary :: rest).any EvidenceView.usable = true :=
    List.any_eq_true.mpr ⟨primary, List.mem_cons_self, h.usable⟩
  unfold compareTargetUngrouped compareTargetWith considered
  simp only [h.counts, ne_eq, not_true_eq_false, if_false, h.committed, h.views, hany, if_true]

theorem compareTargetUngrouped_of_not (h : ∀ baseline primary rest, ¬ Reaches policy input baseline primary rest) :
    compareTargetUngrouped input policy limits = compareTarget input policy limits := by
  unfold compareTargetUngrouped compareTarget compareTargetWith
  dsimp only
  split_ifs with hlen
  · rfl
  · cases hb : input.baseline with
    | none => rfl
    | some baseline =>
      cases hv : orderedViews policy input with
      | nil => rfl
      | cons primary rest =>
        dsimp only
        split_ifs with hany
        · exact absurd ⟨not_not.mp hlen, hb, hv, usable_head hv hany⟩ (h baseline primary rest)
        · rfl

end Conservative

/-- The regrouping step keeps the number and the order of the drafts, changes no draft beyond its classification, and
    leaves the rest of the evaluation but for the trace and the reason of the decision. -/
theorem regrouping_conservative (input : TargetComparisonInput) (policy : ObservatoryPolicy) (limits : RuntimeLimits) :
    List.Forall₂ FindingDraft.RegroupedFrom (compareTargetUngrouped input policy limits).drafts
        (compareTarget input policy limits).drafts ∧
      (compareTargetUngrouped input policy limits).outline = (compareTarget input policy limits).outline := by
  by_cases hreaches : ∃ baseline primary rest, Reaches policy input baseline primary rest
  · obtain ⟨baseline, primary, rest, h⟩ := hreaches
    rw [compareTargetUngrouped_of_reaches h, h.compareTarget_eq, drafts_compareUngrouped, drafts_compareWithPrimary]
    exact ⟨forall₂_comparedDrafts, outline_compareUngrouped⟩
  · rw [compareTargetUngrouped_of_not fun baseline primary rest h => hreaches ⟨baseline, primary, rest, h⟩]
    exact ⟨List.forall₂_same.mpr fun d _ => .inl rfl, rfl⟩

/-! ### Deviations -/

/-- The primary shows that a managed field of a reported object is absent or has another value. -/
def FieldDeviates (policy : ObservatoryPolicy) (target : TargetId) (primary : EvidenceView) (id : ObjectId)
    (observed : ObservedObject) (path : FieldPath) (field : IntentField) : Prop :=
  isReservedPath path = false ∧ policy.classifyField target id path field.comparability = .managed ∧
    ((observed.fields.find? path = none ∧ primary.fieldVisible id path = true) ∨
      ∃ value, observed.fields.find? path = some value ∧
        relateValues field.intended value policy.numericEquivalence = .different)

/-- The primary shows that a required object is absent, or that a field of it deviates. -/
def ObjectDeviates (policy : ObservatoryPolicy) (target : TargetId) (primary : EvidenceView) (id : ObjectId)
    (declared : IntentObject) : Prop :=
  declared.existence = .required ∧
    ((primary.presenceOf id = .absent ∧ (policy.requireAbsenceAuthority = true → primary.absenceAuthority = true)) ∨
      ∃ observed path field, primary.snapshot.findObject id = some observed ∧ observed.presence = .present ∧
        declared.fields.find? path = some field ∧ FieldDeviates policy target primary id observed path field)

/-- The primary shows that a declared object deviates. -/
def Deviates (policy : ObservatoryPolicy) (target : TargetId) (baseline : IntentBaseline) (primary : EvidenceView) : Prop :=
  ∃ id declared, baseline.findObject id = some declared ∧ ObjectDeviates policy target primary id declared

section Deviations
variable {policy : ObservatoryPolicy} {limits : RuntimeLimits} {target : TargetId} {baseline : IntentBaseline}
  {views : List EvidenceView} {primary : EvidenceView} {id : ObjectId} {declared : IntentObject}
  {observed : ObservedObject} {path : FieldPath}

theorem deviates_declaredFieldDrafts {field : IntentField} :
    (∃ d ∈ declaredFieldDrafts policy limits target baseline primary id observed path field,
      isDeviation d.klass = true) ↔
    FieldDeviates policy target primary id observed path field := by
  unfold declaredFieldDrafts FieldDeviates
  cases hreserved : isReservedPath path with
  | true => simp
  | false =>
    cases hclass : policy.classifyField target id path field.comparability with
    | managed =>
      cases hfound : observed.fields.find? path with
      | none => cases primary.fieldVisible id path <;> simp [isDeviation]
      | some value =>
        cases hrelation : relateValues field.intended value policy.numericEquivalence <;> simp [hrelation, isDeviation]
    | observeOnly => simp
    | unmanaged => simp
    | unobservable => simp [isDeviation]
    | unsupported => simp [isDeviation]

theorem deviates_objectFieldDrafts :
    (∃ d ∈ objectFieldDrafts policy limits target baseline primary id declared observed, isDeviation d.klass = true) ↔
      ∃ path field, declared.fields.find? path = some field ∧
        FieldDeviates policy target primary id observed path field := by
  constructor
  · rintro ⟨d, hd, hdeviates⟩
    rcases List.mem_append.mp hd with hd | hd
    · obtain ⟨⟨path, field⟩, hentry, hd⟩ := List.mem_flatMap.mp hd
      exact ⟨path, field, OrdMap.mem_entries_iff.mp hentry, deviates_declaredFieldDrafts.mp ⟨d, hd, hdeviates⟩⟩
    · obtain ⟨⟨path, value⟩, -, hd⟩ := List.mem_flatMap.mp hd
      unfold undeclaredFieldDrafts at hd
      split_ifs at hd
      · cases hd
      · rw [List.mem_singleton.mp hd, klass_primaryDraft] at hdeviates
        cases hdeviates
  · rintro ⟨path, field, hfield, hrest⟩
    obtain ⟨d, hd, hdeviates⟩ := (@deviates_declaredFieldDrafts policy limits target baseline primary id observed path
      field).mpr hrest
    exact ⟨d, List.mem_append_left _ (List.mem_flatMap.mpr ⟨(path, field), OrdMap.mem_entries_iff.mpr hfield, hd⟩),
      hdeviates⟩

theorem deviates_declaredObjectDrafts :
    (∃ d ∈ declaredObjectDrafts policy limits target baseline primary id declared, isDeviation d.klass = true) ↔
      ObjectDeviates policy target primary id declared := by
  unfold ObjectDeviates
  cases hexistence : declared.existence with
  | forbidden =>
    simp only [declaredObjectDrafts, hexistence]
    cases primary.presenceOf id <;> simp [isDeviation]
  | required =>
    cases hpresence : primary.presenceOf id with
    | present =>
      obtain ⟨reported, hreported, hpresent⟩ := EvidenceView.presenceOf_eq_present.mp hpresence
      simp only [declaredObjectDrafts, hexistence, hpresence, hreported, deviates_objectFieldDrafts, true_and,
        reduceCtorEq, false_and, false_or, Option.some.injEq]
      constructor
      · rintro ⟨path, field, hrest⟩
        exact ⟨reported, path, field, rfl, hpresent, hrest⟩
      · rintro ⟨_, path, field, rfl, -, hrest⟩
        exact ⟨path, field, hrest⟩
    | absent =>
      have hno : ¬ primary.ReportsPresent id := fun hr => by
        rw [EvidenceView.presenceOf_eq_present.mpr hr] at hpresence
        cases hpresence
      have hnone : ¬ ∃ observed path field, primary.snapshot.findObject id = some observed ∧ observed.presence = .present ∧
          declared.fields.find? path = some field ∧ FieldDeviates policy target primary id observed path field := by
        rintro ⟨observed, _, _, hfound, hpresent, _⟩
        exact hno ⟨observed, hfound, hpresent⟩
      simp only [declaredObjectDrafts, hexistence, hpresence, hnone, or_false, true_and]
      cases policy.requireAbsenceAuthority <;> cases primary.absenceAuthority <;> simp [isDeviation]
    | unknown =>
      have hno : ¬ primary.ReportsPresent id := fun hr => by
        rw [EvidenceView.presenceOf_eq_present.mpr hr] at hpresence
        cases hpresence
      simp only [declaredObjectDrafts, hexistence, hpresence, List.mem_singleton, exists_eq_left, klass_primaryDraft,
        true_and, reduceCtorEq, false_and, false_or]
      constructor
      · intro h
        cases h
      · rintro ⟨observed, _, _, hfound, hpresent, _⟩
        exact absurd ⟨observed, hfound, hpresent⟩ hno

/-- Some draft has a class that the step explains exactly when the primary deviates. -/
theorem any_isDeviation : (conflictDrafts policy limits target baseline views ++
    primaryDrafts policy limits target baseline primary).any (fun d => isDeviation d.klass) = true ↔
      Deviates policy target baseline primary := by
  rw [List.any_eq_true]
  constructor
  · rintro ⟨d, hd, hdeviates⟩
    rcases List.mem_append.mp hd with hd | hd
    · rw [klass_of_mem_conflictScan hd] at hdeviates
      cases hdeviates
    · rcases List.mem_append.mp hd with hd | hd
      · obtain ⟨⟨id, declared⟩, hentry, hd⟩ := List.mem_flatMap.mp hd
        exact ⟨id, declared, OrdMap.mem_entries_iff.mp hentry, deviates_declaredObjectDrafts.mp ⟨d, hd, hdeviates⟩⟩
      · obtain ⟨entry, -, hd⟩ := List.mem_flatMap.mp hd
        unfold undeclaredObjectDrafts at hd
        split_ifs at hd
        · cases hd
        · rw [List.mem_singleton.mp hd, klass_primaryDraft] at hdeviates
          cases hdeviates
  · rintro ⟨id, declared, hdeclared, hrest⟩
    obtain ⟨d, hd, hdeviates⟩ := (@deviates_declaredObjectDrafts policy limits target baseline primary id declared).mpr hrest
    refine ⟨d, List.mem_append_right _ (List.mem_append_left _ (List.mem_flatMap.mpr ⟨(id, declared), ?_, hd⟩)), hdeviates⟩
    exact OrdMap.mem_entries_iff.mpr hdeclared

/-! ### The named divergence -/

theorem mem_scanned {generations : List IntentGeneration} {value : UInt64} :
    value ∈ ((generations.map StrongUint.value).insertionSort (· ≤ ·)).dedup ↔ ∃ g ∈ generations, g.value = value := by
  rw [List.mem_dedup, List.mem_insertionSort, List.mem_map]

/-- The last of the scanned generations is none but the committed one exactly when all are. -/
theorem last_scanned {generations : List IntentGeneration} {generation : IntentGeneration}
    (h : ¬ (generation.isSet = true ∧ generation ∈ generations)) :
    (((generations.map StrongUint.value).insertionSort (· ≤ ·)).dedup.getLast?.any (· != generation.value)) = true ↔
      ∃ g ∈ generations, g ≠ generation := by
  generalize hscanned : ((generations.map StrongUint.value).insertionSort (· ≤ ·)).dedup = scanned
  have hmem : ∀ value, value ∈ scanned ↔ ∃ g ∈ generations, g.value = value := fun value => by rw [← hscanned, mem_scanned]
  have hsorted : scanned.Pairwise (· ≤ ·) := by
    rw [← hscanned]
    exact (List.pairwise_insertionSort (· ≤ ·) _).sublist (List.dedup_sublist _)
  constructor
  · intro hany
    cases hlast : scanned.getLast? with
    | none =>
      rw [hlast] at hany
      cases hany
    | some last =>
      rw [hlast, Option.any_some, bne_iff_ne] at hany
      obtain ⟨g, hg, rfl⟩ := (hmem last).mp (List.mem_of_getLast? hlast)
      exact ⟨g, hg, fun heq => hany (by rw [heq])⟩
  · rintro ⟨g, hg, hne⟩
    obtain ⟨front, last, hfront⟩ : ∃ front last, scanned = front ++ [last] :=
      List.eq_nil_or_concat' scanned |>.resolve_left fun hnil => by
        have := (hmem g.value).mpr ⟨g, hg, rfl⟩
        rw [hnil] at this
        cases this
    rw [hfront, List.getLast?_concat, Option.any_some, bne_iff_ne]
    intro heq
    obtain ⟨committed, hcommitted, hvalue⟩ := (hmem last).mp (by rw [hfront]; simp)
    obtain rfl : committed = generation := StrongUint.value_injective (hvalue.trans heq)
    -- The committed generation is unset, so the greatest generation is 0 and the reported one is too.
    have hunset : committed.value = 0 := by
      by_contra hset
      exact h ⟨by simpa [StrongUint.isSet] using hset, hcommitted⟩
    have hle : g.value ≤ last := by
      rw [hfront, List.pairwise_append] at hsorted
      rcases List.mem_append.mp (hfront ▸ (hmem g.value).mpr ⟨g, hg, rfl⟩) with hmem | hmem
      · exact hsorted.2.2 _ hmem last (List.mem_singleton_self _)
      · rw [List.mem_singleton.mp hmem]
    rw [heq, hunset] at hle
    exact hne (StrongUint.value_injective ((UInt64.le_antisymm hle (UInt64.zero_le)).trans hunset.symm))

theorem regrouping_eq {scan : GenerationScan} {generation : IntentGeneration} {drafts : List FindingDraft} :
    (regrouping scan generation drafts = some true ↔
      (scan.anyApplied = true ∧ drafts.any (fun d => isDeviation d.klass) = true) ∧ scan.anyMatchesBaseline = true) ∧
    (regrouping scan generation drafts = some false ↔
      (scan.anyApplied = true ∧ drafts.any (fun d => isDeviation d.klass) = true) ∧ ¬ scan.anyMatchesBaseline = true ∧
        scan.applied.getLast?.any (· != generation.value) = true) := by
  unfold regrouping
  rw [← Bool.and_eq_true]
  split_ifs with hscan hmatch hlast
  · simp [hscan, hmatch]
  · simp only [hscan, hmatch, hlast, and_true, true_and]
    simp
  · simp only [hscan, hmatch, hlast]
    simp
  · simp only [hscan]
    simp

theorem regrouping_scan {generation : IntentGeneration} {drafts : List FindingDraft} :
    (regrouping (scanAppliedGenerations primary baseline.objects generation) generation drafts = some true ↔
      drafts.any (fun d => isDeviation d.klass) = true ∧ generation.isSet = true ∧
        generation ∈ appliedGenerations primary baseline.objects) ∧
    (regrouping (scanAppliedGenerations primary baseline.objects generation) generation drafts = some false ↔
      drafts.any (fun d => isDeviation d.klass) = true ∧
        ¬ (generation.isSet = true ∧ generation ∈ appliedGenerations primary baseline.objects) ∧
        ∃ g ∈ appliedGenerations primary baseline.objects, g ≠ generation) := by
  rw [regrouping_eq.1, regrouping_eq.2]
  unfold scanAppliedGenerations
  generalize appliedGenerations primary baseline.objects = generations
  dsimp only
  have hsome : (!generations.isEmpty) = true ↔ ∃ g, g ∈ generations := by
    cases generations <;> simp
  have hmatch : (generations.any fun g => generation.isSet && g == generation) = true ↔
      generation.isSet = true ∧ generation ∈ generations := by
    simp only [List.any_eq_true, Bool.and_eq_true, beq_iff_eq]
    constructor
    · rintro ⟨g, hg, hset, rfl⟩
      exact ⟨hset, hg⟩
    · rintro ⟨hset, hg⟩
      exact ⟨generation, hg, hset, rfl⟩
  rw [hsome, hmatch]
  constructor
  · constructor
    · rintro ⟨⟨-, hdeviation⟩, hcommitted⟩
      exact ⟨hdeviation, hcommitted⟩
    · rintro ⟨hdeviation, hcommitted⟩
      exact ⟨⟨⟨generation, hcommitted.2⟩, hdeviation⟩, hcommitted⟩
  · constructor
    · rintro ⟨⟨-, hdeviation⟩, hnot, hlast⟩
      exact ⟨hdeviation, hnot, (last_scanned hnot).mp hlast⟩
    · rintro ⟨hdeviation, hnot, g, hg, hne⟩
      exact ⟨⟨⟨g, hg⟩, hdeviation⟩, hnot, (last_scanned hnot).mpr ⟨g, hg, hne⟩⟩

/-- A regrouped result has a draft of the class that the step names. -/
theorem exists_mem_regroupDrafts {scan : GenerationScan} {generation : IntentGeneration} {drafts : List FindingDraft}
    {isPartial : Bool} (h : regrouping scan generation drafts = some isPartial) :
    ∃ d ∈ regroupDrafts policy scan generation drafts,
      d.klass = if isPartial then .partialApplication else .generationMismatch := by
  have hany : drafts.any (fun d => isDeviation d.klass) = true := by
    cases isPartial with
    | true => exact (regrouping_eq.1.mp h).1.2
    | false => exact (regrouping_eq.2.mp h).1.2
  obtain ⟨d, hd, hdeviates⟩ := List.any_eq_true.mp hany
  unfold regroupDrafts
  rw [h]
  refine ⟨_, List.mem_map_of_mem hd, ?_⟩
  rw [regroupDraft, if_pos hdeviates]

theorem mem_regroupDrafts {scan : GenerationScan} {generation : IntentGeneration} {drafts : List FindingDraft}
    {d : FindingDraft} (h : d ∈ regroupDrafts policy scan generation drafts) :
    d ∈ drafts ∨ ∃ isPartial, regrouping scan generation drafts = some isPartial ∧
      d.klass = if isPartial then .partialApplication else .generationMismatch := by
  unfold regroupDrafts at h
  cases hr : regrouping scan generation drafts with
  | none =>
    rw [hr] at h
    exact .inl h
  | some isPartial =>
    rw [hr] at h
    obtain ⟨leaf, hleaf, rfl⟩ := List.mem_map.mp h
    by_cases hd : isDeviation leaf.klass = true
    · rw [regroupDraft, if_pos hd]
      exact .inr ⟨isPartial, rfl, rfl⟩
    · rw [regroupDraft, if_neg hd]
      exact .inl hleaf

/-- Before the step, no draft has one of the two classes of it. -/
theorem klass_ne_of_mem {d : FindingDraft} (h : d ∈ conflictDrafts policy limits target baseline views ++
    primaryDrafts policy limits target baseline primary) :
    d.klass ≠ .partialApplication ∧ d.klass ≠ .generationMismatch := by
  rcases List.mem_append.mp h with h | h
  · rw [klass_of_mem_conflictScan h]
    decide
  · obtain ⟨object, path, klass, reason, intended, observed, rationale, hklass, rfl⟩ := leaf_of_mem_primaryDrafts h
    rw [klass_primaryDraft]
    constructor <;> rintro rfl <;> cases hklass

end Deviations

/-- Every regrouped draft is of the class that the markers call for. -/
structure Classified (markers : List IntentGeneration) (generation : IntentGeneration) (drafts : List FindingDraft) :
    Prop where
  partialApplication : ∀ d ∈ drafts, d.klass = .partialApplication →
    generation ∈ markers ∧ ∃ m ∈ markers, m ≠ generation
  generationMismatch : ∀ d ∈ drafts, d.klass = .generationMismatch →
    markers ≠ [] ∧ ∀ m ∈ markers, m.value < generation.value
  kept : ¬ (generation ∈ markers ∧ ∃ m ∈ markers, m ≠ generation) →
    ¬ (markers ≠ [] ∧ ∀ m ∈ markers, m.value < generation.value) →
    ∀ d ∈ drafts, isDeviation d.rawClass = true → d.klass = d.rawClass

/-- The markers divide as one of the two classes says, or there is nothing to divide. -/
def MarkersDivide (markers : List IntentGeneration) (generation : IntentGeneration) : Prop :=
  (generation.isSet = true ∧ generation ∈ markers ∧ ∃ m ∈ markers, m ≠ generation) ∨
    (∀ m ∈ markers, m.value < generation.value) ∨
    (generation.isSet = false ∧ ∀ m ∈ markers, m = generation)

/-- Where the comparison reaches the step, the step names the divergence that the markers show exactly when nothing
    deviates or the markers divide. -/
theorem generation_classification {policy : ObservatoryPolicy} {limits : RuntimeLimits} {input : TargetComparisonInput}
    {baseline : IntentBaseline} {primary : EvidenceView} {rest : List EvidenceView}
    (h : Reaches policy input baseline primary rest) :
    Classified (appliedGenerations primary baseline.objects) baseline.generation
        (compareTarget input policy limits).drafts ↔
      (Deviates policy input.target baseline primary →
        MarkersDivide (appliedGenerations primary baseline.objects) baseline.generation) := by
  rw [h.compareTarget_eq, drafts_compareWithPrimary]
  obtain ⟨hpart, hmismatch⟩ := @regrouping_scan baseline primary baseline.generation
    (conflictDrafts policy limits input.target baseline (primary :: rest) ++
      primaryDrafts policy limits input.target baseline primary)
  rw [any_isDeviation] at hpart hmismatch
  constructor
  · intro hclassified hdeviates
    by_cases hcommitted : baseline.generation.isSet = true ∧ baseline.generation ∈ appliedGenerations primary baseline.objects
    · obtain ⟨d, hd, hklass⟩ := @exists_mem_regroupDrafts policy _ _ _ _ (hpart.mpr ⟨hdeviates, hcommitted⟩)
      exact .inl ⟨hcommitted.1, hclassified.partialApplication d hd hklass⟩
    · by_cases hother : ∃ g ∈ appliedGenerations primary baseline.objects, g ≠ baseline.generation
      · obtain ⟨d, hd, hklass⟩ := @exists_mem_regroupDrafts policy _ _ _ _ (hmismatch.mpr ⟨hdeviates, hcommitted, hother⟩)
        exact .inr (.inl (hclassified.generationMismatch d hd hklass).2)
      · have hall : ∀ m ∈ appliedGenerations primary baseline.objects, m = baseline.generation := fun m hm =>
          not_not.mp fun hne => hother ⟨m, hm, hne⟩
        by_cases hset : baseline.generation.isSet = true
        · exact .inr (.inl fun m hm => absurd ⟨hset, hall m hm ▸ hm⟩ hcommitted)
        · exact .inr (.inr ⟨Bool.eq_false_iff.mpr hset, hall⟩)
  · intro hdivide
    have hnamed : ∀ d ∈ comparedDrafts policy limits input.target baseline (primary :: rest) primary,
        d ∈ conflictDrafts policy limits input.target baseline (primary :: rest) ++
          primaryDrafts policy limits input.target baseline primary ∨
        (d.klass = .partialApplication ∧ baseline.generation ∈ appliedGenerations primary baseline.objects ∧
          ∃ m ∈ appliedGenerations primary baseline.objects, m ≠ baseline.generation) ∨
        (d.klass = .generationMismatch ∧ appliedGenerations primary baseline.objects ≠ [] ∧
          ∀ m ∈ appliedGenerations primary baseline.objects, m.value < baseline.generation.value) := by
      intro d hd
      rcases mem_regroupDrafts hd with hd | ⟨_ | _, hr, hklass⟩
      · exact .inl hd
      · obtain ⟨hdeviates, hnot, g, hg, hne⟩ := hmismatch.mp hr
        rcases hdivide hdeviates with ⟨hset, hmem, -⟩ | holder | ⟨-, hall⟩
        · exact absurd ⟨hset, hmem⟩ hnot
        · exact .inr (.inr ⟨hklass, List.ne_nil_of_mem hg, holder⟩)
        · exact absurd (hall g hg) hne
      · obtain ⟨hdeviates, hset, hmem⟩ := hpart.mp hr
        rcases hdivide hdeviates with ⟨-, -, hother⟩ | holder | ⟨hunset, -⟩
        · exact .inr (.inl ⟨hklass, hmem, hother⟩)
        · exact absurd (holder _ hmem) (UInt64.lt_irrefl _)
        · rw [hset] at hunset
          cases hunset
    refine ⟨fun d hd hklass => ?_, fun d hd hklass => ?_, fun hnone hnotall d hd _ => ?_⟩
    · rcases hnamed d hd with hleaf | ⟨-, hmarkers⟩ | ⟨hother, -⟩
      · exact absurd hklass (klass_ne_of_mem hleaf).1
      · exact hmarkers
      · cases hother.symm.trans hklass
    · rcases hnamed d hd with hleaf | ⟨hother, -⟩ | ⟨-, hmarkers⟩
      · exact absurd hklass (klass_ne_of_mem hleaf).2
      · cases hother.symm.trans hklass
      · exact hmarkers
    · rcases hnamed d hd with hleaf | ⟨-, hmarkers⟩ | ⟨-, hmarkers⟩
      · exact (rawClass_of_mem hleaf).symm
      · exact absurd hmarkers hnone
      · exact absurd hmarkers hnotall

namespace Sample

/-- A source that reports the field and the generation that is applied. -/
def reporting (value generation : Int64) : ObservationSnapshot :=
  snapshot "a" {
    id := object
    presence := .present
    fields := OrdMap.ofList [(path, .makeInt value), (kAppliedGenerationPath, .makeInt generation)] }

def applied (value generation : Int64) : TargetComparisonInput :=
  .ofPairs target (some declaring) [(some (reporting value generation), fresh)]

theorem reaches_applied (value generation : Int64) : Reaches {} (applied value generation) declaring
    (EvidenceView.make {} (reporting value generation) fresh) [] :=
  ⟨rfl, rfl, rfl, rfl⟩

theorem deviates_applied (generation : Int64) :
    Deviates {} target declaring (EvidenceView.make {} (reporting 2 generation) fresh) :=
  ⟨object, _, rfl, rfl, .inr ⟨_, path, _, rfl, rfl, rfl, rfl, rfl, .inr ⟨_, rfl, by decide⟩⟩⟩

end Sample

/-- No object reports that the committed generation is applied. -/
theorem generation_classification_unapplied :
    Deviates {} Sample.target Sample.declaring (EvidenceView.make {} (Sample.reporting 2 0) Sample.fresh) ∧
      Classified [⟨0⟩] ⟨1⟩ (compareTarget (Sample.applied 2 0) {} {}).drafts :=
  ⟨Sample.deviates_applied 0, (generation_classification (Sample.reaches_applied 2 0)).mpr fun _ =>
    .inr (.inl fun m hm => by rw [List.mem_singleton.mp hm]; decide)⟩

/-- Every object reports that the committed generation is applied, and the value is wrong. -/
theorem classified_applied_false :
    ¬ Classified [⟨1⟩] ⟨1⟩ (compareTarget (Sample.applied 2 1) {} {}).drafts := by
  intro hclassified
  rw [(Sample.reaches_applied 2 1).compareTarget_eq, drafts_compareWithPrimary] at hclassified
  have hmarkers : appliedGenerations (EvidenceView.make {} (Sample.reporting 2 1) Sample.fresh)
      Sample.declaring.objects = [⟨1⟩] := rfl
  have hany := (@any_isDeviation {} {} _ _ [EvidenceView.make {} (Sample.reporting 2 1) Sample.fresh] _).mpr
    (Sample.deviates_applied 1)
  obtain ⟨d, hd, hklass⟩ := exists_mem_regroupDrafts (regrouping_scan.1.mpr
    ⟨hany, rfl, hmarkers ▸ List.mem_singleton_self (⟨1⟩ : IntentGeneration)⟩)
  obtain ⟨-, m, hm, hne⟩ := hclassified.partialApplication d hd hklass
  exact hne (List.mem_singleton.mp hm)

end DriftObservatory
