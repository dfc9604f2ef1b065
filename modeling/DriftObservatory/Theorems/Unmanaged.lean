import DriftObservatory.Finding
import DriftObservatory.Theorems.Metadata
import DriftObservatory.Theorems.Regrouping

/-! Fields that are reported for context only: what their values change in a comparison. -/

namespace DriftObservatory

/-- How a location takes part in the comparison: as the intent declares it, else as managed, narrowed by policy. -/
def comparabilityAt (policy : ObservatoryPolicy) (input : TargetComparisonInput) (id : ObjectId) (path : FieldPath) :
    FieldComparability :=
  policy.classifyField input.target id path
    (((input.baseline.bind fun baseline => baseline.findObject id).bind fun declared => declared.fields.find? path).elim
      .managed IntentField.comparability)

/-- Snapshots with other values at one location, for each source its own. -/
def valued (id : ObjectId) (path : FieldPath) (value : SourceId → Value) :
    SourceId → ObjectId → ObservedObject → ObservedObject := fun source object o =>
  if object = id then { o with fields := o.fields.modify path fun _ => value source } else o

/-- Snapshots that tell which fields are reported at the location, but no values. -/
def masked (id : ObjectId) (path : FieldPath) : SourceId → ObjectId → ObservedObject → ObservedObject :=
  valued id path fun _ => default

def TargetEvaluation.identities (e : TargetEvaluation) : Set FindingIdentity := {i | ∃ d ∈ e.drafts, d.identity = i}

/-- Two comparisons with one decision and one set of draft identities. -/
structure TargetEvaluation.Steady (e e' : TargetEvaluation) : Prop where
  decidable : e'.complianceDecidable = e.complianceDecidable
  compliant : e'.compliant = e.compliant
  identities : e'.identities = e.identities

namespace TargetEvaluation
variable {e e' e'' : TargetEvaluation}

theorem Steady.symm (h : e.Steady e') : e'.Steady e := ⟨h.decidable.symm, h.compliant.symm, h.identities.symm⟩

theorem Steady.trans (h : e.Steady e') (h' : e'.Steady e'') : e.Steady e'' :=
  ⟨h'.decidable.trans h.decidable, h'.compliant.trans h.compliant, h'.identities.trans h.identities⟩

theorem identities_congr (h : e'.drafts.map FindingDraft.identity = e.drafts.map FindingDraft.identity) :
    e'.identities = e.identities := by
  have hmem : ∀ e : TargetEvaluation, e.identities = {i | i ∈ e.drafts.map FindingDraft.identity} := fun e =>
    Set.ext fun i => List.mem_map.symm
  rw [hmem, hmem, h]

theorem Unmoved.steady (h : e.Unmoved e') : e.Steady e' := by
  refine ⟨h.decidable, h.compliant, identities_congr ?_⟩
  have hidentity : ∀ ds : List FindingDraft, ds.map FindingDraft.identity =
      (ds.map FindingDraft.blind).map FindingDraft.identity := fun ds => by
    rw [List.map_map]
    rfl
  rw [hidentity, h.drafts, ← hidentity]

/-- Conflicts are told by the identities. -/
theorem Steady.conflicts (h : e.Steady e') {spot : ObjectId × FieldPath × Digest}
    (hd : ∃ d ∈ e'.drafts, d.klass = .sourceConflict ∧ d.spot = spot) :
    ∃ d ∈ e.drafts, d.klass = .sourceConflict ∧ d.spot = spot := by
  obtain ⟨d, hd, hklass, hspot⟩ := hd
  have hmem : d.identity ∈ e.identities := h.identities ▸ ⟨d, hd, rfl⟩
  obtain ⟨d', hd', hidentity⟩ := hmem
  refine ⟨d', hd', ?_, ?_⟩
  · rw [← hklass]
    exact congrArg FindingIdentity.klass hidentity
  · rw [← hspot]
    exact congrArg (fun i : FindingIdentity => (i.object, i.path, i.qualifier)) hidentity

end TargetEvaluation

/-! ### What identities see of the drafts -/

section Seen
variable {policy : ObservatoryPolicy} {limits : RuntimeLimits} {target : TargetId} {baseline : IntentBaseline}
  {primary lhs rhs : EvidenceView} {id : ObjectId} {path : FieldPath} {d d' : FindingDraft} {e e' : TargetEvaluation}

theorem identity_regroupDraft {isPartial : Bool} {qualifier : Digest} (h : d.identity = d'.identity) :
    (regroupDraft policy isPartial qualifier d).identity = (regroupDraft policy isPartial qualifier d').identity := by
  have hidentity : ∀ d : FindingDraft, (regroupDraft policy isPartial qualifier d).identity =
      if isDeviation d.identity.klass then
        { d.identity with
          klass := if isPartial then .partialApplication else .generationMismatch, qualifier := qualifier }
      else d.identity := by
    intro d
    have hklass : d.identity.klass = d.klass := rfl
    by_cases hd : isDeviation d.klass = true
    · rw [regroupDraft, hklass, if_pos hd, if_pos hd]
      rfl
    · rw [regroupDraft, hklass, if_neg hd, if_neg hd]
  rw [hidentity, hidentity, h]

theorem seen_identity : FindingDraft.Seen FindingDraft.identity where
  klass _ _ h := congrArg FindingIdentity.klass h
  regroupDraft _ _ _ _ _ h := identity_regroupDraft h

@[simp] theorem identity_attachEvidence {view : EvidenceView} : (attachEvidence limits d view).identity = d.identity := by
  unfold attachEvidence
  split_ifs <;> rfl

theorem identity_primaryDraft {klass : DriftClass} {reason : ReasonCode} {intended found : Option Value}
    {rationale : List Text} :
    (primaryDraft policy limits target baseline primary id path klass reason intended found rationale).identity =
      (makeDraft policy target baseline id path klass).identity :=
  identity_attachEvidence

theorem identity_conflictDraft {found intended : Value} {what : Text} :
    (conflictDraft policy limits target baseline lhs rhs id path found intended what).identity =
      { (makeDraft policy target baseline id path .sourceConflict).identity with
        qualifier := conflictQualifier lhs.snapshot.source rhs.snapshot.source } := by
  rw [conflictDraft, identity_attachEvidence, identity_attachEvidence]
  rfl

theorem any_identity {p : FindingDraft → Bool} {q : FindingIdentity → Bool} (hp : ∀ d, p d = q d.identity)
    {ds ds' : List FindingDraft} (h : ds'.map FindingDraft.identity = ds.map FindingDraft.identity) :
    ds'.any p = ds.any p := by
  have hany : ∀ ds : List FindingDraft, ds.any p = (ds.map FindingDraft.identity).any q := fun ds => by
    rw [List.any_map]
    exact congrArg ds.any (funext hp)
  rw [hany, hany, h]

/-- The decision needs no more of the drafts than their identities. -/
theorem steady_decideCompliance {coverageOk : Bool}
    (h : e'.drafts.map FindingDraft.identity = e.drafts.map FindingDraft.identity) :
    (decideCompliance e coverageOk).Steady (decideCompliance e' coverageOk) := by
  have hdecision := @any_identity FindingDraft.blocksDecision
    (fun i => i.klass.isIndeterminate || i.klass == .unsupported) (fun _ => rfl) _ _ h
  have hcompliance := @any_identity FindingDraft.blocksCompliance
    (fun i => !(i.klass.isIndeterminate || i.klass == .unsupported) && (i.klass.isActionable || i.klass == .intentMissing))
    (fun _ => rfl) _ _ h
  refine ⟨?_, ?_, TargetEvaluation.identities_congr ?_⟩ <;>
    simp only [decideCompliance, TargetEvaluation.complianceDecidable_appendTrace, TargetEvaluation.compliant_appendTrace,
      TargetEvaluation.complianceDecidable_appendTraceIf, TargetEvaluation.compliant_appendTraceIf,
      TargetEvaluation.drafts_appendTrace, TargetEvaluation.drafts_appendTraceIf, hdecision, hcompliance, h]

end Seen

/-! ### Values at one location -/

section Valued
variable {policy : ObservatoryPolicy} {limits : RuntimeLimits} {target : TargetId} {baseline : IntentBaseline}
  {primary lhs rhs : EvidenceView} {id object : ObjectId} {path path' : FieldPath} {value value' : SourceId → Value}
  {source : SourceId} {o : ObservedObject} {views : List EvidenceView} {declared : IntentObject}

theorem presence_valued : (valued id path value source object o).presence = o.presence := by
  unfold valued
  split_ifs <;> rfl

theorem find?_valued : (valued id path value source object o).fields.find? path' =
    if object = id ∧ path' = path then (o.fields.find? path').map fun _ => value source else o.fields.find? path' := by
  unfold valued
  by_cases hobject : object = id
  · rw [if_pos hobject, OrdMap.find?_modify]
    by_cases hpath : path' = path
    · rw [if_pos hpath, if_pos ⟨hobject, hpath⟩]
    · rw [if_neg hpath, if_neg fun h => hpath h.2]
  · rw [if_neg hobject, if_neg fun h => hobject h.1]

theorem find?_valued_eq_none : (valued id path value source object o).fields.find? path' = none ↔
    o.fields.find? path' = none := by
  rw [find?_valued]
  split_ifs
  · exact Option.map_eq_none_iff
  · rfl

theorem entries_valued : (valued id path value source object o).fields.entries =
    o.fields.entries.map fun field => (field.1, if object = id ∧ field.1 = path then value source else field.2) := by
  unfold valued
  by_cases hobject : object = id
  · rw [if_pos hobject]
    refine List.map_congr_left fun field _ => congrArg (Prod.mk field.1) ?_
    dsimp only
    by_cases hpath : field.1 = path
    · rw [if_pos hpath, if_pos ⟨hobject, hpath⟩]
    · rw [if_neg hpath, if_neg fun h => hpath h.2]
  · have hvalue : (fun field : FieldPath × Value =>
        (field.1, if object = id ∧ field.1 = path then value source else field.2)) = fun field => field := by
      funext field
      rw [if_neg fun h => hobject h.1]
    rw [if_neg hobject, hvalue, List.map_id']

/-- A later choice of values at a location replaces an earlier one. -/
theorem valued_valued : valued id path value' source object (valued id path value source object o) =
    valued id path value' source object o := by
  unfold valued
  split_ifs
  · refine congrArg (fun fields => ({ o with fields := fields } : ObservedObject)) (OrdMap.ext_find? fun path' => ?_)
    simp only [OrdMap.find?_modify]
    split_ifs
    · rw [Option.map_map]
      rfl
    · rfl
  · rfl

/-- The sources whose fields are compared do not both report the location of one object. -/
def Uncontested (id : ObjectId) (path : FieldPath) (views : List EvidenceView) : Prop :=
  views.Pairwise fun lhs rhs => lhs.usable = true → rhs.usable = true → ∀ reported other,
    lhs.snapshot.findObject id = some reported → rhs.snapshot.findObject id = some other →
      reported.presence = other.presence → reported.fields.find? path = none ∨ other.fields.find? path = none

theorem identity_conflictDrafts (h : Uncontested id path (views.take kMaxConflictSources)) :
    (conflictDrafts policy limits target baseline (views.map (EvidenceView.redress (valued id path value)))).map
        FindingDraft.identity =
      (conflictDrafts policy limits target baseline views).map FindingDraft.identity := by
  refine map_conflictDrafts (h.imp fun {lhs rhs} hpair hl hr => ?_)
  refine map_pairConflicts (fun _ _ _ => presence_valued)
    (fun _ _ _ _ _ => by rw [identity_conflictDraft, identity_conflictDraft]; rfl) ?_
  intro object reported other hreported hother hsame
  rw [fieldConflicts, fieldConflicts, entries_valued, List.flatMap_map, List.map_flatMap, List.map_flatMap]
  refine List.flatMap_congr fun field hfield => ?_
  have hfound := OrdMap.mem_entries_iff.mp hfield
  rw [find?_valued]
  by_cases hspot : object = id ∧ field.1 = path
  · obtain ⟨rfl, rfl⟩ := hspot
    have hnone : other.fields.find? field.1 = none := by
      rcases hpair hl hr reported other hreported hother hsame with hnone | hnone
      · cases hnone.symm.trans hfound
      · exact hnone
    simp only [hnone, Option.map_none, ite_self]
  · simp only [if_neg hspot]
    cases other.fields.find? field.1 with
    | none => rfl
    | some value =>
      dsimp only
      split_ifs
      · simp only [List.map_cons, List.map_nil, identity_conflictDraft]
        rfl
      · rfl

theorem identity_objectFieldDrafts {observed : ObservedObject}
    (hcontext : object = id → ∀ field, declared.fields.find? path = some field →
      policy.classifyField target id path field.comparability = .unmanaged ∨
        policy.classifyField target id path field.comparability = .observeOnly) :
    (objectFieldDrafts policy limits target baseline (primary.redress (valued id path value)) object declared
      (valued id path value primary.snapshot.source object observed)).map FindingDraft.identity =
        (objectFieldDrafts policy limits target baseline primary object declared observed).map FindingDraft.identity := by
  rw [objectFieldDrafts, objectFieldDrafts, List.map_append, List.map_append, List.map_flatMap, List.map_flatMap,
    List.map_flatMap, List.map_flatMap, entries_valued, List.flatMap_map]
  refine congrArg₂ (· ++ ·) (List.flatMap_congr fun field hfield => ?_) (List.flatMap_congr fun field _ => ?_)
  · by_cases hspot : object = id ∧ field.1 = path
    · obtain ⟨rfl, rfl⟩ := hspot
      have hskipped : ∀ (view : EvidenceView) (o : ObservedObject),
          declaredFieldDrafts policy limits target baseline view object o field.1 field.2 = [] := by
        intro view o
        unfold declaredFieldDrafts
        rcases hcontext rfl field.2 (OrdMap.mem_entries_iff.mp hfield) with hclass | hclass <;>
          simp only [hclass, ite_self]
      rw [hskipped, hskipped]
    · refine map_declaredFieldDrafts (fun _ _ _ _ _ => identity_primaryDraft.trans identity_primaryDraft.symm) fun _ => ?_
      rw [find?_valued, if_neg hspot]
  · unfold undeclaredFieldDrafts
    dsimp only
    by_cases hignored : (isReservedPath field.1 || declared.fields.contains field.1) = true
    · rw [if_pos hignored, if_pos hignored]
    · rw [if_neg hignored, if_neg hignored, List.map_singleton, List.map_singleton, identity_primaryDraft,
        identity_primaryDraft]

theorem uncontested_redress : Uncontested id path (views.map (EvidenceView.redress (valued id path value))) ↔
    Uncontested id path views := by
  rw [Uncontested, Uncontested, List.pairwise_map]
  refine List.Pairwise.iff fun lhs rhs => imp_congr_right fun _ => imp_congr_right fun _ => ?_
  simp only [findObject_redress, Option.map_eq_some_iff]
  constructor
  · intro h reported other hreported hother hsame
    have hnone := h _ _ ⟨reported, hreported, rfl⟩ ⟨other, hother, rfl⟩ (by rw [presence_valued, presence_valued, hsame])
    rwa [find?_valued_eq_none, find?_valued_eq_none] at hnone
  · rintro h _ _ ⟨reported, hreported, rfl⟩ ⟨other, hother, rfl⟩ hsame
    rw [presence_valued, presence_valued] at hsame
    rw [find?_valued_eq_none, find?_valued_eq_none]
    exact h reported other hreported hother hsame

/-- The values do not decide how the deviations are explained: the location is not the marker of a generation, or nothing
    deviates, or the primary reports no marker for the object. -/
def Unmarked (policy : ObservatoryPolicy) (target : TargetId) (baseline : IntentBaseline) (primary : EvidenceView)
    (id : ObjectId) (path : FieldPath) : Prop :=
  path = kAppliedGenerationPath → Deviates policy target baseline primary → ∀ declared observed,
    baseline.findObject id = some declared → primary.snapshot.findObject id = some observed →
      observed.presence = .present → observed.fields.find? path = none

theorem tryReadAppliedGeneration_valued (h : object = id → path = kAppliedGenerationPath → o.fields.find? path = none) :
    tryReadAppliedGeneration (valued id path value source object o) = tryReadAppliedGeneration o := by
  have hfind : (valued id path value source object o).fields.find? kAppliedGenerationPath =
      o.fields.find? kAppliedGenerationPath := by
    rw [find?_valued]
    by_cases hspot : object = id ∧ kAppliedGenerationPath = path
    · rw [if_pos hspot, hspot.2, h hspot.1 hspot.2.symm]
      rfl
    · rw [if_neg hspot]
  rw [tryReadAppliedGeneration, tryReadAppliedGeneration, hfind]

theorem scanAppliedGenerations_valued (h : Unmarked policy target baseline primary id path)
    (hdeviates : Deviates policy target baseline primary) :
    scanAppliedGenerations (primary.redress (valued id path value)) baseline.objects baseline.generation =
      scanAppliedGenerations primary baseline.objects baseline.generation := by
  have happlied : appliedGenerations (primary.redress (valued id path value)) baseline.objects =
      appliedGenerations primary baseline.objects := by
    unfold appliedGenerations
    refine List.filterMap_congr fun object hobject => ?_
    obtain ⟨declared, hdeclared⟩ := OrdMap.contains_iff.mp (OrdMap.mem_keys.mp hobject)
    rw [findObject_redress]
    cases hfound : primary.snapshot.findObject object with
    | none => rfl
    | some observed =>
      simp only [Option.map_some, presence_valued]
      by_cases hpresent : observed.presence = .present
      · rw [if_pos hpresent, if_pos hpresent]
        refine tryReadAppliedGeneration_valued ?_
        rintro rfl hmarker
        exact h hmarker hdeviates declared observed hdeclared hfound hpresent
      · rw [if_neg hpresent, if_neg hpresent]
  rw [scanAppliedGenerations, scanAppliedGenerations, happlied]

theorem regroupDrafts_of_none_deviates {scan : GenerationScan} {generation : IntentGeneration} {drafts : List FindingDraft}
    (h : drafts.any (fun d => isDeviation d.klass) = false) : regroupDrafts policy scan generation drafts = drafts := by
  have hnone : regrouping scan generation drafts = none := by
    rw [regrouping, h, Bool.and_false, if_neg Bool.false_ne_true]
  rw [regroupDrafts, hnone]

section Context
variable (hcontext : ∀ declared, baseline.findObject id = some declared → ∀ field, declared.fields.find? path = some field →
  policy.classifyField target id path field.comparability = .unmanaged ∨
    policy.classifyField target id path field.comparability = .observeOnly)

include hcontext

theorem identity_primaryDrafts :
    (primaryDrafts policy limits target baseline (primary.redress (valued id path value))).map FindingDraft.identity =
      (primaryDrafts policy limits target baseline primary).map FindingDraft.identity :=
  map_primaryDrafts (fun _ _ _ => presence_valued)
    (fun _ _ _ _ _ _ _ => identity_primaryDraft.trans identity_primaryDraft.symm) fun _ declared _ hdeclared =>
      identity_objectFieldDrafts fun hobject => hcontext declared (hobject ▸ hdeclared)

theorem deviates_valued : Deviates policy target baseline (primary.redress (valued id path value)) ↔
    Deviates policy target baseline primary := by
  rw [← @any_isDeviation policy {} target baseline [], ← @any_isDeviation policy {} target baseline []]
  have hsame : (conflictDrafts policy {} target baseline [] ++ primaryDrafts policy {} target baseline
      (primary.redress (valued id path value))).map FindingDraft.identity =
        (conflictDrafts policy {} target baseline [] ++ primaryDrafts policy {} target baseline primary).map
          FindingDraft.identity := by
    rw [List.map_append, List.map_append, identity_primaryDrafts hcontext]
  rw [@any_identity (fun d => isDeviation d.klass) (fun i => isDeviation i.klass) (fun _ => rfl) _ _ hsame]

theorem identity_comparedDrafts (huncontested : Uncontested id path (views.take kMaxConflictSources))
    (hunmarked : Unmarked policy target baseline primary id path) :
    (comparedDrafts policy limits target baseline (views.map (EvidenceView.redress (valued id path value)))
      (primary.redress (valued id path value))).map FindingDraft.identity =
        (comparedDrafts policy limits target baseline views primary).map FindingDraft.identity := by
  have hleaves : (conflictDrafts policy limits target baseline (views.map (EvidenceView.redress (valued id path value))) ++
      primaryDrafts policy limits target baseline (primary.redress (valued id path value))).map FindingDraft.identity =
        (conflictDrafts policy limits target baseline views ++ primaryDrafts policy limits target baseline primary).map
          FindingDraft.identity := by
    rw [List.map_append, List.map_append, identity_conflictDrafts huncontested, identity_primaryDrafts hcontext]
  rw [comparedDrafts, comparedDrafts]
  by_cases hdeviates : Deviates policy target baseline primary
  · rw [scanAppliedGenerations_valued hunmarked hdeviates]
    exact map_regroupDrafts seen_identity hleaves
  · have hnone := hdeviates
    rw [← @any_isDeviation policy limits target baseline views, Bool.not_eq_true] at hnone
    have hnone' := hdeviates
    rw [← deviates_valued hcontext, ← @any_isDeviation policy limits target baseline (views.map _),
      Bool.not_eq_true] at hnone'
    rw [regroupDrafts_of_none_deviates hnone, regroupDrafts_of_none_deviates hnone', hleaves]

theorem unmarked_redress : Unmarked policy target baseline (primary.redress (valued id path value)) id path ↔
    Unmarked policy target baseline primary id path := by
  rw [Unmarked, Unmarked, deviates_valued hcontext]
  refine imp_congr_right fun _ => imp_congr_right fun _ => forall_congr' fun declared => ?_
  simp only [findObject_redress, Option.map_eq_some_iff]
  constructor
  · intro h observed hdeclared hfound hpresent
    have hnone := h _ hdeclared ⟨observed, hfound, rfl⟩ (by rw [presence_valued, hpresent])
    rwa [find?_valued_eq_none] at hnone
  · rintro h _ hdeclared ⟨observed, hfound, rfl⟩ hpresent
    rw [presence_valued] at hpresent
    rw [find?_valued_eq_none]
    exact h observed hdeclared hfound hpresent

end Context

end Valued

/-! ### Inertness -/

section Inert
variable {policy : ObservatoryPolicy} {limits : RuntimeLimits} {input : TargetComparisonInput} {baseline : IntentBaseline}
  {primary : EvidenceView} {rest : List EvidenceView} {id : ObjectId} {path : FieldPath} {value : SourceId → Value}

/-- Wherever the values at a location are read, they decide nothing. -/
structure Unread (policy : ObservatoryPolicy) (input : TargetComparisonInput) (id : ObjectId) (path : FieldPath) : Prop where
  uncontested : ∀ baseline primary rest, Reaches policy input baseline primary rest →
    Uncontested id path ((primary :: rest).take kMaxConflictSources)
  unmarked : ∀ baseline primary rest, Reaches policy input baseline primary rest →
    Unmarked policy input.target baseline primary id path

/-- The location is observed for context only. -/
def Contextual (policy : ObservatoryPolicy) (input : TargetComparisonInput) (id : ObjectId) (path : FieldPath) : Prop :=
  comparabilityAt policy input id path = .unmanaged ∨ comparabilityAt policy input id path = .observeOnly

theorem Contextual.declared (h : Contextual policy input id path) (hcommitted : input.baseline = some baseline) :
    ∀ declared, baseline.findObject id = some declared → ∀ field, declared.fields.find? path = some field →
      policy.classifyField input.target id path field.comparability = .unmanaged ∨
        policy.classifyField input.target id path field.comparability = .observeOnly := by
  intro declared hdeclared field hfield
  have hclass : comparabilityAt policy input id path =
      policy.classifyField input.target id path field.comparability := by
    simp only [comparabilityAt, hcommitted, Option.bind_some, hdeclared, hfield, Option.elim_some]
  rwa [Contextual, hclass] at h

theorem steady_redress (hcontext : Contextual policy input id path) (h : Unread policy input id path) :
    (compareTarget input policy limits).Steady (compareTarget (input.redress (valued id path value)) policy limits) := by
  by_cases hreaches : ∃ baseline primary rest, Reaches policy input baseline primary rest
  · obtain ⟨baseline, primary, rest, hreaches⟩ := hreaches
    rw [hreaches.compareTarget_eq, hreaches.redress.compareTarget_eq]
    exact steady_decideCompliance (identity_comparedDrafts (hcontext.declared hreaches.committed)
      (h.uncontested _ _ _ hreaches) (h.unmarked _ _ _ hreaches))
  · exact (unmoved_redress_of_not_reaches fun baseline primary rest h => hreaches ⟨baseline, primary, rest, h⟩).steady

theorem contextual_redress : Contextual policy (input.redress (valued id path value)) id path ↔
    Contextual policy input id path := Iff.rfl

theorem unread_redress (hcontext : Contextual policy input id path) :
    Unread policy (input.redress (valued id path value)) id path ↔ Unread policy input id path := by
  constructor
  · refine fun h => ⟨fun baseline primary rest hreaches => ?_, fun baseline primary rest hreaches => ?_⟩
    · have huncontested := h.uncontested _ _ _ hreaches.redress
      rwa [← List.map_cons, ← List.map_take, uncontested_redress] at huncontested
    · exact (unmarked_redress (hcontext.declared hreaches.committed)).mp (h.unmarked _ _ _ hreaches.redress)
  · refine fun h => ⟨fun baseline view rest hreaches => ?_, fun baseline view rest hreaches => ?_⟩
    · obtain ⟨primary, rest', horiginal, hviews⟩ := reaches_redress hreaches
      rw [hviews, ← List.map_take, uncontested_redress]
      exact h.uncontested _ _ _ horiginal
    · obtain ⟨primary, rest', horiginal, hviews⟩ := reaches_redress hreaches
      obtain ⟨rfl, -⟩ := List.cons.inj hviews
      exact (unmarked_redress (hcontext.declared horiginal.committed)).mpr (h.unmarked _ _ _ horiginal)

theorem redress_valued : (input.redress (valued id path value)).redress (masked id path) = input.redress (masked id path) :=
  redress_redress fun _ _ _ => valued_valued

theorem contradicts_named {lhs rhs : EvidenceView} {reported other : ObservedObject} {v w : Value}
    (hne : lhs.snapshot.source ≠ rhs.snapshot.source) (hreported : lhs.snapshot.findObject id = some reported)
    (hother : rhs.snapshot.findObject id = some other) (hsame : reported.presence = other.presence)
    (hv : reported.fields.find? path = some v) (hw : other.fields.find? path = some w) :
    EvidenceView.Contradicts policy (lhs.redress (valued id path fun source => .makeString source.str))
      (rhs.redress (valued id path fun source => .makeString source.str))
      (id, path, conflictQualifier lhs.snapshot.source rhs.snapshot.source) := by
  refine ⟨rfl, _, _, by rw [findObject_redress, hreported]; rfl, by rw [findObject_redress, hother]; rfl,
    .inr ⟨by rw [presence_valued, presence_valued, hsame], .makeString lhs.snapshot.source.str,
      .makeString rhs.snapshot.source.str, ?_, ?_,
      relateValues_makeString fun heq => hne (StringId.str_injective heq)⟩⟩
  · rw [find?_valued, if_pos ⟨rfl, rfl⟩, hv]
    rfl
  · rw [find?_valued, if_pos ⟨rfl, rfl⟩, hw]
    rfl

/-- Sources that put their names at the location are seen wherever two of them are compared there. -/
theorem uncontested_of_steady (hpath : path ≠ []) (h : (compareTarget (input.redress (masked id path)) policy limits).Steady
      (compareTarget (input.redress (valued id path fun source => .makeString source.str)) policy limits))
    (hreaches : Reaches policy input baseline primary rest) :
    Uncontested id path ((primary :: rest).take kMaxConflictSources) := by
  have hpairwise := fun qualifier => hreaches.pairwise_not_contradicts
    (@TargetEvaluation.Steady.conflicts _ _ h (id, path, qualifier)) fun lhs rhs hc => by
      obtain ⟨-, reported, other, hreported, hother, hpresence | ⟨-, v, w, hv, hw, hdifferent⟩⟩ := hc
      · exact hpath hpresence.2.2.2
      · rw [findObject_redress, Option.map_eq_some_iff] at hreported hother
        obtain ⟨o, -, rfl⟩ := hreported
        obtain ⟨o', -, rfl⟩ := hother
        rw [masked, find?_valued, if_pos ⟨rfl, rfl⟩, Option.map_eq_some_iff] at hv hw
        obtain ⟨-, -, rfl⟩ := hv
        obtain ⟨-, -, rfl⟩ := hw
        cases hdifferent
  have hdistinct : ((primary :: rest).take kMaxConflictSources).Pairwise fun a b => a.snapshot.source ≠ b.snapshot.source :=
    (hreaches.views ▸ distinct_orderedViews).sublist (List.take_sublist _ _)
  refine List.pairwise_iff_getElem.mpr fun i j hi hj hij hl hr reported other hreported hother hsame => ?_
  have hne := List.pairwise_iff_getElem.mp hdistinct i j hi hj hij
  by_contra hboth
  rw [not_or] at hboth
  obtain ⟨v, hv⟩ := Option.ne_none_iff_exists'.mp hboth.1
  obtain ⟨w, hw⟩ := Option.ne_none_iff_exists'.mp hboth.2
  exact List.pairwise_iff_getElem.mp (hpairwise _) i j hi hj hij hl hr (contradicts_named hne hreported hother hsame hv hw)

end Inert

/-- The values of a location that is observed for context only decide neither compliance nor which drafts there are where
    they are not read; and no two compared sources report them where this holds. -/
theorem contextual_values_inert {policy : ObservatoryPolicy} {limits : RuntimeLimits} {input : TargetComparisonInput}
    {id : ObjectId} {path : FieldPath} (hcontext : Contextual policy input id path) :
    (Unread policy input id path → ∀ input', input'.redress (masked id path) = input.redress (masked id path) →
      (compareTarget input policy limits).Steady (compareTarget input' policy limits)) ∧
    (path ≠ [] → path ≠ kAppliedGenerationPath →
      (∀ input', input'.redress (masked id path) = input.redress (masked id path) →
        (compareTarget input policy limits).Steady (compareTarget input' policy limits)) → Unread policy input id path) := by
  refine ⟨fun h input' hsame => ?_, fun hpath hmarker h => ⟨fun baseline primary rest hreaches => ?_, ?_⟩⟩
  · have hcontext' : Contextual policy input' id path := by
      rw [← @contextual_redress policy input' id path fun _ => default, ← masked, hsame]
      exact hcontext
    have h' : Unread policy input' id path := by
      rw [← @unread_redress policy input' id path (fun _ => default) hcontext', ← masked, hsame]
      exact (unread_redress hcontext).mpr h
    refine (@steady_redress policy limits input id path (fun _ => default) hcontext h).trans ?_
    rw [← masked, ← hsame]
    exact (steady_redress hcontext' h').symm
  · exact uncontested_of_steady hpath ((h _ redress_valued).symm.trans (h _ redress_valued)) hreaches
  · exact fun baseline primary rest hreaches hpath' => absurd hpath' hmarker

namespace Sample

/-- An intent that excludes the field of its object from the comparison. -/
def excluding : IntentBaseline :=
  baseline {
    id := object
    fields := OrdMap.ofList [(path, { path := path, intended := .makeInt 1, comparability := .unmanaged })] }

/-- Two sources that report the excluded field. -/
def watched : TargetComparisonInput :=
  .ofPairs target (some excluding) [(some first, fresh), (some witnessing, fresh)]

/-- A source that reports the object without the excluded field. -/
def blind : ObservationSnapshot := snapshot "b" { id := object, presence := .present, fields := ∅ }

/-- Two sources, of which one reports the excluded field. -/
def watchedOnce : TargetComparisonInput := .ofPairs target (some excluding) [(some first, fresh), (some blind, fresh)]

theorem reaches_watched : Reaches {} watched excluding (EvidenceView.make {} first fresh)
    [EvidenceView.make {} witnessing fresh] :=
  ⟨rfl, rfl, rfl, rfl⟩

theorem orderedViews_watchedOnce : orderedViews {} watchedOnce =
    [EvidenceView.make {} first fresh, EvidenceView.make {} blind fresh] := rfl

end Sample

theorem contextual_values_inert_once :
    (orderedViews {} Sample.watchedOnce).map EvidenceView.usable = [true, true] ∧
      (compareTarget Sample.watchedOnce {} {}).Steady
        (compareTarget (Sample.watchedOnce.redress (valued Sample.object Sample.path fun _ => .makeInt 7)) {} {}) := by
  refine ⟨rfl, (contextual_values_inert (.inl rfl)).1 ⟨fun baseline primary rest hreaches => ?_,
    fun _ _ _ _ hmarker => ?_⟩ _ redress_valued⟩
  · obtain ⟨rfl, rfl⟩ := List.cons.inj (Sample.orderedViews_watchedOnce.symm.trans hreaches.views)
    refine List.pairwise_pair.mpr fun _ _ reported other _ hother _ => .inr ?_
    obtain rfl := Option.some.inj hother
    rfl
  · cases hmarker

/-- Two sources that report a field the intent excludes, with one value and with one each. -/
theorem contextual_values_seen :
    Contextual {} Sample.watched Sample.object Sample.path ∧
      (Sample.watched.redress (valued Sample.object Sample.path fun source => .makeString source.str)).redress
          (masked Sample.object Sample.path) =
        (Sample.watched.redress (masked Sample.object Sample.path)).redress (masked Sample.object Sample.path) ∧
      ¬ (compareTarget (Sample.watched.redress (masked Sample.object Sample.path)) {} {}).Steady
        (compareTarget (Sample.watched.redress
          (valued Sample.object Sample.path fun source => .makeString source.str)) {} {}) := by
  refine ⟨.inl rfl, redress_valued.trans redress_valued.symm, fun h => ?_⟩
  have huncontested := uncontested_of_steady (fun h => (by cases h)) h Sample.reaches_watched
  rcases (List.pairwise_cons.mp huncontested).1 _ List.mem_cons_self rfl rfl _ _ rfl rfl rfl with hnone | hnone
  · cases hnone
  · cases hnone

end DriftObservatory
