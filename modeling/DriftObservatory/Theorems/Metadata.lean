import DriftObservatory.Theorems.Twins

/-! What sources report for context: reserved metadata, and the fields that nobody manages. -/

namespace DriftObservatory

/-! ### Reserved metadata -/

/-- A reserved path other than the applied-generation marker. -/
def isMetadataPath (path : FieldPath) : Bool := isReservedPath path && path != kAppliedGenerationPath

def ObservedObject.strip (o : ObservedObject) : ObservedObject :=
  { o with fields := o.fields.filter fun path _ => !isMetadataPath path }

namespace ObservedObject
variable {o : ObservedObject} {path : FieldPath}

theorem find?_strip (h : isMetadataPath path = false) : o.strip.fields.find? path = o.fields.find? path := by
  rw [strip, OrdMap.find?_filter, h]
  cases o.fields.find? path <;> rfl

theorem find?_strip_metadata (h : isMetadataPath path = true) : o.strip.fields.find? path = none := by
  rw [strip, OrdMap.find?_filter, h]
  cases o.fields.find? path <;> rfl

theorem tryReadAppliedGeneration_strip : tryReadAppliedGeneration o.strip = tryReadAppliedGeneration o := by
  rw [tryReadAppliedGeneration, tryReadAppliedGeneration, find?_strip (by decide)]

end ObservedObject

/-- Snapshots without metadata. -/
def stripped : SourceId → ObjectId → ObservedObject → ObservedObject := fun _ _ o => o.strip

theorem seen_blind : FindingDraft.Seen FindingDraft.blind where
  klass d d' h := show d.blind.klass = d'.blind.klass by rw [h]
  regroupDraft policy isPartial qualifier d d' h := by
    have hblind : ∀ d : FindingDraft, (regroupDraft policy isPartial qualifier d).blind =
        regroupDraft policy isPartial qualifier d.blind := by
      intro d
      have hklass : d.blind.klass = d.klass := rfl
      by_cases hd : isDeviation d.klass = true
      · rw [regroupDraft, regroupDraft, hklass, if_pos hd, if_pos hd]
        rfl
      · rw [regroupDraft, regroupDraft, hklass, if_neg hd, if_neg hd]
    rw [hblind, hblind, h]

section Stripped
variable {policy : ObservatoryPolicy} {limits : RuntimeLimits} {target : TargetId} {baseline : IntentBaseline}
  {S : SourceId → ObjectId → ObservedObject → ObservedObject} {primary lhs rhs : EvidenceView} {id : ObjectId}
  {declared : IntentObject} {observed : ObservedObject} {path : FieldPath} {views : List EvidenceView}

theorem blind_primaryDraft {klass : DriftClass} {reason : ReasonCode} {intended found : Option Value}
    {rationale : List Text} :
    (primaryDraft policy limits target baseline (primary.redress S) id path klass reason intended found rationale).blind =
      (primaryDraft policy limits target baseline primary id path klass reason intended found rationale).blind :=
  blind_attachEvidence rfl

theorem blind_conflictDraft {found intended : Value} {what : Text} :
    (conflictDraft policy limits target baseline (lhs.redress S) (rhs.redress S) id path found intended what).blind =
      (conflictDraft policy limits target baseline lhs rhs id path found intended what).blind :=
  blind_attachEvidence (blind_attachEvidence rfl)

theorem flatMap_filter_of_nil {α β : Type*} {p : α → Bool} {f : α → List β} (h : ∀ a, p a = false → f a = []) :
    ∀ items : List α, (items.filter p).flatMap f = items.flatMap f
  | [] => rfl
  | a :: rest => by
    rw [List.filter_cons, List.flatMap_cons, ← flatMap_filter_of_nil h rest]
    cases hp : p a with
    | true => rw [if_pos rfl, List.flatMap_cons]
    | false => rw [if_neg Bool.false_ne_true, h a hp, List.nil_append]

theorem blind_objectFieldDrafts :
    (objectFieldDrafts policy limits target baseline (primary.redress stripped) id declared observed.strip).map
        FindingDraft.blind =
      (objectFieldDrafts policy limits target baseline primary id declared observed).map FindingDraft.blind := by
  have hentries : observed.strip.fields.entries = observed.fields.entries.filter fun field => !isMetadataPath field.1 := rfl
  rw [objectFieldDrafts, objectFieldDrafts, List.map_append, List.map_append, List.map_flatMap, List.map_flatMap,
    List.map_flatMap, List.map_flatMap, hentries, flatMap_filter_of_nil]
  · refine congrArg₂ (· ++ ·) (List.flatMap_congr fun field _ => ?_) (List.flatMap_congr fun field _ => ?_)
    · refine map_declaredFieldDrafts (fun _ _ _ _ _ => blind_primaryDraft) fun hreserved => ?_
      exact ObservedObject.find?_strip (by rw [isMetadataPath, hreserved, Bool.false_and])
    · unfold undeclaredFieldDrafts
      split_ifs
      · rfl
      · simp only [List.map_cons, List.map_nil, blind_primaryDraft]
  · intro field hfield
    have hreserved : isReservedPath field.1 = true := by
      simp only [isMetadataPath, Bool.not_eq_false', Bool.and_eq_true] at hfield
      exact hfield.1
    rw [undeclaredFieldDrafts, hreserved, Bool.true_or, if_pos rfl, List.map_nil]

theorem appliedGenerations_stripped {objects : OrdMap ObjectId IntentObject} :
    appliedGenerations (primary.redress stripped) objects = appliedGenerations primary objects := by
  unfold appliedGenerations
  refine List.filterMap_congr fun id _ => ?_
  rw [findObject_redress]
  cases primary.snapshot.findObject id with
  | none => rfl
  | some observed =>
    simp only [Option.map_some, stripped, ObservedObject.tryReadAppliedGeneration_strip]
    rfl

/-- No two usable views report one object with one presence. -/
def Separate (views : List EvidenceView) : Prop :=
  views.Pairwise fun lhs rhs => lhs.usable = true → rhs.usable = true → ∀ id reported other,
    lhs.snapshot.findObject id = some reported → rhs.snapshot.findObject id = some other →
      reported.presence ≠ other.presence

/-- Where no fields of two sources are compared, metadata is not seen. -/
theorem blind_comparedDrafts (h : Separate (views.take kMaxConflictSources)) :
    (comparedDrafts policy limits target baseline (views.map (EvidenceView.redress stripped))
      (primary.redress stripped)).map FindingDraft.blind =
        (comparedDrafts policy limits target baseline views primary).map FindingDraft.blind := by
  have hscan : scanAppliedGenerations (primary.redress stripped) baseline.objects baseline.generation =
      scanAppliedGenerations primary baseline.objects baseline.generation := by
    rw [scanAppliedGenerations, scanAppliedGenerations, appliedGenerations_stripped]
  rw [comparedDrafts, comparedDrafts, hscan]
  refine map_regroupDrafts seen_blind ?_
  rw [List.map_append, List.map_append]
  refine congrArg₂ (· ++ ·) (map_conflictDrafts (h.imp fun hapart hl hr => ?_)) ?_
  · refine map_pairConflicts (fun _ _ _ => rfl) (fun _ _ _ _ _ => blind_conflictDraft) fun id reported other hreported hother
      hsame => ?_
    exact absurd hsame (hapart hl hr id reported other hreported hother)
  · exact map_primaryDrafts (fun _ _ _ => rfl) (fun _ _ _ _ _ _ _ => blind_primaryDraft) fun id declared observed _ =>
      blind_objectFieldDrafts

theorem separate_redress : Separate (views.map (EvidenceView.redress stripped)) ↔ Separate views := by
  rw [Separate, Separate, List.pairwise_map]
  refine List.Pairwise.iff fun lhs rhs => imp_congr_right fun _ => imp_congr_right fun _ => ?_
  simp only [findObject_redress, Option.map_eq_some_iff]
  constructor
  · intro h id reported other hreported hother
    exact h id reported.strip other.strip ⟨reported, hreported, rfl⟩ ⟨other, hother, rfl⟩
  · rintro h id _ _ ⟨reported, hreported, rfl⟩ ⟨other, hother, rfl⟩
    exact h id reported other hreported hother

end Stripped

section Inert
variable {policy : ObservatoryPolicy} {limits : RuntimeLimits} {input : TargetComparisonInput}

/-- The sources whose fields would be compared report nothing in common. -/
def SourcesSeparate (policy : ObservatoryPolicy) (input : TargetComparisonInput) : Prop :=
  ∀ baseline primary rest, Reaches policy input baseline primary rest →
    Separate ((primary :: rest).take kMaxConflictSources)

theorem unmoved_stripped (h : SourcesSeparate policy input) :
    (compareTarget input policy limits).Unmoved (compareTarget (input.redress stripped) policy limits) := by
  by_cases hreaches : ∃ baseline primary rest, Reaches policy input baseline primary rest
  · obtain ⟨baseline, primary, rest, hreaches⟩ := hreaches
    exact hreaches.unmoved_redress (blind_comparedDrafts (h baseline primary rest hreaches))
  · exact unmoved_redress_of_not_reaches fun baseline primary rest h => hreaches ⟨baseline, primary, rest, h⟩

theorem sourcesSeparate_redress : SourcesSeparate policy (input.redress stripped) ↔ SourcesSeparate policy input := by
  constructor
  · intro h baseline primary rest hreaches
    have hseparate := h _ _ _ hreaches.redress
    rw [← List.map_cons, ← List.map_take, separate_redress] at hseparate
    exact hseparate
  · intro h baseline view rest hreaches
    obtain ⟨primary, rest', horiginal, hviews⟩ := reaches_redress hreaches
    rw [hviews, ← List.map_take, separate_redress]
    exact h _ _ _ horiginal

/-- The path of a piece of metadata. -/
def metadataPath : FieldPath := [.key (ascii "@m")]

/-- Snapshots whose only metadata is the name of the source, in every object. -/
def signed : SourceId → ObjectId → ObservedObject → ObservedObject := fun source _ o =>
  { o.strip with fields := o.strip.fields.insert metadataPath (.makeString source.str) }

theorem ObservedObject.strip_congr {o o' : ObservedObject} (hid : o'.id = o.id) (hpresence : o'.presence = o.presence)
    (hfields : ∀ path, isMetadataPath path = false → o'.fields.find? path = o.fields.find? path) : o'.strip = o.strip := by
  have hstrip : o'.strip.fields = o.strip.fields := by
    refine OrdMap.ext_find? fun path => ?_
    cases hmetadata : isMetadataPath path with
    | true => rw [find?_strip_metadata hmetadata, find?_strip_metadata hmetadata]
    | false => rw [find?_strip hmetadata, find?_strip hmetadata, hfields path hmetadata]
  cases o
  cases o'
  subst hid hpresence
  exact congrArg (fun fields => (⟨_, _, fields⟩ : ObservedObject)) hstrip

theorem redress_stripped : (input.redress stripped).redress stripped = input.redress stripped :=
  redress_redress fun _ _ _ => ObservedObject.strip_congr rfl rfl fun _ hpath => ObservedObject.find?_strip hpath

theorem redress_signed : (input.redress signed).redress stripped = input.redress stripped := by
  refine redress_redress fun source id o => ObservedObject.strip_congr rfl rfl fun path hpath => ?_
  have hne : metadataPath ≠ path := by
    rintro rfl
    cases hpath
  rw [signed, OrdMap.find?_insert_of_ne hne, ObservedObject.find?_strip hpath]

/-- Whether a comparison drafts a conflict at a spot, the blind see too. -/
theorem TargetEvaluation.Unmoved.conflicts {e e' : TargetEvaluation} (h : e.Unmoved e') {spot : ObjectId × FieldPath × Digest}
    (hd : ∃ d ∈ e'.drafts, d.klass = .sourceConflict ∧ d.spot = spot) :
    ∃ d ∈ e.drafts, d.klass = .sourceConflict ∧ d.spot = spot := by
  obtain ⟨d, hd, hklass, hspot⟩ := hd
  have hblind : d.blind ∈ e.drafts.map FindingDraft.blind := h.drafts ▸ List.mem_map_of_mem hd
  obtain ⟨d', hd', heq⟩ := List.mem_map.mp hblind
  refine ⟨d', hd', ?_, ?_⟩
  · rw [← hklass]
    exact (congrArg FindingDraft.klass heq : d'.blind.klass = d.blind.klass)
  · rw [← hspot]
    exact (congrArg FindingDraft.spot heq : d'.blind.spot = d.blind.spot)

theorem contradicts_signed {lhs rhs : EvidenceView} {id : ObjectId} {reported other : ObservedObject}
    (hne : lhs.snapshot.source ≠ rhs.snapshot.source) (hreported : lhs.snapshot.findObject id = some reported)
    (hother : rhs.snapshot.findObject id = some other) (hsame : reported.presence = other.presence) :
    EvidenceView.Contradicts policy (lhs.redress signed) (rhs.redress signed)
      (id, metadataPath, conflictQualifier lhs.snapshot.source rhs.snapshot.source) := by
  refine ⟨rfl, signed lhs.snapshot.source id reported, signed rhs.snapshot.source id other, ?_, ?_,
    .inr ⟨hsame, .makeString lhs.snapshot.source.str, .makeString rhs.snapshot.source.str, OrdMap.find?_insert_self,
      OrdMap.find?_insert_self, relateValues_makeString fun heq => hne (StringId.str_injective heq)⟩⟩
  · rw [findObject_redress, hreported]
    rfl
  · rw [findObject_redress, hother]
    rfl

/-- Signatures are seen wherever the fields of two sources are compared. -/
theorem separate_of_unmoved_signed (h : (compareTarget (input.redress stripped) policy limits).Unmoved
      (compareTarget (input.redress signed) policy limits)) : SourcesSeparate policy input := by
  intro baseline primary rest hreaches
  have hpairwise := fun id qualifier => hreaches.pairwise_not_contradicts
    (@TargetEvaluation.Unmoved.conflicts _ _ h (id, metadataPath, qualifier)) fun lhs rhs hc => by
      obtain ⟨-, reported, other, hreported, hother, hpresence | ⟨-, v, w, hv, -⟩⟩ := hc
      · cases hpresence.2.2.2
      · rw [findObject_redress, Option.map_eq_some_iff] at hreported
        obtain ⟨o, -, rfl⟩ := hreported
        rw [stripped, ObservedObject.find?_strip_metadata (by rfl)] at hv
        cases hv
  have hdistinct : ((primary :: rest).take kMaxConflictSources).Pairwise fun a b => a.snapshot.source ≠ b.snapshot.source :=
    (hreaches.views ▸ distinct_orderedViews).sublist (List.take_sublist _ _)
  refine List.pairwise_iff_getElem.mpr fun i j hi hj hij hl hr id reported other hreported hother hsame => ?_
  have hne := List.pairwise_iff_getElem.mp hdistinct i j hi hj hij
  exact List.pairwise_iff_getElem.mp (hpairwise id _) i j hi hj hij hl hr (contradicts_signed hne hreported hother hsame)

end Inert

/-- Metadata changes neither the decision on a target nor its drafts, but for what its evidence names, exactly when the
    sources whose fields are compared report no object with one presence. -/
theorem metadata_inert {policy : ObservatoryPolicy} {limits : RuntimeLimits} {input : TargetComparisonInput} :
    (∀ input', input'.redress stripped = input.redress stripped →
      (compareTarget input policy limits).Unmoved (compareTarget input' policy limits)) ↔
        SourcesSeparate policy input := by
  constructor
  · intro h
    exact separate_of_unmoved_signed ((h _ redress_stripped).symm.trans (h _ redress_signed))
  · intro h input' hsame
    have h' : SourcesSeparate policy input' := by
      rw [← sourcesSeparate_redress, hsame, sourcesSeparate_redress]
      exact h
    refine (unmoved_stripped h).trans ?_
    rw [← hsame]
    exact (unmoved_stripped h').symm

namespace Sample

/-- Another source that reports the field of the object with the same value. -/
def witnessing : ObservationSnapshot :=
  snapshot "b" { id := object, presence := .present, fields := OrdMap.ofList [(path, .makeInt 1)] }

/-- Two sources that report what is intended. -/
def concurring : TargetComparisonInput :=
  .ofPairs target (some declaring) [(some first, fresh), (some witnessing, fresh)]

theorem reaches_concurring : Reaches {} concurring declaring (EvidenceView.make {} first fresh)
    [EvidenceView.make {} witnessing fresh] :=
  ⟨rfl, rfl, rfl, rfl⟩

end Sample

/-- Two sources that agree on every field sign their reports with a metadata field each. -/
theorem metadata_signed_seen :
    (Sample.concurring.redress signed).redress stripped = (Sample.concurring.redress stripped).redress stripped ∧
      ¬ (compareTarget (Sample.concurring.redress stripped) {} {}).Unmoved
        (compareTarget (Sample.concurring.redress signed) {} {}) := by
  refine ⟨redress_signed.trans redress_stripped.symm, fun h => ?_⟩
  have hseparate := separate_of_unmoved_signed h _ _ _ Sample.reaches_concurring
  exact (List.pairwise_cons.mp hseparate).1 _ List.mem_cons_self rfl rfl Sample.object _ _ rfl rfl rfl

end DriftObservatory
