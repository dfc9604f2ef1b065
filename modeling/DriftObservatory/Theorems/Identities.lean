import DriftObservatory.Theorems.Regrouping
import DriftObservatory.Theorems.Table
import Mathlib.Data.List.ProdSigma

/-! The identities of drafts: no two drafts of one comparison share one, so the table of findings takes them all. -/

namespace DriftObservatory

/-! ### Conflicts -/

/-- Two different pairs of different sources of the views have one qualifier. -/
def QualifiersCollide (views : List EvidenceView) : Prop :=
  ∃ a ∈ views, ∃ b ∈ views, ∃ c ∈ views, ∃ d ∈ views,
    a.snapshot.source ≠ b.snapshot.source ∧ c.snapshot.source ≠ d.snapshot.source ∧
      conflictQualifier a.snapshot.source b.snapshot.source = conflictQualifier c.snapshot.source d.snapshot.source ∧
      ¬ ((a.snapshot.source = c.snapshot.source ∧ b.snapshot.source = d.snapshot.source) ∨
        (a.snapshot.source = d.snapshot.source ∧ b.snapshot.source = c.snapshot.source))

/-- Sources whose pairs, the lower source first, have different qualifiers. -/
theorem not_qualifiersCollide {views : List EvidenceView} {sources : List SourceId}
    (hsources : ∀ v ∈ views, v.snapshot.source ∈ sources)
    (hpairs : (((sources ×ˢ sources).filter fun p => p.1 < p.2).map fun p => conflictQualifier p.1 p.2).Nodup) :
    ¬ QualifiersCollide views := by
  have hmem : ∀ a ∈ views, ∀ b ∈ views, a.snapshot.source < b.snapshot.source →
      (a.snapshot.source, b.snapshot.source) ∈ (sources ×ˢ sources).filter fun p => p.1 < p.2 := by
    intro a ha b hb hlt
    exact List.mem_filter.mpr ⟨List.mem_product.mpr ⟨hsources a ha, hsources b hb⟩, decide_eq_true hlt⟩
  -- Of a pair of different sources either is the lower one.
  have hone : ∀ a ∈ views, ∀ b ∈ views, a.snapshot.source ≠ b.snapshot.source →
      ∃ p ∈ (sources ×ˢ sources).filter fun p => p.1 < p.2,
        conflictQualifier a.snapshot.source b.snapshot.source = conflictQualifier p.1 p.2 ∧
          (p = (a.snapshot.source, b.snapshot.source) ∨ p = (b.snapshot.source, a.snapshot.source)) := by
    intro a ha b hb hne
    rcases lt_or_gt_of_ne hne with hlt | hlt
    · exact ⟨_, hmem a ha b hb hlt, rfl, .inl rfl⟩
    · exact ⟨_, hmem b hb a ha hlt, conflictQualifier_comm _ _, .inr rfl⟩
  rintro ⟨a, ha, b, hb, c, hc, d, hd, hab, hcd, heq, hapart⟩
  obtain ⟨p, hp, hpq, hpab⟩ := hone a ha b hb hab
  obtain ⟨q, hq, hqq, hqcd⟩ := hone c hc d hd hcd
  have hsame : p = q := List.inj_on_of_nodup_map hpairs hp hq (hpq.symm.trans (heq.trans hqq))
  refine hapart ?_
  rcases hpab with rfl | rfl <;> rcases hqcd with rfl | rfl <;> simp only [Prod.mk.injEq] at hsame
  · exact .inl hsame
  · exact .inr hsame
  · exact .inr hsame.symm
  · exact .inl hsame.symm

section Conflicts
variable {policy : ObservatoryPolicy} {limits : RuntimeLimits} {target : TargetId} {baseline : IntentBaseline}
  {lhs rhs : EvidenceView} {d : FindingDraft}

theorem pairwise_fieldConflicts {id : ObjectId} {reported other : ObservedObject} :
    (fieldConflicts policy limits target baseline lhs rhs id reported other).Pairwise fun d d' => d.spot ≠ d'.spot := by
  refine OrdMap.pairwise_flatMap_entries (fun d => d.spot.2.1) (fun field _ d hd => ?_)
    (fun d d' hne heq => hne (congrArg (fun spot => spot.2.1) heq)) fun field _ => ?_
  · split at hd
    · cases hd
    · split_ifs at hd
      · rw [List.mem_singleton.mp hd, spot_conflictDraft]
      · cases hd
  · split
    · exact List.Pairwise.nil
    · split_ifs
      · exact List.pairwise_singleton _ _
      · exact List.Pairwise.nil

/-- The conflicts of two views about an object name the object and the two sources. -/
theorem spot_of_mem_objectConflicts {id : ObjectId} {reported : ObservedObject}
    (h : d ∈ objectConflicts policy limits target baseline lhs rhs id reported) :
    d.spot.1 = id ∧ d.spot.2.2 = conflictQualifier lhs.snapshot.source rhs.snapshot.source := by
  unfold objectConflicts at h
  split at h
  · cases h
  · split_ifs at h
    · cases h
    · rw [List.mem_singleton.mp h, spot_conflictDraft]
      exact ⟨rfl, rfl⟩
    · obtain ⟨hobject, hqualifier, -⟩ := exists_mem_fieldConflicts.mp ⟨d, h, rfl⟩
      exact ⟨hobject, hqualifier⟩

theorem pairwise_pairConflicts :
    (pairConflicts policy limits target baseline lhs rhs).Pairwise fun d d' => d.spot ≠ d'.spot := by
  refine OrdMap.pairwise_flatMap_entries (fun d => d.spot.1) (fun entry _ d hd => (spot_of_mem_objectConflicts hd).1)
    (fun d d' hne heq => hne (congrArg _ heq)) fun entry _ => ?_
  unfold objectConflicts
  split
  · exact List.Pairwise.nil
  · split_ifs
    · exact List.Pairwise.nil
    · exact List.pairwise_singleton _ _
    · exact pairwise_fieldConflicts

theorem qualifier_of_mem_pairConflicts (h : d ∈ pairConflicts policy limits target baseline lhs rhs) :
    d.spot.2.2 = conflictQualifier lhs.snapshot.source rhs.snapshot.source := by
  obtain ⟨entry, -, hd⟩ := List.mem_flatMap.mp h
  exact (spot_of_mem_objectConflicts hd).2

theorem qualifier_of_mem_conflictScan : ∀ {views : List EvidenceView},
    views.Pairwise (fun a b => a.snapshot.source ≠ b.snapshot.source) →
    d ∈ conflictScan policy limits target baseline views → ∃ a ∈ views, ∃ b ∈ views,
      a.snapshot.source ≠ b.snapshot.source ∧ d.spot.2.2 = conflictQualifier a.snapshot.source b.snapshot.source
  | [], _, h => by cases h
  | lhs :: rest, hsources, h => by
    obtain ⟨hhead, htail⟩ := List.pairwise_cons.mp hsources
    rw [conflictScan, List.mem_append] at h
    rcases h with h | h
    · split_ifs at h
      · obtain ⟨rhs, hrhs, h⟩ := List.mem_flatMap.mp h
        split_ifs at h
        · exact ⟨lhs, List.mem_cons_self, rhs, List.mem_cons_of_mem _ hrhs, hhead rhs hrhs, qualifier_of_mem_pairConflicts h⟩
        · cases h
      · cases h
    · obtain ⟨a, ha, b, hb, hrest⟩ := qualifier_of_mem_conflictScan htail h
      exact ⟨a, List.mem_cons_of_mem _ ha, b, List.mem_cons_of_mem _ hb, hrest⟩

/-- Unless qualifiers collide, a scan of different sources has one draft at most for a spot. -/
theorem pairwise_conflictScan : ∀ {views : List EvidenceView}, ¬ QualifiersCollide views →
    views.Pairwise (fun a b => a.snapshot.source ≠ b.snapshot.source) →
    (conflictScan policy limits target baseline views).Pairwise fun d d' => d.spot ≠ d'.spot
  | [], _, _ => List.Pairwise.nil
  | lhs :: rest, hdistinct, hsources => by
    obtain ⟨hhead, htail⟩ := List.pairwise_cons.mp hsources
    have hrest : ¬ QualifiersCollide rest := by
      rintro ⟨a, ha, b, hb, c, hc, d, hd, hcollide⟩
      exact hdistinct ⟨a, List.mem_cons_of_mem _ ha, b, List.mem_cons_of_mem _ hb, c, List.mem_cons_of_mem _ hc, d,
        List.mem_cons_of_mem _ hd, hcollide⟩
    -- The head is in every pair that has the qualifier of a pair with the head.
    have hpair : ∀ rhs ∈ rest, ∀ a ∈ lhs :: rest, ∀ b ∈ rest, a.snapshot.source ≠ b.snapshot.source →
        conflictQualifier lhs.snapshot.source rhs.snapshot.source = conflictQualifier a.snapshot.source b.snapshot.source →
          a.snapshot.source = lhs.snapshot.source ∧ rhs.snapshot.source = b.snapshot.source := by
      intro rhs hrhs a ha b hb hab heq
      by_contra hne
      refine hdistinct ⟨lhs, List.mem_cons_self, rhs, List.mem_cons_of_mem _ hrhs, a, ha, b, List.mem_cons_of_mem _ hb,
        hhead rhs hrhs, hab, heq, ?_⟩
      rintro (⟨h1, h2⟩ | ⟨h1, h2⟩)
      · exact hne ⟨h1.symm, h2⟩
      · exact hhead b hb h1
    rw [conflictScan]
    refine List.pairwise_append.mpr ⟨?_, pairwise_conflictScan hrest htail, fun d hd d' hd' heq => ?_⟩
    · split_ifs
      · refine List.pairwise_flatMap.mpr ⟨fun rhs _ => ?_, htail.imp_of_mem fun hb hb' hne d hd d' hd' heq => ?_⟩
        · split_ifs
          · exact pairwise_pairConflicts
          · exact List.Pairwise.nil
        · split_ifs at hd hd'
          · refine hne (hpair _ hb lhs List.mem_cons_self _ hb' (hhead _ hb') ?_).2
            rw [← qualifier_of_mem_pairConflicts hd, ← qualifier_of_mem_pairConflicts hd', heq]
          all_goals first | cases hd | cases hd'
      · exact List.Pairwise.nil
    · split_ifs at hd
      · obtain ⟨rhs, hrhs, hd⟩ := List.mem_flatMap.mp hd
        split_ifs at hd
        · obtain ⟨a, ha, b, hb, hab, hqualifier⟩ := qualifier_of_mem_conflictScan htail hd'
          rw [← heq, qualifier_of_mem_pairConflicts hd] at hqualifier
          exact hhead a ha (hpair rhs hrhs a (List.mem_cons_of_mem _ ha) b hb hab hqualifier).1.symm
        · cases hd
      · cases hd

end Conflicts

/-! ### The primary view -/

/-- The object and the path a draft is about. -/
def FindingDraft.site (d : FindingDraft) : ObjectId × FieldPath := (d.object, d.path)

section Primary
variable {policy : ObservatoryPolicy} {limits : RuntimeLimits} {target : TargetId} {baseline : IntentBaseline}
  {primary : EvidenceView} {id : ObjectId} {path : FieldPath} {declared : IntentObject} {observed : ObservedObject}
  {d : FindingDraft} {drafts : List FindingDraft}

theorem AtMost.pairwise (h : AtMost policy limits target baseline primary id path drafts) :
    drafts.Pairwise fun d d' => d.site ≠ d'.site := by
  rcases h with rfl | ⟨klass, reason, intended, found, rationale, -, rfl⟩
  · exact List.Pairwise.nil
  · exact List.pairwise_singleton _ _

theorem AtMost.site (h : AtMost policy limits target baseline primary id path drafts) (hd : d ∈ drafts) :
    d.site = (id, path) := by
  obtain ⟨klass, reason, intended, found, rationale, -, rfl⟩ := h.of_mem hd
  have hspot := @spot_attachEvidence limits
    { makeDraft policy target baseline id path klass with
      reason := reason, intended := intended, observed := found, rationale := rationale } primary
  exact congrArg (fun spot => (spot.1, spot.2.1)) hspot

theorem site_of_mem_objectFieldDrafts (h : d ∈ objectFieldDrafts policy limits target baseline primary id declared observed) :
    d.site.1 = id := by
  rcases List.mem_append.mp h with h | h
  · obtain ⟨field, -, h⟩ := List.mem_flatMap.mp h
    rw [atMost_declaredFieldDrafts.site h]
  · obtain ⟨field, -, h⟩ := List.mem_flatMap.mp h
    rw [atMost_undeclaredFieldDrafts.site h]

theorem pairwise_objectFieldDrafts :
    (objectFieldDrafts policy limits target baseline primary id declared observed).Pairwise fun d d' => d.site ≠ d'.site := by
  refine List.pairwise_append.mpr ⟨?_, ?_, fun d hd d' hd' heq => ?_⟩
  · exact OrdMap.pairwise_flatMap_entries (fun d => d.site.2) (fun field _ d hd => by rw [atMost_declaredFieldDrafts.site hd])
      (fun d d' hne heq => hne (congrArg _ heq)) fun field _ => atMost_declaredFieldDrafts.pairwise
  · exact OrdMap.pairwise_flatMap_entries (fun d => d.site.2) (fun field _ d hd => by rw [atMost_undeclaredFieldDrafts.site hd])
      (fun d d' hne heq => hne (congrArg _ heq)) fun field _ => atMost_undeclaredFieldDrafts.pairwise
  · -- A field is drafted as declared or as undeclared, not both.
    obtain ⟨field, hfield, hd⟩ := List.mem_flatMap.mp hd
    obtain ⟨field', -, hd'⟩ := List.mem_flatMap.mp hd'
    have hpath : field.1 = field'.1 := by
      rw [atMost_declaredFieldDrafts.site hd, atMost_undeclaredFieldDrafts.site hd'] at heq
      exact congrArg Prod.snd heq
    have hdeclared : declared.fields.contains field'.1 = true :=
      OrdMap.contains_iff.mpr ⟨field.2, hpath ▸ OrdMap.mem_entries_iff.mp hfield⟩
    rw [undeclaredFieldDrafts, hdeclared, Bool.or_true, if_pos rfl] at hd'
    cases hd'

theorem site_of_mem_declaredObjectDrafts (h : d ∈ declaredObjectDrafts policy limits target baseline primary id declared) :
    d.site.1 = id := by
  rcases @declaredObjectDrafts_cases policy limits target baseline primary id declared with hone |
    ⟨observed, -, -, -, hfields⟩
  · rw [hone.site h]
  · rw [hfields] at h
    exact site_of_mem_objectFieldDrafts h

/-- The primary view has one draft at most for an object and path. -/
theorem pairwise_primaryDrafts :
    (primaryDrafts policy limits target baseline primary).Pairwise fun d d' => d.site ≠ d'.site := by
  refine List.pairwise_append.mpr ⟨?_, ?_, fun d hd d' hd' heq => ?_⟩
  · refine OrdMap.pairwise_flatMap_entries (fun d => d.site.1) (fun entry _ d hd => site_of_mem_declaredObjectDrafts hd)
      (fun d d' hne heq => hne (congrArg _ heq)) fun entry _ => ?_
    rcases @declaredObjectDrafts_cases policy limits target baseline primary entry.1 entry.2 with hone |
      ⟨observed, -, -, -, hfields⟩
    · exact hone.pairwise
    · rw [hfields]
      exact pairwise_objectFieldDrafts
  · exact OrdMap.pairwise_flatMap_entries (fun d => d.site.1) (fun entry _ d hd => by rw [atMost_undeclaredObjectDrafts.site hd])
      (fun d d' hne heq => hne (congrArg _ heq)) fun entry _ => atMost_undeclaredObjectDrafts.pairwise
  · -- An object is drafted as declared or as undeclared, not both.
    obtain ⟨entry, hentry, hd⟩ := List.mem_flatMap.mp hd
    obtain ⟨entry', -, hd'⟩ := List.mem_flatMap.mp hd'
    have hid : entry.1 = entry'.1 := by
      rw [← site_of_mem_declaredObjectDrafts hd, heq, atMost_undeclaredObjectDrafts.site hd']
    have hdeclared : baseline.objects.contains entry'.1 = true :=
      OrdMap.contains_iff.mpr ⟨entry.2, hid ▸ OrdMap.mem_entries_iff.mp hentry⟩
    rw [undeclaredObjectDrafts, hdeclared, Bool.or_true, Bool.true_or, if_pos rfl] at hd'
    cases hd'

end Primary

/-! ### One comparison -/

/-- What tells the drafts of a target apart. -/
def FindingDraft.mark (d : FindingDraft) : ObjectId × FieldPath × DriftClass × IntentGeneration × Digest :=
  (d.object, d.path, d.klass, d.baselineGeneration, d.qualifier)

section Comparison
variable {policy : ObservatoryPolicy} {limits : RuntimeLimits} {input : TargetComparisonInput} {target : TargetId}
  {baseline : IntentBaseline} {views : List EvidenceView} {primary : EvidenceView} {e : TargetEvaluation}

/-- Two conflicts are at different spots, and two drafts that are none are at different sites. -/
structure FindingDraft.Apart (d d' : FindingDraft) : Prop where
  conflicts : d.klass = .sourceConflict → d'.klass = .sourceConflict → d.spot ≠ d'.spot
  others : d.klass ≠ .sourceConflict → d'.klass ≠ .sourceConflict → d.site ≠ d'.site

theorem FindingDraft.Apart.mark_ne {d d' : FindingDraft} (h : d.Apart d') : d.mark ≠ d'.mark := by
  intro heq
  have hklass : d.klass = d'.klass := congrArg (fun mark => mark.2.2.1) heq
  by_cases hd : d.klass = .sourceConflict
  · exact h.conflicts hd (hklass ▸ hd) (congrArg (fun mark => (mark.1, mark.2.1, mark.2.2.2.2)) heq)
  · exact h.others hd (hklass ▸ hd) (congrArg (fun mark => (mark.1, mark.2.1)) heq)

/-- The step keeps the sites of the drafts and leaves conflicts as they are. -/
theorem FindingDraft.Apart.regroupDraft {isPartial : Bool} {qualifier : Digest} {d d' : FindingDraft} (h : d.Apart d') :
    (regroupDraft policy isPartial qualifier d).Apart (regroupDraft policy isPartial qualifier d') := by
  have hsite : ∀ d : FindingDraft, (DriftObservatory.regroupDraft policy isPartial qualifier d).site = d.site := fun d => by
    unfold DriftObservatory.regroupDraft
    split_ifs <;> rfl
  have hconflict : ∀ d : FindingDraft, d.klass = .sourceConflict →
      DriftObservatory.regroupDraft policy isPartial qualifier d = d := fun d hd => by
    rw [DriftObservatory.regroupDraft, hd]
    rfl
  constructor
  · simp only [klass_regroupDraft_eq_sourceConflict]
    intro hd hd'
    rw [hconflict d hd, hconflict d' hd']
    exact h.conflicts hd hd'
  · simp only [ne_eq, klass_regroupDraft_eq_sourceConflict, hsite]
    exact h.others

/-- Before and after the step, the drafts of a comparison are apart. -/
theorem pairwise_comparedDrafts (hdistinct : ¬ QualifiersCollide (views.take kMaxConflictSources))
    (hsources : views.Pairwise fun a b => a.snapshot.source ≠ b.snapshot.source) :
    (comparedDrafts policy limits target baseline views primary).Pairwise FindingDraft.Apart := by
  have hleaf : ∀ d ∈ primaryDrafts policy limits target baseline primary, d.klass ≠ .sourceConflict := by
    intro d hd
    obtain ⟨object, path, klass, reason, intended, observed, rationale, hleaf, rfl⟩ := leaf_of_mem_primaryDrafts hd
    rw [klass_primaryDraft]
    rintro rfl
    cases hleaf
  have hplain : (conflictDrafts policy limits target baseline views ++
      primaryDrafts policy limits target baseline primary).Pairwise FindingDraft.Apart := by
    refine List.pairwise_append.mpr ⟨?_, ?_, fun d hd d' hd' => ?_⟩
    · refine (pairwise_conflictScan hdistinct (hsources.sublist (List.take_sublist _ _))).imp_of_mem fun hd _ hne => ?_
      exact ⟨fun _ _ => hne, fun hklass => absurd (klass_of_mem_conflictScan hd) hklass⟩
    · exact pairwise_primaryDrafts.imp_of_mem fun hd _ hne => ⟨fun hklass => absurd hklass (hleaf _ hd), fun _ _ => hne⟩
    · exact ⟨fun _ hklass => absurd hklass (hleaf d' hd'), fun hklass => absurd (klass_of_mem_conflictScan hd) hklass⟩
  unfold comparedDrafts regroupDrafts
  split
  · exact hplain
  · exact List.pairwise_map.mpr (hplain.imp fun h => h.regroupDraft)

/-- No two drafts of a comparison have the same mark. -/
theorem pairwise_mark (hdistinct : ¬ QualifiersCollide ((orderedViews policy input).take kMaxConflictSources)) :
    (compareTarget input policy limits).drafts.Pairwise fun d d' => d.mark ≠ d'.mark := by
  have hbranch := @branch_compareTarget policy limits input
  generalize compareTarget input policy limits = evaluation at hbranch ⊢
  cases hbranch with
  | mismatched =>
    rw [TargetEvaluation.drafts_appendTrace]
    dsimp only
    rw [drafts_openEvaluation]
    exact List.Pairwise.nil
  | noIntent =>
    unfold noIntentEvaluation
    dsimp only
    split_ifs
    · rw [TargetEvaluation.drafts_appendTrace]
      exact List.pairwise_singleton _ _
    · rw [TargetEvaluation.drafts_appendTrace, drafts_considered]
      exact List.Pairwise.nil
  | noEvidence =>
    unfold noEvidenceEvaluation
    rw [TargetEvaluation.drafts_appendTrace]
    exact List.pairwise_singleton _ _
  | compared hreaches =>
    rw [drafts_compareWithPrimary]
    exact (pairwise_comparedDrafts (hreaches.views ▸ hdistinct) (hreaches.views ▸ distinct_orderedViews)).imp fun h => h.mark_ne

theorem target_of_mem_drafts {d : FindingDraft} (h : d ∈ (compareTarget input policy limits).drafts) :
    d.target = input.target :=
  (congrArg Prod.fst (place_of_mem_drafts h)).trans target_compareTarget

end Comparison

/-! ### The table of findings -/

namespace FindingLedger

theorem draftMap_complete {drafts : List FindingDraft} (h : (drafts.map fun d => d.identity.computeId).Nodup) :
    (draftMap drafts).size = drafts.length ∧
      ∀ d ∈ drafts, (draftMap drafts).find? d.identity.computeId = some d := by
  constructor
  · have hsize := @OrdMap.size_eq_add_countP _ _ _ ∅ (draftMap drafts) _ h fun id => by
      rw [contains_draftMap, List.mem_map]
      exact ⟨.inr, fun h => h.resolve_left fun hempty => (by cases hempty)⟩
    have hnew : ((drafts.map fun d => d.identity.computeId).countP fun id =>
        !(∅ : OrdMap FindingId FindingDraft).contains id) = drafts.length := by
      refine (List.countP_eq_length.mpr fun id _ => ?_).trans (List.length_map _)
      rfl
    rw [hsize, hnew]
    exact Nat.zero_add _
  · intro d hd
    obtain ⟨d', hfound⟩ := OrdMap.contains_iff.mp (contains_draftMap.mpr ⟨d, hd, rfl⟩)
    obtain ⟨hd', hid⟩ := mem_of_find?_draftMap hfound
    rw [hfound, List.inj_on_of_nodup_map h hd' hd hid]

/-- The identities that evaluations draft, in order. -/
def draftedIds (evaluations : List TargetEvaluation) : List FindingId :=
  evaluations.flatMap fun e => e.drafts.map fun d => d.identity.computeId

theorem mem_draftedIds {evaluations : List TargetEvaluation} {id : FindingId} :
    id ∈ draftedIds evaluations ↔ Drafts evaluations id := by
  simp only [draftedIds, List.mem_flatMap, List.mem_map, Drafts]

theorem newFindings_eq {L : FindingLedger} {targets : List TargetEvaluation} :
    L.newFindings targets = (draftedIds (targets.filter L.accepts)).countP fun id => !L.findings.contains id := by
  rw [newFindings, draftedIds, List.countP_flatMap]
  simp only [List.countP_map, Function.comp_def]

section Applied
variable [DoubleChars] {outcome : EvaluationOutcome} {policy : ObservatoryPolicy} {now : NdoTime}

/-- What an evaluation that is applied adds to the table are the identities that its accepted targets draft. -/
theorem contains_applyEvaluation {L : FindingLedger} {id : FindingId}
    (hok : (L.applyEvaluation outcome policy now).1.ok = true) :
    (L.applyEvaluation outcome policy now).2.1.findings.contains id = true ↔
      L.findings.contains id = true ∨ Drafts (outcome.targets.filter L.accepts) id := by
  unfold applyEvaluation at hok ⊢
  dsimp only at hok ⊢
  by_cases hfull : L.limits.maxFindings < L.findings.size + L.newFindings outcome.targets
  · rw [if_pos hfull] at hok
    cases hok
  · rw [if_neg hfull] at hok ⊢
    have hrule := @processed_rule _ outcome policy now
      (fun M done => M.findings.contains id = true ↔ L.findings.contains id = true ∨ Drafts done id)
      (outcome.targets.filter L.accepts) L
      { fencedTargets := outcome.targets.length - (outcome.targets.filter L.accepts).length } []
      (fun M report done e _ hM => by rw [contains_applyTarget_iff, hM, drafts_append, or_assoc]) (by simp [Drafts])
    have hall := @processed_of_ok _ outcome policy now L (outcome.targets.filter L.accepts)
      { fencedTargets := outcome.targets.length - (outcome.targets.filter L.accepts).length }
    rcases hloop : applyTargets outcome policy now (outcome.targets.filter L.accepts) L
      { fencedTargets := outcome.targets.length - (outcome.targets.filter L.accepts).length } with ⟨status, M, report⟩
    rw [hloop] at hrule hall
    simp only [hloop] at hok ⊢
    by_cases hstatus : status.ok = true
    · rw [hall hstatus, List.nil_append] at hrule
      simp only [hstatus, Bool.not_true, Bool.false_eq_true, if_false]
      rw [OrdMap.contains, find?_expireSuppressions, Option.isSome_map]
      exact hrule
    · simp only [hstatus, Bool.not_false, if_true] at hok
      cases hok

end Applied

/-- The identities that comparisons of different targets draft are all different. -/
theorem nodup_draftedIds {policy : ObservatoryPolicy} {limits : RuntimeLimits} {inputs : List TargetComparisonInput}
    (htargets : (inputs.map TargetComparisonInput.target).Nodup)
    (hqualifiers : ∀ input ∈ inputs, ¬ QualifiersCollide ((orderedViews policy input).take kMaxConflictSources))
    (hsha : ¬ Collides (inputs.map fun input => compareTarget input policy limits)) :
    (draftedIds (inputs.map fun input => compareTarget input policy limits)).Nodup := by
  have hne : ∀ input ∈ inputs, ∀ input' ∈ inputs, ∀ d ∈ (compareTarget input policy limits).drafts,
      ∀ d' ∈ (compareTarget input' policy limits).drafts, d.identity ≠ d'.identity →
        d.identity.computeId ≠ d'.identity.computeId := by
    intro input hinput input' hinput' d hd d' hd' hne heq
    exact hsha ⟨d.identity, d'.identity, ⟨_, List.mem_map_of_mem hinput, d, hd, rfl⟩,
      ⟨_, List.mem_map_of_mem hinput', d', hd', rfl⟩, hne, heq⟩
  rw [draftedIds, List.flatMap_map]
  refine List.pairwise_flatMap.mpr ⟨fun input hinput => ?_, ?_⟩
  · refine List.pairwise_map.mpr ((pairwise_mark (hqualifiers input hinput)).imp_of_mem fun hd hd' hmark => ?_)
    refine hne input hinput input hinput _ hd _ hd' fun heq => hmark ?_
    exact congrArg (fun i : FindingIdentity => (i.object, i.path, i.klass, i.baselineGeneration, i.qualifier)) heq
  · refine (List.pairwise_map.mp htargets).imp_of_mem fun hinput hinput' htarget id hid id' hid' => ?_
    obtain ⟨d, hd, rfl⟩ := List.mem_map.mp hid
    obtain ⟨d', hd', rfl⟩ := List.mem_map.mp hid'
    refine hne _ hinput _ hinput' d hd d' hd' fun heq => htarget ?_
    rw [← target_of_mem_drafts hd, ← target_of_mem_drafts hd']
    exact congrArg FindingIdentity.target heq

/-- Different identifiers in the table, different identities. -/
theorem not_collides {evaluations : List TargetEvaluation} (h : (draftedIds evaluations).Nodup) :
    ¬ Collides evaluations := by
  rintro ⟨i, j, ⟨e, he, d, hd, rfl⟩, ⟨e', he', d', hd', rfl⟩, hne, heq⟩
  have hids : ((evaluations.flatMap TargetEvaluation.drafts).map fun d => d.identity.computeId).Nodup := by
    rw [List.map_flatMap]
    exact h
  exact hne (congrArg FindingDraft.identity
    (List.inj_on_of_nodup_map hids (List.mem_flatMap.mpr ⟨e, he, hd⟩) (List.mem_flatMap.mpr ⟨e', he', hd'⟩) heq))

end FindingLedger

open FindingLedger in
/-- The drafts of a comparison are about its target and, unless qualifiers of pairs of sources collide, have different
    identities. So, unless these collide, an evaluation that is applied keeps all its drafts, and the count of new
    findings is exact. -/
theorem draft_identities_unique [DoubleChars] (policy : ObservatoryPolicy) (limits : RuntimeLimits) :
    (∀ input, (∀ d ∈ (compareTarget input policy limits).drafts, d.target = input.target) ∧
      (¬ QualifiersCollide ((orderedViews policy input).take kMaxConflictSources) →
        (compareTarget input policy limits).drafts.Pairwise fun d d' => d.mark ≠ d'.mark)) ∧
    ∀ inputs : List TargetComparisonInput, (inputs.map TargetComparisonInput.target).Nodup →
      (∀ input ∈ inputs, ¬ QualifiersCollide ((orderedViews policy input).take kMaxConflictSources)) →
      ∀ outcome : EvaluationOutcome, outcome.targets = inputs.map (fun input => compareTarget input policy limits) →
        ¬ Collides outcome.targets →
        (∀ e ∈ outcome.targets, (draftMap e.drafts).size = e.drafts.length ∧
          ∀ d ∈ e.drafts, (draftMap e.drafts).find? d.identity.computeId = some d) ∧
        ∀ (L : FindingLedger) (rules : ObservatoryPolicy) (now : NdoTime),
          L.newFindings outcome.targets = ((draftedIds (outcome.targets.filter L.accepts)).toFinset.filter fun id =>
            L.findings.contains id = false).card ∧
          ((L.applyEvaluation outcome rules now).1.ok = true →
            (L.applyEvaluation outcome rules now).2.1.findings.size = L.findings.size + L.newFindings outcome.targets) := by
  refine ⟨fun input => ⟨fun d hd => target_of_mem_drafts hd, fun h => pairwise_mark h⟩, ?_⟩
  intro inputs htargets hqualifiers outcome houtcome hsha
  have hnodup : (draftedIds outcome.targets).Nodup := by
    rw [houtcome] at hsha ⊢
    exact nodup_draftedIds htargets hqualifiers hsha
  refine ⟨fun e he => draftMap_complete ?_, fun L rules now => ?_⟩
  · exact (List.pairwise_flatMap.mp hnodup).1 e he
  · have haccepted : (draftedIds (outcome.targets.filter L.accepts)).Nodup :=
      hnodup.sublist (List.filter_sublist.flatMap _)
    refine ⟨?_, fun hok => ?_⟩
    · rw [newFindings_eq, List.countP_eq_length_filter, ← List.toFinset_card_of_nodup (haccepted.filter _),
        List.toFinset_filter]
      simp only [Bool.not_eq_true']
    · rw [newFindings_eq]
      refine OrdMap.size_eq_add_countP haccepted fun id => ?_
      rw [contains_applyEvaluation hok, mem_draftedIds]

namespace Sample

/-- A third source, with a third value. -/
def third : ObservationSnapshot :=
  snapshot "c" { id := object, presence := .present, fields := OrdMap.ofList [(path, .makeInt 3)] }

/-- Two targets are required. -/
def demanding : ObservatoryPolicy := { requiring with requiredTargets := [target, other] }

/-- Three sources contradict each other about one target, and the other one has no intent. -/
def disputed : List TargetComparisonInput :=
  [.ofPairs target (some declaring) ([first, second, third].map fun s => (some s, fresh)), .ofPairs other none []]

def disputedOutcome : EvaluationOutcome where
  now := ⟨1⟩
  epoch := ⟨1⟩
  incarnation := ⟨1⟩
  policy := demanding.id
  policyDigest := default
  targets := disputed.map fun input => compareTarget input demanding {}

/-- The ledger in which the intent of the one target is committed. -/
def pledged : FindingLedger where
  limits := {}
  baselines := OrdMap.ofList [(target, declaring)]

/-- No two pairs of the three sources have one qualifier. -/
theorem disputed_qualifiers :
    ∀ input ∈ disputed, ¬ QualifiersCollide ((orderedViews demanding input).take kMaxConflictSources) := by
  have hsources : ∀ input ∈ disputed, ∀ v ∈ (orderedViews demanding input).take kMaxConflictSources,
      v.snapshot.source ∈ [first.source, second.source, third.source] := by decide +kernel
  exact fun input hinput => not_qualifiersCollide (hsources input hinput) (by decide +kernel)

end Sample

open FindingLedger in
theorem draft_identities_unique_disputed :
    Sample.disputedOutcome.targets.map (fun e => e.drafts.map FindingDraft.klass) =
        [[.sourceConflict, .sourceConflict, .sourceConflict], [.intentMissing]] ∧
      (∀ e ∈ Sample.disputedOutcome.targets, e.drafts.Pairwise fun d d' => d.mark ≠ d'.mark) ∧
      (∀ e ∈ Sample.disputedOutcome.targets, (draftMap e.drafts).size = e.drafts.length) ∧
      (@applyEvaluation Sample.noDoubles Sample.pledged Sample.disputedOutcome Sample.demanding ⟨1⟩).2.1.findings.size =
        Sample.pledged.findings.size + newFindings Sample.pledged Sample.disputedOutcome.targets := by
  have hids : (draftedIds Sample.disputedOutcome.targets).Nodup := by decide +kernel
  obtain ⟨hdrafts, hkept⟩ := @draft_identities_unique Sample.noDoubles Sample.demanding {}
  obtain ⟨hmap, hcount⟩ := hkept Sample.disputed (by decide) Sample.disputed_qualifiers Sample.disputedOutcome rfl
    (not_collides hids)
  refine ⟨by decide +kernel, fun e he => ?_, fun e he => (hmap e he).1, (hcount _ _ _).2 (by decide +kernel)⟩
  obtain ⟨input, hinput, rfl⟩ := List.mem_map.mp he
  exact (hdrafts input).2 (Sample.disputed_qualifiers input hinput)

end DriftObservatory
