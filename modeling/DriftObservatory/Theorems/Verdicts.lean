import DriftObservatory.Theorems.Compliance

/-! What the comparator returns: the target and generation it was asked about, and, where it can decide, the drafts of
    the conflict scan and of the primary view. -/

namespace DriftObservatory

/-! ### The header -/

namespace TargetEvaluation
variable {e : TargetEvaluation} {text : Text} {condition : Bool}

/-- The target and the baseline an evaluation is about. -/
def header (e : TargetEvaluation) : TargetId × Bool × IntentGeneration :=
  (e.target, e.hasBaseline, e.baselineGeneration)

@[simp] theorem header_appendTrace : (e.appendTrace text).header = e.header := by
  unfold appendTrace
  split_ifs <;> rfl

@[simp] theorem header_appendTraceIf : (e.appendTraceIf condition text).header = e.header := by
  cases condition <;> simp [appendTraceIf]

end TargetEvaluation

section Verdict
variable {policy : ObservatoryPolicy} {limits : RuntimeLimits} {input : TargetComparisonInput}
  {target : TargetId} {baseline : IntentBaseline} {views : List EvidenceView} {primary : EvidenceView}
  {e : TargetEvaluation}

theorem header_decideCompliance {coverageOk : Bool} : (decideCompliance e coverageOk).header = e.header := by
  simp only [decideCompliance, TargetEvaluation.header_appendTrace, TargetEvaluation.header_appendTraceIf]
  rfl

theorem header_noIntentEvaluation : (noIntentEvaluation policy limits target views e).header = e.header := by
  unfold noIntentEvaluation
  dsimp only
  split_ifs
  · exact TargetEvaluation.header_appendTrace
  · exact TargetEvaluation.header_appendTrace

theorem header_noEvidenceEvaluation :
    (noEvidenceEvaluation policy limits target baseline views e).header = e.header := by
  simp only [noEvidenceEvaluation, TargetEvaluation.header_appendTrace]
  rfl

theorem header_drafts {drafts : List FindingDraft} : { e with drafts := drafts }.header = e.header := rfl

theorem header_compareWithPrimary :
    (compareWithPrimary policy limits target baseline views primary e).header = e.header := by
  unfold compareWithPrimary
  dsimp only
  rw [header_decideCompliance, header_drafts]
  split <;> simp only [TargetEvaluation.header_appendTrace, TargetEvaluation.header_appendTraceIf]

/-- An evaluation is about the target and the baseline of its input. -/
theorem header_compareTarget : (compareTarget input policy limits).header = (openEvaluation input).header := by
  have hevidence : ∀ {e : TargetEvaluation} {considered freshSources : Nat} {best : FreshnessState},
      { e with sourcesConsidered := considered, freshSources := freshSources, bestFreshness := best }.header =
        e.header := rfl
  unfold compareTarget compareTargetWith
  dsimp only
  split_ifs with hlen
  · rw [TargetEvaluation.header_appendTrace]
    rfl
  · split
    · rw [header_noIntentEvaluation, hevidence, TargetEvaluation.header_appendTraceIf]
    · split
      · rw [header_noEvidenceEvaluation, hevidence, TargetEvaluation.header_appendTraceIf]
      · split_ifs
        · rw [header_compareWithPrimary, hevidence, TargetEvaluation.header_appendTraceIf]
        · rw [header_noEvidenceEvaluation, hevidence, TargetEvaluation.header_appendTraceIf]

@[simp] theorem target_compareTarget : (compareTarget input policy limits).target = input.target := by
  have h := congrArg Prod.fst (@header_compareTarget policy limits input)
  refine h.trans ?_
  unfold openEvaluation
  split <;> rfl

theorem hasBaseline_compareTarget :
    (compareTarget input policy limits).hasBaseline = input.baseline.isSome := by
  have h := congrArg (fun p => p.2.1) (@header_compareTarget policy limits input)
  refine h.trans ?_
  unfold openEvaluation
  split <;> rename_i hb <;> rw [hb] <;> rfl

theorem generation_compareTarget (hb : input.baseline = some baseline) :
    (compareTarget input policy limits).baselineGeneration = baseline.generation := by
  have h := congrArg (fun p => p.2.2) (@header_compareTarget policy limits input)
  refine h.trans ?_
  unfold openEvaluation
  rw [hb]
  rfl

/-! ### The branches of the comparator -/

/-- The evaluation of an input before one of the branches is taken. -/
def considered (policy : ObservatoryPolicy) (input : TargetComparisonInput) : TargetEvaluation :=
  { (openEvaluation input).appendTraceIf ((newestViews policy input).length ≠ (collectViews policy input).length)
      (ascii "older snapshots from the same source were superseded by newer ones") with
    sourcesConsidered := (orderedViews policy input).length
    freshSources := (orderedViews policy input).countP EvidenceView.usable
    bestFreshness := ((orderedViews policy input).head?.map fun v => v.verdict.state).getD .unknown }

theorem drafts_openEvaluation : (openEvaluation input).drafts = [] := by
  unfold openEvaluation
  split <;> rfl

theorem drafts_considered : (considered policy input).drafts = [] := by
  show ((openEvaluation input).appendTraceIf _ _).drafts = []
  rw [TargetEvaluation.drafts_appendTraceIf, drafts_openEvaluation]

/-- The comparison gets to the primary view. -/
structure Reaches (policy : ObservatoryPolicy) (input : TargetComparisonInput) (baseline : IntentBaseline)
    (primary : EvidenceView) (rest : List EvidenceView) : Prop where
  counts : input.snapshots.length = input.freshness.length
  committed : input.baseline = some baseline
  views : orderedViews policy input = primary :: rest
  usable : primary.usable = true

/-- The evaluation that each branch returns. -/
inductive Branch (policy : ObservatoryPolicy) (limits : RuntimeLimits) (input : TargetComparisonInput) :
    TargetEvaluation → Prop
  | mismatched (hcounts : input.snapshots.length ≠ input.freshness.length) : Branch policy limits input
      ({ openEvaluation input with
          complianceDecidable := false, compliant := false
          decisionReason := .comparisonBaselineUnavailable }.appendTrace
        (ascii "evidence and verdict counts disagree; no comparison performed"))
  | noIntent (hcounts : input.snapshots.length = input.freshness.length) (hnone : input.baseline = none) :
      Branch policy limits input
        (noIntentEvaluation policy limits input.target (orderedViews policy input) (considered policy input))
  | noEvidence {baseline : IntentBaseline} (hcounts : input.snapshots.length = input.freshness.length)
      (hsome : input.baseline = some baseline) (hunusable : ∀ v ∈ orderedViews policy input, v.usable = false) :
      Branch policy limits input
        (noEvidenceEvaluation policy limits input.target baseline (orderedViews policy input) (considered policy input))
  | compared {baseline : IntentBaseline} {primary : EvidenceView} {rest : List EvidenceView}
      (hreaches : Reaches policy input baseline primary rest) : Branch policy limits input
        (compareWithPrimary policy limits input.target baseline (primary :: rest) primary (considered policy input))

theorem branch_compareTarget : Branch policy limits input (compareTarget input policy limits) := by
  unfold compareTarget compareTargetWith
  dsimp only
  split_ifs with hlen
  · exact .mismatched hlen
  · rw [not_not] at hlen
    cases hb : input.baseline with
    | none => exact .noIntent hlen hb
    | some baseline =>
      dsimp only
      cases hv : orderedViews policy input with
      | nil =>
        have hbranch : Branch policy limits input _ := .noEvidence hlen hb (by simp [hv])
        rw [considered, hv] at hbranch
        exact hbranch
      | cons primary rest =>
        dsimp only
        split_ifs with hany
        · have hbranch : Branch policy limits input _ := .compared ⟨hlen, hb, hv, usable_head hv hany⟩
          rw [considered, hv] at hbranch
          exact hbranch
        · have hbranch : Branch policy limits input _ := .noEvidence hlen hb fun v hmem => by
            rw [hv] at hmem
            exact Bool.eq_false_iff.mpr fun hu => hany (List.any_eq_true.mpr ⟨v, hmem, hu⟩)
          rw [considered, hv] at hbranch
          exact hbranch

theorem Reaches.compareTarget_eq {rest : List EvidenceView} (h : Reaches policy input baseline primary rest) :
    compareTarget input policy limits =
      compareWithPrimary policy limits input.target baseline (primary :: rest) primary (considered policy input) := by
  have hany : (primary :: rest).any EvidenceView.usable = true :=
    List.any_eq_true.mpr ⟨primary, List.mem_cons_self, h.usable⟩
  unfold compareTarget compareTargetWith considered
  simp only [h.counts, ne_eq, not_true_eq_false, if_false, h.committed, h.views, hany, if_true]

theorem exists_reaches (hcounts : input.snapshots.length = input.freshness.length)
    (hcommitted : input.baseline = some baseline) {v : EvidenceView} (hv : v ∈ newestViews policy input)
    (hu : v.usable = true) : ∃ primary rest, Reaches policy input baseline primary rest := by
  have hmem : v ∈ orderedViews policy input := sortBy.mem_iff.mpr hv
  cases hviews : orderedViews policy input with
  | nil =>
    rw [hviews] at hmem
    cases hmem
  | cons primary rest =>
    rw [hviews] at hmem
    exact ⟨primary, rest, hcounts, hcommitted, hviews, usable_head hviews (List.any_eq_true.mpr ⟨v, hmem, hu⟩)⟩

/-! ### The drafts of a decided target -/

/-- The drafts of a comparison with the primary view. -/
def comparedDrafts (policy : ObservatoryPolicy) (limits : RuntimeLimits) (target : TargetId) (baseline : IntentBaseline)
    (views : List EvidenceView) (primary : EvidenceView) : List FindingDraft :=
  regroupDrafts policy (scanAppliedGenerations primary baseline.objects baseline.generation) baseline.generation
    (conflictDrafts policy limits target baseline views ++ primaryDrafts policy limits target baseline primary)

theorem drafts_compareWithPrimary : (compareWithPrimary policy limits target baseline views primary e).drafts =
    comparedDrafts policy limits target baseline views primary := by
  unfold compareWithPrimary decideCompliance
  simp only [TargetEvaluation.drafts_appendTrace, TargetEvaluation.drafts_appendTraceIf]
  rfl

theorem decidable_compareWithPrimary :
    (compareWithPrimary policy limits target baseline views primary e).complianceDecidable = true ↔
      (∀ d ∈ comparedDrafts policy limits target baseline views primary, d.blocksDecision = false) ∧
        (policy.requireCompleteCoverageForCompliance = true → primary.complete = true) := by
  unfold compareWithPrimary decideCompliance
  simp only [TargetEvaluation.complianceDecidable_appendTrace, TargetEvaluation.complianceDecidable_appendTraceIf,
    Bool.and_eq_true, Bool.not_eq_true', List.any_eq_false, Bool.not_eq_true, Bool.or_eq_true]
  refine and_congr Iff.rfl ?_
  cases policy.requireCompleteCoverageForCompliance <;> simp

theorem decidable_noIntentEvaluation :
    (noIntentEvaluation policy limits target views e).complianceDecidable = false := rfl

theorem decidable_noEvidenceEvaluation :
    (noEvidenceEvaluation policy limits target baseline views e).complianceDecidable = false := by
  simp [noEvidenceEvaluation]

/-! ### What drafts are about -/

/-- The target and the generation a draft is about. -/
def FindingDraft.place (d : FindingDraft) : TargetId × IntentGeneration := (d.target, d.baselineGeneration)

@[simp] theorem place_attachEvidence {d : FindingDraft} (view : EvidenceView) :
    (attachEvidence limits d view).place = d.place := by
  unfold attachEvidence
  split_ifs <;> rfl

theorem place_foldl_attachEvidence {d : FindingDraft} : (views.foldl (attachEvidence limits) d).place = d.place := by
  induction views generalizing d with
  | nil => rfl
  | cons view rest ih => rw [List.foldl_cons, ih, place_attachEvidence]

theorem place_of_mem_comparedDrafts {d : FindingDraft} (h : d ∈ comparedDrafts policy limits target baseline views primary) :
    d.place = (target, baseline.generation) := by
  have hplain : ∀ d ∈ conflictDrafts policy limits target baseline views ++
      primaryDrafts policy limits target baseline primary, d.place = (target, baseline.generation) := by
    intro d hd
    rcases List.mem_append.mp hd with hd | hd
    · obtain ⟨lhs, rhs, object, path, observed, intended, what, rfl⟩ := shape_of_mem_conflictScan hd
      rw [conflictDraft, place_attachEvidence, place_attachEvidence]
      rfl
    · obtain ⟨object, path, klass, reason, intended, observed, rationale, -, rfl⟩ := shape_of_mem_primaryDrafts hd
      rw [primaryDraft, place_attachEvidence]
      rfl
  unfold comparedDrafts regroupDrafts at h
  split at h
  · exact hplain d h
  · obtain ⟨d', hd', rfl⟩ := List.mem_map.mp h
    rw [← hplain d' hd', regroupDraft]
    split_ifs <;> rfl

theorem place_of_mem_noIntentEvaluation {d : FindingDraft} (hnone : e.drafts = [])
    (h : d ∈ (noIntentEvaluation policy limits target views e).drafts) : d.place = (target, default) := by
  unfold noIntentEvaluation at h
  dsimp only at h
  split_ifs at h
  · rw [TargetEvaluation.drafts_appendTrace] at h
    rw [List.mem_singleton.mp h]
    cases views with
    | nil => rfl
    | cons view rest => exact place_attachEvidence view
  · rw [TargetEvaluation.drafts_appendTrace, hnone] at h
    cases h

theorem place_of_mem_noEvidenceEvaluation {d : FindingDraft}
    (h : d ∈ (noEvidenceEvaluation policy limits target baseline views e).drafts) :
    d.place = (target, baseline.generation) := by
  unfold noEvidenceEvaluation at h
  rw [TargetEvaluation.drafts_appendTrace] at h
  rw [List.mem_singleton.mp h, place_foldl_attachEvidence]
  rfl

/-- Every draft is about the target and the generation of its evaluation. -/
theorem place_of_mem_drafts {d : FindingDraft} (h : d ∈ (compareTarget input policy limits).drafts) :
    d.place = ((compareTarget input policy limits).target, (compareTarget input policy limits).baselineGeneration) := by
  have hheader := @header_compareTarget policy limits input
  have hbranch := @branch_compareTarget policy limits input
  generalize compareTarget input policy limits = evaluation at h hheader hbranch ⊢
  have hplace : d.place = ((openEvaluation input).target, (openEvaluation input).baselineGeneration) := by
    cases hbranch with
    | mismatched =>
      rw [TargetEvaluation.drafts_appendTrace] at h
      dsimp only at h
      rw [drafts_openEvaluation] at h
      cases h
    | noIntent _ hnone => rw [place_of_mem_noIntentEvaluation drafts_considered h, openEvaluation, hnone]
    | noEvidence _ hsome => rw [place_of_mem_noEvidenceEvaluation h, openEvaluation, hsome]
    | compared hreaches =>
      rw [drafts_compareWithPrimary] at h
      rw [place_of_mem_comparedDrafts h, openEvaluation, hreaches.committed]
  rw [hplace]
  exact (congrArg (fun p => (p.1, p.2.2)) hheader).symm

/-- A decided target has committed intent and a usable primary with the coverage the policy asks for, and its drafts
    are those of the comparison with it. -/
theorem compared_of_decidable (h : (compareTarget input policy limits).complianceDecidable = true) :
    ∃ baseline primary, Compared policy input baseline primary ∧
      primary.complete = primary.snapshot.declaresCompleteCoverage ∧
      (compareTarget input policy limits).drafts =
        comparedDrafts policy limits input.target baseline (orderedViews policy input) primary ∧
      ∀ d ∈ (compareTarget input policy limits).drafts, d.blocksDecision = false := by
  have hbranch := @branch_compareTarget policy limits input
  generalize compareTarget input policy limits = evaluation at h hbranch ⊢
  cases hbranch with
  | mismatched => simp at h
  | noIntent =>
    rw [decidable_noIntentEvaluation] at h
    cases h
  | noEvidence =>
    rw [decidable_noEvidenceEvaluation] at h
    cases h
  | @compared baseline primary rest hreaches =>
    have hcomplete : primary.complete = primary.snapshot.declaresCompleteCoverage :=
      complete_of_mem_orderedViews (hreaches.views ▸ List.mem_cons_self)
    obtain ⟨hdecided, hcoverage⟩ := decidable_compareWithPrimary.mp h
    refine ⟨baseline, primary, ⟨hreaches.committed, by rw [hreaches.views]; rfl, hreaches.usable,
      fun hr => hcomplete ▸ hcoverage hr⟩, hcomplete, ?_, ?_⟩
    · rw [hreaches.views]
      exact drafts_compareWithPrimary
    · rw [drafts_compareWithPrimary]
      exact hdecided

end Verdict

end DriftObservatory
