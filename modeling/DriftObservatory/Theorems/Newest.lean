import DriftObservatory.Theorems.Sources
import DriftObservatory.Theorems.Twins
import DriftObservatory.Theorems.Windows

/-! Only the newest observation of a source counts. What a window keeps behind it changes nothing of an evaluation but its
    trace. -/

namespace DriftObservatory

/-! ### Evaluations but for their traces -/

def TargetEvaluation.untraced (e : TargetEvaluation) : TargetEvaluation := { e with trace := [] }

section Untraced
variable {policy : ObservatoryPolicy} {limits : RuntimeLimits} {target : TargetId} {baseline : IntentBaseline}
  {input input' : TargetComparisonInput} {views : List EvidenceView} {primary : EvidenceView} {e e' : TargetEvaluation}
  {text : Text} {condition : Bool}

theorem untraced_appendTrace : (e.appendTrace text).untraced = e.untraced := by
  unfold TargetEvaluation.appendTrace
  split_ifs <;> rfl

theorem untraced_appendTraceIf : (e.appendTraceIf condition text).untraced = e.untraced := by
  cases condition
  · rfl
  · exact untraced_appendTrace

theorem exists_of_untraced (h : e.untraced = e'.untraced) : ∃ trace, e' = { e with trace := trace } := by
  refine ⟨e'.trace, ?_⟩
  cases e
  cases e'
  simp only [TargetEvaluation.untraced, TargetEvaluation.mk.injEq] at h ⊢
  tauto

theorem untraced_decideCompliance {trace : List Text} {coverageOk : Bool} :
    (decideCompliance { e with trace := trace } coverageOk).untraced = (decideCompliance e coverageOk).untraced := by
  unfold decideCompliance
  dsimp only
  rw [untraced_appendTrace, untraced_appendTrace, untraced_appendTraceIf, untraced_appendTraceIf]
  rfl

theorem untraced_noIntentEvaluation {trace : List Text} :
    (noIntentEvaluation policy limits target views { e with trace := trace }).untraced =
      (noIntentEvaluation policy limits target views e).untraced := by
  have hundecided : ∀ (e : TargetEvaluation) (reason : ReasonCode),
      ({ e with complianceDecidable := false, compliant := false, decisionReason := reason } : TargetEvaluation).untraced =
        { e.untraced with complianceDecidable := false, compliant := false, decisionReason := reason } := fun _ _ => rfl
  unfold noIntentEvaluation
  dsimp only
  rw [hundecided, hundecided]
  split_ifs
  · rw [untraced_appendTrace, untraced_appendTrace]
    rfl
  · rw [untraced_appendTrace, untraced_appendTrace]
    rfl

theorem untraced_noEvidenceEvaluation {trace : List Text} :
    (noEvidenceEvaluation policy limits target baseline views { e with trace := trace }).untraced =
      (noEvidenceEvaluation policy limits target baseline views e).untraced := by
  unfold noEvidenceEvaluation
  dsimp only
  rw [untraced_appendTrace, untraced_appendTrace]
  rfl

theorem untraced_compareWithPrimary {trace : List Text} :
    (compareWithPrimary policy limits target baseline views primary { e with trace := trace }).untraced =
      (compareWithPrimary policy limits target baseline views primary e).untraced := by
  have hdecide : ∀ {e e' : TargetEvaluation} {drafts : List FindingDraft} {coverageOk : Bool},
      e.untraced = e'.untraced → (decideCompliance { e with drafts := drafts } coverageOk).untraced =
        (decideCompliance { e' with drafts := drafts } coverageOk).untraced := by
    intro e e' drafts coverageOk h
    obtain ⟨trace, rfl⟩ := exists_of_untraced h
    exact untraced_decideCompliance.symm
  unfold compareWithPrimary
  dsimp only
  apply hdecide
  split
  · rw [untraced_appendTraceIf, untraced_appendTrace, untraced_appendTrace, untraced_appendTraceIf, untraced_appendTrace,
      untraced_appendTrace]
    rfl
  · rw [untraced_appendTrace, untraced_appendTraceIf, untraced_appendTrace, untraced_appendTrace, untraced_appendTrace,
      untraced_appendTraceIf, untraced_appendTrace, untraced_appendTrace]
    rfl

theorem untraced_considered (hbaseline : input.baseline = input'.baseline) (htarget : input.target = input'.target)
    (hviews : orderedViews policy input = orderedViews policy input') :
    (considered policy input).untraced = (considered policy input').untraced := by
  have hopen : openEvaluation input = openEvaluation input' := by
    unfold openEvaluation
    rw [hbaseline, htarget]
  have hcount : ∀ {e e' : TargetEvaluation} {n k : Nat} {f : FreshnessState}, e.untraced = e'.untraced →
      ({ e with sourcesConsidered := n, freshSources := k, bestFreshness := f } : TargetEvaluation).untraced =
        ({ e' with sourcesConsidered := n, freshSources := k, bestFreshness := f } : TargetEvaluation).untraced := by
    intro e e' n k f h
    obtain ⟨trace, rfl⟩ := exists_of_untraced h
    rfl
  unfold considered
  dsimp only
  rw [hopen, hviews]
  exact hcount (untraced_appendTraceIf.trans untraced_appendTraceIf.symm)

/-- Comparisons that consult the same views differ in their traces only. -/
theorem untraced_compareTarget (hbaseline : input.baseline = input'.baseline) (htarget : input.target = input'.target)
    (hcounts : input.snapshots.length = input.freshness.length)
    (hcounts' : input'.snapshots.length = input'.freshness.length)
    (hviews : orderedViews policy input = orderedViews policy input') :
    (compareTarget input policy limits).untraced = (compareTarget input' policy limits).untraced := by
  obtain ⟨trace, hconsidered⟩ := exists_of_untraced (untraced_considered hbaseline htarget hviews)
  have hbranch := @branch_compareTarget policy limits input
  generalize compareTarget input policy limits = evaluation at hbranch ⊢
  cases hbranch with
  | mismatched hmismatched => exact absurd hcounts hmismatched
  | noIntent _ hnone =>
    rw [(Branch.noIntent hcounts' (hbaseline ▸ hnone)).eq_compareTarget, hconsidered, ← hviews, ← htarget]
    exact untraced_noIntentEvaluation.symm
  | noEvidence _ hsome hunusable =>
    rw [(Branch.noEvidence hcounts' (hbaseline ▸ hsome) (hviews ▸ hunusable)).eq_compareTarget, hconsidered, ← hviews,
      ← htarget]
    exact untraced_noEvidenceEvaluation.symm
  | @compared baseline primary rest hreaches =>
    have hreaches' : Reaches policy input' baseline primary rest :=
      ⟨hcounts', hbaseline ▸ hreaches.committed, hviews ▸ hreaches.views, hreaches.usable⟩
    rw [(Branch.compared hreaches').eq_compareTarget, hconsidered, ← htarget]
    exact untraced_compareWithPrimary.symm

end Untraced

/-- No policy tells the comparisons apart but by their traces. -/
def TargetComparisonInput.Indistinct (input input' : TargetComparisonInput) : Prop :=
  ∀ (policy : ObservatoryPolicy) (limits : RuntimeLimits),
    (compareTarget input policy limits).untraced = (compareTarget input' policy limits).untraced

/-! ### The newest observations -/

namespace FindingLedger

open Ascending

/-- The newest observation of each source, and nothing behind it. -/
def newestOnly (L : FindingLedger) : FindingLedger :=
  { L with windows := L.windows.mapValues fun _ window => window.getLast?.toList }

def newestOf (L : FindingLedger) (key : SourceWindowKey) : Option RetainedObservation :=
  (L.windows.find? key).bind List.getLast?

/-- Every retained observation is in its window, and the newest one of each window is above all others. -/
structure Peaks (L : FindingLedger) : Prop where
  placed : L.Placed
  peaked : ∀ key window, L.windows.find? key = some window →
    ∃ front newest, window = front ++ [newest] ∧ Peaked RetainedObservation.windowKey front newest

section Newest
variable {L M : FindingLedger} {admitted : List ObservationSnapshot} {key : SourceWindowKey} {target : TargetId}
  {newest : RetainedObservation} {policy : ObservatoryPolicy} {input input' : TargetComparisonInput}
  {verdict : RetainedObservation → FreshnessVerdict}

theorem WindowsKept.peaks (h : L.WindowsKept admitted) : L.Peaks := by
  refine ⟨h.placed, fun key window hfind => ?_⟩
  obtain ⟨front, newest, hwindow, hpeaked, -, -⟩ := (h.kept key window hfind).newest
  exact ⟨front, newest, hwindow, hpeaked⟩

theorem getLast?_concat {front : List RetainedObservation} : (front ++ [newest]).getLast? = some newest := by
  rw [List.getLast?_append, List.getLast?_singleton]
  rfl

theorem Peaks.newestOf_eq_some (h : L.Peaks) : L.newestOf key = some newest ↔
    ∃ front, L.windows.find? key = some (front ++ [newest]) ∧ Peaked RetainedObservation.windowKey front newest := by
  constructor
  · intro hnewest
    obtain ⟨window, hfind, hlast⟩ := Option.bind_eq_some_iff.mp hnewest
    obtain ⟨front, newest', rfl, hpeaked⟩ := h.peaked key window hfind
    rw [getLast?_concat, Option.some.injEq] at hlast
    subst hlast
    exact ⟨front, hfind, hpeaked⟩
  · rintro ⟨front, hfind, -⟩
    rw [newestOf, hfind]
    exact getLast?_concat

/-- The views that are consulted are those of the newest observations. -/
theorem Peaks.mem_orderedViews_iff (h : L.Peaks)
    (hviews : collectViews policy input = (L.observationsFor target).map fun o => .make policy o.snapshot (verdict o))
    {v : EvidenceView} : v ∈ orderedViews policy input ↔
      ∃ source newest, L.newestOf ⟨target, source⟩ = some newest ∧ v = .make policy newest.snapshot (verdict newest) := by
  constructor
  · intro hv
    obtain ⟨hcollected, -⟩ := newest_of_mem_orderedViews hv
    rw [hviews] at hcollected
    obtain ⟨o, ho, hmake⟩ := List.mem_map.mp hcollected
    have hsource : v.snapshot.source = o.snapshot.source := by rw [← hmake]; rfl
    have htarget := h.placed.target_of_mem ho
    have hfilter := @filter_observationsFor ⟨target, o.snapshot.source⟩ L h.placed target
    rw [if_pos rfl] at hfilter
    have hmem : o ∈ (L.windows.find? ⟨target, o.snapshot.source⟩).getD [] := by
      rw [← hfilter, List.mem_filter, decide_eq_true_eq]
      exact ⟨ho, congrArg₂ SourceWindowKey.mk htarget rfl⟩
    cases hfind : L.windows.find? ⟨target, o.snapshot.source⟩ with
    | none =>
      rw [hfind] at hmem
      cases hmem
    | some window =>
      obtain ⟨front, newest, rfl, hpeaked⟩ := h.peaked _ window hfind
      exact ⟨o.snapshot.source, newest, h.newestOf_eq_some.mpr ⟨front, hfind, hpeaked⟩,
        (view_of_newest h.placed hfind hpeaked hviews).mp ⟨hv, hsource⟩⟩
  · rintro ⟨source, newest, hnewest, hv⟩
    obtain ⟨front, hfind, hpeaked⟩ := h.newestOf_eq_some.mp hnewest
    exact ((view_of_newest h.placed hfind hpeaked hviews).mpr hv).1

/-- Ledgers with the same newest observations have the same views consulted, in the same order. -/
theorem orderedViews_congr (hL : L.Peaks) (hM : M.Peaks) (hnewest : ∀ key, M.newestOf key = L.newestOf key)
    (hviews : collectViews policy input = (L.observationsFor target).map fun o => .make policy o.snapshot (verdict o))
    (hviews' : collectViews policy input' = (M.observationsFor target).map fun o =>
      .make policy o.snapshot (verdict o)) : orderedViews policy input' = orderedViews policy input := by
  have hmem : ∀ v, v ∈ newestViews policy input' ↔ v ∈ newestViews policy input := fun v => by
    have hsame : v ∈ orderedViews policy input' ↔ v ∈ orderedViews policy input := by
      rw [hM.mem_orderedViews_iff hviews', hL.mem_orderedViews_iff hviews]
      simp only [hnewest]
    exact sortBy.mem_iff.symm.trans (hsame.trans sortBy.mem_iff)
  have hperm : (newestViews policy input').Perm (newestViews policy input) :=
    (List.perm_ext_iff_of_nodup nodup_newestViews.of_map nodup_newestViews.of_map).mpr hmem
  exact sortBy.eq_of_perm EvidenceView.viewLess_iff (fun a ha b hb => eq_of_viewKey_eq ha hb) hperm

theorem indistinct_of_newest (hL : L.Peaks) (hM : M.Peaks) (hnewest : ∀ key, M.newestOf key = L.newestOf key)
    (hbaselines : M.baselines = L.baselines) {policy : ObservatoryPolicy} {epoch : FabricEpoch} {now : NdoTime} :
    (Observatory.comparisonInput policy epoch now M target).Indistinct
        (Observatory.comparisonInput policy epoch now L target) ∧
      (comparisonInputOnce policy epoch now M target).Indistinct (comparisonInputOnce policy epoch now L target) := by
  have hbaseline : M.findBaseline target = L.findBaseline target := by rw [findBaseline, findBaseline, hbaselines]
  have hcounts : ∀ (N : FindingLedger) (g : RetainedObservation → Option ObservationSnapshot)
      (j : RetainedObservation → FreshnessVerdict),
      ((N.observationsFor target).map g).length = ((N.observationsFor target).map j).length := fun _ _ _ => by
    rw [List.length_map, List.length_map]
  exact ⟨fun policy' limits => untraced_compareTarget hbaseline rfl (hcounts _ _ _) (hcounts _ _ _)
      (orderedViews_congr hL hM hnewest collectViews_comparisonInput collectViews_comparisonInput),
    fun policy' limits => untraced_compareTarget hbaseline rfl (hcounts _ _ _) (hcounts _ _ _)
      (orderedViews_congr hL hM hnewest collectViews_comparisonInputOnce collectViews_comparisonInputOnce)⟩

theorem newestOf_newestOnly : L.newestOnly.newestOf key = L.newestOf key := by
  rw [newestOf, newestOnly, OrdMap.find?_mapValues, newestOf]
  cases L.windows.find? key with
  | none => rfl
  | some window =>
    simp only [Option.map_some, Option.bind_some]
    cases window.getLast? <;> rfl

theorem Peaks.newestOnly (h : L.Peaks) : L.newestOnly.Peaks := by
  have hwindow : ∀ key window, L.newestOnly.windows.find? key = some window →
      ∃ front newest, L.windows.find? key = some (front ++ [newest]) ∧ window = [newest] := by
    intro key window hfind
    rw [FindingLedger.newestOnly, OrdMap.find?_mapValues] at hfind
    obtain ⟨before, hbefore, rfl⟩ := Option.map_eq_some_iff.mp hfind
    obtain ⟨front, newest, rfl, -⟩ := h.peaked key before hbefore
    exact ⟨front, newest, hbefore, by rw [getLast?_concat]; rfl⟩
  refine ⟨fun key window hfind o ho => ?_, fun key window hfind => ?_⟩
  · obtain ⟨front, newest, hbefore, rfl⟩ := hwindow key window hfind
    rw [List.mem_singleton.mp ho]
    exact h.placed key _ hbefore newest (List.mem_append_right _ List.mem_cons_self)
  · obtain ⟨front, newest, -, rfl⟩ := hwindow key window hfind
    exact ⟨[], newest, rfl, List.Pairwise.nil, fun o ho => absurd ho List.not_mem_nil⟩

end Newest

end FindingLedger

end DriftObservatory
