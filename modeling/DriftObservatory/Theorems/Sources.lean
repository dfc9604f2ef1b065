import DriftObservatory.Theorems.Soundness
import DriftObservatory.Theorems.Verdicts
import Mathlib.Data.List.Pairwise

/-! The sources of a comparison: the order in which they are supplied does not matter, and which of their reports
    contradict each other depends on the reports alone. -/

namespace DriftObservatory

/-! ### The order of the evidence -/

/-- The comparison of a target with the pairs of a snapshot, which may be missing, and its verdict. -/
def TargetComparisonInput.ofPairs (target : TargetId) (baseline : Option IntentBaseline)
    (pairs : List (Option ObservationSnapshot × FreshnessVerdict)) : TargetComparisonInput where
  target := target
  baseline := baseline
  snapshots := pairs.map Prod.fst
  freshness := pairs.map Prod.snd

/-- What tells the observations of a target apart. -/
def ObservationSnapshot.claimKey (s : ObservationSnapshot) : SourceId × FabricEpoch × Incarnation × SourceSequence :=
  (s.source, s.epoch, s.incarnation, s.sequence)

section Order
variable {target : TargetId} {baseline : Option IntentBaseline} {policy : ObservatoryPolicy} {limits : RuntimeLimits}
  {pairs pairs' : List (Option ObservationSnapshot × FreshnessVerdict)}

theorem collectViews_ofPairs : collectViews policy (.ofPairs target baseline pairs) =
    pairs.filterMap fun p => p.1.map fun snapshot => .make policy snapshot p.2 := by
  have hzip : (pairs.map Prod.fst).zip (pairs.map Prod.snd) = pairs := by
    rw [← List.unzip_fst, ← List.unzip_snd, List.zip_unzip]
  unfold collectViews TargetComparisonInput.ofPairs
  rw [hzip]

/-- Views with the key of the first sort in common are one. -/
theorem eq_of_sourceKey_eq (hdistinct : (pairs.filterMap fun p => p.1.map ObservationSnapshot.claimKey).Nodup)
    {a b : EvidenceView} (ha : a ∈ collectViews policy (.ofPairs target baseline pairs))
    (hb : b ∈ collectViews policy (.ofPairs target baseline pairs)) (hkey : a.sourceKey = b.sourceKey) : a = b := by
  have hkeys : (collectViews policy (.ofPairs target baseline pairs)).map (fun v => v.snapshot.claimKey) =
      pairs.filterMap fun p => p.1.map ObservationSnapshot.claimKey := by
    rw [collectViews_ofPairs, List.map_filterMap]
    refine List.filterMap_congr fun p _ => ?_
    cases p.1 <;> rfl
  rw [← hkeys] at hdistinct
  refine List.inj_on_of_nodup_map hdistinct ha hb ?_
  simpa only [EvidenceView.sourceKey, EmbeddingLike.apply_eq_iff_eq, Prod.mk.injEq,
    ObservationSnapshot.claimKey] using hkey

/-- Views with the key of the second sort in common are of one source. -/
theorem eq_of_viewKey_eq {input : TargetComparisonInput} {a b : EvidenceView} (ha : a ∈ newestViews policy input)
    (hb : b ∈ newestViews policy input) (hkey : a.viewKey = b.viewKey) : a = b := by
  simp only [EvidenceView.viewKey, EmbeddingLike.apply_eq_iff_eq, Prod.mk.injEq] at hkey
  exact List.inj_on_of_nodup_map nodup_newestViews ha hb hkey.2.2.2.2.2.2

/-- The evidence may be supplied in any order, and any sort by the two orders of the comparator gives the same views. -/
theorem compareTarget_rearranged (hdistinct : (pairs.filterMap fun p => p.1.map ObservationSnapshot.claimKey).Nodup)
    (hperm : pairs.Perm pairs') :
    compareTarget (.ofPairs target baseline pairs') policy limits =
        compareTarget (.ofPairs target baseline pairs) policy limits ∧
      (∀ sorted : List EvidenceView, sorted.Perm (collectViews policy (.ofPairs target baseline pairs')) →
        sorted.Pairwise (fun a b => b.sourceLess a = false) →
          keepNewest none sorted = newestViews policy (.ofPairs target baseline pairs)) ∧
      ∀ sorted : List EvidenceView, sorted.Perm (newestViews policy (.ofPairs target baseline pairs)) →
        sorted.Pairwise (fun a b => b.viewLess a = false) →
          sorted = orderedViews policy (.ofPairs target baseline pairs) := by
  have hcollect : (collectViews policy (.ofPairs target baseline pairs)).Perm
      (collectViews policy (.ofPairs target baseline pairs')) := by
    rw [collectViews_ofPairs, collectViews_ofPairs]
    exact hperm.filterMap _
  have hnewest : newestViews policy (.ofPairs target baseline pairs) =
      newestViews policy (.ofPairs target baseline pairs') := by
    unfold newestViews
    rw [sortBy.eq_of_perm EvidenceView.sourceLess_iff (fun a ha b hb => eq_of_sourceKey_eq hdistinct ha hb) hcollect]
  have hordered : orderedViews policy (.ofPairs target baseline pairs) =
      orderedViews policy (.ofPairs target baseline pairs') := by
    unfold orderedViews
    rw [hnewest]
  refine ⟨?_, fun sorted hsorted hpairwise => ?_, fun sorted hsorted hpairwise => ?_⟩
  · unfold compareTarget compareTargetWith
    rw [hnewest, hordered, hcollect.length_eq]
    simp only [TargetComparisonInput.ofPairs, List.length_map, ne_eq, not_true_eq_false, if_false]
    rfl
  · rw [sortBy.unique EvidenceView.sourceLess_iff (fun a ha b hb => eq_of_sourceKey_eq hdistinct ha hb)
      (hsorted.trans hcollect.symm) hpairwise]
    rfl
  · exact sortBy.unique EvidenceView.viewLess_iff (fun a ha b hb => eq_of_viewKey_eq ha hb) hsorted hpairwise

end Order

namespace Sample

def first : ObservationSnapshot :=
  snapshot "a" { id := object, presence := .present, fields := OrdMap.ofList [(path, .makeInt 1)] }

def second : ObservationSnapshot :=
  snapshot "b" { id := object, presence := .present, fields := OrdMap.ofList [(path, .makeInt 2)] }

/-- Two sources that report the field of the object with different values. -/
def contradicting : List (Option ObservationSnapshot × FreshnessVerdict) := [(some first, fresh), (some second, fresh)]

def declaring : IntentBaseline :=
  baseline { id := object, fields := OrdMap.ofList [(path, { path := path, intended := .makeInt 1 })] }

end Sample

theorem compareTarget_rearranged_contradicting :
    compareTarget (.ofPairs Sample.target (some Sample.declaring) Sample.contradicting.reverse) {} {} =
      compareTarget (.ofPairs Sample.target (some Sample.declaring) Sample.contradicting) {} {} :=
  (compareTarget_rearranged (by decide) (List.reverse_perm _).symm).1

/-! ### Exact conflicts -/

section Conflicts
variable {policy : ObservatoryPolicy} {limits : RuntimeLimits} {target : TargetId} {baseline : IntentBaseline}
  {input : TargetComparisonInput} {views : List EvidenceView} {spot : ObjectId × FieldPath × Digest}

/-- Of views with the usable ones in front, the first `n` hold all usable ones if these are no more. -/
theorem mem_take_of_usable {v : EvidenceView} : ∀ {views : List EvidenceView} {n : Nat},
    (views.Pairwise fun a b => b.usable = true → a.usable = true) → views.countP EvidenceView.usable ≤ n →
      v ∈ views → v.usable = true → v ∈ views.take n
  | first :: rest, n, hfront, hcount, hv, hu => by
    rw [List.pairwise_cons] at hfront
    have hfirst : first.usable = true := by
      rcases List.mem_cons.mp hv with rfl | hv
      · exact hu
      · exact hfront.1 v hv hu
    rw [List.countP_cons_of_pos hfirst] at hcount
    obtain ⟨m, rfl⟩ : ∃ m, n = m + 1 := ⟨n - 1, by omega⟩
    rw [List.take_succ_cons]
    rcases List.mem_cons.mp hv with rfl | hv
    · exact List.mem_cons_self
    · exact List.mem_cons_of_mem first (mem_take_of_usable hfront.2 (by omega) hv hu)

theorem usable_front_orderedViews :
    (orderedViews policy input).Pairwise fun a b => b.usable = true → a.usable = true :=
  (sortBy.pairwise EvidenceView.viewLess_iff _).imp fun h => EvidenceView.usable_of_viewKey_le h

theorem distinct_orderedViews :
    (orderedViews policy input).Pairwise fun a b => a.snapshot.source ≠ b.snapshot.source :=
  List.pairwise_map.mp (((sortBy.perm _ _).map _).nodup_iff.mpr nodup_newestViews)

/-- With no more usable views than it considers, the scan finds where any two of them contradict each other. -/
theorem exists_mem_conflictDrafts (hfew : (newestViews policy input).countP EvidenceView.usable ≤ kMaxConflictSources) :
    (∃ d ∈ conflictDrafts policy limits target baseline (orderedViews policy input), d.spot = spot) ↔
      ∃ lhs ∈ newestViews policy input, ∃ rhs ∈ newestViews policy input, lhs.usable = true ∧ rhs.usable = true ∧
        lhs.snapshot.source ≠ rhs.snapshot.source ∧ EvidenceView.Contradicts policy lhs rhs spot := by
  have hscan := @forall_mem_conflictScan policy limits target baseline spot
    ((orderedViews policy input).take kMaxConflictSources)
  rw [← (sortBy.perm EvidenceView.viewLess (newestViews policy input)).countP_eq] at hfew
  have htake : ∀ v ∈ newestViews policy input, v.usable = true →
      v ∈ (orderedViews policy input).take kMaxConflictSources := fun v hv hu =>
    mem_take_of_usable usable_front_orderedViews hfew (sortBy.mem_iff.mpr hv) hu
  constructor
  · rintro ⟨d, hd, hspot⟩
    by_contra hnone
    refine hscan.mpr ?_ d hd hspot
    refine (distinct_orderedViews.sublist (List.take_sublist _ _)).imp_of_mem fun ha hb hsource hl hr hcontradicts => ?_
    exact hnone ⟨_, sortBy.mem_iff.mp (List.mem_of_mem_take ha), _, sortBy.mem_iff.mp (List.mem_of_mem_take hb), hl, hr,
      hsource, hcontradicts⟩
  · rintro ⟨lhs, hl, rhs, hr, hlu, hru, hsource, hcontradicts⟩
    by_contra hnone
    have hpairwise := hscan.mp fun d hd hspot => hnone ⟨d, hd, hspot⟩
    have hsymm : Std.Symm fun lhs rhs : EvidenceView => lhs.usable = true → rhs.usable = true →
        ¬ EvidenceView.Contradicts policy lhs rhs spot := ⟨fun _ _ h hr hl hc => h hl hr hc.symm⟩
    exact hpairwise.forall (htake lhs hl hlu) (htake rhs hr hru) (fun heq => hsource (by rw [heq])) hlu hru hcontradicts

theorem klass_regroupDraft_eq_sourceConflict {isPartial : Bool} {qualifier : Digest} {d : FindingDraft} :
    (regroupDraft policy isPartial qualifier d).klass = .sourceConflict ↔ d.klass = .sourceConflict := by
  unfold regroupDraft
  by_cases hd : isDeviation d.klass = true
  · have hne : d.klass ≠ .sourceConflict := fun h => by simp [h, isDeviation] at hd
    cases isPartial <;> simp [hd, hne]
  · simp [hd]

/-- The conflicts among the drafts are those of the conflict scan. -/
theorem exists_mem_comparedDrafts {primary : EvidenceView} :
    (∃ d ∈ comparedDrafts policy limits target baseline views primary, d.klass = .sourceConflict ∧ d.spot = spot) ↔
      ∃ d ∈ conflictDrafts policy limits target baseline views, d.spot = spot := by
  have hplain : ∀ d, (d ∈ conflictDrafts policy limits target baseline views ++
      primaryDrafts policy limits target baseline primary ∧ d.klass = .sourceConflict) ↔
        d ∈ conflictDrafts policy limits target baseline views := by
    intro d
    constructor
    · rintro ⟨hd, hklass⟩
      refine (List.mem_append.mp hd).resolve_right fun hd => ?_
      obtain ⟨object, path, klass, reason, intended, observed, rationale, hleaf, rfl⟩ := leaf_of_mem_primaryDrafts hd
      rw [klass_primaryDraft] at hklass
      rw [hklass] at hleaf
      cases hleaf
    · exact fun hd => ⟨List.mem_append_left _ hd, klass_of_mem_conflictScan hd⟩
  unfold comparedDrafts regroupDrafts
  split
  · simp only [← hplain, and_assoc]
  · rename_i isPartial _
    simp only [List.mem_map, ← hplain, exists_exists_and_eq_and, klass_regroupDraft_eq_sourceConflict]
    refine exists_congr fun d => ?_
    rw [and_assoc]
    refine and_congr_right fun _ => and_congr_right fun hklass => ?_
    rw [regroupDraft, if_neg (by simp [hklass, isDeviation])]

/-! ### The declared order of the sources -/

/-- A view under another order of the sources. -/
def EvidenceView.ranked (priority : List SourceId) (v : EvidenceView) : EvidenceView :=
  { v with priority := priority.idxOf v.snapshot.source }

theorem keepNewest_map {f : EvidenceView → EvidenceView} (hf : ∀ v, (f v).snapshot.source = v.snapshot.source) :
    ∀ {views : List EvidenceView} {last : Option SourceId},
      keepNewest last (views.map f) = (keepNewest last views).map f
  | [], _ => rfl
  | v :: rest, last => by
    rw [List.map_cons, keepNewest, keepNewest, hf]
    split_ifs
    · exact keepNewest_map hf
    · rw [List.map_cons, keepNewest_map hf]

/-- Another order of the sources keeps the same views. -/
theorem newestViews_ranked (priority : List SourceId) :
    newestViews { policy with sourcePriority := priority } input =
      (newestViews policy input).map (EvidenceView.ranked priority) := by
  have hcollect : collectViews { policy with sourcePriority := priority } input =
      (collectViews policy input).map (EvidenceView.ranked priority) := by
    rw [collectViews, collectViews, List.map_filterMap]
    refine List.filterMap_congr fun p _ => ?_
    cases p.1 with
    | none => rfl
    | some snapshot => simp only [Option.map_some, EvidenceView.make, EvidenceView.ranked, priorityOf]
  have hless : ∀ a b : EvidenceView, (a.ranked priority).sourceLess (b.ranked priority) = a.sourceLess b :=
    fun _ _ => rfl
  have hsort := sortBy.map (EvidenceView.ranked priority) hless (collectViews policy input)
  rw [newestViews, newestViews, hcollect, ← hsort]
  exact @keepNewest_map (EvidenceView.ranked priority) (fun _ => rfl) _ _

end Conflicts

/-- The conflicts of a target with usable sources that the scan all considers are where two of their newest
    observations contradict each other, whatever the declared order of the sources. -/
theorem conflicts_exact {policy : ObservatoryPolicy} {limits : RuntimeLimits} {input : TargetComparisonInput}
    {baseline : IntentBaseline} (hcounts : input.snapshots.length = input.freshness.length)
    (hcommitted : input.baseline = some baseline) (hsome : 1 ≤ (newestViews policy input).countP EvidenceView.usable)
    (hfew : (newestViews policy input).countP EvidenceView.usable ≤ kMaxConflictSources)
    (spot : ObjectId × FieldPath × Digest) (priority : List SourceId) :
    ((∃ d ∈ (compareTarget input policy limits).drafts, d.klass = .sourceConflict ∧ d.spot = spot) ↔
      ∃ lhs ∈ newestViews policy input, ∃ rhs ∈ newestViews policy input, lhs.usable = true ∧ rhs.usable = true ∧
        lhs.snapshot.source ≠ rhs.snapshot.source ∧ EvidenceView.Contradicts policy lhs rhs spot) ∧
    ((∃ d ∈ (compareTarget input { policy with sourcePriority := priority } limits).drafts,
        d.klass = .sourceConflict ∧ d.spot = spot) ↔
      ∃ d ∈ (compareTarget input policy limits).drafts, d.klass = .sourceConflict ∧ d.spot = spot) := by
  have hexact : ∀ policy : ObservatoryPolicy, 1 ≤ (newestViews policy input).countP EvidenceView.usable →
      (newestViews policy input).countP EvidenceView.usable ≤ kMaxConflictSources →
      ((∃ d ∈ (compareTarget input policy limits).drafts, d.klass = .sourceConflict ∧ d.spot = spot) ↔
        ∃ lhs ∈ newestViews policy input, ∃ rhs ∈ newestViews policy input, lhs.usable = true ∧ rhs.usable = true ∧
          lhs.snapshot.source ≠ rhs.snapshot.source ∧ EvidenceView.Contradicts policy lhs rhs spot) := by
    intro policy hsome hfew
    obtain ⟨v, hv, hu⟩ := List.countP_pos_iff.mp hsome
    obtain ⟨primary, rest, hreaches⟩ := exists_reaches hcounts hcommitted hv hu
    rw [hreaches.compareTarget_eq, drafts_compareWithPrimary, exists_mem_comparedDrafts, ← hreaches.views,
      exists_mem_conflictDrafts hfew]
  refine ⟨hexact policy hsome hfew, ?_⟩
  have hcount : (newestViews { policy with sourcePriority := priority } input).countP EvidenceView.usable =
      (newestViews policy input).countP EvidenceView.usable := by
    rw [newestViews_ranked, List.countP_map]
    rfl
  rw [hexact policy hsome hfew, hexact _ (hcount ▸ hsome) (hcount ▸ hfew), newestViews_ranked]
  simp only [List.mem_map, exists_exists_and_eq_and]
  rfl

theorem conflicts_exact_contradicting :
    ∃ d ∈ (compareTarget (.ofPairs Sample.target (some Sample.declaring) Sample.contradicting) {} {}).drafts,
      d.klass = .sourceConflict ∧
        d.spot = (Sample.object, Sample.path, conflictQualifier ⟨ascii "a"⟩ ⟨ascii "b"⟩) := by
  obtain ⟨lhs, rhs, hl, hr⟩ : ∃ lhs rhs, lhs = EvidenceView.make {} Sample.first Sample.fresh ∧
      rhs = EvidenceView.make {} Sample.second Sample.fresh := ⟨_, _, rfl, rfl⟩
  have hviews : newestViews {} (.ofPairs Sample.target (some Sample.declaring) Sample.contradicting) = [lhs, rhs] := by
    rw [hl, hr]
    rfl
  have hcount : (newestViews {} (.ofPairs Sample.target (some Sample.declaring) Sample.contradicting)).countP
      EvidenceView.usable = 2 := by
    rw [hviews, hl, hr]
    rfl
  refine (conflicts_exact rfl rfl (by omega) (hcount.trans_le (by decide)) _ []).1.mpr ?_
  rw [hviews]
  refine ⟨lhs, List.mem_cons_self, rhs, List.mem_cons_of_mem _ List.mem_cons_self, by rw [hl]; rfl, by rw [hr]; rfl, ?_,
    ?_, ?_⟩
  · rw [hl, hr]
    decide
  · rw [hl, hr]
    rfl
  · rw [hl, hr]
    exact ⟨_, _, rfl, rfl, .inr ⟨rfl, _, _, rfl, rfl, by decide⟩⟩

end DriftObservatory
