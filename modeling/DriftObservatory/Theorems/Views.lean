import DriftObservatory.Comparison
import Mathlib.Data.Prod.Lex
import Mathlib.Order.OrderDual

/-! The order of the evidence views. The comparator sorts them by a linear key, so the preferred view is
    usable whenever some view is. -/

namespace DriftObservatory

/-! ### The key of the order -/

namespace EvidenceView

/-- What `viewLess` compares. -/
def viewKey (v : EvidenceView) :
    Bool ×ₗ ℕ ×ₗ Bool ×ₗ FabricEpochᵒᵈ ×ₗ Incarnationᵒᵈ ×ₗ SourceSequenceᵒᵈ ×ₗ SourceId :=
  toLex (!v.usable, toLex (v.priority, toLex (!v.complete, toLex (OrderDual.toDual v.snapshot.epoch,
    toLex (OrderDual.toDual v.snapshot.incarnation,
      toLex (OrderDual.toDual v.snapshot.sequence, v.snapshot.source))))))

theorem not_lt_not {a b : Bool} (h : a ≠ b) : (!a) < (!b) ↔ a = true := by
  cases a <;> cases b <;> simp_all

theorem viewLess_iff (a b : EvidenceView) : a.viewLess b = true ↔ a.viewKey < b.viewKey := by
  simp only [viewLess, viewKey, Prod.Lex.toLex_lt_toLex, OrderDual.toDual_lt_toDual, EmbeddingLike.apply_eq_iff_eq]
  by_cases hu : a.usable = b.usable
  · by_cases hp : a.priority = b.priority
    · by_cases hc : a.complete = b.complete
      · by_cases he : a.snapshot.epoch = b.snapshot.epoch
        · by_cases hi : a.snapshot.incarnation = b.snapshot.incarnation
          · by_cases hs : a.snapshot.sequence = b.snapshot.sequence
            · simp [hu, hp, hc, he, hi, hs]
            · simp [hu, hp, hc, he, hi, hs]
          · simp [hu, hp, hc, he, hi]
        · simp [hu, hp, hc, he]
      · simp [hu, hp, hc, not_lt_not]
    · simp [hu, hp]
  · simp [hu, not_lt_not]

theorem usable_of_viewKey_le {a b : EvidenceView} (h : a.viewKey ≤ b.viewKey) (hb : b.usable = true) :
    a.usable = true := by
  by_contra ha
  have hne : a.usable ≠ b.usable := fun e => ha (e.trans hb)
  have hlt : b.viewKey < a.viewKey := by
    rw [← viewLess_iff, viewLess, if_pos hne.symm]
    exact hb
  exact absurd h (not_le.mpr hlt)

/-- What `sourceLess` compares. -/
def sourceKey (v : EvidenceView) : SourceId ×ₗ FabricEpochᵒᵈ ×ₗ Incarnationᵒᵈ ×ₗ SourceSequenceᵒᵈ :=
  toLex (v.snapshot.source, toLex (OrderDual.toDual v.snapshot.epoch,
    toLex (OrderDual.toDual v.snapshot.incarnation, OrderDual.toDual v.snapshot.sequence)))

theorem sourceLess_iff (a b : EvidenceView) : a.sourceLess b = true ↔ a.sourceKey < b.sourceKey := by
  simp only [sourceLess, newerThan, sourceKey, Prod.Lex.toLex_lt_toLex, OrderDual.toDual_lt_toDual,
    EmbeddingLike.apply_eq_iff_eq]
  by_cases hs : a.snapshot.source = b.snapshot.source
  · by_cases he : a.snapshot.epoch = b.snapshot.epoch
    · by_cases hi : a.snapshot.incarnation = b.snapshot.incarnation
      · simp [hs, he, hi]
      · simp [hs, he, hi]
    · simp [hs, he]
  · simp [hs]

theorem source_le_of_sourceKey_le {a b : EvidenceView} (h : a.sourceKey ≤ b.sourceKey) :
    a.snapshot.source ≤ b.snapshot.source := by
  rcases (Prod.Lex.toLex_le_toLex.mp h) with hlt | ⟨heq, -⟩
  · exact hlt.le
  · exact heq.le

end EvidenceView

/-! ### The views of an input -/

section Ordered
variable {policy : ObservatoryPolicy} {input : TargetComparisonInput} {v : EvidenceView}

theorem mem_of_mem_keepNewest : ∀ {views : List EvidenceView} {last : Option SourceId},
    v ∈ keepNewest last views → v ∈ views
  | [], _, h => h
  | w :: rest, last, h => by
    rw [keepNewest] at h
    split_ifs at h with hs
    · exact List.mem_cons_of_mem _ (mem_of_mem_keepNewest h)
    · rcases List.mem_cons.mp h with rfl | h
      · exact List.mem_cons_self
      · exact List.mem_cons_of_mem _ (mem_of_mem_keepNewest h)

/-- Of views sorted by source, newest first, the loop keeps the first of each source that is not `last`. -/
theorem first_of_mem_keepNewest : ∀ {views : List EvidenceView} {last : Option SourceId},
    views.Pairwise (fun a b => a.sourceKey ≤ b.sourceKey) →
    (∀ source, last = some source → ∀ w ∈ views, source ≤ w.snapshot.source) → v ∈ keepNewest last views →
      last ≠ some v.snapshot.source ∧
        ∀ w ∈ views, w.snapshot.source = v.snapshot.source → v.sourceKey ≤ w.sourceKey
  | [], _, _, _, h => absurd h List.not_mem_nil
  | first :: rest, last, hsorted, hlast, h => by
    rw [List.pairwise_cons] at hsorted
    rw [keepNewest] at h
    split_ifs at h with hs
    · -- The first view has the source that was kept last, so `v` has another one.
      obtain ⟨hne, hfirst⟩ := first_of_mem_keepNewest hsorted.2
        (fun source hsource w hw => hlast source hsource w (List.mem_cons_of_mem first hw)) h
      refine ⟨hne, fun w hw hsource => ?_⟩
      rcases List.mem_cons.mp hw with rfl | hw
      · exact absurd (hs.trans (congrArg some hsource)) hne
      · exact hfirst w hw hsource
    · rcases List.mem_cons.mp h with rfl | h
      · refine ⟨hs, fun w hw _ => ?_⟩
        rcases List.mem_cons.mp hw with rfl | hw
        · exact le_refl _
        · exact hsorted.1 w hw
      · obtain ⟨hne, hfirst⟩ := first_of_mem_keepNewest hsorted.2 (fun source hsource w hw => by
          rw [← Option.some.inj hsource]
          exact EvidenceView.source_le_of_sourceKey_le (hsorted.1 w hw)) h
        refine ⟨fun hv => hne ?_, fun w hw hsource => ?_⟩
        · have hle := hlast _ hv first List.mem_cons_self
          have hge := EvidenceView.source_le_of_sourceKey_le (hsorted.1 v (mem_of_mem_keepNewest h))
          exact congrArg some (le_antisymm hge hle)
        · rcases List.mem_cons.mp hw with rfl | hw
          · exact absurd (congrArg some hsource) hne
          · exact hfirst w hw hsource

/-- The loop keeps one view of each source. -/
theorem pairwise_keepNewest : ∀ {views : List EvidenceView} {last : Option SourceId},
    views.Pairwise (fun a b => a.sourceKey ≤ b.sourceKey) →
      (keepNewest last views).Pairwise fun a b => a.snapshot.source ≠ b.snapshot.source
  | [], _, _ => List.Pairwise.nil
  | first :: rest, last, hsorted => by
    rw [List.pairwise_cons] at hsorted
    rw [keepNewest]
    split_ifs with hs
    · exact pairwise_keepNewest hsorted.2
    · refine List.pairwise_cons.mpr ⟨fun w hw hsource => ?_, pairwise_keepNewest hsorted.2⟩
      refine (first_of_mem_keepNewest hsorted.2 (fun source hlast u hu => ?_) hw).1 (congrArg some hsource)
      rw [← Option.some.inj hlast]
      exact EvidenceView.source_le_of_sourceKey_le (hsorted.1 u hu)

theorem nodup_newestViews : ((newestViews policy input).map fun v => v.snapshot.source).Nodup :=
  List.pairwise_map.mpr (pairwise_keepNewest (sortBy.pairwise EvidenceView.sourceLess_iff _))

/-- The loop keeps a view of every source that is not `last`. -/
theorem exists_mem_keepNewest : ∀ {views : List EvidenceView} {last : Option SourceId}, v ∈ views →
    last ≠ some v.snapshot.source → ∃ w ∈ keepNewest last views, w.snapshot.source = v.snapshot.source
  | first :: rest, last, h, hlast => by
    rw [keepNewest]
    split_ifs with hs
    · rcases List.mem_cons.mp h with rfl | h
      · exact absurd hs hlast
      · exact exists_mem_keepNewest h hlast
    · by_cases hfirst : first.snapshot.source = v.snapshot.source
      · exact ⟨first, List.mem_cons_self, hfirst⟩
      · rcases List.mem_cons.mp h with rfl | h
        · exact absurd rfl hfirst
        · obtain ⟨w, hw, hsource⟩ := exists_mem_keepNewest h fun hv => hfirst (Option.some.inj hv)
          exact ⟨w, List.mem_cons_of_mem first hw, hsource⟩

/-- A source speaks through its newest observation. -/
theorem newest_of_mem_orderedViews (h : v ∈ orderedViews policy input) :
    v ∈ collectViews policy input ∧
      ∀ w ∈ collectViews policy input, w.snapshot.source = v.snapshot.source → w.newerThan v = false := by
  have hkept := sortBy.mem_iff.mp h
  refine ⟨sortBy.mem_iff.mp (mem_of_mem_keepNewest hkept), fun w hw hsource => ?_⟩
  have hfirst := (first_of_mem_keepNewest (sortBy.pairwise EvidenceView.sourceLess_iff (collectViews policy input))
    (fun _ hnone => by cases hnone) hkept).2 w (sortBy.mem_iff.mpr hw) hsource
  have hnot : w.sourceLess v = false := by
    rw [← Bool.not_eq_true, EvidenceView.sourceLess_iff, not_lt]
    exact hfirst
  rwa [EvidenceView.sourceLess, if_neg (not_not.mpr hsource)] at hnot

/-- A view that is newer than all others of its source is the one that is kept. -/
theorem mem_orderedViews_iff (hv : v ∈ collectViews policy input)
    (hnewer : ∀ w ∈ collectViews policy input, w.snapshot.source = v.snapshot.source → w = v ∨ v.newerThan w = true)
    {w : EvidenceView} : w ∈ orderedViews policy input ∧ w.snapshot.source = v.snapshot.source ↔ w = v := by
  have honly : ∀ w ∈ orderedViews policy input, w.snapshot.source = v.snapshot.source → w = v := fun w hw hsource => by
    obtain ⟨hmem, hnewest⟩ := newest_of_mem_orderedViews hw
    refine (hnewer w hmem hsource).resolve_right fun hbeaten => ?_
    rw [hnewest v hv hsource.symm] at hbeaten
    cases hbeaten
  refine ⟨fun h => honly w h.1 h.2, ?_⟩
  rintro rfl
  obtain ⟨u, hu, hsource⟩ := exists_mem_keepNewest (sortBy.mem_iff.mpr hv) (Option.some_ne_none _).symm
  have hkept : u ∈ orderedViews policy input := sortBy.mem_iff.mpr hu
  rw [honly u hkept hsource] at hkept
  exact ⟨hkept, rfl⟩

/-- Each view consulted pairs a supplied snapshot with its verdict. -/
theorem mem_orderedViews (h : v ∈ orderedViews policy input) :
    ∃ snapshot verdict, (some snapshot, verdict) ∈ input.snapshots.zip input.freshness ∧
      v = .make policy snapshot verdict := by
  have hmem := sortBy.mem_iff.mp (mem_of_mem_keepNewest (sortBy.mem_iff.mp h))
  obtain ⟨⟨snapshot, verdict⟩, hz, hv⟩ := List.mem_filterMap.mp hmem
  obtain ⟨s, rfl, rfl⟩ := Option.map_eq_some_iff.mp hv
  exact ⟨s, verdict, hz, rfl⟩

theorem complete_of_mem_orderedViews (h : v ∈ orderedViews policy input) :
    v.complete = v.snapshot.declaresCompleteCoverage := by
  obtain ⟨s, verdict, -, rfl⟩ := mem_orderedViews h
  rfl

/-- The first view is usable as soon as one is. -/
theorem usable_head {primary : EvidenceView} {rest : List EvidenceView}
    (hv : orderedViews policy input = primary :: rest) (h : (primary :: rest).any EvidenceView.usable = true) :
    primary.usable = true := by
  obtain ⟨w, hw, hu⟩ := List.any_eq_true.mp h
  have hsorted := sortBy.pairwise EvidenceView.viewLess_iff (newestViews policy input)
  rw [show sortBy EvidenceView.viewLess (newestViews policy input) = primary :: rest from hv,
    List.pairwise_cons] at hsorted
  rcases List.mem_cons.mp hw with rfl | hw
  · exact hu
  · exact EvidenceView.usable_of_viewKey_le (hsorted.1 w hw) hu

end Ordered

end DriftObservatory
