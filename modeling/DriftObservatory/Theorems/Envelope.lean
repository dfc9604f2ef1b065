import DriftObservatory.Theorems.Intents
import DriftObservatory.Theorems.Windows

/-! The targets and the sources that a ledger tracks: how many there are through its life, and which steps find no room
    for one more. -/

namespace DriftObservatory

namespace FindingLedger

/-- The distinct sources that have a window. -/
def sources (L : FindingLedger) : List SourceId := (L.windows.keys.map SourceWindowKey.source).dedup

/-! ### What is tracked -/

section Tracked
variable {L M : FindingLedger} {target : TargetId} {source : SourceId}

theorem mem_targets : target ∈ L.targets ↔
    (∃ baseline, L.findBaseline target = some baseline) ∨
      ∃ key window, L.windows.find? key = some window ∧ key.target = target := by
  rw [targets, List.mem_dedup, List.mem_insertionSort, List.mem_append, List.mem_map, OrdMap.mem_keys, OrdMap.contains_iff]
  simp only [OrdMap.mem_keys, OrdMap.contains_iff, findBaseline]
  refine or_congr_right ⟨?_, ?_⟩
  · rintro ⟨key, ⟨window, hwindow⟩, htarget⟩
    exact ⟨key, window, hwindow, htarget⟩
  · rintro ⟨key, window, hwindow, htarget⟩
    exact ⟨key, ⟨window, hwindow⟩, htarget⟩

theorem mem_sources : source ∈ L.sources ↔ ∃ key window, L.windows.find? key = some window ∧ key.source = source := by
  rw [sources, List.mem_dedup, List.mem_map]
  simp only [OrdMap.mem_keys, OrdMap.contains_iff]
  constructor
  · rintro ⟨key, ⟨window, hwindow⟩, hsource⟩
    exact ⟨key, window, hwindow, hsource⟩
  · rintro ⟨key, window, hwindow, hsource⟩
    exact ⟨key, ⟨window, hwindow⟩, hsource⟩

/-- A list without repetitions that adds one item at most to another one. -/
theorem length_le_of_added {α : Type} {xs ys : List α} {a : α} {n : Nat} (hxs : xs.Nodup)
    (hsub : ∀ x ∈ xs, x = a ∨ x ∈ ys) (hys : ys.length ≤ n) (hroom : a ∈ ys ∨ ys.length < n) : xs.length ≤ n := by
  rcases hroom with hmem | hroom
  · refine (hxs.subperm fun x hx => ?_).length_le.trans hys
    rcases hsub x hx with rfl | hx
    · exact hmem
    · exact hx
  · have hle := (hxs.subperm fun x hx => List.mem_cons.mpr (hsub x hx)).length_le
    rw [List.length_cons] at hle
    omega

/-- The ledger tracks no more than its limits allow. -/
structure Enveloped (L : FindingLedger) : Prop where
  targets : L.targets.length ≤ L.limits.maxTargets
  sources : L.sources.length ≤ L.limits.maxSources

theorem Enveloped.congr (h : L.Enveloped) (hlimits : M.limits = L.limits) (hbaselines : M.baselines = L.baselines)
    (hkeys : M.windows.keys = L.windows.keys) : M.Enveloped := by
  refine ⟨?_, ?_⟩
  · rw [FindingLedger.targets, hbaselines, hkeys, hlimits]
    exact h.targets
  · rw [FindingLedger.sources, hkeys, hlimits]
    exact h.sources

/-- A baseline brings its target. -/
theorem targets_commit {committed : TargetId} {baseline : IntentBaseline}
    (hbaselines : M.baselines = L.baselines.insert committed baseline) (hwindows : M.windows = L.windows) :
    ∀ target ∈ M.targets, target = committed ∨ target ∈ L.targets := by
  intro target htarget
  rcases mem_targets.mp htarget with ⟨baseline, hfind⟩ | hwindow
  · rw [findBaseline, hbaselines, OrdMap.find?_insert] at hfind
    split_ifs at hfind with heq
    · exact .inl heq.symm
    · exact .inr (mem_targets.mpr (.inl ⟨baseline, hfind⟩))
  · rw [hwindows] at hwindow
    exact .inr (mem_targets.mpr (.inr hwindow))

end Tracked

/-! ### One step -/

/-- The step finds room for the target and the source that it brings, and a restart for all of them. -/
def EnvelopeRoom (L : FindingLedger) : LedgerStep → Prop
  | .operate (.commitIntent document _) =>
    (document.validate L.limits).ok = true → L.baselines.size < L.limits.maxTargets →
      document.target ∈ L.targets ∨ L.targets.length < L.limits.maxTargets
  | .operate (.recordObservation snapshot _ _) =>
    (snapshot.validate L.limits).ok = true →
      (snapshot.target ∈ L.targets ∨ L.targets.length < L.limits.maxTargets) ∧
        (snapshot.source ∈ L.sources ∨ L.sources.length < L.limits.maxSources)
  | .restart limits .. =>
    L.Legible limits → L.targets.length ≤ limits.maxTargets ∧ L.sources.length ≤ limits.maxSources
  | _ => True

/-- Every baseline is under its target. -/
def Anchored (L : FindingLedger) : Prop :=
  ∀ target baseline, L.findBaseline target = some baseline → baseline.target = target

section Step
variable [DoubleChars] {L : FindingLedger}

theorem enveloped_commitIntent {document : IntentGenerationDocument} {now : NdoTime} (h : L.Enveloped)
    (hroom : L.EnvelopeRoom (.operate (.commitIntent document now))) : (L.commitIntent document now).2.1.Enveloped := by
  have hwindows := (@commitIntent_step _ L document now).ground.2
  have hcommits := @commits_commitIntent _ L document now
  generalize L.commitIntent document now = result at hcommits hwindows ⊢
  cases hcommits with
  | refused | repeated => exact h
  | @first M _ hb hbaseline hvalid _ hlimits hbaselines =>
    refine ⟨?_, ?_⟩
    · show M.targets.length ≤ M.limits.maxTargets
      rw [hlimits]
      exact length_le_of_added (List.nodup_dedup _) (targets_commit hbaselines hwindows) h.targets (hroom hvalid hbaseline)
    · show M.sources.length ≤ M.limits.maxSources
      rw [hlimits, FindingLedger.sources, hwindows]
      exact h.sources
  | @advanced M _ existing hb _ _ _ _ hlimits hbaselines =>
    refine ⟨?_, ?_⟩
    · show M.targets.length ≤ M.limits.maxTargets
      rw [hlimits]
      have hthere : document.target ∈ L.targets := mem_targets.mpr (.inl ⟨existing, hb⟩)
      exact length_le_of_added (List.nodup_dedup _) (targets_commit hbaselines hwindows) h.targets (.inl hthere)
    · show M.sources.length ≤ M.limits.maxSources
      rw [hlimits, FindingLedger.sources, hwindows]
      exact h.sources

omit [DoubleChars] in
theorem enveloped_recordObservation {snapshot : ObservationSnapshot} {verdict : FreshnessVerdict} {recovered : Bool}
    (h : L.Enveloped) (hroom : L.EnvelopeRoom (.operate (.recordObservation snapshot verdict recovered))) :
    (L.recordObservation snapshot verdict recovered).2.1.Enveloped := by
  cases hvalid : (snapshot.validate L.limits).ok with
  | false =>
    rw [recordObservation_invalid hvalid]
    exact h
  | true =>
    obtain ⟨htarget, hsource⟩ := hroom hvalid
    rcases @recordObservation_spec L snapshot verdict recovered with ⟨hsame, -⟩ | ⟨-, -, -, hledger⟩
    · rw [hsame]
      exact h
    · rw [hledger]
      refine ⟨?_, ?_⟩
      · refine length_le_of_added (List.nodup_dedup _) (fun target htarget => ?_) h.targets htarget
        rcases mem_targets.mp htarget with hbaseline | ⟨key, window, hfind, rfl⟩
        · exact .inr (mem_targets.mpr (.inl hbaseline))
        · simp only [bumpRevision, OrdMap.find?_insert] at hfind
          split_ifs at hfind with hkey
          · rw [← hkey]
            exact .inl rfl
          · exact .inr (mem_targets.mpr (.inr ⟨key, window, hfind, rfl⟩))
      · refine length_le_of_added (List.nodup_dedup _) (fun source hsource => ?_) h.sources hsource
        obtain ⟨key, window, hfind, rfl⟩ := mem_sources.mp hsource
        simp only [bumpRevision, OrdMap.find?_insert] at hfind
        split_ifs at hfind with hkey
        · rw [← hkey]
          exact .inl rfl
        · exact .inr (mem_sources.mpr ⟨key, window, hfind, rfl⟩)

theorem anchored_operate {op : Operation} (h : L.Anchored) : (L.operate op).Anchored := by
  have hsame := fun hcommit => @baselines_operate _ L op hcommit
  cases op with
  | commitIntent document now =>
    show (L.commitIntent document now).2.1.Anchored
    have hcommits := @commits_commitIntent _ L document now
    generalize L.commitIntent document now = result at hcommits ⊢
    cases hcommits with
    | refused | repeated => exact h
    | first _ _ _ _ _ hbaselines =>
      intro target baseline hfind
      rw [findBaseline, hbaselines, OrdMap.find?_insert] at hfind
      split_ifs at hfind with htarget
      · rw [← Option.some.inj hfind]
        exact htarget
      · exact h target baseline hfind
    | advanced hb _ _ _ _ _ hbaselines =>
      intro target baseline hfind
      rw [findBaseline, hbaselines, OrdMap.find?_insert] at hfind
      split_ifs at hfind with htarget
      · rw [← Option.some.inj hfind]
        exact (h _ _ hb).trans htarget
      · exact h target baseline hfind
  | _ =>
    intro target baseline hfind
    rw [findBaseline, hsame fun _ _ heq => (by cases heq)] at hfind
    exact h target baseline hfind

end Step

/-! ### Restarts -/

section Restart
variable {L : FindingLedger} {limits : RuntimeLimits}

/-- A restored baseline is one of the ledger's, read back. -/
theorem findBaseline_restored {target : TargetId} {baseline : IntentBaseline}
    (h : (L.restored limits).findBaseline target = some baseline) :
    ∃ t b, L.findBaseline t = some b ∧ b.target = target ∧ baseline = b.reread (ledgerPayloadLimits limits) := by
  rcases OrdMap.find?_foldl_insert h with ⟨hmem, htarget⟩ | hnone
  · obtain ⟨b, hb, rfl⟩ := List.mem_map.mp hmem
    obtain ⟨t, -, hfind⟩ := List.mem_filterMap.mp hb
    exact ⟨t, b, hfind, htarget, rfl⟩
  · cases hnone

theorem targets_restored (hanchored : L.Anchored) (hplaced : L.Placed) :
    ∀ target ∈ (L.restored limits).targets, target ∈ L.targets := by
  intro target htarget
  rcases mem_targets.mp htarget with ⟨baseline, hfind⟩ | ⟨key, window, hfind, rfl⟩
  · obtain ⟨t, b, hb, rfl, -⟩ := findBaseline_restored hfind
    rw [hanchored t b hb]
    exact mem_targets.mpr (.inl ⟨b, hb⟩)
  · obtain ⟨before, hbefore⟩ := window_of_restored hplaced hfind
    exact mem_targets.mpr (.inr ⟨key, before, hbefore, rfl⟩)

theorem sources_restored (hplaced : L.Placed) : ∀ source ∈ (L.restored limits).sources, source ∈ L.sources := by
  intro source hsource
  obtain ⟨key, window, hfind, rfl⟩ := mem_sources.mp hsource
  obtain ⟨before, hbefore⟩ := window_of_restored hplaced hfind
  exact mem_sources.mpr ⟨key, before, hbefore, rfl⟩

end Restart

/-! ### Runs -/

section Runs
variable [DoubleChars] [Json.LawfulDoubleChars] {L : FindingLedger} {step : LedgerStep}

theorem anchored_advance (h : L.Anchored) : (L.advance step).Anchored := by
  cases step with
  | operate op => exact anchored_operate h
  | restart limits epoch incarnation liveEpoch =>
    rw [advance]
    rcases @recover_cases _ L _ limits epoch liveEpoch incarnation with hsame | ⟨-, hrestart⟩
    · rw [hsame]
      exact h
    · rw [hrestart]
      intro target baseline hfind
      obtain ⟨t, b, -, htarget, rfl⟩ := findBaseline_restored hfind
      exact htarget

theorem enveloped_advance (hanchored : L.Anchored) (hplaced : L.Placed) (h : L.Enveloped) (hroom : L.EnvelopeRoom step) :
    (L.advance step).Enveloped := by
  cases step with
  | restart limits epoch incarnation liveEpoch =>
    rw [advance]
    rcases @recover_cases _ L _ limits epoch liveEpoch incarnation with hsame | ⟨hlegible, hrestart⟩
    · rw [hsame]
      exact h
    · rw [hrestart]
      obtain ⟨htargets, hsources⟩ := hroom hlegible
      refine ⟨?_, ?_⟩
      · have hsub := (List.nodup_dedup _).subperm (@targets_restored L limits hanchored hplaced)
        exact hsub.length_le.trans htargets
      · have hsub := (List.nodup_dedup _).subperm (@sources_restored L limits hplaced)
        exact hsub.length_le.trans hsources
  | operate op =>
    have hsame := fun hcommit => h.congr (@limits_operate _ L op) (baselines_operate hcommit)
    have hwindows := fun hrecord hinvalidate => congrArg OrdMap.keys (@windows_operate _ L op hrecord hinvalidate)
    rw [advance]
    cases op with
    | commitIntent => exact enveloped_commitIntent h hroom
    | recordObservation => exact enveloped_recordObservation h hroom
    | invalidateRetainedEvidence reason now =>
      refine hsame (fun _ _ heq => (by cases heq)) ?_
      show (L.invalidateRetainedEvidence reason now).windows.keys = L.windows.keys
      rw [windows_invalidateRetainedEvidence, OrdMap.keys_mapValues]
    | _ =>
      exact hsame (fun _ _ heq => (by cases heq))
        (hwindows (fun _ _ _ heq => (by cases heq)) fun _ _ heq => (by cases heq))

end Runs

/-- In every life of a ledger in which each new target and each new source finds room, and restarts bring no smaller
    limits than what is tracked, the ledger tracks no more targets and sources than its limits allow. -/
theorem envelope_kept [DoubleChars] [Json.LawfulDoubleChars] (limits : RuntimeLimits) {steps : List LedgerStep}
    (h : Run.Permits advance EnvelopeRoom { limits := limits } steps) :
    (Run.exec advance { limits := limits } steps).targets.length ≤
        (Run.exec advance { limits := limits } steps).limits.maxTargets ∧
      (Run.exec advance { limits := limits } steps).sources.length ≤
        (Run.exec advance { limits := limits } steps).limits.maxSources := by
  have hinvariant := @Run.invariant _ _ advance EnvelopeRoom (fun L => L.Anchored ∧ L.Placed ∧ L.Enveloped)
    (fun L step hL hstep => ⟨anchored_advance hL.1, placed_advance hL.2.1, enveloped_advance hL.1 hL.2.1 hL.2.2 hstep⟩)
    steps { limits := limits }
    ⟨fun _ _ hnone => (by cases hnone), fun _ _ hnone => (by cases hnone), Nat.zero_le _, Nat.zero_le _⟩ h
  exact ⟨hinvariant.2.2.targets, hinvariant.2.2.sources⟩

end FindingLedger

namespace Sample
open FindingLedger

/-- Room for a single target. -/
def narrow : RuntimeLimits := { maxTargets := 1 }

/-- An observation of another target. -/
def elsewhere : ObservationSnapshot :=
  let s := { empty 1 with target := other }
  { s with snapshotId := s.computeSnapshotId }

/-- Two targets are observed. -/
def observeBoth : List LedgerStep := [observe 1, .operate (.recordObservation elsewhere {} false)]

end Sample

theorem FindingLedger.envelope_outgrown :
    ¬ (Run.exec (@advance Sample.bitDoubles) { limits := Sample.narrow } Sample.observeBoth).targets.length ≤
      (Run.exec (@advance Sample.bitDoubles) { limits := Sample.narrow } Sample.observeBoth).limits.maxTargets := by
  decide +kernel

theorem FindingLedger.envelope_kept_observe :
    (Run.exec (@advance Sample.bitDoubles) { limits := Sample.narrow } [Sample.observe 1]).targets.length = 1 ∧
      (Run.exec (@advance Sample.bitDoubles) { limits := Sample.narrow } [Sample.observe 1]).targets.length ≤
        (Run.exec (@advance Sample.bitDoubles) { limits := Sample.narrow } [Sample.observe 1]).limits.maxTargets := by
  refine ⟨by decide +kernel, ?_⟩
  have hroom : Run.Permits (@advance Sample.bitDoubles) EnvelopeRoom { limits := Sample.narrow } [Sample.observe 1] :=
    ⟨fun _ => ⟨.inr (by decide), .inr (by decide)⟩, trivial⟩
  exact (@envelope_kept Sample.bitDoubles Sample.lawful_bitDoubles Sample.narrow [Sample.observe 1] hroom).1

end DriftObservatory
