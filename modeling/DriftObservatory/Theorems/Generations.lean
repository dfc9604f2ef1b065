import DriftObservatory.Theorems.Table

/-! Live findings and the committed generation of their target: through the life of a ledger a live finding is measured
    against the current baseline, as long as no target gets its first baseline while findings of it are live. -/

namespace DriftObservatory

open Json

namespace FindingLedger

/-! ### What is measured -/

/-- A live finding is measured against the baseline of its target, where there is one. -/
def Measured (baselines : OrdMap TargetId IntentBaseline) (f : Finding) : Prop :=
  f.isLive = true → ∀ baseline, baselines.find? f.identity.target = some baseline →
    f.baselineGeneration = baseline.generation

/-- The evaluation is accepted, and its drafts are about its own target and generation. -/
structure Relevant (L : FindingLedger) (e : TargetEvaluation) : Prop where
  accepted : L.accepts e = true
  drafts : ∀ d ∈ e.drafts, d.place = (e.target, e.baselineGeneration)

section Measured
variable {baselines : OrdMap TargetId IntentBaseline} {f f' : Finding}

theorem Measured.kin (h : Measured baselines f) (hk : Kin f f') (hlive : f'.isLive = true → f.isLive = true) :
    Measured baselines f' := by
  intro hlive' baseline hb
  rw [hk.identity] at hb
  rw [hk.generation]
  exact h (hlive hlive') baseline hb

variable {L : FindingLedger} {e : TargetEvaluation} {d : FindingDraft}

theorem generation_of_accepts {baseline : IntentBaseline} (h : L.accepts e = true)
    (hb : L.findBaseline e.target = some baseline) : baseline.generation = e.baselineGeneration := by
  simp only [accepts, hb, Bool.and_eq_true, beq_iff_eq] at h
  exact h.2

/-- A finding that carries the target and the generation of a draft is measured. -/
theorem Relevant.measured (h : L.Relevant e) (hd : d ∈ e.drafts) (htarget : f.identity.target = d.target)
    (hgeneration : f.baselineGeneration = d.baselineGeneration) : Measured L.baselines f := by
  intro _ baseline hb
  have hplace := h.drafts d hd
  simp only [FindingDraft.place, Prod.mk.injEq] at hplace
  rw [htarget, hplace.1] at hb
  rw [hgeneration, hplace.2]
  exact (generation_of_accepts h.accepted hb).symm

variable [DoubleChars] {known : FindingIdentity → Prop} {outcome : EvaluationOutcome} {policy : ObservatoryPolicy}
  {now : NdoTime} {op : Operation}

theorem baselines_round : (L.round outcome policy now e).baselines = L.baselines := by
  rw [FindingLedger.round]
  exact ground_applyTarget.baselines

theorem measured_round (h : Everywhere (fun id f => Entry known id f ∧ Measured L.baselines f) L) (hknows : Knows known e)
    (hrelevant : L.Relevant e) :
    Everywhere (fun id f => Entry known id f ∧ Measured (L.round outcome policy now e).baselines f)
      (L.round outcome policy now e) := by
  rw [baselines_round]
  refine Everywhere.round h (fun id d hd _ => ⟨entry_createFinding hknows hd, ?_⟩)
    (fun id d f hd _ hf => ⟨hf.1.updateFinding hknows hd, ?_⟩)
    (fun id f _ _ _ _ hlive hf => ⟨hf.1.kin kin_settledFinding, hf.2.kin kin_settledFinding fun _ => hlive⟩)
    fun id f _ _ hf => ⟨hf.1.kin kin_assignGroup, hf.2.kin kin_assignGroup fun hlive => ?_⟩
  · have hc := @created_createFinding L.limits outcome policy now e.bestFreshness _ id d
    refine hrelevant.measured (mem_of_find?_draftMap hd).1 ?_ hc.generation
    rw [hc.identity]
    rfl
  · have ha := @absorbed_updateFinding L.limits outcome policy now e.bestFreshness _ d f
    refine hrelevant.measured (mem_of_find?_draftMap hd).1 ?_ ha.generation
    rw [ha.identity]
    exact (hf.1.same hknows hd).1.symm
  · rw [Finding.isLive, assignGroup_marks.2] at hlive
    exact hlive

theorem live_of_expireFinding {limits : RuntimeLimits} (h : (expireFinding limits now f).1.isLive = true) :
    f.isLive = true := by
  unfold expireFinding at h
  split_ifs at h
  · rw [Finding.isLive, Finding.state_recomputeSummary] at h
    exact (isLive_clearSuppression f).symm.trans h
  · exact h

/-- No operator revives a finding. -/
theorem live_of_touched {limits : RuntimeLimits} (ht : Touched limits op f f') (h : f'.isLive = true) :
    f.isLive = true := by
  cases ht with
  | kept => exact h
  | rebased document now f =>
    rcases (@rebaseFinding_marks _ limits now f (baselineOf document now) document.target document.generation).2 with
      hended | hstate
    · rw [hended] at h
      cases h
    · rw [Finding.isLive, hstate] at h
      exact h
  | suppressed id actor reason expiresAt now f sid hsid =>
    rw [Finding.isLive, Finding.state_recomputeSummary] at h
    by_contra hended
    have hstate : (f.suppressedAs sid actor reason expiresAt).state.isLive = true := h
    simp only [Finding.suppressedAs, if_neg hended] at hstate
    exact hended hstate
  | unsuppressed id actor now f event hevent =>
    rw [Finding.isLive, Finding.state_recomputeSummary] at h
    exact (isLive_clearSuppression f).symm.trans h
  | acknowledged id actor reason now f =>
    rw [Finding.isLive, Finding.state_recomputeSummary] at h
    have hstate : (f.acknowledgedAs actor reason now).state.isLive = true := h
    revert hstate
    unfold Finding.isLive
    simp only [Finding.acknowledgedAs]
    cases f.state <;> simp [FindingState.isLive]
  | unacknowledged id actor now f event hevent =>
    rw [Finding.isLive, Finding.state_recomputeSummary] at h
    have hstate : f.unacknowledged.state.isLive = true := h
    revert hstate
    unfold Finding.isLive
    simp only [Finding.unacknowledged]
    cases f.state <;> simp [FindingState.isLive]
  | expired now f => exact live_of_expireFinding h

/-! ### One step -/

/-- A document that brings the first baseline of a target finds no live finding of another generation. -/
def FirstFits (L : FindingLedger) : LedgerStep → Prop
  | .operate (.commitIntent document _) =>
    (document.validate L.limits).ok = true → L.baselines.size < L.limits.maxTargets →
      L.findBaseline document.target = none → ∀ id f, L.findings.find? id = some f →
        f.identity.target = document.target → f.isLive = true → f.baselineGeneration = document.generation
  | _ => True

/-- What is applied was computed by the comparator. -/
def Genuine : LedgerStep → Prop
  | .operate (.applyEvaluation outcome _ _) => ∀ e ∈ outcome.targets, ∃ input policy limits,
      e = compareTarget input policy limits
  | _ => True

/-- Every finding is what its identity says, and every live one is measured. -/
def Gauged (known : FindingIdentity → Prop) (L : FindingLedger) : Prop :=
  Everywhere (fun id f => Entry known id f ∧ Measured L.baselines f) L

theorem gauged_commitIntent {document : IntentGenerationDocument} (h : Gauged known L)
    (hfits : L.FirstFits (.operate (.commitIntent document now))) :
    Gauged known (L.commitIntent document now).2.1 := by
  have hcommits := @commits_commitIntent _ L document now
  generalize L.commitIntent document now = result at hcommits ⊢
  cases hcommits with
  | refused | repeated => exact h
  | first hb hroom hvalid _ _ hbaselines hfindings =>
    intro id f hf
    rw [hfindings] at hf
    refine ⟨(h id f hf).1, fun hlive baseline hbaseline => ?_⟩
    rw [hbaselines, OrdMap.find?_insert] at hbaseline
    split_ifs at hbaseline with htarget
    · rw [← Option.some.inj hbaseline]
      exact hfits hvalid hroom hb id f hf htarget.symm hlive
    · exact (h id f hf).2 hlive baseline hbaseline
  | advanced hb _ _ _ _ _ hbaselines hfindings =>
    intro id f' hf'
    rw [hfindings, OrdMap.find?_mapValues] at hf'
    obtain ⟨f, hf, rfl⟩ := Option.map_eq_some_iff.mp hf'
    have hk := @kin_rebaseFinding f now _ L.limits (baselineOf document now) document.target document.generation
    refine ⟨(h id f hf).1.kin hk, fun hlive baseline hbaseline => ?_⟩
    rw [hbaselines, OrdMap.find?_insert] at hbaseline
    rw [hk.generation]
    -- A finding that is still live was not rebased: it is about another target, or of the new generation.
    have hkept : rebases document.target document.generation f = false := by
      by_contra hr
      rw [Bool.not_eq_false] at hr
      rw [isLive_rebaseFinding hr] at hlive
      cases hlive
    have hlive' : f.isLive = true := live_of_touched (.rebased document now f) hlive
    split_ifs at hbaseline with htarget
    · rw [← Option.some.inj hbaseline]
      rw [hk.identity] at htarget
      simp only [rebases, hlive', ← htarget, beq_self_eq_true, Bool.and_self, Bool.true_and, bne_eq_false_iff_eq] at hkept
      exact hkept
    · rw [hk.identity] at hbaseline
      exact (h id f hf).2 hlive' baseline hbaseline

omit [DoubleChars] in
theorem genuine_applied (hop : Genuine (.operate op)) (happly : L.applied op = some (outcome, policy, now)) :
    ∀ e ∈ outcome.targets, ∀ d ∈ e.drafts, d.place = (e.target, e.baselineGeneration) := by
  have hcompared : ∀ e ∈ outcome.targets, ∃ input policy limits, e = compareTarget input policy limits := by
    cases op with
    | applyEvaluation =>
      simp only [applied, Option.some.injEq, Prod.mk.injEq] at happly
      rw [← happly.1]
      exact hop
    | evaluate policy limits epoch incarnation now =>
      simp only [applied] at happly
      split at happly
      · cases happly
      · rename_i heq
        simp only [Option.some.injEq, Prod.mk.injEq] at happly
        rw [← happly.1]
        unfold evaluateLedgerOnce at heq
        dsimp only at heq
        split at heq
        · cases heq
        · rw [← Except.ok.inj heq]
          intro e he
          obtain ⟨target, -, rfl⟩ := List.mem_map.mp he
          exact ⟨_, _, _, rfl⟩
    | _ => cases happly
  intro e he d hd
  obtain ⟨input, policy, limits, rfl⟩ := hcompared e he
  exact place_of_mem_drafts hd

omit [DoubleChars] in
theorem Relevant.congr {M : FindingLedger} (h : L.Relevant e) (hbaselines : M.baselines = L.baselines) : M.Relevant e := by
  refine ⟨?_, h.drafts⟩
  rw [← h.accepted, accepts, accepts, findBaseline, findBaseline, hbaselines]

theorem gauged_operate (h : Gauged known L) (hknows : ∀ e ∈ L.evaluationsOf op, Knows known e)
    (hgenuine : Genuine (.operate op)) (hfits : L.FirstFits (.operate op)) : Gauged known (L.operate op) := by
  refine @operate_allowed _ L op (fun _ _ _ M e => Knows known e ∧ M.Relevant e) (Gauged known)
    (fun _ _ _ _ e he hM => measured_round hM he.1 he.2) (fun M now hM => ?_) (fun happly => ?_)
    (fun outcome policy now happly => ?_) h
  · have hbaselines : (M.expireSuppressions now).bumpRevision.trimTimelineIfNeeded.baselines = M.baselines :=
      ground_expireSuppressions.baselines
    rw [Gauged, hbaselines]
    exact Everywhere.expired hM fun _ _ hf =>
      ⟨hf.1.kin kin_expireFinding, hf.2.kin kin_expireFinding live_of_expireFinding⟩
  · have hsame := fun hcommit => @baselines_operate _ L op hcommit
    have hworked := @worked_operate _ L op happly
    cases op with
    | commitIntent => exact gauged_commitIntent h hfits
    | _ =>
      rw [Gauged, hsame fun _ _ heq => (by cases heq)]
      exact Everywhere.worked h hworked fun _ _ _ ht hf => ⟨hf.1.kin ht.kin, hf.2.kin ht.kin (live_of_touched ht)⟩
  · refine @Run.permits_of_kept _ _ _ _ (fun M => M.baselines = L.baselines)
      (fun M e hM => baselines_round.trans hM) _ L rfl fun e he M hM => ⟨hknows e he, ?_⟩
    obtain ⟨hmem, haccepted⟩ := mem_evaluationsOf happly he
    exact Relevant.congr ⟨haccepted, genuine_applied hgenuine happly e hmem⟩ hM

omit [DoubleChars] in
theorem gauged_restored {limits : RuntimeLimits} (hanchored : L.Anchored) (h : Gauged known L)
    (hlegible : L.Legible limits) : Gauged known (L.restored limits) := by
  have hentries := entries_restored (fun id f hf => (h id f hf).1) hlegible
  intro id f hf
  refine ⟨hentries id f hf, fun hlive baseline hbaseline => ?_⟩
  obtain ⟨-, n, k, g, hg, rfl, -⟩ := find?_restored hf
  obtain ⟨t, b, hb, htarget, rfl⟩ := findBaseline_restored hbaseline
  have hfind : L.baselines.find? g.identity.target = some b := by
    rw [← hanchored t b hb] at hb
    exact htarget ▸ hb
  exact (h k g hg).2 hlive b hfind

theorem gauged_advance [LawfulDoubleChars] {step : LedgerStep} (hanchored : L.Anchored) (h : Gauged known L)
    (hknows : ∀ evaluations, L.evaluated step = some evaluations → ∀ e ∈ evaluations, Knows known e)
    (hgenuine : Genuine step) (hfits : L.FirstFits step) : Gauged known (L.advance step) := by
  cases step with
  | operate op => exact gauged_operate h (hknows _ rfl) hgenuine hfits
  | restart limits epoch incarnation liveEpoch =>
    rw [advance]
    rcases @recover_cases _ L _ limits epoch liveEpoch incarnation with hsame | ⟨hlegible, hrestart⟩
    · rw [hsame]
      exact h
    · rw [hrestart]
      exact gauged_restored hanchored h hlegible

end Measured

/-- In every life of a ledger that applies what the comparator computed, and in which no target gets its first baseline
    while findings of another generation are live, a live finding of a target with a baseline is of the generation of that
    baseline, unless drafted identities collide. -/
theorem live_measured [DoubleChars] [LawfulDoubleChars] (limits : RuntimeLimits) {steps : List LedgerStep}
    (hgenuine : ∀ step ∈ steps, Genuine step) (hfits : Run.Permits advance FirstFits { limits := limits } steps) :
    Collides (chronicle { limits := limits } steps) ∨
      ∀ id f baseline, (Run.exec advance { limits := limits } steps).findings.find? id = some f → f.isLive = true →
        (Run.exec advance { limits := limits } steps).findBaseline f.identity.target = some baseline →
          f.baselineGeneration = baseline.generation := by
  by_cases hcollides : Collides (chronicle { limits := limits } steps)
  · exact .inl hcollides
  · have hcomputed : Run.Permits advance (fun _ step => Genuine step) { limits := limits } steps :=
      Run.permits_of_mem fun step hstep _ => hgenuine step hstep
    have hpermits := ((permits_known hcollides).and hfits).and hcomputed
    have hgauged := @Run.invariant _ _ advance _
      (fun L => L.Anchored ∧ Gauged (Known (chronicle { limits := limits } steps)) L)
      (fun L step hL hstep => ⟨anchored_advance hL.1, gauged_advance hL.1 hL.2 hstep.1.1 hstep.2 hstep.1.2⟩) steps
      { limits := limits } ⟨fun _ _ hnone => (by cases hnone), fun _ _ hnone => (by cases hnone)⟩ hpermits
    exact .inr fun id f baseline hf hlive hb => (hgauged.2 id f hf).2 hlive baseline hb

end FindingLedger

namespace Sample
open FindingLedger

/-- A required target is evaluated before its intent is published. -/
def late : List LedgerStep :=
  [.operate (.evaluate requiring {} ⟨1⟩ ⟨1⟩ ⟨1⟩), .operate (.commitIntent document ⟨2⟩)]

/-- The intent is published before the target is evaluated. -/
def early : List LedgerStep :=
  [.operate (.commitIntent document ⟨1⟩), .operate (.evaluate requiring {} ⟨1⟩ ⟨1⟩ ⟨2⟩)]

end Sample

theorem FindingLedger.live_unmeasured :
    ¬ ∀ id f baseline,
      (Run.exec (@advance Sample.bitDoubles) { limits := {} } Sample.late).findings.find? id = some f →
      f.isLive = true →
      (Run.exec (@advance Sample.bitDoubles) { limits := {} } Sample.late).findBaseline f.identity.target =
        some baseline → f.baselineGeneration = baseline.generation := by
  intro h
  have hbad : ((Run.exec (@advance Sample.bitDoubles) { limits := {} } Sample.late).findings.values.any fun f =>
      f.isLive && ((Run.exec (@advance Sample.bitDoubles) { limits := {} } Sample.late).findBaseline
        f.identity.target).any fun baseline => f.baselineGeneration != baseline.generation) = true := by decide +kernel
  generalize Run.exec (@advance Sample.bitDoubles) { limits := {} } Sample.late = L at h hbad
  obtain ⟨f, hf, hbad⟩ := List.any_eq_true.mp hbad
  obtain ⟨id, hfind⟩ := OrdMap.mem_values.mp hf
  rw [Bool.and_eq_true] at hbad
  cases hb : L.findBaseline f.identity.target with
  | none =>
    rw [hb] at hbad
    cases hbad.2
  | some baseline =>
    rw [hb, Option.any_some, h id f baseline hfind hbad.1 hb, bne_self_eq_false] at hbad
    cases hbad.2

theorem FindingLedger.live_measured_early :
    (Run.exec (@advance Sample.bitDoubles) { limits := {} } Sample.early).findings.size = 1 ∧
      (Collides (@chronicle Sample.bitDoubles { limits := {} } Sample.early) ∨ ∀ id f baseline,
        (Run.exec (@advance Sample.bitDoubles) { limits := {} } Sample.early).findings.find? id = some f →
        f.isLive = true →
        (Run.exec (@advance Sample.bitDoubles) { limits := {} } Sample.early).findBaseline f.identity.target =
          some baseline → f.baselineGeneration = baseline.generation) := by
  refine ⟨by decide +kernel, @live_measured Sample.bitDoubles Sample.lawful_bitDoubles {} Sample.early
    (fun step hstep => ?_) ⟨fun _ _ _ id f hf => (by cases hf), trivial, trivial⟩⟩
  rcases List.mem_cons.mp hstep with rfl | hstep
  · exact trivial
  · rw [List.mem_singleton.mp hstep]
    exact trivial

end DriftObservatory
