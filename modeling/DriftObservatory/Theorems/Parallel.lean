import DriftObservatory.Theorems.Cancellation
import DriftObservatory.Theorems.Twins
import DriftObservatory.Operations

/-! One evaluation, however its work is divided: among worker threads in any order, in sequence, or in one call. -/

namespace DriftObservatory

/-! ### The flat stores -/

/-- Reading as many items as a part of a list has, from where the part begins, gives the part. -/
theorem mapM_getElem?_range {α : Type} (back : List α) : ∀ (part front : List α),
    (List.range part.length).mapM (fun index => (front ++ (part ++ back))[front.length + index]?) = some part
  | [], _ => rfl
  | x :: part, front => by
    have hrest := mapM_getElem?_range back part (front ++ [x])
    simp only [List.append_assoc, List.singleton_append, List.length_append, List.length_singleton] at hrest
    rw [List.length_cons, List.range_succ_eq_map, List.mapM_cons, List.mapM_map]
    simp only [Nat.add_zero, List.cons_append, Function.comp_def, Nat.succ_eq_add_one]
    rw [List.getElem?_append_right (Nat.le_refl _), Nat.sub_self, List.getElem?_cons_zero]
    simp only [← Nat.add_assoc, Nat.add_right_comm _ _ 1] at hrest ⊢
    simp [hrest]

namespace Observatory
variable {verdict : TargetId → RetainedObservation → FreshnessVerdict} {ledger : FindingLedger}

/-- What a comparison reads of the ledger. -/
def comparisonWith (verdict : TargetId → RetainedObservation → FreshnessVerdict) (ledger : FindingLedger)
    (target : TargetId) : TargetComparisonInput where
  target := target
  baseline := ledger.findBaseline target
  snapshots := (ledger.observationsFor target).map fun o => some o.snapshot
  freshness := (ledger.observationsFor target).map (verdict target)

theorem storeEvidence_eq {targets : List TargetId} : storeEvidence verdict ledger targets =
    { snapshots := targets.flatMap fun target => (ledger.observationsFor target).map RetainedObservation.snapshot
      verdicts := targets.flatMap fun target => (ledger.observationsFor target).map (verdict target) } := by
  have hone : ∀ (target : TargetId) (observations : List RetainedObservation) (storage : EvidenceStorage),
      observations.foldl (fun storage o =>
        { snapshots := storage.snapshots ++ [o.snapshot], verdicts := storage.verdicts ++ [verdict target o] }) storage =
        { snapshots := storage.snapshots ++ observations.map RetainedObservation.snapshot
          verdicts := storage.verdicts ++ observations.map (verdict target) } := by
    intro target observations
    induction observations with
    | nil => intro storage; simp
    | cons o rest ih => intro storage; rw [List.foldl_cons, ih]; simp
  have hall : ∀ (targets : List TargetId) (storage : EvidenceStorage),
      targets.foldl (fun storage target =>
        (ledger.observationsFor target).foldl (fun storage o =>
          { snapshots := storage.snapshots ++ [o.snapshot], verdicts := storage.verdicts ++ [verdict target o] })
          storage) storage =
        { snapshots := storage.snapshots ++
            targets.flatMap fun target => (ledger.observationsFor target).map RetainedObservation.snapshot
          verdicts := storage.verdicts ++
            targets.flatMap fun target => (ledger.observationsFor target).map (verdict target) } := by
    intro targets
    induction targets with
    | nil => intro storage; simp
    | cons target rest ih => intro storage; rw [List.foldl_cons, hone, ih]; simp
  rw [storeEvidence, hall]
  simp

/-- The second pass reads what the first pass wrote for the same target. -/
theorem attachStored_eq {storage : EvidenceStorage} : ∀ {targets : List TargetId} {cursor : Nat}
    {stored : List ObservationSnapshot} {judged : List FreshnessVerdict}, stored.length = cursor → judged.length = cursor →
    storage.snapshots = stored ++
      targets.flatMap (fun target => (ledger.observationsFor target).map RetainedObservation.snapshot) →
    storage.verdicts = judged ++ targets.flatMap (fun target => (ledger.observationsFor target).map (verdict target)) →
    attachStored storage ledger cursor targets = some (targets.map (comparisonWith verdict ledger))
  | [], _, _, _, _, _, _, _ => rfl
  | target :: rest, cursor, stored, judged, hstored, hjudged, hsnapshots, hverdicts => by
    rw [List.flatMap_cons] at hsnapshots hverdicts
    have hs := mapM_getElem?_range
      (rest.flatMap fun target => (ledger.observationsFor target).map RetainedObservation.snapshot)
      ((ledger.observationsFor target).map RetainedObservation.snapshot) stored
    have hv := mapM_getElem?_range (rest.flatMap fun target => (ledger.observationsFor target).map (verdict target))
      ((ledger.observationsFor target).map (verdict target)) judged
    rw [← hsnapshots, List.length_map, hstored] at hs
    rw [← hverdicts, List.length_map, hjudged] at hv
    have hrest := @attachStored_eq storage rest (cursor + (ledger.observationsFor target).length)
      (stored ++ (ledger.observationsFor target).map RetainedObservation.snapshot)
      (judged ++ (ledger.observationsFor target).map (verdict target)) (by simp [hstored]) (by simp [hjudged])
      (by rw [hsnapshots, List.append_assoc]) (by rw [hverdicts, List.append_assoc])
    simp only [attachStored, hs, hv, hrest, Option.bind_eq_bind, Option.bind_some, Option.pure_def, List.map_cons,
      comparisonWith, List.map_map, Function.comp_def]

/-- Every target gets its own observations, and no read leaves the stores. -/
theorem storedInputs_eq {targets : List TargetId} :
    storedInputs verdict ledger targets = some (targets.map (comparisonWith verdict ledger)) := by
  have hstorage := @storeEvidence_eq verdict ledger targets
  refine @attachStored_eq verdict ledger _ targets 0 [] [] rfl rfl ?_ ?_
  · rw [hstorage, List.nil_append]
  · rw [hstorage, List.nil_append]

end Observatory

/-! ### An evaluation alone -/

namespace Observatory

/-- No flag keeps an evaluation from starting, working and publishing. -/
structure Ready (o : Observatory) : Prop where
  cancelled : o.cancelled = false
  stopping : o.stopping = false
  started : o.config.requireStarted = true → o.started = true

/-- An admitted evaluation is counted. -/
def admitted (o : Observatory) : Observatory := { o with activeEvaluations := o.activeEvaluations + 1 }

theorem Ready.admitEvaluation {o : Observatory} (h : Ready o) {now : NdoTime} :
    o.admitEvaluation now = (.ok (o.buildEvaluationInput now), o.admitted) := by
  have hstarted : (o.config.requireStarted && !o.started) = false := by
    cases hr : o.config.requireStarted with
    | false => rfl
    | true => simp [h.started hr]
  simp [Observatory.admitEvaluation, hstarted, h.cancelled, admitted]

theorem Ready.publishEvaluation [DoubleChars] {o : Observatory} (h : Ready o) {input : EvaluationInput}
    {policy : ObservatoryPolicy} {targets : List TargetEvaluation} (hepoch : input.epoch = o.config.epoch)
    (hincarnation : input.incarnation = o.config.incarnation) :
    (o.publishEvaluation input policy targets false).1 = .ok (input.outcome targets) := by
  have hstarted : (o.config.requireStarted && !o.started) = false := by
    cases hr : o.config.requireStarted with
    | false => rfl
    | true => simp [h.started hr]
  simp [Observatory.publishEvaluation, hstarted, h.cancelled, h.stopping, hepoch, hincarnation]

end Observatory

namespace Worker

/-- The loads of flags that a worker still has to make. -/
def effort (w : Worker) : Nat := 2 * (w.last - w.next) - w.tested.toNat

theorem sum_effort_set : ∀ {workers : List Worker} {k : Nat} {w w' : Worker}, workers[k]? = some w →
    w'.effort < w.effort → ((workers.set k w').map effort).sum < (workers.map effort).sum
  | [], _, _, _, h, _ => by cases h
  | v :: rest, 0, w, w', h, hlt => by
    obtain rfl : v = w := Option.some.inj h
    simp only [List.set_cons_zero, List.map_cons, List.sum_cons]
    omega
  | v :: rest, k + 1, w, w', h, hlt => by
    have hrest := @sum_effort_set rest k w w' h hlt
    simp only [List.set_cons_succ, List.map_cons, List.sum_cons]
    omega

end Worker

namespace Evaluation
variable {o : Observatory} {input : Observatory.EvaluationInput} {e : Evaluation} {k : Nat}

/-- The evaluation has copied the policy, and no worker has given up. -/
structure Underway (o : Observatory) (input : Observatory.EvaluationInput) (e : Evaluation) : Prop where
  about : e.input = input
  apply : e.apply = false
  policy : e.policy = some o.config.policy
  flying : e.result = none
  sound : e.Sound o
  steady : ∀ w ∈ e.workers, w.gaveUp = false ∧ w.last ≤ input.targets.length

theorem testCancelled_spec (hc : o.cancelled = false) : e.testCancelled o k = e ∨ ∃ w, e.workers[k]? = some w ∧
    e.testCancelled o k = { e with workers := e.workers.set k { w with tested := true } } := by
  unfold testCancelled
  cases hw : e.workers[k]? with
  | none => exact .inl rfl
  | some w =>
    simp only [hc]
    split
    · exact .inl rfl
    · exact .inr ⟨w, rfl, rfl⟩

theorem compareNext_spec (hs : o.stopping = false) : e.compareNext o k = e ∨ ∃ w policy comparison,
    e.workers[k]? = some w ∧ e.compareNext o k = { e with
      workers := e.workers.set k { w with next := w.next + 1, tested := false }
      targets := e.targets.set w.next (compareTarget comparison policy o.config.limits) } := by
  unfold compareNext
  cases hw : e.workers[k]? with
  | none => exact .inl rfl
  | some w =>
    cases hp : e.policy with
    | none => exact .inl rfl
    | some policy =>
      simp only [hs]
      split
      · exact .inl rfl
      · rw [if_neg Bool.false_ne_true]
        split
        · exact .inl rfl
        · exact .inr ⟨w, policy, _, rfl, rfl⟩

section Steps
variable [DoubleChars]

theorem Underway.testCancelled (h : Underway o input e) (hready : o.Ready) : Underway o input (e.testCancelled o k) := by
  have hsound := h.sound.moved (@testCancelled_moved o e _ k)
  rcases @testCancelled_spec o e k hready.cancelled with hsame | ⟨w, hw, hset⟩
  · rw [hsame]
    exact h
  · rw [hset] at hsound ⊢
    refine ⟨h.about, h.apply, h.policy, h.flying, hsound, fun v hv => ?_⟩
    rcases List.mem_or_eq_of_mem_set hv with hv | rfl
    · exact h.steady v hv
    · exact h.steady w (List.mem_of_getElem? hw)

theorem Underway.compareNext (h : Underway o input e) (hready : o.Ready) : Underway o input (e.compareNext o k) := by
  have hsound := h.sound.moved (@compareNext_moved o e _ k)
  rcases @compareNext_spec o e k hready.stopping with hsame | ⟨w, policy, comparison, hw, hset⟩
  · rw [hsame]
    exact h
  · rw [hset] at hsound ⊢
    refine ⟨h.about, h.apply, h.policy, h.flying, hsound, fun v hv => ?_⟩
    rcases List.mem_or_eq_of_mem_set hv with hv | rfl
    · exact h.steady v hv
    · exact h.steady w (List.mem_of_getElem? hw)

end Steps

/-- When the workers are joined, all targets were compared. -/
theorem Underway.targets (h : Underway o input e) (hjoined : e.joined = true) :
    e.targets = input.targets.map (compareTarget · o.config.policy o.config.limits) := by
  obtain ⟨policy, hpolicy, htargets⟩ := h.sound.complete hjoined fun w hw => (h.steady w hw).1
  obtain rfl : policy = o.config.policy := Option.some.inj (hpolicy.symm.trans h.policy)
  rw [htargets, h.about]

/-- A worker that is not done has a step that leaves less to do. -/
theorem Underway.exists_step (h : Underway o input e) (hready : o.Ready) (hbusy : ¬ e.joined = true) : ∃ k,
    ((e.testCancelled o k).workers.map Worker.effort).sum < (e.workers.map Worker.effort).sum ∨
      ((e.compareNext o k).workers.map Worker.effort).sum < (e.workers.map Worker.effort).sum := by
  rw [Evaluation.joined, h.policy, Option.isSome_some, Bool.true_and, List.all_eq_true] at hbusy
  obtain ⟨w, hw⟩ := not_forall.mp hbusy
  obtain ⟨hmem, hdone⟩ := Classical.not_imp.mp hw
  obtain ⟨k, hk⟩ := List.getElem?_of_mem hmem
  obtain ⟨hgave, hlast⟩ := h.steady w hmem
  have hnext : w.next < w.last := by
    simpa [Worker.done, hgave] using hdone
  have hnotDone : w.done = false := Bool.eq_false_iff.mpr hdone
  refine ⟨k, ?_⟩
  cases htested : w.tested with
  | false =>
    refine .inl ?_
    have hstep : e.testCancelled o k = { e with workers := e.workers.set k { w with tested := true } } := by
      simp [Evaluation.testCancelled, hk, hnotDone, htested, hready.cancelled]
    rw [hstep]
    refine Worker.sum_effort_set hk ?_
    simp only [Worker.effort, htested, Bool.toNat_true, Bool.toNat_false]
    omega
  | true =>
    refine .inr ?_
    obtain ⟨comparison, hcomparison⟩ : ∃ comparison, e.input.targets[w.next]? = some comparison :=
      ⟨_, List.getElem?_eq_getElem (by rw [h.about]; omega)⟩
    have hstep : e.compareNext o k = { e with
        workers := e.workers.set k { w with next := w.next + 1, tested := false }
        targets := e.targets.set w.next (compareTarget comparison o.config.policy o.config.limits) } := by
      simp [Evaluation.compareNext, hk, h.policy, hnotDone, htested, hready.stopping, hcomparison]
    rw [hstep]
    refine Worker.sum_effort_set hk ?_
    simp only [Worker.effort, htested, Bool.toNat_true, Bool.toNat_false]
    omega

end Evaluation

namespace System
variable [DoubleChars] {o : Observatory} {input : Observatory.EvaluationInput} {s : System}

/-- A step of one of the workers of the first evaluation. -/
def Works : Action → Prop
  | .testCancelled 0 _ => True
  | .compareNext 0 _ => True
  | _ => False

/-- One evaluation is underway, and nothing else. -/
def Alone (o : Observatory) (input : Observatory.EvaluationInput) (s : System) : Prop :=
  s.observatory = o ∧ ∃ e, s.evaluations = [e] ∧ e.Underway o input

theorem alone_evaluateAt {now : NdoTime} (h : o.Ready) :
    Alone o.admitted (o.buildEvaluationInput now) (Run.exec step ⟨o, []⟩ [.evaluateAt now false, .copyPolicy 0]) := by
  have hlaunched : step ⟨o, []⟩ (.evaluateAt now false) = ⟨o.admitted, [launched o now false]⟩ := by
    simp only [step, evaluateAt, h.admitEvaluation, List.nil_append, launched]
  rw [Run.exec_cons, Run.exec_cons, Run.exec_nil, hlaunched]
  refine ⟨rfl, (launched o now false).copyPolicy o.admitted, rfl, ?_⟩
  refine ⟨rfl, rfl, rfl, rfl, ?_, fun w hw => ⟨workerRanges_fresh w hw, workerRanges_bounded w hw⟩⟩
  exact Evaluation.launched_sound.moved Evaluation.copyPolicy_moved

theorem Alone.step {a : Action} (h : Alone o input s) (hready : o.Ready) (ha : Works a) : Alone o input (s.step a) := by
  obtain ⟨hobservatory, e, hevaluations, hunderway⟩ := h
  unfold Works at ha
  split at ha
  · rename_i k
    refine ⟨hobservatory, e.testCancelled o k, ?_, hunderway.testCancelled hready⟩
    simp only [System.step, hevaluations, hobservatory]
    rfl
  · rename_i k
    refine ⟨hobservatory, e.compareNext o k, ?_, hunderway.compareNext hready⟩
    simp only [System.step, hevaluations, hobservatory]
    rfl
  · exact ha.elim

/-- From wherever they are, the workers can go on until they are all done. -/
theorem Alone.finish (hready : o.Ready) (n : Nat) {s : System} {e : Evaluation} (h : Alone o input s)
    (he : s.evaluations = [e]) (hn : (e.workers.map Worker.effort).sum = n) :
    ∃ more, (∀ a ∈ more, Works a) ∧ ∃ e', (Run.exec System.step s more).evaluations = [e'] ∧ e'.joined = true := by
  induction n using Nat.strong_induction_on generalizing s e with
  | _ n ih =>
    by_cases hjoined : e.joined = true
    · exact ⟨[], fun _ ha => (by cases ha), e, he, hjoined⟩
    · obtain ⟨hobservatory, _, heq, hunderway⟩ := id h
      obtain rfl : _ = e := List.singleton_inj.mp (heq.symm.trans he)
      have hgo : ∀ (a : Action) (e' : Evaluation), Works a → (s.step a).evaluations = [e'] →
          (e'.workers.map Worker.effort).sum < n → ∃ more, (∀ a ∈ more, Works a) ∧
            ∃ e', (Run.exec System.step s more).evaluations = [e'] ∧ e'.joined = true := by
        intro a e' ha he' hlt
        obtain ⟨more, hmore, hdone⟩ := ih _ hlt (h.step hready ha) he' rfl
        exact ⟨a :: more, List.forall_mem_cons.mpr ⟨ha, hmore⟩, hdone⟩
      obtain ⟨k, hlt | hlt⟩ := hunderway.exists_step hready hjoined
      · refine hgo (.testCancelled 0 k) _ trivial ?_ (hn ▸ hlt)
        simp only [System.step, he, hobservatory]
        rfl
      · refine hgo (.compareNext 0 k) _ trivial ?_ (hn ▸ hlt)
        simp only [System.step, he, hobservatory]
        rfl

/-- Joined workers let the evaluation publish every target. -/
theorem Alone.publish {e : Evaluation} (h : Alone o input s) (hready : o.Ready) (he : s.evaluations = [e])
    (hepoch : input.epoch = o.config.epoch) (hincarnation : input.incarnation = o.config.incarnation)
    (hjoined : e.joined = true) : (s.step (.publish 0)).evaluations.map Evaluation.result =
      [some (.ok (input.outcome (input.targets.map (compareTarget · o.config.policy o.config.limits))))] := by
  obtain ⟨hobservatory, e', heq, hunderway⟩ := h
  obtain rfl : e = e' := List.singleton_inj.mp (he.symm.trans heq)
  have hpublished := @Observatory.Ready.publishEvaluation _ _ hready input o.config.policy e.targets hepoch hincarnation
  rw [hunderway.targets hjoined] at hpublished
  simp only [System.step, System.publish, he, List.getElem?_cons_zero, hunderway.policy, Evaluation.inFlight,
    hunderway.flying, Option.isNone_none, hjoined, Bool.and_self, if_true, hobservatory, hunderway.about, hunderway.apply,
    hunderway.targets hjoined, List.set_cons_zero, List.map_cons, List.map_nil, hpublished]

end System

/-! ### The age of recovered evidence -/

/-- A verdict without the age of the evidence. -/
def FreshnessVerdict.ageless (v : FreshnessVerdict) : FreshnessVerdict := { v with ageNanos := 0 }

def EvidenceView.ageless (v : EvidenceView) : EvidenceView := { v with verdict := v.verdict.ageless }

def TargetComparisonInput.ageless (input : TargetComparisonInput) : TargetComparisonInput :=
  { input with freshness := input.freshness.map FreshnessVerdict.ageless }

section Ageless
variable {policy : ObservatoryPolicy} {limits : RuntimeLimits} {target : TargetId} {baseline : IntentBaseline}
  {input : TargetComparisonInput} {views : List EvidenceView} {primary : EvidenceView} {e : TargetEvaluation}

theorem keepsOrder_ageless : EvidenceView.KeepsOrder EvidenceView.ageless := ⟨fun _ => rfl, fun _ _ => rfl, fun _ _ => rfl⟩

theorem collectViews_ageless : collectViews policy input.ageless = (collectViews policy input).map EvidenceView.ageless := by
  simp only [collectViews, TargetComparisonInput.ageless, List.zip_map_right, List.filterMap_map, List.map_filterMap]
  refine List.filterMap_congr fun p _ => ?_
  cases hp : p.1 with
  | none => simp [hp]
  | some snapshot => simp [hp, EvidenceView.make, EvidenceView.ageless, FreshnessVerdict.ageless]

theorem conflictDrafts_ageless : conflictDrafts policy limits target baseline (views.map EvidenceView.ageless) =
    conflictDrafts policy limits target baseline views := by
  have hsame := @map_conflictScan policy limits target baseline EvidenceView.ageless _ id (fun _ => rfl)
    (views.take kMaxConflictSources) (List.pairwise_of_forall fun _ _ _ _ => rfl)
  rw [List.map_id, List.map_id] at hsame
  rw [conflictDrafts, conflictDrafts, ← List.map_take]
  exact hsame

theorem compareWithPrimary_ageless :
    compareWithPrimary policy limits target baseline (views.map EvidenceView.ageless) primary.ageless e =
      compareWithPrimary policy limits target baseline views primary e := by
  simp only [compareWithPrimary, conflictDrafts_ageless, List.countP_map]
  rfl

theorem noEvidenceEvaluation_ageless :
    noEvidenceEvaluation policy limits target baseline (views.map EvidenceView.ageless) e =
      noEvidenceEvaluation policy limits target baseline views e := by
  have hattach : ∀ d, (views.map EvidenceView.ageless).foldl (attachEvidence limits) d =
      views.foldl (attachEvidence limits) d := fun d => by
    rw [List.foldl_map]
    rfl
  simp only [noEvidenceEvaluation, hattach]
  cases views <;> rfl

theorem noIntentEvaluation_ageless :
    noIntentEvaluation policy limits target (views.map EvidenceView.ageless) e =
      noIntentEvaluation policy limits target views e := by
  cases views <;> rfl

/-- The comparison does not read the age of the evidence. -/
theorem compareTarget_ageless : compareTarget input.ageless policy limits = compareTarget input policy limits := by
  have hviews := orderedViews_map keepsOrder_ageless (@collectViews_ageless policy input)
  have hconsidered : considered policy input.ageless = considered policy input :=
    considered_map keepsOrder_ageless collectViews_ageless (fun _ => rfl) (fun _ => rfl) rfl
  have hcounts : input.ageless.freshness.length = input.freshness.length := List.length_map _
  refine Branch.eq_compareTarget ?_
  have hbranch := @branch_compareTarget policy limits input
  generalize compareTarget input policy limits = evaluation at hbranch ⊢
  cases hbranch with
  | mismatched hmismatched => exact .mismatched (hcounts ▸ hmismatched)
  | noIntent hequal hnone =>
    have hbranch : Branch policy limits input.ageless _ := .noIntent (hequal.trans hcounts.symm) hnone
    rw [hviews, noIntentEvaluation_ageless, hconsidered] at hbranch
    exact hbranch
  | noEvidence hequal hsome hunusable =>
    have hbranch : Branch policy limits input.ageless _ := .noEvidence (hequal.trans hcounts.symm) hsome (by
      rw [hviews]
      exact List.forall_mem_map.mpr hunusable)
    rw [hviews, noEvidenceEvaluation_ageless, hconsidered] at hbranch
    exact hbranch
  | @compared baseline primary rest hreaches =>
    have hmapped : Reaches policy input.ageless baseline primary.ageless (rest.map EvidenceView.ageless) :=
      ⟨hreaches.counts.trans hcounts.symm, hreaches.committed, by rw [hviews, hreaches.views]; rfl, hreaches.usable⟩
    have hbranch : Branch policy limits input.ageless _ := .compared hmapped
    rw [hconsidered, ← List.map_cons, compareWithPrimary_ageless] at hbranch
    exact hbranch

end Ageless

/-! ### The three ways to evaluate -/

namespace Observatory
variable {policy : ObservatoryPolicy} {epoch : FabricEpoch} {now : NdoTime} {ledger : FindingLedger} {target : TargetId}

/-- A one-shot evaluation compares the same evidence. -/
theorem compareTarget_once {limits : RuntimeLimits} :
    compareTarget (FindingLedger.comparisonInputOnce policy epoch now ledger target) policy limits =
      compareTarget (comparisonInput policy epoch now ledger target) policy limits := by
  have hageless : (FindingLedger.comparisonInputOnce policy epoch now ledger target).ageless =
      (comparisonInput policy epoch now ledger target).ageless := by
    simp only [FindingLedger.comparisonInputOnce, comparisonInput, TargetComparisonInput.ageless, List.map_map]
    congr 1
    refine List.map_congr_left fun o _ => ?_
    simp only [Function.comp_apply, FindingLedger.verdictOnce, verdictFor]
    split <;> rfl
  rw [← compareTarget_ageless, hageless, compareTarget_ageless]

theorem mem_evaluationTargets : target ∈ evaluationTargets policy ledger ↔
    target ∈ ledger.targets ∨ target ∈ policy.requiredTargets := by
  rw [evaluationTargets, List.mem_dedup, List.mem_insertionSort, List.mem_append]

theorem sorted_evaluationTargets : (evaluationTargets policy ledger).Pairwise (· < ·) := by
  have hle : (evaluationTargets policy ledger).Pairwise (· ≤ ·) :=
    (List.pairwise_insertionSort (· ≤ ·) _).sublist (List.dedup_sublist _)
  have hne : (evaluationTargets policy ledger).Pairwise (· ≠ ·) := List.nodup_dedup _
  exact (hle.and hne).imp fun h => lt_of_le_of_ne h.1 h.2

/-- The targets of an observatory compared one after the other. -/
def comparedTargets (o : Observatory) (now : NdoTime) : List TargetEvaluation :=
  (evaluationTargets o.config.policy o.ledger).map fun target =>
    compareTarget (comparisonInput o.config.policy o.config.epoch now o.ledger target) o.config.policy o.config.limits

end Observatory

namespace System
variable [DoubleChars]

/-- The calls up to where the workers of an evaluation run. -/
def calls (now : NdoTime) (work : List Action) : List Action := [.evaluateAt now false, .copyPolicy 0] ++ work

theorem alone_calls {o : Observatory} {now : NdoTime} {work : List Action} (hready : o.Ready)
    (hwork : ∀ a ∈ work, Works a) :
    Alone o.admitted (o.buildEvaluationInput now) (Run.exec step ⟨o, []⟩ (calls now work)) := by
  have hadmitted : o.admitted.Ready := ⟨hready.cancelled, hready.stopping, hready.started⟩
  rw [calls, Run.exec_append]
  exact Run.invariant (fun s a hs ha => hs.step hadmitted ha) (alone_evaluateAt hready)
    (Run.permits_of_mem fun a ha _ => hwork a ha)

/-- Without cancellation or another operation, an evaluation by any number of workers in any order, the comparisons in
    sequence and the one-shot evaluation give the same targets. -/
theorem evaluations_agree (o : Observatory) (now : NdoTime) (hready : o.Ready)
    (hvalid : (o.config.policy.validate o.config.limits).ok = true) :
    -- The targets are the sorted union, and each gets its own evidence from the flat stores.
    ((Observatory.evaluationTargets o.config.policy o.ledger).Pairwise (· < ·) ∧
      ∀ target, target ∈ Observatory.evaluationTargets o.config.policy o.ledger ↔
        target ∈ o.ledger.targets ∨ target ∈ o.config.policy.requiredTargets) ∧
    (Observatory.storedInputs (Observatory.verdictFor o.config.policy o.config.epoch now) o.ledger
        (Observatory.evaluationTargets o.config.policy o.ledger) = some (o.buildEvaluationInput now).targets ∧
      Observatory.storedInputs (FindingLedger.verdictOnce o.config.policy o.config.epoch now) o.ledger
        (Observatory.evaluationTargets o.config.policy o.ledger) =
          some ((Observatory.evaluationTargets o.config.policy o.ledger).map
            (FindingLedger.comparisonInputOnce o.config.policy o.config.epoch now o.ledger))) ∧
    -- The ranges cover every target once.
    ((workerRanges o.config.evaluationWorkers (o.buildEvaluationInput now).targets.length).flatMap
        (fun w => List.range' w.next (w.last - w.next)) = List.range (o.buildEvaluationInput now).targets.length) ∧
    -- Wherever the workers are, they can go on until they are joined, and then the evaluation publishes.
    (∀ work, (∀ a ∈ work, Works a) → ∃ e, (Run.exec step ⟨o, []⟩ (calls now work)).evaluations = [e] ∧
      (∃ more, (∀ a ∈ more, Works a) ∧
        ∃ e', (Run.exec step ⟨o, []⟩ (calls now (work ++ more))).evaluations = [e'] ∧ e'.joined = true) ∧
      (e.joined = true → (Run.exec step ⟨o, []⟩ (calls now work ++ [.publish 0])).evaluations.map Evaluation.result =
        [some (.ok ((o.buildEvaluationInput now).outcome (o.comparedTargets now)))])) ∧
    ∃ outcome, o.ledger.evaluateLedgerOnce o.config.policy o.config.limits o.config.epoch o.config.incarnation now =
      .ok outcome ∧ outcome.targets = o.comparedTargets now := by
  have hadmitted : o.admitted.Ready := ⟨hready.cancelled, hready.stopping, hready.started⟩
  refine ⟨⟨Observatory.sorted_evaluationTargets, fun target => Observatory.mem_evaluationTargets⟩,
    ⟨Observatory.storedInputs_eq, Observatory.storedInputs_eq⟩, workerRanges_partition _ _, fun work hwork => ?_, ?_⟩
  · have halone := @alone_calls _ o now work hready hwork
    obtain ⟨-, e, he, -⟩ := id halone
    refine ⟨e, he, ?_, fun hjoined => ?_⟩
    · obtain ⟨more, hmore, e', he', hjoined⟩ := halone.finish hadmitted _ he rfl
      refine ⟨more, hmore, e', ?_, hjoined⟩
      rw [calls, ← List.append_assoc, ← calls, Run.exec_append]
      exact he'
    · rw [Run.exec_append, Run.exec_cons, Run.exec_nil, halone.publish hadmitted he rfl rfl hjoined]
      simp only [Observatory.buildEvaluationInput, List.map_map, Function.comp_def]
      rfl
  · simp only [FindingLedger.evaluateLedgerOnce, hvalid, Bool.not_true, Bool.false_eq_true, if_false]
    exact ⟨_, rfl, List.map_congr_left fun target _ => Observatory.compareTarget_once⟩

end System

namespace Sample
open FindingLedger

/-- The second source observes the other target. -/
def afield : ObservationSnapshot :=
  let s := { second with target := other }
  { s with snapshotId := s.computeSnapshotId }

/-- A started observatory with two workers and two targets, each with intent and an observation. -/
def paired : Observatory :=
  { Observatory.make
      { policy := { requiredTargets := [target, other], evidence := .synthetic }, epoch := ⟨1⟩, incarnation := ⟨1⟩
        evaluationWorkers := 2 } with
    started := true
    ledger := Run.exec (@operate noDoubles)
      { limits := {}, baselines := OrdMap.ofList [(target, declaring), (other, { declaring with target := other })] }
      [.recordObservation first fresh false, .recordObservation afield fresh false] }

/-- The second worker is faster than the first. -/
def crossing : List Action := [.testCancelled 0 1, .testCancelled 0 0, .compareNext 0 1, .compareNext 0 0]

end Sample

theorem System.evaluations_agree_paired :
    (workerRanges 2 (Sample.paired.buildEvaluationInput ⟨1⟩).targets.length).map (fun w => (w.next, w.last)) =
        [(0, 1), (1, 2)] ∧
      (Run.exec (@System.step Sample.noDoubles) ⟨Sample.paired, []⟩
          (System.calls ⟨1⟩ Sample.crossing ++ [.publish 0])).evaluations.map Evaluation.result =
        [some (.ok ((Sample.paired.buildEvaluationInput ⟨1⟩).outcome (Sample.paired.comparedTargets ⟨1⟩)))] ∧
      ∃ outcome, Sample.paired.ledger.evaluateLedgerOnce Sample.paired.config.policy Sample.paired.config.limits
          Sample.paired.config.epoch Sample.paired.config.incarnation ⟨1⟩ = .ok outcome ∧
        outcome.targets = Sample.paired.comparedTargets ⟨1⟩ ∧
        outcome.targets.map (fun e => e.drafts.map FindingDraft.klass) = [[], [.valueMismatch]] := by
  have hjoins : (Run.exec (@System.step Sample.noDoubles) ⟨Sample.paired, []⟩
      (System.calls ⟨1⟩ Sample.crossing)).evaluations.map Evaluation.joined = [true] := by decide +kernel
  have hdrafts : (Sample.paired.comparedTargets ⟨1⟩).map (fun e => e.drafts.map FindingDraft.klass) =
      [[], [.valueMismatch]] := by decide +kernel
  obtain ⟨-, -, -, hworks, outcome, hok, htargets⟩ := @System.evaluations_agree Sample.noDoubles Sample.paired ⟨1⟩
    ⟨rfl, rfl, fun _ => rfl⟩ (by decide +kernel)
  obtain ⟨e, he, -, hpublishes⟩ := hworks Sample.crossing (by simp [Sample.crossing, System.Works])
  rw [he, List.map_singleton, List.singleton_inj] at hjoins
  exact ⟨by decide +kernel, hpublishes hjoins, outcome, hok, htargets, by rw [htargets]; exact hdrafts⟩

end DriftObservatory
