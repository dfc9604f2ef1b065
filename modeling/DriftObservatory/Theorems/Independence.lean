import DriftObservatory.Theorems.Agreements
import DriftObservatory.Theorems.Evidence
import DriftObservatory.Theorems.Identities
import DriftObservatory.Theorems.Parallel
import DriftObservatory.Theorems.Resolution

/-! The observations behind a resolution, along the runs of the engine. The ledger counts evaluations; they stand for as many
    observations where each evaluation is fit for the agreements on record when it is applied. -/

namespace DriftObservatory

/-! ### What an evaluation was decided from -/

namespace Evaluation

/-- The snapshot that the comparison of a target takes as primary evidence. -/
def primary (e : Evaluation) (target : TargetId) : Option ObservationSnapshot := do
  let policy ← e.policy
  let input ← e.input.targets.find? fun c => c.target == target
  let view ← (orderedViews policy input).head?
  return view.snapshot

/-- The input has different targets, and what stands for each of them was skipped or is about it. -/
structure Placed (e : Evaluation) : Prop where
  distinct : (e.input.targets.map TargetComparisonInput.target).Nodup
  placed : ∀ (i : Nat) t, e.targets[i]? = some t → t = {} ∨ ∃ c, e.input.targets[i]? = some c ∧ t.target = c.target

variable {o : Observatory} {e e' : Evaluation}

theorem placed_launched {now : NdoTime} {apply : Bool} : (System.launched o now apply).Placed where
  distinct := by
    rw [System.launched, Observatory.buildEvaluationInput, List.map_map]
    exact (List.map_id _).symm ▸ Observatory.sorted_evaluationTargets.imp ne_of_lt
  placed i t ht := .inl (List.eq_of_mem_replicate (List.mem_of_getElem? ht))

theorem Placed.moved [DoubleChars] (h : Placed e) (hm : Moved o e e') : Placed e' := by
  cases hm with
  | @compared i w policy input hw hbusy hpolicy hin =>
    refine ⟨h.distinct, fun j t ht => ?_⟩
    rw [List.getElem?_set] at ht
    split_ifs at ht with hj
    · rw [← Option.some.inj ht, target_compareTarget]
      exact .inr ⟨input, hj ▸ hin, rfl⟩
    · exact h.placed j t ht
  | _ => exact ⟨h.distinct, h.placed⟩

theorem Placed.pairwise (h : Placed e) : e.targets.Pairwise fun t t' => t = {} ∨ t' = {} ∨ t.target ≠ t'.target := by
  rw [List.pairwise_iff_getElem]
  intro i j hi hj hlt
  rcases h.placed i _ (List.getElem?_eq_getElem hi) with hskipped | ⟨c, hc, htarget⟩
  · exact .inl hskipped
  rcases h.placed j _ (List.getElem?_eq_getElem hj) with hskipped | ⟨c', hc', htarget'⟩
  · exact .inr (.inl hskipped)
  refine .inr (.inr fun heq => ?_)
  obtain ⟨hci, hc⟩ := List.getElem?_eq_some_iff.mp hc
  obtain ⟨hcj, hc'⟩ := List.getElem?_eq_some_iff.mp hc'
  refine List.pairwise_iff_getElem.mp h.distinct i j (by rwa [List.length_map]) (by rwa [List.length_map]) hlt ?_
  rw [List.getElem_map, List.getElem_map, hc, hc', ← htarget, ← htarget', heq]

/-- A comparison that decides has taken a snapshot as primary evidence. -/
theorem primary_isSome (h : Placed e) (hf : e.Faithful o) {policy : ObservatoryPolicy} (hpolicy : e.policy = some policy)
    {t : TargetEvaluation} (ht : t ∈ e.targets) (hdecidable : t.complianceDecidable = true) :
    (e.primary t.target).isSome = true := by
  rcases hf.compared policy hpolicy t ht with rfl | ⟨c, hc, rfl⟩
  · cases hdecidable
  obtain ⟨baseline, view, hcompared, -⟩ := compared_of_decidable hdecidable
  have hfind : (e.input.targets.find? fun c' => c'.target == c.target) = some c := by
    cases hfound : e.input.targets.find? fun c' => c'.target == c.target with
    | none => exact absurd (List.find?_eq_none.mp hfound c hc) (by simp)
    | some c' =>
      have hsame : c'.target = c.target := by simpa using List.find?_some hfound
      rw [List.inj_on_of_nodup_map h.distinct (List.mem_of_find?_eq_some hfound) hc hsame]
  simp only [primary, hpolicy, target_compareTarget, hfind, Option.bind_eq_bind, Option.bind_some, hcompared.preferred]
  rfl

/-- What was compared drafts for its own target. -/
theorem target_of_mem (hf : e.Faithful o) {policy : ObservatoryPolicy} (hpolicy : e.policy = some policy)
    {t : TargetEvaluation} (ht : t ∈ e.targets) {d : FindingDraft} (hd : d ∈ t.drafts) : d.identity.target = t.target := by
  rcases hf.compared policy hpolicy t ht with rfl | ⟨c, hc, rfl⟩
  · cases hd
  · rw [target_compareTarget]
    exact target_of_mem_drafts hd

end Evaluation

/-! ### What a step brings to the ledger -/

namespace Observatory

/-- No fence of the publication is up. -/
def admits (o : Observatory) (input : EvaluationInput) : Bool :=
  !o.cancelled && !(o.stopping || (o.config.requireStarted && !o.started)) &&
    input.epoch == o.config.epoch && input.incarnation == o.config.incarnation

theorem ledger_publishEvaluation [DoubleChars] {o : Observatory} {input : EvaluationInput} {policy : ObservatoryPolicy}
    {targets : List TargetEvaluation} {apply : Bool} : (o.publishEvaluation input policy targets apply).2.ledger =
      if o.admits input && apply then (o.ledger.applyEvaluation (input.outcome targets) policy input.now).2.1 else o.ledger := by
  rcases happly : o.ledger.applyEvaluation (input.outcome targets) policy input.now with ⟨status, M, report⟩
  simp only [publishEvaluation, happly]
  split
  · rename_i hcancelled
    rw [if_neg (by simp [admits, hcancelled])]
  · rename_i hclear
    split
    · rename_i hstopped
      rw [if_neg (by simp only [admits, hstopped]; simp)]
    · rename_i hrunning
      split
      · rename_i hfence
        rw [if_neg]
        intro hadmits
        simp only [admits, Bool.and_eq_true, beq_iff_eq] at hadmits
        exact hfence.elim (fun h => h hadmits.1.1.2) fun h => h hadmits.1.2
      · rename_i hcurrent
        rw [not_or, not_not, not_not] at hcurrent
        have hadmits : o.admits input = true := by
          simp only [admits, hcurrent.1, hcurrent.2, Bool.eq_false_iff.mpr hclear, Bool.eq_false_iff.mpr hrunning]
          simp
        rw [hadmits, Bool.true_and]
        split
        · split <;> rfl
        · rfl

end Observatory

namespace System

/-- The evaluation whose outcome a step applies, and its policy. -/
def applying (s : System) : Action → Option (Evaluation × ObservatoryPolicy)
  | .publish index => do
    let e ← s.evaluations[index]?
    let policy ← e.policy
    if e.inFlight && e.joined && (s.observatory.admits e.input && e.apply) then some (e, policy) else none
  | _ => none

variable [DoubleChars] {s : System} {a : Action} {e : Evaluation} {policy : ObservatoryPolicy}

/-- The evaluations of targets that a step brings to the ledger, each with its primary snapshot. -/
def readings (s : System) (a : Action) : List Reading :=
  match s.applying a with
  | none => []
  | some (e, policy) =>
    (s.observatory.ledger.evaluationsOf (.applyEvaluation (e.input.outcome e.targets) policy e.input.now)).map fun t =>
      ⟨t, e.primary t.target⟩

theorem applying_spec (h : s.applying a = some (e, policy)) : e ∈ s.evaluations ∧ e.policy = some policy ∧
    (s.step a).observatory.ledger =
      (s.observatory.ledger.applyEvaluation (e.input.outcome e.targets) policy e.input.now).2.1 := by
  cases a with
  | publish index =>
    simp only [applying, Option.bind_eq_bind, Option.bind_eq_some_iff, Option.ite_none_right_eq_some, Option.some.injEq,
      Prod.mk.injEq] at h
    obtain ⟨e', he, policy', hpolicy, hready, rfl, rfl⟩ := h
    rw [Bool.and_eq_true] at hready
    refine ⟨List.mem_of_getElem? he, hpolicy, ?_⟩
    simp only [step, publish, he, hpolicy, if_pos hready.1, Observatory.ledger_publishEvaluation, if_pos hready.2]
  | _ => cases h

/-- A step that applies no outcome and loads no ledger leaves the streaks alone and touches each finding on its own. -/
theorem worked_step (h : s.applying a = none) (hload : ∀ decoded, a ≠ .replaceLedger decoded) :
    ∃ op, FindingLedger.Worked op s.observatory.ledger (s.step a).observatory.ledger := by
  have hsame : ∀ {L M : FindingLedger}, M = L → ∃ op, FindingLedger.Worked op L M := fun heq =>
    ⟨.expireSuppressions default, FindingLedger.worked_of_same (heq ▸ rfl) (heq ▸ rfl)⟩
  cases a with
  | replaceLedger decoded => exact absurd rfl (hload decoded)
  | start =>
    refine ⟨.expireSuppressions default, ?_⟩
    simp only [step, Observatory.start]
    repeat' split
    all_goals exact FindingLedger.worked_of_same rfl rfl
  | registerSource =>
    refine hsame ?_
    simp only [step, Observatory.registerSource]
    repeat' split
    all_goals rfl
  | rotateIncarnation incarnation epoch now =>
    rcases @rotateIncarnation_cases s.observatory incarnation epoch now with ⟨-, heq⟩ | hledger
    · exact hsame (congrArg Observatory.ledger heq)
    · refine ⟨.invalidateRetainedEvidence .evidenceRecoveredNotFresh now, ?_⟩
      rw [step, hledger]
      exact FindingLedger.worked_operate rfl
  | publishIntent document stamp =>
    have hcommit : FindingLedger.Worked (.commitIntent document stamp) s.observatory.ledger
        (s.observatory.ledger.commitIntent document stamp).2.1 := FindingLedger.worked_operate rfl
    refine ⟨.commitIntent document stamp, ?_⟩
    simp only [step, Observatory.publishIntent]
    repeat' split
    all_goals first | exact FindingLedger.worked_of_same rfl rfl | exact hcommit
  | ingestObservation snapshot receiveTime =>
    rcases @ingestObservation_cases s.observatory snapshot receiveTime with heq | ⟨verdict, hledger, -, -⟩
    · exact hsame heq
    · refine ⟨.recordObservation { snapshot with receivedAt := receiveTime } verdict false, ?_⟩
      rw [step, hledger]
      exact FindingLedger.worked_operate rfl
  | setPolicy policy now =>
    refine ⟨.recordEvent (Observatory.policyEvent s.observatory.config.policy.computeDigest policy now), ?_⟩
    simp only [step, Observatory.setPolicy]
    split
    · exact FindingLedger.worked_of_same rfl rfl
    · exact FindingLedger.worked_operate rfl
  | suppressFinding finding actor reason expiresAt now =>
    exact ⟨.suppress finding actor reason expiresAt now, FindingLedger.worked_operate rfl⟩
  | clearSuppression finding actor now =>
    exact ⟨.clearSuppression finding actor now, FindingLedger.worked_operate rfl⟩
  | acknowledgeFinding finding actor reason now =>
    exact ⟨.acknowledge finding actor reason now, FindingLedger.worked_operate rfl⟩
  | clearAcknowledgement finding actor now =>
    exact ⟨.clearAcknowledgement finding actor now, FindingLedger.worked_operate rfl⟩
  | expireSuppressions now => exact ⟨.expireSuppressions now, FindingLedger.worked_operate rfl⟩
  | evaluateAt now apply =>
    refine hsame ?_
    rw [show s.step (.evaluateAt now apply) = s.evaluateAt now apply from rfl, evaluateAt_observatory]
    simp only [Observatory.admitEvaluation]
    repeat' split
    all_goals rfl
  | publish index =>
    refine hsame ?_
    simp only [applying, Option.bind_eq_bind] at h
    simp only [step, publish]
    cases he : s.evaluations[index]? with
    | none => rfl
    | some e =>
      cases hpolicy : e.policy with
      | none => simp only [hpolicy]
      | some policy =>
        simp only [he, hpolicy, Option.bind_some] at h ⊢
        split
        · rename_i hready
          rw [hready, Bool.true_and] at h
          dsimp only
          rw [Observatory.ledger_publishEvaluation, if_neg]
          exact fun hadmits => by rw [if_pos hadmits] at h; cases h
        · rfl
  | _ => exact hsame rfl

theorem readings_of_none (h : s.applying a = none) : s.readings a = [] := by
  rw [readings, h]

theorem readings_eq (h : s.applying a = some (e, policy)) : s.readings a =
    (s.observatory.ledger.evaluationsOf (.applyEvaluation (e.input.outcome e.targets) policy e.input.now)).map fun t =>
      ⟨t, e.primary t.target⟩ := by
  rw [readings, h]

theorem sublist_readings (h : s.applying a = some (e, policy)) :
    ((s.readings a).map Reading.evaluation).Sublist e.targets := by
  rw [readings_eq h, List.map_map]
  show (List.map id _).Sublist e.targets
  rw [List.map_id]
  simp only [FindingLedger.evaluationsOf, FindingLedger.applied]
  split
  · exact List.nil_sublist _
  · exact FindingLedger.processed_sublist.trans List.filter_sublist

/-! ### Runs with the readings on record -/

/-- Every evaluation in flight is over different targets. -/
def Placed (s : System) : Prop := ∀ e ∈ s.evaluations, e.Placed

theorem Placed.step (h : Placed s) : Placed (s.step a) := by
  intro e' he'
  obtain ⟨i, hi⟩ := List.getElem?_of_mem he'
  rcases evaluations_step hi with ⟨e, he, hm⟩ | ⟨now, apply, rfl, -, rfl⟩
  · exact (h e (List.mem_of_getElem? he)).moved hm
  · exact Evaluation.placed_launched

end System

/-- A system, and the readings that its ledger has taken since it was loaded. -/
structure Watched where
  system : System
  readings : List Reading := []

namespace Watched
variable [DoubleChars]

def step (w : Watched) (a : Action) : Watched where
  system := w.system.step a
  readings := match a with
    | .replaceLedger _ => []
    | _ => w.readings ++ w.system.readings a

/-- Each reading of the step is fit for the agreements on record. -/
def Fits (w : Watched) (a : Action) : Prop :=
  ∀ r ∈ w.system.readings a, w.system.observatory.ledger.Fit w.readings r

/-- The record does not interfere with the system. -/
theorem system_exec {w : Watched} {run : List Action} : (Run.exec step w run).system = Run.exec System.step w.system run := by
  induction run generalizing w with
  | nil => rfl
  | cons a rest ih => exact ih

/-- What holds along a run: the evaluations in flight are sound, and the ledger is tallied against the record. -/
structure Kept (known : FindingIdentity → Prop) (w : Watched) : Prop where
  placed : w.system.Placed
  faithful : w.system.Faithful
  tallied : FindingLedger.Tallied known w.system.observatory.ledger w.readings

variable {known : FindingIdentity → Prop} {w : Watched} {a : Action} {e : Evaluation} {policy : ObservatoryPolicy}

theorem step_readings (h : ∀ decoded, a ≠ .replaceLedger decoded) :
    (w.step a).readings = w.readings ++ w.system.readings a := by
  cases a with
  | replaceLedger decoded => exact absurd rfl (h decoded)
  | _ => rfl

/-- An outcome that is applied where its readings are fit keeps the tally, and what it resolves is credited. -/
theorem Kept.applying (h : Kept known w) (hsha : ∀ i j, known i → known j → i.computeId = j.computeId → i = j)
    (hknown : ∀ r ∈ w.system.readings a, ∀ d ∈ r.evaluation.drafts, known d.identity)
    (happly : w.system.applying a = some (e, policy)) (hfit : w.Fits a) :
    FindingLedger.Tallied known (w.system.step a).observatory.ledger (w.readings ++ w.system.readings a) ∧
      FindingLedger.Credited (e.input.outcome e.targets) w.readings w.system.observatory.ledger
        (w.system.step a).observatory.ledger (w.system.readings a) := by
  obtain ⟨he, hpolicy, hledger⟩ := System.applying_spec happly
  have hfaithful := h.faithful e he
  have hplaced := h.placed e he
  have hmem : ∀ r ∈ w.system.readings a, r.evaluation ∈ e.targets ∧ r.primary = e.primary r.evaluation.target := by
    intro r hr
    refine ⟨(System.sublist_readings happly).subset (List.mem_map_of_mem hr), ?_⟩
    rw [System.readings_eq happly] at hr
    obtain ⟨t, -, rfl⟩ := List.mem_map.mp hr
    rfl
  have hevaluations : (w.system.readings a).map Reading.evaluation =
      w.system.observatory.ledger.evaluationsOf (.applyEvaluation (e.input.outcome e.targets) policy e.input.now) := by
    rw [System.readings_eq happly, List.map_map]
    exact List.map_id _
  have hrounds := @FindingLedger.credited_rounds known w.system.observatory.ledger _ (e.input.outcome e.targets) policy
    e.input.now w.readings (w.system.readings a) h.tallied hsha
    (fun r hr d hd => ⟨hknown r hr d hd, Evaluation.target_of_mem hfaithful hpolicy (hmem r hr).1 hd⟩)
    (fun r hr hdecidable => (hmem r hr).2 ▸ Evaluation.primary_isSome hplaced hfaithful hpolicy (hmem r hr).1 hdecidable)
    (List.pairwise_map.mp (hplaced.pairwise.sublist (System.sublist_readings happly))) hfit
  rw [hevaluations] at hrounds
  rw [hledger]
  have hend := @FindingLedger.applyEvaluation_processed _ (e.input.outcome e.targets) policy e.input.now
    w.system.observatory.ledger
  generalize Run.exec (FindingLedger.round (e.input.outcome e.targets) policy e.input.now) w.system.observatory.ledger
    (w.system.observatory.ledger.evaluationsOf (.applyEvaluation (e.input.outcome e.targets) policy e.input.now)) = M
    at hrounds hend
  rcases hend with hsame | hexpired
  · rwa [hsame]
  · rw [hexpired]
    obtain ⟨hstreaks, hfindings⟩ := @FindingLedger.worked_expireSuppressions _ M e.input.now
    have hworked : FindingLedger.Worked (.expireSuppressions e.input.now) M
      (M.expireSuppressions e.input.now).bumpRevision.trimTimelineIfNeeded := ⟨hstreaks, hfindings⟩
    exact ⟨hrounds.1.worked hworked, hrounds.2.quiet hworked.quiet⟩

theorem Kept.step (h : Kept known w) (hsha : ∀ i j, known i → known j → i.computeId = j.computeId → i = j)
    (hload : System.Loads a)
    (hloaded : ∀ decoded, a = .replaceLedger decoded → ∀ id f, decoded.findings.find? id = some f → known f.identity)
    (hknown : ∀ r ∈ w.system.readings a, ∀ d ∈ r.evaluation.drafts, known d.identity) (hfit : w.Fits a) :
    Kept known (w.step a) := by
  refine ⟨h.placed.step, h.faithful.step, ?_⟩
  by_cases hreplaces : ∃ decoded, a = .replaceLedger decoded
  · obtain ⟨decoded, rfl⟩ := hreplaces
    obtain ⟨limits, liveEpoch, bytes, report, hdecoded⟩ := hload
    have hfresh := FindingLedger.unconfirmed_start (.decoded limits liveEpoch bytes decoded report hdecoded)
    exact FindingLedger.tallied_of_no_streaks (fun id f hf => ⟨hfresh.keyed id f hf, hloaded decoded rfl id f hf⟩)
      hfresh.streaks
  · rw [not_exists] at hreplaces
    rw [step_readings hreplaces]
    cases happly : w.system.applying a with
    | none =>
      obtain ⟨op, hworked⟩ := System.worked_step happly hreplaces
      rw [System.readings_of_none happly, List.append_nil]
      exact h.tallied.worked hworked
    | some applied => exact (h.applying hsha hknown happly hfit).1

end Watched

/-! ### Whole runs -/

namespace System
variable [DoubleChars]

/-- The readings of a run, in order. -/
def record (s : System) (run : List Action) : List Reading :=
  (Run.outputs step (fun s a => some (s.readings a)) s run).flatten

theorem permits_record {Q : Reading → Prop} {run : List Action} {w : Watched} (h : ∀ r ∈ w.system.record run, Q r) :
    Run.Permits Watched.step (fun w b => ∀ r ∈ w.system.readings b, Q r) w run := by
  induction run generalizing w with
  | nil => trivial
  | cons a rest ih =>
    have hsplit : w.system.record (a :: rest) = w.system.readings a ++ (w.system.step a).record rest := rfl
    rw [hsplit] at h
    exact ⟨fun r hr => h r (List.mem_append_left _ hr), ih fun r hr => h r (List.mem_append_right _ hr)⟩

/-- The identities that occur in a run: those of the findings it starts with or loads, and those of its drafts. -/
def Occurs (s : System) (run : List Action) (identity : FindingIdentity) : Prop :=
  (∃ id f, s.observatory.ledger.findings.find? id = some f ∧ f.identity = identity) ∨
    (∃ decoded, .replaceLedger decoded ∈ run ∧ ∃ id f, decoded.findings.find? id = some f ∧ f.identity = identity) ∨
    ∃ r ∈ s.record run, ∃ d ∈ r.evaluation.drafts, d.identity = identity

/-- Two identities of the run have the same SHA-256 digest. -/
def Collides (s : System) (run : List Action) : Prop :=
  ∃ i j, s.Occurs run i ∧ s.Occurs run j ∧ i ≠ j ∧ i.computeId = j.computeId

theorem not_collides_of_one {s : System} {run : List Action} (hempty : s.observatory.ledger.findings = ∅)
    (hload : ∀ decoded, .replaceLedger decoded ∉ run)
    (hone : ((s.record run).flatMap fun r => r.evaluation.drafts.map FindingDraft.identity).length ≤ 1) :
    ¬ s.Collides run := by
  have hmem : ∀ i, s.Occurs run i →
      i ∈ (s.record run).flatMap fun r => r.evaluation.drafts.map FindingDraft.identity := by
    rintro i (⟨id, f, hf, -⟩ | ⟨decoded, hin, -⟩ | ⟨r, hr, d, hd, rfl⟩)
    · rw [hempty] at hf
      cases hf
    · exact absurd hin (hload decoded)
    · exact List.mem_flatMap.mpr ⟨r, hr, List.mem_map_of_mem hd⟩
  rintro ⟨i, j, hi, hj, hne, -⟩
  obtain ⟨k, hk⟩ : ∃ k, ∀ i, s.Occurs run i → i = k := by
    match hlist : (s.record run).flatMap fun r => r.evaluation.drafts.map FindingDraft.identity with
    | [] => exact ⟨i, fun i' hi' => absurd (hlist ▸ hmem i' hi') List.not_mem_nil⟩
    | [k] => exact ⟨k, fun i' hi' => List.mem_singleton.mp (hlist ▸ hmem i' hi')⟩
    | _ :: _ :: _ =>
      rw [hlist] at hone
      simp at hone
  exact hne ((hk i hi).trans (hk j hj).symm)

/-- A finding that becomes resolved while no ledger is loaded is resolved by an applied outcome. In a run in which each
    reading is fit for the agreements on record, there are then as many agreements on its absence as the outcome requires,
    each on a snapshot of its own, and no evaluation of its target without usable evidence lies among them. -/
theorem resolution_independent (o : Observatory) (hstart : FindingLedger.Start o.ledger) (run : List Action) (a : Action)
    (hloads : ∀ b ∈ run, Loads b) (hsha : ¬ Collides ⟨o, []⟩ (run ++ [a]))
    (hfits : Run.Permits Watched.step Watched.Fits ⟨⟨o, []⟩, []⟩ (run ++ [a])) :
    let w := Run.exec Watched.step ⟨⟨o, []⟩, []⟩ run
    ∀ id f, (w.system.step a).observatory.ledger.findings.find? id = some f → f.state = .resolved →
      (∀ f₀, w.system.observatory.ledger.findings.find? id = some f₀ → f₀.state ≠ .resolved) →
      (∃ decoded, a = .replaceLedger decoded) ∨
      ∃ e policy earlier r later, w.system.applying a = some (e, policy) ∧ w.system.readings a = earlier ++ r :: later ∧
        max 1 e.input.resolutionConfirmations.toNat ≤ (agreements id f (w.readings ++ earlier ++ [r])).length ∧
        Independent id f (w.readings ++ earlier ++ [r]) := by
  intro w id f hf hres hnew
  have hinjective : ∀ i j, Occurs ⟨o, []⟩ (run ++ [a]) i → Occurs ⟨o, []⟩ (run ++ [a]) j → i.computeId = j.computeId →
      i = j := fun i j hi hj heq => by
    by_contra hne
    exact hsha ⟨i, j, hi, hj, hne, heq⟩
  have hunconfirmed := FindingLedger.unconfirmed_start hstart
  have hfirst : Watched.Kept (Occurs ⟨o, []⟩ (run ++ [a])) ⟨⟨o, []⟩, []⟩ := by
    refine ⟨fun e he => (by cases he), fun e he => (by cases he), ?_⟩
    exact FindingLedger.tallied_of_no_streaks (fun id f hf => ⟨hunconfirmed.keyed id f hf, .inl ⟨id, f, hf, rfl⟩⟩)
      hunconfirmed.streaks
  have hdrafts : Run.Permits Watched.step (fun w b => ∀ r ∈ w.system.readings b, ∀ d ∈ r.evaluation.drafts,
      Occurs ⟨o, []⟩ (run ++ [a]) d.identity) ⟨⟨o, []⟩, []⟩ (run ++ [a]) :=
    permits_record fun r hr d hd => .inr (.inr ⟨r, hr, d, hd, rfl⟩)
  rw [Run.permits_append] at hfits hdrafts
  have hmem := @Run.permits_of_mem _ _ Watched.step (fun _ b => Loads b ∧ b ∈ run) run ⟨⟨o, []⟩, []⟩
    fun b hb _ => ⟨hloads b hb, hb⟩
  have hkept : w.Kept (Occurs ⟨o, []⟩ (run ++ [a])) := by
    refine Run.invariant (fun w b hw hb => ?_) hfirst ((hfits.1.and hdrafts.1).and hmem)
    obtain ⟨⟨hfit, hknown⟩, hload, hin⟩ := hb
    refine hw.step hinjective hload (fun decoded heq id f hf => ?_) hknown hfit
    exact .inr (.inl ⟨decoded, List.mem_append_left _ (heq ▸ hin), id, f, hf, rfl⟩)
  refine or_iff_not_imp_left.mpr fun hreplaces => ?_
  rw [not_exists] at hreplaces
  cases happly : w.system.applying a with
  | none =>
    obtain ⟨op, hworked⟩ := worked_step happly hreplaces
    rcases hworked.quiet.findings id with ⟨-, hnone⟩ | ⟨f₀, g, hf₀, hg, hk⟩
    · rw [hnone] at hf
      cases hf
    · obtain rfl := Option.some.inj (hg.symm.trans hf)
      exact absurd (hk.resolved hres) (hnew f₀ hf₀)
  | some applied =>
    obtain ⟨e, policy⟩ := applied
    obtain ⟨-, hcredited⟩ := hkept.applying hinjective hdrafts.2.1 happly hfits.2.1
    rcases hcredited id f hf hres with ⟨f₀, hf₀, hres₀⟩ | ⟨earlier, r, later, hdone, henough, hindependent⟩
    · exact absurd hres₀ (hnew f₀ hf₀)
    · exact ⟨e, policy, earlier, r, later, rfl, hdone, henough, hindependent⟩

end System

namespace Sample

/-- An observatory whose policy requires two agreements. -/
def cautious : Observatory := .make
  { policy := { requiredTargets := [target], evidence := .synthetic, resolutionConfirmations := 2 }
    epoch := ⟨1⟩, incarnation := ⟨1⟩ }

/-- An evaluation up to its publication. -/
def pass (index : Nat) (now : NdoTime) : List Action :=
  [.evaluateAt now true, .copyPolicy index, .testCancelled index 0, .compareNext index 0]

/-- A finding about the missing evidence, an evaluation of the first observation, and a second evaluation. -/
def assessed (between : List Action) : List Action :=
  [.start, .publishIntent document ⟨1⟩] ++ pass 0 ⟨1⟩ ++ [.publish 0, .ingestObservation (empty 1) ⟨2⟩] ++ pass 1 ⟨2⟩ ++
    [.publish 1] ++ between ++ pass 2 ⟨3⟩

/-- The state in which the second evaluation publishes. -/
def assessing (between : List Action) : Watched :=
  Run.exec (@Watched.step noDoubles) ⟨⟨cautious, []⟩, []⟩ (assessed between)

theorem assessing_eq {between : List Action} :
    Run.exec (@Watched.step noDoubles) ⟨⟨cautious, []⟩, []⟩ (assessed between) = assessing between := rfl

/-- Another observation comes before the second evaluation. -/
def renewed : List Action := [.ingestObservation (empty 2) ⟨3⟩]

end Sample

namespace Sample

/-- What the second evaluation leaves. -/
def concluded (between : List Action) : System := @System.step noDoubles (assessing between).system (.publish 2)

theorem concluded_eq {between : List Action} :
    @System.step noDoubles (assessing between).system (.publish 2) = concluded between := rfl

theorem loads_nothing {run : List Action}
    (h : run.all (fun b => match b with | .replaceLedger _ => false | _ => true) = true) :
    (∀ decoded, .replaceLedger decoded ∉ run) ∧ ∀ b ∈ run, @System.Loads noDoubles b := by
  have hnot : ∀ decoded, .replaceLedger decoded ∉ run := fun decoded hin => by
    have hone := List.all_eq_true.mp h _ hin
    cases hone
  refine ⟨hnot, fun b hb => ?_⟩
  cases b with
  | replaceLedger decoded => exact absurd hb (hnot decoded)
  | _ => trivial

/-- Both agreements of the run with a second observation are fit. -/
theorem fits_renewed : Run.Permits (@Watched.step noDoubles) (@Watched.Fits noDoubles) ⟨⟨cautious, []⟩, []⟩
    (assessed renewed ++ [.publish 2]) := by
  have hall : Run.Permits (@Watched.step noDoubles) (fun w a => ∀ r ∈ @System.readings noDoubles w.system a,
      (w.system.observatory.ledger.findings.entries.all fun entry => r.evaluation.complianceDecidable &&
        decide (r.key ∉ (agreements entry.1 entry.2 w.readings).map Reading.key)) = true) ⟨⟨cautious, []⟩, []⟩
      (assessed renewed ++ [.publish 2]) := by decide +kernel
  exact hall.imp fun w a h r hr => FindingLedger.fit_of_entries (h r hr)

end Sample

theorem System.resolution_independent_renewed :
    (Sample.concluded Sample.renewed).observatory.ledger.findings.values.map Finding.state = [.resolved] ∧
      ∀ id f, (Sample.concluded Sample.renewed).observatory.ledger.findings.find? id = some f →
        ∃ readings, 2 ≤ (agreements id f readings).length ∧ Independent id f readings := by
  have hfacts : (Sample.assessing Sample.renewed).system.observatory.ledger.findings.values.map Finding.state = [.open] ∧
      (Sample.concluded Sample.renewed).observatory.ledger.findings.values.map Finding.state = [.resolved] ∧
      ((System.applying (Sample.assessing Sample.renewed).system (.publish 2)).map fun x =>
        x.1.input.resolutionConfirmations) = some 2 := by decide +kernel
  obtain ⟨hbefore, hafter, htwo⟩ := hfacts
  obtain ⟨hnone, hloads⟩ := @Sample.loads_nothing (Sample.assessed Sample.renewed ++ [.publish 2]) rfl
  have hsha : ¬ @System.Collides Sample.noDoubles ⟨Sample.cautious, []⟩ (Sample.assessed Sample.renewed ++ [.publish 2]) :=
    @System.not_collides_of_one Sample.noDoubles _ _ rfl hnone (by decide +kernel)
  refine ⟨hafter, fun id f hf => ?_⟩
  have happly := @System.resolution_independent Sample.noDoubles Sample.cautious (@FindingLedger.Start.empty Sample.noDoubles _)
    (Sample.assessed Sample.renewed) (.publish 2)
    (fun b hb => hloads b (List.mem_append_left _ hb)) hsha Sample.fits_renewed
  dsimp only at happly
  rw [Sample.assessing_eq, Sample.concluded_eq] at happly
  have hnew : ∀ f₀, (Sample.assessing Sample.renewed).system.observatory.ledger.findings.find? id = some f₀ →
      f₀.state ≠ .resolved := fun f₀ hf₀ hres => by
    have hopen := List.mem_singleton.mp (Sample.mem_of_find? hbefore hf₀)
    rw [hres] at hopen
    cases hopen
  rcases happly id f hf (List.mem_singleton.mp (Sample.mem_of_find? hafter hf)) hnew with
    ⟨decoded, hload⟩ | ⟨e, policy, earlier, r, later, happlied, -, henough, hindependent⟩
  · cases hload
  · refine ⟨_, ?_, hindependent⟩
    rw [happlied] at htwo
    have hrequired : e.input.resolutionConfirmations = 2 := Option.some.inj htwo
    rw [hrequired] at henough
    exact henough

theorem System.resolution_reassessed :
    ¬ ∀ (o : Observatory) (run : List Action) (a : Action), @FindingLedger.Start Sample.noDoubles o.ledger →
      (∀ b ∈ run, @System.Loads Sample.noDoubles b) → ¬ @System.Collides Sample.noDoubles ⟨o, []⟩ (run ++ [a]) →
      let w := Run.exec (@Watched.step Sample.noDoubles) ⟨⟨o, []⟩, []⟩ run
      ∀ id f, (@System.step Sample.noDoubles w.system a).observatory.ledger.findings.find? id = some f →
        f.state = .resolved →
        (∀ f₀, w.system.observatory.ledger.findings.find? id = some f₀ → f₀.state ≠ .resolved) →
        ∀ e policy, w.system.applying a = some (e, policy) →
          ∃ earlier r later, @System.readings Sample.noDoubles w.system a = earlier ++ r :: later ∧
            max 1 e.input.resolutionConfirmations.toNat ≤ (agreements id f (w.readings ++ earlier ++ [r])).length ∧
            Independent id f (w.readings ++ earlier ++ [r]) := by
  intro h
  have hfacts : (Sample.assessing []).system.observatory.ledger.findings.values.map Finding.state = [.open] ∧
      (Sample.concluded []).observatory.ledger.findings.values.map Finding.state = [.resolved] ∧
      (@System.readings Sample.noDoubles (Sample.assessing []).system (.publish 2)).length = 1 ∧
      ((Sample.assessing []).system.applying (.publish 2)).isSome = true ∧
      ((Sample.concluded []).observatory.ledger.findings.entries.map fun entry =>
        decide ((agreements entry.1 entry.2 ((Sample.assessing []).readings ++
          @System.readings Sample.noDoubles (Sample.assessing []).system (.publish 2))).map Reading.key).Nodup) =
            [false] := by decide +kernel
  obtain ⟨hbefore, hafter, hone, happlies, hkeys⟩ := hfacts
  obtain ⟨hnone, hloads⟩ := @Sample.loads_nothing (Sample.assessed [] ++ [.publish 2]) rfl
  have hsha : ¬ @System.Collides Sample.noDoubles ⟨Sample.cautious, []⟩ (Sample.assessed [] ++ [.publish 2]) :=
    @System.not_collides_of_one Sample.noDoubles _ _ rfl hnone (by decide +kernel)
  have hrun := h Sample.cautious (Sample.assessed []) (.publish 2) (@FindingLedger.Start.empty Sample.noDoubles _)
    (fun b hb => hloads b (List.mem_append_left _ hb)) hsha
  dsimp only at hrun
  rw [Sample.assessing_eq, Sample.concluded_eq] at hrun
  obtain ⟨f, hmem, hres⟩ := List.exists_of_mem_map (hafter ▸ List.mem_singleton.mpr rfl)
  obtain ⟨id, hf⟩ := OrdMap.mem_values.mp hmem
  obtain ⟨⟨e, policy⟩, happlied⟩ := Option.isSome_iff_exists.mp happlies
  obtain ⟨earlier, r, later, hdone, -, hindependent⟩ := hrun id f hf hres
    (fun f₀ hf₀ hres₀ => by
      have hopen := List.mem_singleton.mp (Sample.mem_of_find? hbefore hf₀)
      rw [hres₀] at hopen
      cases hopen) e policy happlied
  -- The one reading of the step is the second agreement, on the snapshot of the first.
  obtain ⟨rfl, rfl⟩ : earlier = [] ∧ later = [] := by
    rw [hdone, List.length_append, List.length_cons] at hone
    exact ⟨List.length_eq_zero_iff.mp (by omega), List.length_eq_zero_iff.mp (by omega)⟩
  rw [List.nil_append] at hdone
  have hsame := List.mem_map_of_mem (f := fun entry : FindingId × Finding => decide ((agreements entry.1 entry.2
    ((Sample.assessing []).readings ++ @System.readings Sample.noDoubles (Sample.assessing []).system
      (.publish 2))).map Reading.key).Nodup) (OrdMap.mem_entries_iff.mpr hf)
  rw [hkeys, List.mem_singleton, decide_eq_false_iff_not] at hsame
  refine hsame ?_
  rw [hdone]
  have hdistinct := hindependent.distinct
  rwa [List.append_nil] at hdistinct

end DriftObservatory
