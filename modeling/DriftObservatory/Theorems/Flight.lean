import DriftObservatory.Interleaving

/-! What one step of the engine does to its flags and to the evaluations in flight. -/

namespace DriftObservatory

/-! ### Frames -/

namespace Observatory
variable {o : Observatory}

/-- The parts of the configuration that no operation writes. -/
structure Configured (o o' : Observatory) : Prop where
  limits : o'.config.limits = o.config.limits
  workers : o'.config.evaluationWorkers = o.config.evaluationWorkers
  requireStarted : o'.config.requireStarted = o.config.requireStarted

/-- The lifecycle flags are as they were. -/
structure SameFlags (o o' : Observatory) : Prop extends Configured o o' where
  started : o'.started = o.started
  cancelled : o'.cancelled = o.cancelled
  stopping : o'.stopping = o.stopping

theorem SameFlags.rfl : SameFlags o o := ⟨⟨.refl _, .refl _, .refl _⟩, .refl _, .refl _, .refl _⟩

theorem start_configured : o.Configured o.start.2 := by
  unfold start
  dsimp only
  repeat' split
  all_goals exact ⟨rfl, rfl, rfl⟩

theorem rotateIncarnation_sameFlags {incarnation : Incarnation} {epoch : FabricEpoch} {now : NdoTime} :
    SameFlags o (o.rotateIncarnation incarnation epoch now).2 := by
  unfold rotateIncarnation
  repeat' split
  all_goals exact ⟨⟨rfl, rfl, rfl⟩, rfl, rfl, rfl⟩

theorem registerSource_sameFlags {descriptor : SourceDescriptor} :
    SameFlags o (o.registerSource descriptor).2 := by
  unfold registerSource
  dsimp only
  repeat' split
  all_goals exact ⟨⟨rfl, rfl, rfl⟩, rfl, rfl, rfl⟩

theorem ingestObservation_sameFlags {snapshot : ObservationSnapshot} {receiveTime : NdoTime} :
    SameFlags o (o.ingestObservation snapshot receiveTime).2.1 := by
  unfold ingestObservation
  dsimp only
  repeat' split
  all_goals exact ⟨⟨rfl, rfl, rfl⟩, rfl, rfl, rfl⟩

theorem setPolicy_sameFlags {policy : ObservatoryPolicy} {now : NdoTime} :
    SameFlags o (o.setPolicy policy now).2 := by
  unfold setPolicy
  dsimp only
  split <;> exact ⟨⟨rfl, rfl, rfl⟩, rfl, rfl, rfl⟩

theorem admitEvaluation_sameFlags {now : NdoTime} : SameFlags o (o.admitEvaluation now).2 := by
  unfold admitEvaluation
  repeat' split
  all_goals exact ⟨⟨rfl, rfl, rfl⟩, rfl, rfl, rfl⟩

variable [DoubleChars]

theorem publishIntent_sameFlags {document : IntentGenerationDocument} {stamp : NdoTime} :
    SameFlags o (o.publishIntent document stamp).2.1 := by
  unfold publishIntent
  dsimp only
  repeat' split
  all_goals exact ⟨⟨rfl, rfl, rfl⟩, rfl, rfl, rfl⟩

theorem publishEvaluation_sameFlags {input : EvaluationInput} {policy : ObservatoryPolicy}
    {targets : List TargetEvaluation} {apply : Bool} :
    SameFlags o (o.publishEvaluation input policy targets apply).2 := by
  unfold publishEvaluation
  dsimp only
  repeat' split
  all_goals exact ⟨⟨rfl, rfl, rfl⟩, rfl, rfl, rfl⟩

end Observatory

/-! ### The configuration

    Only a new policy and a new incarnation are ever written to it. -/

namespace Observatory
variable {o : Observatory}

theorem start_config : o.start.2.config = o.config := by
  unfold start
  dsimp only
  repeat' split
  all_goals rfl

theorem registerSource_config {descriptor : SourceDescriptor} :
    (o.registerSource descriptor).2.config = o.config := by
  unfold registerSource
  dsimp only
  repeat' split
  all_goals rfl

theorem ingestObservation_config {snapshot : ObservationSnapshot} {receiveTime : NdoTime} :
    (o.ingestObservation snapshot receiveTime).2.1.config = o.config := by
  unfold ingestObservation
  dsimp only
  repeat' split
  all_goals rfl

theorem admitEvaluation_config {now : NdoTime} : (o.admitEvaluation now).2.config = o.config := by
  unfold admitEvaluation
  repeat' split
  all_goals rfl

theorem setPolicy_cases {policy : ObservatoryPolicy} {now : NdoTime} :
    ((policy.validate o.config.limits).ok = true ∧
      (o.setPolicy policy now).2.config = { o.config with policy := policy }) ∨
    ((policy.validate o.config.limits).ok = false ∧ (o.setPolicy policy now).2 = o) := by
  unfold setPolicy
  dsimp only
  split
  · rename_i h
    exact .inr ⟨by simpa using h, rfl⟩
  · rename_i h
    exact .inl ⟨by simpa using h, rfl⟩

theorem rotateIncarnation_policy {incarnation : Incarnation} {epoch : FabricEpoch} {now : NdoTime} :
    (o.rotateIncarnation incarnation epoch now).2.config.policy = o.config.policy := by
  unfold rotateIncarnation
  repeat' split
  all_goals rfl

variable [DoubleChars]

theorem publishIntent_config {document : IntentGenerationDocument} {stamp : NdoTime} :
    (o.publishIntent document stamp).2.1.config = o.config := by
  unfold publishIntent
  dsimp only
  repeat' split
  all_goals rfl

section Publish
variable {input : EvaluationInput} {policy : ObservatoryPolicy} {targets : List TargetEvaluation} {apply : Bool}

/-- A publication leaves the ledger alone, or it passes every fence and applies the outcome. -/
theorem publishEvaluation_spec :
    ((o.publishEvaluation input policy targets apply).2.ledger = o.ledger ∧
      ∀ outcome, (o.publishEvaluation input policy targets apply).1 = .ok outcome → apply = false) ∨
    (input.epoch = o.config.epoch ∧ input.incarnation = o.config.incarnation ∧ apply = true ∧
      (o.publishEvaluation input policy targets apply).2.ledger =
        (o.ledger.applyEvaluation (input.outcome targets) policy input.now).2.1 ∧
      ∀ outcome, (o.publishEvaluation input policy targets apply).1 = .ok outcome →
        (o.ledger.applyEvaluation (input.outcome targets) policy input.now).1.ok = true) := by
  rcases happly : o.ledger.applyEvaluation (input.outcome targets) policy input.now with ⟨status, M, report⟩
  simp only [publishEvaluation, happly]
  split
  · exact .inl ⟨rfl, fun _ h => (by cases h)⟩
  · split
    · exact .inl ⟨rfl, fun _ h => (by cases h)⟩
    · split
      · exact .inl ⟨rfl, fun _ h => (by cases h)⟩
      · rename_i hfence
        rw [not_or, not_not, not_not] at hfence
        split
        · rename_i happly
          refine .inr ⟨hfence.1, hfence.2, happly, ?_⟩
          split
          · exact ⟨rfl, fun _ h => (by cases h)⟩
          · rename_i hok
            exact ⟨rfl, fun _ _ => by simpa using hok⟩
        · rename_i happly
          exact .inl ⟨rfl, fun _ _ => by simpa using happly⟩

theorem publishEvaluation_ok {outcome : EvaluationOutcome}
    (h : (o.publishEvaluation input policy targets apply).1 = .ok outcome) : outcome = input.outcome targets := by
  unfold publishEvaluation at h
  dsimp only at h
  repeat' split at h
  all_goals first | (cases h; rfl) | cases h

end Publish

theorem publishEvaluation_config {input : EvaluationInput} {policy : ObservatoryPolicy}
    {targets : List TargetEvaluation} {apply : Bool} :
    (o.publishEvaluation input policy targets apply).2.config = o.config := by
  unfold publishEvaluation
  dsimp only
  repeat' split
  all_goals rfl

end Observatory

/-! ### Steps of an evaluation -/

/-- Everything one step can do to an evaluation. -/
inductive Evaluation.Moved [DoubleChars] (o : Observatory) (e : Evaluation) : Evaluation → Prop
  | same : Moved o e e
  | copied (flying : e.inFlight) (fresh : e.policy = none) :
    Moved o e { e with
      policy := some o.config.policy
      workers := workerRanges o.config.evaluationWorkers e.input.targets.length }
  | tested {i : Nat} {w : Worker} (worker : e.workers[i]? = some w) (busy : w.done = false) :
    Moved o e { e with workers := e.workers.set i { w with tested := true } }
  | gaveUp {i : Nat} {w : Worker} (worker : e.workers[i]? = some w) (busy : w.done = false)
      (flag : o.cancelled ∨ o.stopping) :
    Moved o e { e with workers := e.workers.set i { w with gaveUp := true } }
  | compared {i : Nat} {w : Worker} {policy : ObservatoryPolicy} {input : TargetComparisonInput}
      (worker : e.workers[i]? = some w) (busy : w.done = false) (copy : e.policy = some policy)
      (input_at : e.input.targets[w.next]? = some input) :
    Moved o e { e with
      workers := e.workers.set i { w with next := w.next + 1, tested := false }
      targets := e.targets.set w.next (compareTarget input policy o.config.limits) }
  | published {policy : ObservatoryPolicy} (flying : e.inFlight) (copy : e.policy = some policy)
      (joined : e.joined) :
    Moved o e { e with result := some (o.publishEvaluation e.input policy e.targets e.apply).1 }

namespace Evaluation
variable {o o' : Observatory} {e e' : Evaluation}

/-- A finished evaluation has no busy worker. -/
theorem busy_flying {i : Nat} {w : Worker} (hj : e.inFlight = false → e.joined) (hw : e.workers[i]? = some w)
    (hbusy : w.done = false) : e.inFlight := by
  cases hf : e.inFlight with
  | true => rfl
  | false =>
    have hdone := hj hf
    unfold Evaluation.joined at hdone
    rw [Bool.and_eq_true, List.all_eq_true] at hdone
    rw [hdone.2 w (List.mem_of_getElem? hw)] at hbusy
    cases hbusy

theorem landed {result : Except Status EvaluationOutcome} (h : e.result = some result) : e.inFlight = false := by
  simp [inFlight, h]

theorem not_landed (hfly : e.inFlight) (hend : e.inFlight = false) : False := by
  rw [hfly] at hend
  cases hend

/-- Every target that was compared was compared under the policy. -/
def ComparedUnder (limits : RuntimeLimits) (policy : ObservatoryPolicy) (e : Evaluation) : Prop :=
  ∀ t ∈ e.targets, t = {} ∨ ∃ c ∈ e.input.targets, t = compareTarget c policy limits

/-- The targets of an evaluation are skipped ones or comparisons of its own input under the policy it copied. -/
structure Faithful (o : Observatory) (e : Evaluation) : Prop where
  untouched : e.policy = none → ∀ t ∈ e.targets, t = {}
  compared : ∀ policy, e.policy = some policy → e.ComparedUnder o.config.limits policy
  published : ∀ outcome, e.result = some (.ok outcome) → outcome = e.input.outcome e.targets
  joined : e.inFlight = false → e.joined

theorem Faithful.framed (h : Faithful o e) (hl : o'.config.limits = o.config.limits) :
    Faithful o' e :=
  ⟨h.untouched, hl ▸ h.compared, h.published, h.joined⟩

variable [DoubleChars]

theorem copyPolicy_moved : Moved o e (e.copyPolicy o) := by
  unfold copyPolicy
  split
  · rename_i h
    rw [Bool.and_eq_true, Option.isNone_iff_eq_none] at h
    exact .copied h.1 h.2
  · exact .same

theorem testCancelled_moved {worker : Nat} : Moved o e (e.testCancelled o worker) := by
  unfold testCancelled
  split
  · exact .same
  · rename_i w hw
    split
    · exact .same
    · rename_i hbusy
      rw [Bool.or_eq_true, not_or, Bool.not_eq_true] at hbusy
      split
      · exact .gaveUp hw hbusy.1 (.inl ‹_›)
      · exact .tested hw hbusy.1

theorem compareNext_moved {worker : Nat} : Moved o e (e.compareNext o worker) := by
  unfold compareNext
  split
  · rename_i w policy hw hpolicy
    split
    · exact .same
    · rename_i hbusy
      rw [Bool.or_eq_true, not_or, Bool.not_eq_true] at hbusy
      split
      · exact .gaveUp hw hbusy.1 (.inr ‹_›)
      · split
        · exact .same
        · rename_i input hinput
          exact .compared hw hbusy.1 hpolicy hinput
  · exact .same

/-- A step keeps what the evaluation is about. -/
theorem Moved.input (h : Moved o e e') : e'.input = e.input ∧ e'.apply = e.apply := by
  cases h <;> exact ⟨rfl, rfl⟩

/-! ### What was compared -/

theorem Faithful.moved (h : Faithful o e) (hm : Moved o e e') : Faithful o e' := by
  cases hm with
  | same => exact h
  | copied hfly hfresh =>
    exact ⟨fun hn => (by cases hn), fun policy hp t ht => .inl (h.untouched hfresh t ht), h.published,
      fun hend => (not_landed hfly hend).elim⟩
  | tested hw hbusy =>
    exact ⟨h.untouched, h.compared, h.published,
      fun hend => (not_landed (busy_flying h.joined hw hbusy) hend).elim⟩
  | gaveUp hw hbusy hflag =>
    exact ⟨h.untouched, h.compared, h.published,
      fun hend => (not_landed (busy_flying h.joined hw hbusy) hend).elim⟩
  | @compared i w policy input hw hbusy hpolicy hin =>
    have hfly := busy_flying h.joined hw hbusy
    refine ⟨?_, ?_, ?_, fun hend => (not_landed hfly hend).elim⟩
    · exact fun hn => absurd (hpolicy.symm.trans hn) (by simp)
    · intro policy' hp t ht
      obtain rfl : policy = policy' := Option.some.inj (hpolicy.symm.trans hp)
      rcases List.mem_or_eq_of_mem_set ht with ht | rfl
      · exact h.compared policy hpolicy t ht
      · exact .inr ⟨input, List.mem_of_getElem? hin, rfl⟩
    · exact fun outcome hres => (not_landed hfly (landed hres)).elim
  | @published policy hfly hpolicy hjoined =>
    refine ⟨h.untouched, h.compared, fun outcome hres => ?_, fun _ => hjoined⟩
    exact Observatory.publishEvaluation_ok (Option.some.inj hres)

end Evaluation

namespace System
variable {s : System} {a : Action} {i : Nat} {e e' : Evaluation}

/-- The evaluation that an admitted `EvaluateAt` starts. -/
def launched (o : Observatory) (now : NdoTime) (apply : Bool) : Evaluation where
  input := o.buildEvaluationInput now
  apply := apply
  targets := List.replicate (o.buildEvaluationInput now).targets.length {}

theorem faithful_launched {o : Observatory} {now : NdoTime} {apply : Bool} : (launched o now apply).Faithful o where
  untouched _ t ht := List.eq_of_mem_replicate ht
  compared _ h := by cases h
  published _ h := by cases h
  joined h := by cases h

theorem evaluateAt_cases {now : NdoTime} {apply : Bool} :
    (s.evaluateAt now apply).evaluations = s.evaluations ∨
      (s.evaluateAt now apply).evaluations = s.evaluations ++ [launched s.observatory now apply] := by
  unfold evaluateAt Observatory.admitEvaluation
  split
  · exact .inl rfl
  · rename_i input observatory h
    refine .inr ?_
    split at h
    · cases h
    · split at h <;> cases h
      rfl

theorem evaluateAt_observatory {now : NdoTime} {apply : Bool} :
    (s.evaluateAt now apply).observatory = (s.observatory.admitEvaluation now).2 := by
  unfold evaluateAt
  split <;> rename_i h <;> rw [h]

theorem evaluateAt_sameFlags {now : NdoTime} {apply : Bool} :
    s.observatory.SameFlags (s.evaluateAt now apply).observatory :=
  evaluateAt_observatory ▸ Observatory.admitEvaluation_sameFlags

variable [DoubleChars]

theorem moved_modify {f : Evaluation → Evaluation} (hf : ∀ e, Evaluation.Moved s.observatory e (f e)) {index : Nat}
    (h : (s.evaluations.modify index f)[i]? = some e') :
    ∃ e, s.evaluations[i]? = some e ∧ Evaluation.Moved s.observatory e e' := by
  rw [List.getElem?_modify] at h
  obtain ⟨e, he, rfl⟩ := Option.map_eq_some_iff.mp h
  refine ⟨e, he, ?_⟩
  split
  · exact hf e
  · exact .same

theorem publish_moved {index : Nat} (h : (s.publish index).evaluations[i]? = some e') :
    ∃ e, s.evaluations[i]? = some e ∧ Evaluation.Moved s.observatory e e' := by
  unfold publish at h
  split at h
  · exact ⟨e', h, .same⟩
  · rename_i e he
    split at h
    · exact ⟨e', h, .same⟩
    · rename_i policy hpolicy
      split at h
      · rename_i hjoined
        rw [Bool.and_eq_true] at hjoined
        rw [List.getElem?_set] at h
        split at h
        · rename_i hi
          subst hi
          split at h
          · obtain rfl := Option.some.inj h
            exact ⟨e, he, .published hjoined.1 hpolicy hjoined.2⟩
          · cases h
        · exact ⟨e', h, .same⟩
      · exact ⟨e', h, .same⟩

/-- After a step every evaluation is one of before, moved by the step, or the one the step has launched. -/
theorem evaluations_step (h : (s.step a).evaluations[i]? = some e') :
    (∃ e, s.evaluations[i]? = some e ∧ Evaluation.Moved s.observatory e e') ∨
      ∃ now apply, a = .evaluateAt now apply ∧ i = s.evaluations.length ∧
        e' = launched s.observatory now apply := by
  cases a with
  | evaluateAt now apply =>
    rcases @evaluateAt_cases s now apply with hs | hs <;> simp only [step, hs] at h
    · exact .inl ⟨e', h, .same⟩
    · rcases Nat.lt_trichotomy i s.evaluations.length with hi | hi | hi
      · rw [List.getElem?_append_left hi] at h
        exact .inl ⟨e', h, .same⟩
      · subst hi
        rw [List.getElem?_concat_length] at h
        exact .inr ⟨now, apply, rfl, rfl, (Option.some.inj h).symm⟩
      · rw [List.getElem?_eq_none (by simp; omega)] at h
        cases h
  | copyPolicy index => exact .inl (moved_modify (fun _ => Evaluation.copyPolicy_moved) h)
  | testCancelled index worker => exact .inl (moved_modify (fun _ => Evaluation.testCancelled_moved) h)
  | compareNext index worker => exact .inl (moved_modify (fun _ => Evaluation.compareNext_moved) h)
  | publish index => exact .inl (publish_moved h)
  | _ => exact .inl ⟨e', h, .same⟩

/-- Every evaluation of before is still there. -/
theorem evaluations_kept (h : s.evaluations[i]? = some e) :
    ∃ e', (s.step a).evaluations[i]? = some e' ∧ Evaluation.Moved s.observatory e e' := by
  have hlt : i < s.evaluations.length := (List.getElem?_eq_some_iff.mp h).1
  have hlen : s.evaluations.length ≤ (s.step a).evaluations.length := by
    cases a with
    | evaluateAt now apply =>
      rcases @evaluateAt_cases s now apply with hs | hs <;> simp only [step, hs]
      · exact Nat.le_refl _
      · simp
    | publish index =>
      simp only [step, publish]
      repeat' split
      all_goals simp
    | copyPolicy => simp [step]
    | testCancelled => simp [step]
    | compareNext => simp [step]
    | _ => exact Nat.le_refl _
  obtain ⟨e', he'⟩ : ∃ e', (s.step a).evaluations[i]? = some e' := ⟨_, List.getElem?_eq_getElem (by omega)⟩
  refine ⟨e', he', ?_⟩
  rcases evaluations_step he' with ⟨e₀, he₀, hm⟩ | ⟨now, apply, -, rfl, -⟩
  · obtain rfl := Option.some.inj (h.symm.trans he₀)
    exact hm
  · exact absurd hlt (Nat.lt_irrefl _)

/-- What a publication step does with the evaluation it is about. -/
theorem publish_spec {index : Nat} {e : Evaluation} (he : s.evaluations[index]? = some e) :
    ((s.step (.publish index)).observatory.ledger = s.observatory.ledger ∧
      (s.step (.publish index)).evaluations[index]? = some e) ∨
    ∃ policy, e.policy = some policy ∧ e.inFlight ∧ e.joined ∧
      (s.step (.publish index)).observatory =
        (s.observatory.publishEvaluation e.input policy e.targets e.apply).2 ∧
      (s.step (.publish index)).evaluations[index]? = some
        { e with result := some (s.observatory.publishEvaluation e.input policy e.targets e.apply).1 } := by
  simp only [step, publish, he]
  split
  · exact .inl ⟨rfl, he⟩
  · rename_i policy hpolicy
    split
    · rename_i hready
      rw [Bool.and_eq_true] at hready
      refine .inr ⟨policy, hpolicy, hready.1, hready.2, rfl, ?_⟩
      exact List.getElem?_set_self (List.getElem?_eq_some_iff.mp he).1
    · exact .inl ⟨rfl, he⟩

/-- The steps that write a lifecycle flag. -/
def Lifecycle : Action → Prop
  | .start | .stop | .requestCancellation | .clearCancellation => True
  | _ => False

theorem publish_sameFlags {index : Nat} : s.observatory.SameFlags (s.publish index).observatory := by
  unfold publish
  repeat' split
  · exact .rfl
  · exact .rfl
  · exact Observatory.publishEvaluation_sameFlags
  · exact .rfl

theorem step_sameFlags (h : ¬ Lifecycle a) : s.observatory.SameFlags (s.step a).observatory := by
  cases a with
  | start | stop | requestCancellation | clearCancellation => exact absurd trivial h
  | rotateIncarnation => exact Observatory.rotateIncarnation_sameFlags
  | registerSource => exact Observatory.registerSource_sameFlags
  | publishIntent => exact Observatory.publishIntent_sameFlags
  | ingestObservation => exact Observatory.ingestObservation_sameFlags
  | setPolicy => exact Observatory.setPolicy_sameFlags
  | publish => exact publish_sameFlags
  | evaluateAt => exact evaluateAt_sameFlags
  | _ => exact ⟨⟨rfl, rfl, rfl⟩, rfl, rfl, rfl⟩

theorem step_configured : s.observatory.Configured (s.step a).observatory := by
  cases a with
  | start => exact Observatory.start_configured
  | stop | requestCancellation | clearCancellation => exact ⟨rfl, rfl, rfl⟩
  | _ => exact (step_sameFlags id).toConfigured

theorem publish_config {index : Nat} : (s.publish index).observatory.config = s.observatory.config := by
  unfold publish
  repeat' split
  · rfl
  · rfl
  · exact Observatory.publishEvaluation_config
  · rfl

/-- The steps that may write the configuration. -/
def Configures : Action → Prop
  | .rotateIncarnation _ _ _ | .setPolicy _ _ => True
  | _ => False

theorem step_config (h : ¬ Configures a) : (s.step a).observatory.config = s.observatory.config := by
  cases a with
  | rotateIncarnation | setPolicy => exact absurd trivial h
  | start => exact Observatory.start_config
  | registerSource => exact Observatory.registerSource_config
  | publishIntent => exact Observatory.publishIntent_config
  | ingestObservation => exact Observatory.ingestObservation_config
  | publish => exact publish_config
  | evaluateAt =>
    rw [show s.step (.evaluateAt _ _) = s.evaluateAt _ _ from rfl, evaluateAt_observatory]
    exact Observatory.admitEvaluation_config
  | _ => rfl

/-! ### What was compared, along a run -/

def Faithful (s : System) : Prop := ∀ e ∈ s.evaluations, e.Faithful s.observatory

theorem Faithful.step (h : Faithful s) : Faithful (s.step a) := by
  intro e' he'
  obtain ⟨i, hi⟩ := List.getElem?_of_mem he'
  refine Evaluation.Faithful.framed ?_ step_configured.limits
  rcases evaluations_step hi with ⟨e, he, hm⟩ | ⟨now, apply, rfl, -, rfl⟩
  · exact (h e (List.mem_of_getElem? he)).moved hm
  · exact faithful_launched

theorem faithful_exec {o : Observatory} {actions : List Action} :
    Faithful (Run.exec System.step ⟨o, []⟩ actions) :=
  Run.always (fun _ _ => Faithful.step) fun e he => by cases he

end System

end DriftObservatory
