import DriftObservatory.Theorems.Cancellation
import DriftObservatory.Theorems.Pointwise

/-! An evaluation reads the policy twice: when it builds its input and when it starts to compare. As long as no other
    policy is installed in between, everything it records and writes is of one policy. -/

namespace DriftObservatory

/-! ### The digest on a finding -/

namespace FindingLedger
variable [DoubleChars] {outcome : EvaluationOutcome} {policy : ObservatoryPolicy} {now : NdoTime} {L M : FindingLedger}
  {e : TargetEvaluation} {id : FindingId} {limits : RuntimeLimits}

omit [DoubleChars] in
theorem policyDigest_reopenOrUpdate {before f : Finding} :
    (reopenOrUpdate now before f).1.policyDigest = f.policyDigest := by
  unfold reopenOrUpdate
  split_ifs <;> rfl

omit [DoubleChars] in
theorem policyDigest_lapsePolicySuppression {f : Finding} :
    (lapsePolicySuppression policy now f).1.policyDigest = f.policyDigest := by
  unfold lapsePolicySuppression
  split_ifs <;> rfl

theorem policyDigest_recomputeSummary {f : Finding} : (f.recomputeSummary limits).policyDigest = f.policyDigest := by
  obtain ⟨timeline, summary, heq⟩ := f.recomputeSummary_eq limits
  rw [heq]

theorem policyDigest_updateFinding {freshness : FreshnessState} {d : FindingDraft} {before : Finding} :
    (updateFinding limits outcome policy now freshness d before).1.policyDigest = outcome.policyDigest :=
  policyDigest_recomputeSummary.trans (policyDigest_lapsePolicySuppression.trans policyDigest_reopenOrUpdate)

theorem policyDigest_createFinding {freshness : FreshnessState} {d : FindingDraft} :
    (createFinding limits outcome policy now freshness id d).1.policyDigest = outcome.policyDigest := by
  unfold createFinding
  split <;> rfl

theorem policyDigest_draftedFinding {freshness : FreshnessState} {d : FindingDraft} (before : Option Finding) :
    (draftedFinding limits outcome policy now freshness id d before).policyDigest = outcome.policyDigest := by
  cases before with
  | none => exact policyDigest_createFinding
  | some f => exact policyDigest_updateFinding

theorem policyDigest_settledFinding {drafts : OrdMap FindingId FindingDraft} {streak : Nat} {f : Finding} :
    (L.settledFinding outcome now drafts streak f).policyDigest = f.policyDigest := by
  unfold settledFinding
  split_ifs
  · unfold supersedeFinding
    dsimp only
    split_ifs <;> rfl
  · unfold resolveFinding
    dsimp only
    split_ifs <;> rfl
  · rfl

omit [DoubleChars] in
theorem policyDigest_assignGroup {target : TargetId} {assignment : OrdMap FindingId GroupId} {f : Finding} :
    (assignGroup target now assignment f).1.policyDigest = f.policyDigest := by
  unfold assignGroup
  split_ifs
  · split
    · split_ifs <;> rfl
    · rfl
  · rfl

theorem policyDigest_expireFinding {f : Finding} : (expireFinding limits now f).1.policyDigest = f.policyDigest := by
  unfold expireFinding
  split_ifs <;> rfl

/-- Every finding carries the digest of the outcome or the one it had. -/
def Stamped (outcome : EvaluationOutcome) (L M : FindingLedger) : Prop :=
  ∀ id f', M.findings.find? id = some f' → f'.policyDigest = outcome.policyDigest ∨
    ∃ f, L.findings.find? id = some f ∧ f.policyDigest = f'.policyDigest

/-- A finding under the identity carries the digest of the outcome. -/
def Carries (outcome : EvaluationOutcome) (id : FindingId) (M : FindingLedger) : Prop :=
  ∃ f, M.findings.find? id = some f ∧ f.policyDigest = outcome.policyDigest

/-- A target stamps what it drafts and nothing else. -/
theorem stamped_applyTarget {report : LedgerApplyReport} :
    Stamped outcome L (applyTarget outcome policy now L report e).2.1 := by
  intro id f' hf'
  obtain ⟨f, hstep, hf⟩ := find?_applyTarget hf'
  have hsame : f'.policyDigest = f.policyDigest := by
    rcases hf with rfl | ⟨assignment, rfl⟩
    · rfl
    · exact policyDigest_assignGroup
  rw [hsame]
  generalize L.findings.find? id = before at hstep
  cases hstep with
  | drafted before d hd hid => exact .inl (policyDigest_draftedFinding _)
  | kept f hd => exact .inr ⟨f, rfl, rfl⟩
  | settled f hd ht hl hdec => exact .inr ⟨f, rfl, policyDigest_settledFinding.symm⟩

omit [DoubleChars] in
theorem Stamped.trans {N : FindingLedger} (h : Stamped outcome L M) (h' : Stamped outcome M N) :
    Stamped outcome L N := by
  intro id f'' hf''
  rcases h' id f'' hf'' with hd | ⟨f', hf', hsame⟩
  · exact .inl hd
  · rw [← hsame]
    exact h id f' hf'

theorem stamped_expire :
    Stamped outcome L (L.expireSuppressions now).bumpRevision.trimTimelineIfNeeded := by
  intro id f' hf'
  rw [find?_expireSuppressions] at hf'
  obtain ⟨f, hf, rfl⟩ := Option.map_eq_some_iff.mp hf'
  exact .inr ⟨f, hf, policyDigest_expireFinding.symm⟩

theorem stamped_applyEvaluation : Stamped outcome L (L.applyEvaluation outcome policy now).2.1 :=
  applyEvaluation_rule (fun _ _ _ _ _ h => h.trans stamped_applyTarget) (fun _ h => h.trans stamped_expire)
    fun _ f hf => .inr ⟨f, hf, rfl⟩

omit [DoubleChars] in
theorem Carries.kept (h : Carries outcome id L) (hs : Stamped outcome L M)
    (hc : L.findings.contains id = true → M.findings.contains id = true) : Carries outcome id M := by
  obtain ⟨f, hf, hd⟩ := h
  obtain ⟨f', hf'⟩ := OrdMap.contains_iff.mp (hc (OrdMap.contains_iff.mpr ⟨f, hf⟩))
  refine ⟨f', hf', ?_⟩
  rcases hs id f' hf' with hd' | ⟨f₀, hf₀, hsame⟩
  · exact hd'
  · obtain rfl := Option.some.inj (hf.symm.trans hf₀)
    rw [← hsame, hd]

theorem carries_applyTarget {report : LedgerApplyReport} {d : FindingDraft} (hd : d ∈ e.drafts) :
    Carries outcome d.identity.computeId (applyTarget outcome policy now L report e).2.1 := by
  have hdraft : (draftMap e.drafts).contains d.identity.computeId = true := contains_draftMap.mpr ⟨d, hd, rfl⟩
  obtain ⟨f', hf'⟩ := OrdMap.contains_iff.mp (@contains_applyTarget _ outcome policy now L e _ report (.inl hdraft))
  refine ⟨f', hf', ?_⟩
  obtain ⟨f, hstep, hf⟩ := find?_applyTarget hf'
  have hsame : f'.policyDigest = f.policyDigest := by
    rcases hf with rfl | ⟨assignment, rfl⟩
    · rfl
    · exact policyDigest_assignGroup
  rw [hsame]
  have hnone : (draftMap e.drafts).find? d.identity.computeId ≠ none := fun h => by
    rw [OrdMap.contains, h] at hdraft
    cases hdraft
  generalize d.identity.computeId = id at hstep hnone
  generalize L.findings.find? id = before at hstep
  cases hstep with
  | drafted before d hd hid => exact policyDigest_draftedFinding _
  | kept f hd => exact absurd hd hnone
  | settled f hd ht hl hdec => exact absurd hd hnone

/-- When an evaluation is applied, the finding of every draft of an accepted target carries its digest. -/
theorem carries_applyEvaluation {d : FindingDraft} (he : e ∈ outcome.targets) (hacc : L.accepts e = true)
    (hd : d ∈ e.drafts) (hok : (L.applyEvaluation outcome policy now).1.ok = true) :
    Carries outcome d.identity.computeId (L.applyEvaluation outcome policy now).2.1 := by
  refine applyEvaluation_established (fun M report e' _ h => h.kept stamped_applyTarget fun hc => ?_) he hacc
    (fun M report => carries_applyTarget hd) (fun M h => h.kept stamped_expire fun hc => ?_) hok
  · exact contains_applyTarget (.inr hc)
  · rw [OrdMap.contains, find?_expireSuppressions, Option.isSome_map]
    exact hc

end FindingLedger

/-! ### One policy for each evaluation -/

/-- The input was built under the policy: identity, digest, confirmations and every freshness verdict. -/
structure Observatory.EvaluationInput.BuiltUnder (policy : ObservatoryPolicy) (input : Observatory.EvaluationInput) :
    Prop where
  id : input.policy = policy.id
  digest : input.policyDigest = policy.computeDigest
  confirmations : input.resolutionConfirmations = policy.resolutionConfirmations
  verdicts : ∀ c ∈ input.targets, ∃ retained : List RetainedObservation,
    c.snapshots = retained.map (fun o => some o.snapshot) ∧
      c.freshness = retained.map (Observatory.verdictFor policy input.epoch input.now c.target)

theorem Observatory.builtUnder_buildEvaluationInput {o : Observatory} {now : NdoTime} :
    (o.buildEvaluationInput now).BuiltUnder o.config.policy where
  id := by simp only [buildEvaluationInput]
  digest := by simp only [buildEvaluationInput]
  confirmations := by simp only [buildEvaluationInput]
  verdicts c hc := by
    obtain ⟨target, -, rfl⟩ := List.mem_map.mp hc
    exact ⟨o.ledger.observationsFor target, by simp only [comparisonInput], by
      simp only [comparisonInput, buildEvaluationInput]⟩

namespace Evaluation
variable {o o' : Observatory} {e e' : Evaluation}

structure OnePolicy (o : Observatory) (e : Evaluation) : Prop where
  waiting : e.policy = none → e.input.BuiltUnder o.config.policy
  copied : ∀ policy, e.policy = some policy → e.input.BuiltUnder policy

theorem onePolicy_launched {now : NdoTime} {apply : Bool} : OnePolicy o (System.launched o now apply) where
  waiting _ := Observatory.builtUnder_buildEvaluationInput
  copied _ h := by cases h

theorem OnePolicy.moved [DoubleChars] (h : OnePolicy o e) (hm : Moved o e e') : OnePolicy o e' := by
  cases hm with
  | copied hfly hfresh =>
    refine ⟨fun hn => (by cases hn), fun policy hp => ?_⟩
    obtain rfl := Option.some.inj hp
    exact h.waiting hfresh
  | _ => exact ⟨h.waiting, h.copied⟩

theorem OnePolicy.framed (h : OnePolicy o e) (hp : e.policy = none → o'.config.policy = o.config.policy) :
    OnePolicy o' e where
  waiting hn := hp hn ▸ h.waiting hn
  copied := h.copied

end Evaluation

namespace System
variable [DoubleChars] {s : System} {a : Action}

/-- No other policy is installed between the building of an input and the copy of the policy. -/
def PolicyAwaits (s : System) : Action → Prop
  | .setPolicy policy _ => (policy.validate s.observatory.config.limits).ok = true →
      policy = s.observatory.config.policy ∨ ∀ e ∈ s.evaluations, e.policy ≠ none
  | _ => True

def OnePolicy (s : System) : Prop := ∀ e ∈ s.evaluations, e.OnePolicy s.observatory

theorem OnePolicy.step (h : OnePolicy s) (hp : PolicyAwaits s a) : OnePolicy (s.step a) := by
  intro e' he'
  obtain ⟨i, hi⟩ := List.getElem?_of_mem he'
  have hmoved : e'.OnePolicy s.observatory := by
    rcases evaluations_step hi with ⟨e, he, hm⟩ | ⟨now, apply, rfl, -, rfl⟩
    · exact (h e (List.mem_of_getElem? he)).moved hm
    · exact Evaluation.onePolicy_launched
  refine hmoved.framed fun hnone => ?_
  by_cases hc : Configures a
  · cases a with
    | rotateIncarnation => exact Observatory.rotateIncarnation_policy
    | setPolicy policy now =>
      rcases @Observatory.setPolicy_cases s.observatory policy now with ⟨hok, hset⟩ | ⟨-, hset⟩
      · rcases hp hok with rfl | hall
        · exact congrArg ObservatoryConfig.policy hset
        · exact absurd hnone (hall e' he')
      · exact congrArg (fun o => o.config.policy) hset
    | _ => exact hc.elim
  · rw [step_config hc]

/-- In every run in which no other policy is installed while an evaluation has built its input and not yet copied the
    policy, what an evaluation records, compares and stamps is all of the policy it copied. -/
theorem one_policy (o : Observatory) (actions : List Action)
    (h : Run.Permits System.step PolicyAwaits ⟨o, []⟩ actions) :
    let s := Run.exec System.step ⟨o, []⟩ actions
    ∀ index e policy, s.evaluations[index]? = some e → e.policy = some policy →
      e.input.BuiltUnder policy ∧ e.ComparedUnder s.observatory.config.limits policy ∧
      (∀ outcome, e.result = some (.ok outcome) → outcome = e.input.outcome e.targets) ∧
      let L := s.observatory.ledger
      let M := (s.step (.publish index)).observatory.ledger
      (∀ id f', M.findings.find? id = some f' → f'.policyDigest = policy.computeDigest ∨
        ∃ f, L.findings.find? id = some f ∧ f.policyDigest = f'.policyDigest) ∧
      ∀ outcome, e.inFlight → e.apply →
        (s.step (.publish index)).evaluations[index]? = some { e with result := some (.ok outcome) } →
        ∀ t ∈ e.targets, L.accepts t = true → ∀ d ∈ t.drafts, ∃ f,
          M.findings.find? d.identity.computeId = some f ∧ f.policyDigest = policy.computeDigest := by
  intro s index e policy he hpolicy
  have hs : OnePolicy s := Run.invariant (fun _ _ => OnePolicy.step) (fun e he => by cases he) h
  have hbuilt := (hs e (List.mem_of_getElem? he)).copied policy hpolicy
  have hfaithful : e.Faithful s.observatory := faithful_exec e (List.mem_of_getElem? he)
  refine ⟨hbuilt, hfaithful.compared policy hpolicy, hfaithful.published, ?_⟩
  have hdigest : (e.input.outcome e.targets).policyDigest = policy.computeDigest := hbuilt.digest
  dsimp only
  rcases publish_spec he with ⟨hsame, hstay⟩ | ⟨policy', hpolicy', hfly, -, hpub, hres⟩
  · rw [hsame]
    refine ⟨fun id f hf => .inr ⟨f, hf, rfl⟩, fun outcome hfly _ hres => ?_⟩
    rw [hstay] at hres
    exact (Evaluation.not_landed hfly (Evaluation.landed (congrArg Evaluation.result (Option.some.inj hres)))).elim
  · obtain rfl : policy = policy' := Option.some.inj (hpolicy.symm.trans hpolicy')
    rw [hpub, ← hdigest]
    rcases @Observatory.publishEvaluation_spec s.observatory _ e.input policy e.targets e.apply with
      ⟨hsame, hdry⟩ | ⟨-, -, -, hledger, hok⟩
    · rw [hsame]
      refine ⟨fun id f hf => .inr ⟨f, hf, rfl⟩, fun outcome _ happly hres' => ?_⟩
      rw [hres] at hres'
      have hfalse := hdry outcome (Option.some.inj (congrArg Evaluation.result (Option.some.inj hres')))
      rw [happly] at hfalse
      cases hfalse
    · rw [hledger]
      refine ⟨FindingLedger.stamped_applyEvaluation, fun outcome _ _ hres' t ht hacc d hd => ?_⟩
      rw [hres] at hres'
      exact FindingLedger.carries_applyEvaluation ht hacc hd
        (hok outcome (Option.some.inj (congrArg Evaluation.result (Option.some.inj hres'))))

end System

namespace Sample

/-- The policy that is installed while an evaluation is under way. -/
def nextPolicy : ObservatoryPolicy := { observatory.config.policy with id := ⟨ascii "policy/next"⟩ }

def installed : List Action :=
  [.start, .evaluateAt ⟨1⟩ true, .setPolicy nextPolicy ⟨1⟩, .copyPolicy 0, .testCancelled 0 0, .compareNext 0 0,
    .publish 0]

end Sample

theorem System.one_policy_undisturbed :
    (Run.exec (@System.step Sample.noDoubles) ⟨Sample.observatory, []⟩ Sample.undisturbed).evaluations.map
        Sample.publishedNames = [some [Sample.target]] ∧
      ∀ (index : Nat) (e : Evaluation) (policy : ObservatoryPolicy),
        (Run.exec (@System.step Sample.noDoubles) ⟨Sample.observatory, []⟩ Sample.undisturbed).evaluations[index]? =
          some e → e.policy = some policy → e.input.BuiltUnder policy := by
  refine ⟨by decide +kernel, fun index e policy he hpolicy => ?_⟩
  refine (@System.one_policy Sample.noDoubles Sample.observatory Sample.undisturbed ?_ index e policy he hpolicy).1
  exact ⟨trivial, trivial, trivial, trivial, trivial, trivial, trivial⟩

theorem System.installed_two_policies :
    ¬ ∀ (o : Observatory) (actions : List Action),
      ∀ e ∈ (Run.exec (@System.step Sample.noDoubles) ⟨o, []⟩ actions).evaluations, ∀ policy outcome,
        e.policy = some policy → e.result = some (.ok outcome) →
          outcome.policy = policy.id ∧ outcome.policyDigest = policy.computeDigest := by
  intro h
  have hrun := h Sample.observatory Sample.installed
  have hids : (Run.exec (@System.step Sample.noDoubles) ⟨Sample.observatory, []⟩ Sample.installed).evaluations.map
      (fun e => ((e.result.bind Except.toOption).map EvaluationOutcome.policy, e.policy.map ObservatoryPolicy.id)) =
      [(some Sample.observatory.config.policy.id, some Sample.nextPolicy.id)] := by decide +kernel
  obtain ⟨e, he, hpair⟩ := List.exists_of_mem_map (hids ▸ List.mem_singleton.mpr rfl)
  rw [Prod.mk.injEq] at hpair
  obtain ⟨outcome, hok, hold⟩ := Option.map_eq_some_iff.mp hpair.1
  obtain ⟨result, hres, hok⟩ := Option.bind_eq_some_iff.mp hok
  obtain ⟨policy, hpolicy, hnew⟩ := Option.map_eq_some_iff.mp hpair.2
  have hsame := (hrun e he policy outcome hpolicy (by
    cases result with
    | error _ => cases hok
    | ok r => rw [hres, show r = outcome from Option.some.inj hok])).1
  rw [hold, hnew] at hsame
  exact absurd hsame (by decide)

end DriftObservatory
