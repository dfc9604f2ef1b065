import DriftObservatory.Theorems.Effect
import DriftObservatory.Theorems.Suppression

/-! Policy suppressions and the past of a finding. A new finding is suppressed if the policy has a rule for it; one that is
    drafted again can only lose the suppression that policy once placed on it, whatever the policy says now. -/

namespace DriftObservatory

/-- The policy has a rule that applies to the draft. -/
def FindingDraft.silenced (d : FindingDraft) (policy : ObservatoryPolicy) (now : NdoTime) : Bool :=
  (policy.findSuppression d.target d.object d.path d.klass d.severity now).isSome

namespace Finding

/-- The policy has a rule that applies to the finding: to its location, class and severity. -/
def silenced (f : Finding) (policy : ObservatoryPolicy) (now : NdoTime) : Bool :=
  (policy.findSuppression f.identity.target f.identity.object f.identity.path f.klass f.severity now).isSome

/-- The finding is suppressed, and policy did it. -/
def PolicySuppressed (f : Finding) : Prop := f.state = .suppressed ∧ f.suppressionOrigin = .policy

/-- The suppression of an operator is set on the finding. -/
def OperatorSuppressed (f : Finding) : Prop := f.suppression.isSome = true ∧ f.suppressionOrigin = .operator

end Finding

namespace FindingLedger

/-! ### One finding -/

section One
variable {limits : RuntimeLimits} {outcome : EvaluationOutcome} {policy : ObservatoryPolicy} {now : NdoTime}
  {freshness : FreshnessState} {id : FindingId} {d : FindingDraft} {f f' : Finding}

theorem Filed.policySuppressed (h : Filed f f') : f'.PolicySuppressed ↔ f.PolicySuppressed := by
  obtain ⟨group, cause, timeline, rfl⟩ := h
  exact Iff.rfl

theorem Filed.operatorSuppressed (h : Filed f f') : f'.OperatorSuppressed ↔ f.OperatorSuppressed := by
  obtain ⟨group, cause, timeline, rfl⟩ := h
  exact Iff.rfl

theorem Filed.suppressionExpires (h : Filed f f') : suppressionExpires now f' = suppressionExpires now f := by
  obtain ⟨group, cause, timeline, rfl⟩ := h
  rfl

theorem silenced_of_reflects {before : Option Finding} (h : Reflects d before f) (hidentity : f.identity = d.identity) :
    f.silenced policy now = d.silenced policy now := by
  unfold Finding.silenced FindingDraft.silenced
  rw [h.klass, h.severity, hidentity]
  rfl

variable [DoubleChars]

/-- A finding is suppressed by policy after the suppressions that expire are lifted if it was and its own goes on. -/
theorem policySuppressed_expireFinding :
    (expireFinding limits now f).1.PolicySuppressed ↔ f.PolicySuppressed ∧ suppressionExpires now f = false := by
  unfold expireFinding
  cases hexpires : suppressionExpires now f with
  | false =>
    rw [if_neg Bool.false_ne_true]
    exact ⟨fun h => ⟨h, rfl⟩, fun h => h.1⟩
  | true =>
    rw [if_pos rfl]
    refine ⟨fun h => ?_, fun h => (by cases h.2)⟩
    have hstate := h.1
    rw [Finding.state_recomputeSummary] at hstate
    exact absurd hstate (Finding.state_clearSuppression_ne f)

theorem operatorSuppressed_expireFinding :
    (expireFinding limits now f).1.OperatorSuppressed ↔ f.OperatorSuppressed ∧ suppressionExpires now f = false := by
  unfold expireFinding
  cases hexpires : suppressionExpires now f with
  | false =>
    rw [if_neg Bool.false_ne_true]
    exact ⟨fun h => ⟨h, rfl⟩, fun h => h.1⟩
  | true =>
    rw [if_pos rfl]
    refine ⟨fun h => ?_, fun h => (by cases h.2)⟩
    have hset := h.1
    rw [Finding.suppression_recomputeSummary] at hset
    cases hset

/-- A first draft is suppressed by policy if there is a rule for it, and by no operator. -/
theorem suppressed_createFinding :
    ((createFinding limits outcome policy now freshness id d).1.PolicySuppressed ∧
        suppressionExpires now (createFinding limits outcome policy now freshness id d).1 = false ↔
      d.silenced policy now = true) ∧
      ¬ (createFinding limits outcome policy now freshness id d).1.OperatorSuppressed := by
  unfold Finding.PolicySuppressed Finding.OperatorSuppressed suppressionExpires FindingDraft.silenced
  rcases @createFinding_marks _ limits outcome policy now freshness id d with
    ⟨rule, hrule, hset, horigin, hexpiry, hstate⟩ | ⟨hrule, hset, horigin, hstate⟩
  · -- A rule that has expired is not found, so the suppression goes on.
    have hgoes : rule.isExpiredAt now = false := by
      have hfound := List.find?_some hrule
      simp only [Bool.and_eq_true, Bool.not_eq_true'] at hfound
      exact hfound.1.1.1
    rw [hset, horigin, hexpiry, hstate, hrule]
    exact ⟨⟨fun _ => rfl, fun _ => ⟨⟨rfl, rfl⟩, hgoes⟩⟩, fun h => (by cases h.2)⟩
  · rw [hset, horigin, hstate, hrule]
    exact ⟨⟨fun h => (by cases h.1.1), fun h => (by cases h)⟩, fun h => (by cases h.2)⟩

/-- A repeated draft keeps the suppression of policy that is on the finding, if there is a rule for it, and never places
    one. -/
theorem policySuppressed_updateFinding (hidentity : f.identity = d.identity) :
    (updateFinding limits outcome policy now freshness d f).1.PolicySuppressed ∧
        suppressionExpires now (updateFinding limits outcome policy now freshness d f).1 = false ↔
      f.PolicySuppressed ∧ suppressionExpires now f = false ∧
        (f.suppression.isSome = true → d.silenced policy now = true) := by
  have hrule : d.silenced policy now = true ↔ ¬ policy.findSuppression f.identity.target f.identity.object f.identity.path
      d.klass d.severity now = none := by
    rw [hidentity]
    exact Option.isSome_iff_ne_none
  unfold Finding.PolicySuppressed suppressionExpires
  rcases @updateFinding_marks _ limits outcome policy now freshness d f with
    ⟨hsome, hlapses, hset, horigin, hstate⟩ | ⟨hkept, hset, horigin, hexpiry, hstate⟩
  · exact ⟨fun h => absurd h.1.1 hstate, fun h => absurd hlapses.2 (hrule.mp (h.2.2 hsome))⟩
  · rw [hset, horigin, hexpiry, hstate, hrule]
    constructor
    · rintro ⟨⟨hsuppressed, hpolicy⟩, hgoes⟩
      split_ifs at hsuppressed
      exact ⟨⟨hsuppressed, hpolicy⟩, hgoes, fun hsome hnone => hkept hsome ⟨hpolicy, hnone⟩⟩
    · rintro ⟨⟨hsuppressed, hpolicy⟩, hgoes, -⟩
      have hlive : f.isLive = true := by
        rw [Finding.isLive, hsuppressed]
        rfl
      rw [if_pos hlive]
      exact ⟨⟨hsuppressed, hpolicy⟩, hgoes⟩

/-- A repeated draft leaves the suppression of an operator alone. -/
theorem operatorSuppressed_updateFinding :
    (updateFinding limits outcome policy now freshness d f).1.OperatorSuppressed ∧
        suppressionExpires now (updateFinding limits outcome policy now freshness d f).1 = false ↔
      f.OperatorSuppressed ∧ suppressionExpires now f = false := by
  unfold Finding.OperatorSuppressed suppressionExpires
  rcases @updateFinding_marks _ limits outcome policy now freshness d f with
    ⟨hsome, hlapses, hset, horigin, hstate⟩ | ⟨hkept, hset, horigin, hexpiry, hstate⟩
  · rw [hset, hlapses.1]
    exact ⟨fun h => (by cases h.1.1), fun h => (by cases h.1.2)⟩
  · rw [hset, horigin, hexpiry]

end One

/-! ### An evaluation that is applied -/

/-- Policy alone says which drafted findings are suppressed: one of an accepted target on which no operator's suppression is
    set is suppressed by policy exactly if the policy has a rule for it. -/
def PolicyDecides (outcome : EvaluationOutcome) (policy : ObservatoryPolicy) (now : NdoTime) (L M : FindingLedger) : Prop :=
  ∀ e ∈ outcome.targets, L.accepts e = true → ∀ d ∈ e.drafts, ∃ f, M.findings.find? d.identity.computeId = some f ∧
    (¬ f.OperatorSuppressed → (f.PolicySuppressed ↔ f.silenced policy now = true))

/-- The findings that are drafted again agree with the policy already, but for those under an operator's suppression that
    goes on: if it has a rule for the draft, the finding is suppressed by policy and its suppression goes on; if it has none,
    a finding suppressed by policy has its suppression set, so that it can end. -/
def PastAgrees (outcome : EvaluationOutcome) (policy : ObservatoryPolicy) (now : NdoTime) (L : FindingLedger) : Prop :=
  ∀ e ∈ outcome.targets, L.accepts e = true → ∀ id d f, (draftMap e.drafts).find? id = some d →
    L.findings.find? id = some f → ¬ (f.OperatorSuppressed ∧ suppressionExpires now f = false) →
      (d.silenced policy now = true → f.PolicySuppressed ∧ suppressionExpires now f = false) ∧
      (d.silenced policy now = false → f.PolicySuppressed → f.suppression.isSome = true)

section Applied
variable [DoubleChars] {outcome : EvaluationOutcome} {policy : ObservatoryPolicy} {now : NdoTime} {L : FindingLedger}

/-- What a draft leaves follows the policy exactly if the finding before it, if there is one, agrees with the policy. -/
theorem draftedFinding_decides {limits : RuntimeLimits} {freshness : FreshnessState} {id : FindingId} {d : FindingDraft}
    {before : Option Finding} (hidentity : ∀ f, before = some f → f.identity = d.identity) {f : Finding}
    (hfiled : Filed (draftedFinding limits outcome policy now freshness id d before) f) :
    (¬ (expireFinding limits now f).1.OperatorSuppressed →
        ((expireFinding limits now f).1.PolicySuppressed ↔ (expireFinding limits now f).1.silenced policy now = true)) ↔
      ∀ g, before = some g → ¬ (g.OperatorSuppressed ∧ suppressionExpires now g = false) →
        (d.silenced policy now = true → g.PolicySuppressed ∧ suppressionExpires now g = false) ∧
        (d.silenced policy now = false → g.PolicySuppressed → g.suppression.isSome = true) := by
  have hsame : (expireFinding limits now f).1.silenced policy now = d.silenced policy now := by
    refine silenced_of_reflects (reflects_draftedFinding.filed hfiled).expire (kin_expireFinding.identity.trans ?_)
    obtain ⟨group, cause, timeline, rfl⟩ := hfiled
    exact identity_draftedFinding hidentity
  rw [hsame, policySuppressed_expireFinding, operatorSuppressed_expireFinding, hfiled.policySuppressed,
    hfiled.operatorSuppressed, hfiled.suppressionExpires]
  cases before with
  | none =>
    rw [draftedFinding, suppressed_createFinding.1]
    exact ⟨fun _ g hg => (by cases hg), fun _ _ => Iff.rfl⟩
  | some g =>
    rw [draftedFinding, policySuppressed_updateFinding (hidentity g rfl), operatorSuppressed_updateFinding]
    constructor
    · rintro h g' hg hheld
      obtain rfl := Option.some.inj hg
      have hdecides := h hheld
      refine ⟨fun hrule => ?_, fun hrule hpolicy => ?_⟩
      · obtain ⟨hpolicy, hgoes, -⟩ := hdecides.mpr hrule
        exact ⟨hpolicy, hgoes⟩
      · by_contra hunset
        have hgoes : suppressionExpires now g = false := by
          unfold suppressionExpires
          rw [Bool.eq_false_iff.mpr hunset, Bool.false_and]
        have hyes := hdecides.mp ⟨hpolicy, hgoes, fun hset => absurd hset hunset⟩
        rw [hrule] at hyes
        cases hyes
    · intro h hheld
      obtain ⟨hyes, hno⟩ := h g rfl hheld
      constructor
      · rintro ⟨hpolicy, -, hset⟩
        cases hrule : d.silenced policy now with
        | true => rfl
        | false => exact hrule ▸ hset (hno hrule hpolicy)
      · intro hrule
        obtain ⟨hpolicy, hgoes⟩ := hyes hrule
        exact ⟨hpolicy, hgoes, fun _ => hrule⟩

theorem decides_of_owner {owner : FindingId → TargetId} (hL : Owned owner L) (howns : ∀ e ∈ outcome.targets, Owns owner e)
    (hdistinct : (outcome.targets.map TargetEvaluation.target).Nodup)
    (hidentity : ∀ e ∈ outcome.targets, ∀ d ∈ e.drafts, ∀ f, L.findings.find? d.identity.computeId = some f →
      f.identity = d.identity)
    (hok : (L.applyEvaluation outcome policy now).1.ok = true) :
    PolicyDecides outcome policy now L (L.applyEvaluation outcome policy now).2.1 ↔ PastAgrees outcome policy now L := by
  have hone : ∀ e ∈ outcome.targets, L.accepts e = true → ∀ id d, (draftMap e.drafts).find? id = some d → ∃ f,
      (L.applyEvaluation outcome policy now).2.1.findings.find? id = some f ∧
      ((¬ f.OperatorSuppressed → (f.PolicySuppressed ↔ f.silenced policy now = true)) ↔
        ∀ g, L.findings.find? id = some g → ¬ (g.OperatorSuppressed ∧ suppressionExpires now g = false) →
          (d.silenced policy now = true → g.PolicySuppressed ∧ suppressionExpires now g = false) ∧
          (d.silenced policy now = false → g.PolicySuppressed → g.suppression.isSome = true)) := by
    intro e he haccepts id d hd
    obtain ⟨f, hf, hfiled⟩ := drafted_applied hL howns hdistinct hok he haccepts hd
    obtain ⟨hin, rfl⟩ := mem_of_find?_draftMap hd
    exact ⟨_, hf, draftedFinding_decides (hidentity e he d hin) hfiled⟩
  constructor
  · intro h e he haccepts id d g hd hg
    obtain ⟨f, hf, hiff⟩ := hone e he haccepts id d hd
    obtain ⟨hin, rfl⟩ := mem_of_find?_draftMap hd
    obtain ⟨f', hf', hdecides⟩ := h e he haccepts d hin
    obtain rfl := Option.some.inj (hf.symm.trans hf')
    exact hiff.mp hdecides g hg
  · intro h e he haccepts d hin
    obtain ⟨d', hd'⟩ := OrdMap.contains_iff.mp (contains_draftMap.mpr ⟨d, hin, rfl⟩)
    obtain ⟨f, hf, hiff⟩ := hone e he haccepts _ d' hd'
    exact ⟨f, hf, hiff.mpr fun g hg => h e he haccepts _ d' g hd' hg⟩

end Applied

/-- After an evaluation of comparisons of different targets is applied, policy alone says which drafted findings are
    suppressed exactly if those that were drafted again agreed with the policy before. -/
theorem policyDecides_iff_pastAgrees [DoubleChars] (compared : ObservatoryPolicy) (limits : RuntimeLimits)
    (inputs : List TargetComparisonInput) (hdistinct : (inputs.map TargetComparisonInput.target).Nodup)
    (outcome : EvaluationOutcome) (houtcome : outcome.targets = inputs.map fun input => compareTarget input compared limits)
    (policy : ObservatoryPolicy) (now : NdoTime) (L : FindingLedger)
    (hkeyed : ∀ id f, L.findings.find? id = some f → f.identity.computeId = id) (hsha : ¬ Collision L outcome.targets)
    (hok : (L.applyEvaluation outcome policy now).1.ok = true) :
    PolicyDecides outcome policy now L (L.applyEvaluation outcome policy now).2.1 ↔ PastAgrees outcome policy now L := by
  obtain ⟨htargets, hnodup⟩ := targets_compared hdistinct houtcome
  obtain ⟨owner, howned, howns⟩ := exists_owner hkeyed hsha htargets
  refine decides_of_owner howned howns hnodup (fun e he d hd f hf => ?_) hok
  by_contra hne
  exact hsha ⟨f.identity, d.identity, .inl ⟨_, f, hf, rfl⟩, .inr ⟨e, he, d, hd, rfl⟩, hne, hkeyed _ f hf⟩

end FindingLedger

namespace Sample
open FindingLedger

/-- A finding is created under a rule of the policy, and resolved by an observation. -/
def silenced : FindingLedger :=
  Run.exec (@operate bitDoubles) { limits := {} }
    [.commitIntent document ⟨1⟩, .evaluate silencing {} ⟨1⟩ ⟨1⟩ ⟨1⟩, .recordObservation (empty 1) fresh false,
      .evaluate silencing {} ⟨1⟩ ⟨1⟩ ⟨2⟩]

end Sample

namespace FindingLedger

theorem policyDecides_iff_pastAgrees_conflicting :
    Sample.conflicting.findings.values.map Finding.state = [.suppressed, .suppressed, .suppressed, .suppressed] ∧
      PolicyDecides Sample.disputedOutcome Sample.hushing ⟨2⟩ Sample.conflicting
        (@applyEvaluation Sample.bitDoubles Sample.conflicting Sample.disputedOutcome Sample.hushing ⟨2⟩).2.1 := by
  let := Sample.bitDoubles
  have hfacts : Sample.conflicting.findings.values.map (fun f => (f.state, f.suppressionOrigin, f.suppression.isSome,
      suppressionExpires ⟨2⟩ f)) = List.replicate 4 (.suppressed, .policy, true, false) ∧
        (@applyEvaluation Sample.bitDoubles Sample.conflicting Sample.disputedOutcome Sample.hushing ⟨2⟩).1.ok = true := by
    decide +kernel
  obtain ⟨hmarks, hok⟩ := hfacts
  have hstates := congrArg (List.map fun marks => marks.1) hmarks
  rw [List.map_map] at hstates
  have hdistinguishes := Sample.distinguishes_conflicting
  refine ⟨hstates, (@policyDecides_iff_pastAgrees Sample.bitDoubles Sample.demanding {} Sample.disputed (by decide)
    Sample.disputedOutcome rfl Sample.hushing ⟨2⟩ Sample.conflicting hdistinguishes.keyed hdistinguishes.identities
    hok).mpr ?_⟩
  intro e he haccepts id d f hd hf hheld
  have hmark := Sample.mem_of_find? hmarks hf
  simp only [List.mem_replicate, Prod.mk.injEq] at hmark
  obtain ⟨-, hstate, horigin, hset, hgoes⟩ := hmark
  exact ⟨fun _ => ⟨⟨hstate, horigin⟩, hgoes⟩, fun _ _ => hset⟩

/-- When the observation has aged, the same policy finds the same finding again and leaves it open. -/
theorem policyDecides_not_reopened :
    ∃ outcome, Sample.silenced.evaluateLedgerOnce Sample.silencing {} ⟨1⟩ ⟨1⟩ ⟨10 ^ 18⟩ = .ok outcome ∧
      (@applyEvaluation Sample.bitDoubles Sample.silenced outcome Sample.silencing ⟨10 ^ 18⟩).1.ok = true ∧
      ¬ PolicyDecides outcome Sample.silencing ⟨10 ^ 18⟩ Sample.silenced
        (@applyEvaluation Sample.bitDoubles Sample.silenced outcome Sample.silencing ⟨10 ^ 18⟩).2.1 := by
  have hfacts : (match Sample.silenced.evaluateLedgerOnce Sample.silencing {} ⟨1⟩ ⟨1⟩ ⟨10 ^ 18⟩ with
      | .ok outcome => (@applyEvaluation Sample.bitDoubles Sample.silenced outcome Sample.silencing ⟨10 ^ 18⟩).1.ok &&
          outcome.targets.any fun e => Sample.silenced.accepts e && e.drafts.any fun d =>
            ((@applyEvaluation Sample.bitDoubles Sample.silenced outcome Sample.silencing
              ⟨10 ^ 18⟩).2.1.findings.find? d.identity.computeId).any fun f =>
                f.state == .open && f.suppressionOrigin == .policy && f.silenced Sample.silencing ⟨10 ^ 18⟩
      | .error _ => false) = true := by decide +kernel
  split at hfacts
  · rename_i outcome houtcome
    simp only [Bool.and_eq_true, List.any_eq_true, Option.any_eq_true, beq_iff_eq] at hfacts
    obtain ⟨hok, e, he, haccepts, d, hd, f, hf, ⟨hopen, horigin⟩, hrule⟩ := hfacts
    refine ⟨outcome, houtcome, hok, fun h => ?_⟩
    obtain ⟨f', hf', hdecides⟩ := h e he haccepts d hd
    obtain rfl := Option.some.inj (hf.symm.trans hf')
    have hnone : ¬ f.OperatorSuppressed := fun hoperator => by
      have horigin' := hoperator.2
      rw [horigin] at horigin'
      cases horigin'
    have hstate := ((hdecides hnone).mpr hrule).1
    rw [hopen] at hstate
    cases hstate
  · cases hfacts

end FindingLedger

end DriftObservatory
