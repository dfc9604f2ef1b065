import DriftObservatory.Lib.Ranked
import DriftObservatory.Policy

/-! The order of severity rules. A minimum is compared with the severity so far, so that it may tell whether a broader
    rule stands before or behind; where no minimum does, the order of rules of different specificity does not matter. -/

namespace DriftObservatory

/-! ### Rules -/

namespace SeverityRule

def specificity (rule : SeverityRule) : Nat :=
  rule.selector.specificity * 4 + (if rule.klass.isSome then 1 else 0) + (if rule.minSeverity.isSome then 1 else 0)

/-- Whether the rule applies at a place to findings of a class, at the severity so far. -/
def appliesAt (target : TargetId) (object : ObjectId) (path : FieldPath) (klass : DriftClass) (rule : SeverityRule)
    (severity : Severity) : Bool :=
  rule.selector.matchesAt target object path && rule.klass.all (· == klass) &&
    rule.minSeverity.all (fun least => least.rank ≤ severity.rank)

end SeverityRule

namespace ObservatoryPolicy

open SeverityRule (specificity appliesAt)

def withSeverityRules (policy : ObservatoryPolicy) (rules : List SeverityRule) : ObservatoryPolicy :=
  { policy with severityRules := rules }

variable {policy : ObservatoryPolicy} {target : TargetId} {object : ObjectId} {path : FieldPath} {klass : DriftClass}

theorem severityStep_eq (acc : Severity × Int) (rule : SeverityRule) :
    severityStep target object path klass acc rule =
      Ranked.step specificity (appliesAt target object path klass) SeverityRule.severity acc rule := by
  have hspecificity : ((rule.selector.specificity : Int) * 4 + (if rule.klass.isSome then 1 else 0) +
      (if rule.minSeverity.isSome then 1 else 0)) = (specificity rule : Int) := by
    rw [specificity]
    split_ifs <;> push_cast <;> rfl
  rw [severityStep, Ranked.step, hspecificity]
  rfl

theorem severityFor_eq (rules : List SeverityRule) :
    (policy.withSeverityRules rules).severityFor target object path klass =
      (Ranked.run specificity (appliesAt target object path klass) SeverityRule.severity policy.defaultSeverity rules).1 := by
  rw [severityFor, Ranked.run, show severityStep target object path klass = _ from funext₂ severityStep_eq]
  rfl

/-! ### Orders -/

/-- The severity rules in another order that agrees on the rules of each specificity. -/
def Reorders (policy : ObservatoryPolicy) (rules : List SeverityRule) : Prop :=
  Ranked.Reorders specificity rules policy.severityRules

/-- No minimum, of a rule behind rules of its specificity that do not apply to the default severity, lies between the
    default severity and a severity that broader rules of one specificity assign on their own. -/
def Uncontested (policy : ObservatoryPolicy) (target : TargetId) (object : ObjectId) (path : FieldPath)
    (klass : DriftClass) : Prop :=
  Ranked.Uncontested specificity (appliesAt target object path klass) SeverityRule.severity policy.defaultSeverity
    policy.severityRules

/-- In all orders every rule, unless outranked, applies or not alike. -/
def AppliesAlike (policy : ObservatoryPolicy) (target : TargetId) (object : ObjectId) (path : FieldPath)
    (klass : DriftClass) : Prop :=
  Ranked.AppliesAlike specificity (appliesAt target object path klass) SeverityRule.severity policy.defaultSeverity
    policy.severityRules

/-- The rules of one specificity on their own, when none of the rules of others applies. -/
theorem severityFor_ofRank {k : Nat} :
    (policy.withSeverityRules (Ranked.ofRank specificity k policy.severityRules)).severityFor target object path klass =
      Ranked.alone (appliesAt target object path klass) SeverityRule.severity policy.defaultSeverity
        (Ranked.ofRank specificity k policy.severityRules) := by
  rw [severityFor_eq]
  exact (Ranked.run_of_rank _ fun rule hrule => (Ranked.mem_ofRank.mp hrule).2).1

/-- Every rule applies, or not, in all orders alike exactly when no minimum is contested. Then all orders that agree on
    the rules of each specificity assign one severity: the one that the most specific rules with a rule that applies to
    the default severity assign on their own. -/
theorem severityFor_reorders (policy : ObservatoryPolicy) (target : TargetId) (object : ObjectId) (path : FieldPath)
    (klass : DriftClass) :
    (policy.Uncontested target object path klass ↔ policy.AppliesAlike target object path klass) ∧
    (policy.Uncontested target object path klass → ∀ rules, policy.Reorders rules →
      (policy.withSeverityRules rules).severityFor target object path klass =
          policy.severityFor target object path klass ∧
        ∀ k, (∃ rule ∈ policy.severityRules, specificity rule = k ∧
              appliesAt target object path klass rule policy.defaultSeverity = true) →
          (∀ rule ∈ policy.severityRules, k < specificity rule →
              appliesAt target object path klass rule policy.defaultSeverity = false) →
            (policy.withSeverityRules rules).severityFor target object path klass =
              (policy.withSeverityRules (Ranked.ofRank specificity k policy.severityRules)).severityFor target object
                path klass) := by
  refine ⟨Ranked.uncontested_iff, fun hfree rules hrules => ⟨?_, fun k hk habove => ?_⟩⟩
  · have hown : policy.severityFor target object path klass =
        (policy.withSeverityRules policy.severityRules).severityFor target object path klass := rfl
    rw [hown, severityFor_eq, severityFor_eq, Ranked.run_reorders hfree hrules]
  · obtain ⟨rule, hrule, rfl, happlies⟩ := hk
    rw [severityFor_ofRank, severityFor_eq]
    refine Ranked.run_decided hfree hrules (fun hsilent => ?_) habove
    rw [hsilent rule (Ranked.mem_ofRank.mpr ⟨hrule, rfl⟩)] at happlies
    cases happlies

/-- Rules without a minimum are not contested. -/
theorem uncontested_of_unconditional (h : ∀ rule ∈ policy.severityRules, rule.minSeverity = none) :
    policy.Uncontested target object path klass := by
  intro k pre rule post hsplit _ lower _ front _
  have hmem : rule ∈ policy.severityRules :=
    (Ranked.mem_ofRank.mp (hsplit ▸ List.mem_append_right pre List.mem_cons_self)).1
  rw [appliesAt, appliesAt, h rule hmem]
  rfl

end ObservatoryPolicy

namespace Sample

/-- Every finding is of high severity, and at a target one of at least a minimum is critical. -/
def broad : SeverityRule := ⟨{}, none, none, .high⟩

def specific (minSeverity : Option Severity) : SeverityRule := ⟨{ target := some ⟨ascii "t"⟩ }, none, minSeverity, .critical⟩

def escalation (minSeverity : Option Severity) : ObservatoryPolicy := { severityRules := [broad, specific minSeverity] }

theorem reorders_escalation (minSeverity : Option Severity) :
    (escalation minSeverity).Reorders [specific minSeverity, broad] := by
  refine ⟨List.Perm.swap _ _ _, fun k => ?_⟩
  have hbroad : SeverityRule.specificity broad = 0 := rfl
  have hspecific : SeverityRule.specificity (specific minSeverity) ≠ 0 := by cases minSeverity <;> exact Nat.succ_ne_zero _
  rcases eq_or_ne k 0 with rfl | hk
  · simp [Ranked.ofRank, escalation, hbroad, hspecific]
  · simp [Ranked.ofRank, escalation, List.filter_cons, hbroad, hk.symm]

end Sample

namespace ObservatoryPolicy

theorem severityFor_reorders_unconditional :
    ((Sample.escalation none).withSeverityRules [Sample.specific none, Sample.broad]).severityFor ⟨ascii "t"⟩ default []
        .missing = (Sample.escalation none).severityFor ⟨ascii "t"⟩ default [] .missing :=
  ((severityFor_reorders (Sample.escalation none) ⟨ascii "t"⟩ default [] .missing).2
    (uncontested_of_unconditional fun rule hrule => by
      rcases List.mem_cons.mp hrule with rfl | hrule
      · rfl
      · cases List.mem_singleton.mp hrule
        rfl) _ (Sample.reorders_escalation none)).1

/-- Behind the broad rule the specific one applies and makes the severity critical; before it, it does not apply. -/
theorem severityFor_reorders_escalated :
    (Sample.escalation (some .high)).validate {} = .okay ∧
      (Sample.escalation (some .high)).Reorders [Sample.specific (some .high), Sample.broad] ∧
      (Sample.escalation (some .high)).severityFor ⟨ascii "t"⟩ default [] .missing = .critical ∧
      ((Sample.escalation (some .high)).withSeverityRules [Sample.specific (some .high), Sample.broad]).severityFor
        ⟨ascii "t"⟩ default [] .missing = .high :=
  ⟨by decide +kernel, Sample.reorders_escalation _, by decide +kernel, by decide +kernel⟩

end ObservatoryPolicy

end DriftObservatory
