import DriftObservatory.Lib.Run
import DriftObservatory.Theorems.Cancellation
import DriftObservatory.Theorems.Flight
import DriftObservatory.Theorems.Intents
import DriftObservatory.Theorems.Interference
import DriftObservatory.Theorems.Operators
import DriftObservatory.Theorems.Suppression

/-! Findings are conserved. What the reports of the ledger's operations count is what happens to its findings: each of
    them is there because an evaluation has reported it as created, and as many are live as were reported created or
    reopened and not yet reported resolved, superseded, rebased or retired. -/

namespace DriftObservatory

/-- What a report counts of the findings that come and go. -/
structure Flow where
  created : Nat := 0
  reopened : Nat := 0
  resolved : Nat := 0
  superseded : Nat := 0
  rebased : Nat := 0
  retired : Nat := 0

namespace Flow

/-- The findings that become live. -/
def entering (flow : Flow) : Nat := flow.created + flow.reopened

/-- The findings that are not live any more. -/
def leaving (flow : Flow) : Nat := flow.resolved + flow.superseded + flow.rebased + flow.retired

end Flow

def LedgerApplyReport.flow (report : LedgerApplyReport) : Flow where
  created := report.created
  reopened := report.reopened
  resolved := report.resolved
  superseded := report.superseded

def IntentCommitReport.flow (report : IntentCommitReport) : Flow where
  rebased := report.findingsRebased
  retired := report.findingsRetired

namespace FindingLedger

def liveCount (L : FindingLedger) : Nat := L.findings.values.countP Finding.isLive

/-- Between two ledgers the findings change as the report has grown. -/
structure Conserves (L : FindingLedger) (before : Flow) (M : FindingLedger) (after : Flow) : Prop where
  size : M.findings.size + before.created = L.findings.size + after.created
  live : M.liveCount + after.leaving + before.entering = L.liveCount + before.leaving + after.entering

section Rules
variable {L M N : FindingLedger} {f₁ f₂ f₃ : Flow}

theorem Conserves.refl (L : FindingLedger) (f : Flow) : Conserves L f L f := ⟨rfl, by omega⟩

theorem Conserves.trans (h : Conserves L f₁ M f₂) (h' : Conserves M f₂ N f₃) : Conserves L f₁ N f₃ := by
  have hsize := h.size
  have hlive := h.live
  have hsize' := h'.size
  have hlive' := h'.live
  exact ⟨by omega, by omega⟩

/-- A step that updates findings in place and keeps which of them are live. -/
theorem Conserves.kept (h : Conserves L f₁ M f₂) (hkeep : ∀ id,
      (M.findings.find? id = none ∧ N.findings.find? id = none) ∨
        ∃ f f', M.findings.find? id = some f ∧ N.findings.find? id = some f' ∧ f'.isLive = f.isLive) :
    Conserves L f₁ N f₂ := by
  have hcount : ∀ {p : Finding → Bool}, (∀ f f' : Finding, f'.isLive = f.isLive → p f' = p f) →
      N.findings.values.countP p = M.findings.values.countP p := by
    intro p hp
    refine OrdMap.countP_values_congr fun id => ?_
    rcases hkeep id with ⟨hM, hN⟩ | ⟨f, f', hM, hN, hlive⟩
    · rw [hM, hN]
    · rw [hM, hN]
      exact hp f f' hlive
  have hlive : N.liveCount = M.liveCount := hcount fun _ _ => id
  have hsize : N.findings.size = M.findings.size := by
    have hall := hcount (p := fun _ => true) fun _ _ _ => rfl
    rwa [List.countP_true, OrdMap.length_values, OrdMap.length_values] at hall
  exact ⟨hsize ▸ h.size, hlive ▸ h.live⟩

theorem Conserves.of_findings (h : Conserves L f₁ M f₂) (hf : N.findings = M.findings) : Conserves L f₁ N f₂ :=
  h.kept fun id => by
    rw [hf]
    cases M.findings.find? id with
    | none => exact .inl ⟨rfl, rfl⟩
    | some f => exact .inr ⟨f, f, rfl, rfl, rfl⟩

section Insert
variable {id : FindingId} {f : Finding}

/-- A new finding that is live. -/
theorem conserves_created (hfind : L.findings.find? id = none) (hlive : f.isLive = true)
    (hM : M.findings = L.findings.insert id f) (hsize : f₂.created = f₁.created + 1)
    (hflow : f₂.leaving = f₁.leaving ∧ f₂.entering = f₁.entering + 1) : Conserves L f₁ M f₂ := by
  have hinsert := OrdMap.size_insert (m := L.findings) (k := id) (v := f)
  have hcount := OrdMap.countP_values_insert (m := L.findings) (k := id) (v := f) Finding.isLive
  rw [OrdMap.contains_eq_false_iff.mpr hfind, if_neg Bool.false_ne_true, ← hM] at hinsert
  rw [hfind, hlive, ← hM] at hcount
  have hlive : M.liveCount = L.liveCount + 1 := hcount
  exact ⟨by omega, by omega⟩

/-- A finding that is replaced. -/
theorem conserves_replaced {before : Finding} (hfind : L.findings.find? id = some before)
    (hM : M.findings = L.findings.insert id f) (hsize : f₂.created = f₁.created)
    (hflow : f.isLive.toNat + f₂.leaving + f₁.entering = before.isLive.toNat + f₁.leaving + f₂.entering) :
    Conserves L f₁ M f₂ := by
  have hinsert := OrdMap.size_insert (m := L.findings) (k := id) (v := f)
  have hcount := OrdMap.countP_values_insert (m := L.findings) (k := id) (v := f) Finding.isLive
  rw [OrdMap.contains_iff.mpr ⟨before, hfind⟩, if_pos rfl, ← hM] at hinsert
  rw [hfind, ← hM] at hcount
  have hlive : M.liveCount + before.isLive.toNat = L.liveCount + f.isLive.toNat := hcount
  exact ⟨by omega, by omega⟩

end Insert

end Rules

section Apply
variable [DoubleChars] {outcome : EvaluationOutcome} {policy : ObservatoryPolicy} {now : NdoTime} {L M : FindingLedger}

/-- An operation that neither commits an intent nor evaluates keeps which findings are live. -/
theorem Touched.isLive {limits : RuntimeLimits} {op : Operation} {f f' : Finding} (h : Touched limits op f f')
    (hop : op.isOperator = true) : f'.isLive = f.isLive := by
  have hsummary : ∀ g : Finding, (g.recomputeSummary limits).isLive = g.isLive := fun g =>
    Finding.isLive_of_core Finding.core_recomputeSummary
  cases h with
  | kept => rfl
  | rebased => cases hop
  | suppressed id actor reason expiresAt now f sid hsid =>
    refine (hsummary _).trans ?_
    cases hlive : f.isLive with
    | true =>
      have hstate : (f.suppressedAs sid actor reason expiresAt).state = .suppressed := if_pos hlive
      exact congrArg FindingState.isLive hstate
    | false =>
      have hstate : (f.suppressedAs sid actor reason expiresAt).state = f.state :=
        if_neg (by rw [hlive]; exact Bool.false_ne_true)
      exact (congrArg FindingState.isLive hstate).trans hlive
  | unsuppressed id actor now f event hevent => exact (hsummary _).trans (isLive_clearSuppression f)
  | acknowledged id actor reason now f =>
    refine (hsummary _).trans ?_
    show (if f.state = .open then FindingState.acknowledged else f.state).isLive = f.state.isLive
    split_ifs with hopen
    · rw [hopen]
      rfl
    · rfl
  | unacknowledged id actor now f event hevent =>
    refine (hsummary _).trans ?_
    show (if f.state = .acknowledged then FindingState.open else f.state).isLive = f.state.isLive
    split_ifs with hacknowledged
    · rw [hacknowledged]
      rfl
    · rfl
  | expired now f => exact Finding.isLive_of_core core_expireFinding

/-! ### Drafts -/

theorem conserves_applyDraft {freshness : FreshnessState} {report : LedgerApplyReport} (entry : FindingId × FindingDraft) :
    Conserves L report.flow (applyDraft outcome policy now freshness (L, report) entry).1
      (applyDraft outcome policy now freshness (L, report) entry).2.flow := by
  obtain ⟨id, draft⟩ := entry
  unfold applyDraft
  cases hfind : L.findings.find? id with
  | none =>
    simp only [hfind]
    exact conserves_created hfind (created_createFinding id draft).live rfl rfl ⟨rfl, Nat.add_right_comm _ _ _⟩
  | some before =>
    simp only [hfind]
    have hlive := (@absorbed_updateFinding L.limits outcome policy now freshness _ draft before).live
    refine conserves_replaced hfind findings_appendAll rfl ?_
    rw [hlive]
    cases before.isLive with
    | true => rfl
    | false =>
      simp only [LedgerApplyReport.flow, Flow.leaving, Flow.entering, Bool.toNat_false, Bool.toNat_true, Bool.false_eq_true,
        if_false]
      omega

theorem conserves_applyDrafts {freshness : FreshnessState} {drafts : OrdMap FindingId FindingDraft}
    {report : LedgerApplyReport} :
    Conserves L report.flow (applyDrafts outcome policy now freshness drafts L report).1
      (applyDrafts outcome policy now freshness drafts L report).2.flow := by
  unfold applyDrafts
  induction drafts.entries generalizing L report with
  | nil => exact .refl L _
  | cons entry rest ih => exact (conserves_applyDraft entry).trans ih

/-! ### Settling -/

theorem conserves_settleFinding {decidable : Bool} {drafts : OrdMap FindingId FindingDraft} {pass : SettlePass}
    {id : FindingId} (hlive : ∀ f, pass.ledger.findings.find? id = some f → f.isLive = true) :
    Conserves pass.ledger pass.report.flow (settleFinding outcome now decidable drafts pass id).ledger
      (settleFinding outcome now decidable drafts pass id).report.flow := by
  unfold settleFinding
  cases hfind : pass.ledger.findings.find? id with
  | none => exact .refl _ _
  | some f =>
    dsimp only
    split_ifs
    · exact .refl _ _
    · have hended : (supersedeFinding now f).1.isLive = false := by
        rw [Finding.isLive, (ended_supersedeFinding now f).state]
        rfl
      refine conserves_replaced hfind rfl rfl ?_
      rw [hended, hlive f hfind]
      simp only [LedgerApplyReport.flow, Flow.leaving, Flow.entering, Bool.toNat_false, Bool.toNat_true]
      omega
    · have hended : (resolveFinding pass.ledger.limits now (pass.ledger.nextStreak id) f).1.isLive = false := by
        rw [Finding.isLive, (ended_resolveFinding _ now _ f).state]
        rfl
      unfold nextStreak at hended
      refine conserves_replaced hfind rfl rfl ?_
      rw [hended, hlive f hfind]
      simp only [LedgerApplyReport.flow, Flow.leaving, Flow.entering, Bool.toNat_false, Bool.toNat_true]
      omega
    · exact conserves_replaced hfind rfl rfl rfl

/-- The findings a target settles are live until it comes to them. -/
theorem conserves_settleUndrafted {decidable : Bool} {target : TargetId} {drafts : OrdMap FindingId FindingDraft}
    {report : LedgerApplyReport} :
    Conserves L report.flow (settleUndrafted outcome now decidable target drafts L report).ledger
      (settleUndrafted outcome now decidable target drafts L report).report.flow := by
  have hloop : ∀ (ids : List FindingId) (pass : SettlePass), ids.Nodup →
      (∀ id ∈ ids, ∀ f, pass.ledger.findings.find? id = some f → f.isLive = true) →
      Conserves pass.ledger pass.report.flow (ids.foldl (settleFinding outcome now decidable drafts) pass).ledger
        (ids.foldl (settleFinding outcome now decidable drafts) pass).report.flow := by
    intro ids
    induction ids with
    | nil => exact fun pass _ _ => .refl _ _
    | cons id rest ih =>
      intro pass hnodup hlive
      rw [List.nodup_cons] at hnodup
      refine (conserves_settleFinding (hlive id List.mem_cons_self)).trans (ih _ hnodup.2 fun k hk f hf => ?_)
      have hne : id ≠ k := fun hsame => hnodup.1 (hsame ▸ hk)
      rw [find?_of_part (settle_other hne)] at hf
      exact hlive k (List.mem_cons_of_mem _ hk) f hf
  refine hloop (L.undrafted target drafts) { ledger := L, report := report } ?_ fun id hid f hf => ?_
  · have hnodup := @nodup_undrafted L drafts target
    rwa [List.map_id'] at hnodup
  · obtain ⟨f', hf', -, hlive, -⟩ := mem_undrafted.mp hid
    rwa [Option.some.inj (hf.symm.trans hf')]

/-! ### A whole evaluation -/

omit [DoubleChars] in
theorem isLive_assignGroup {target : TargetId} {assignment : OrdMap FindingId GroupId} {f : Finding} :
    (assignGroup target now assignment f).1.isLive = f.isLive := by
  unfold assignGroup
  repeat' split
  all_goals rfl

omit [DoubleChars] in
/-- A sweep that keeps which findings are live. -/
theorem Conserves.sweep {f₁ f₂ : Flow} (h : Conserves L f₁ M f₂) {step : Finding → Finding × List TimelineEntry}
    (hstep : ∀ f, (step f).1.isLive = f.isLive) : Conserves L f₁ (M.sweep step) f₂ :=
  h.kept fun id => by
    rw [findings_sweep, OrdMap.find?_mapValues]
    cases M.findings.find? id with
    | none => exact .inl ⟨rfl, rfl⟩
    | some f => exact .inr ⟨f, (step f).1, rfl, rfl, hstep f⟩

omit [DoubleChars] in
theorem conserves_refreshGroups {target : TargetId} {report : LedgerApplyReport} :
    Conserves L report.flow (L.refreshGroups target now report).2.1 (L.refreshGroups target now report).2.2.flow := by
  unfold refreshGroups
  rcases refreshBuckets L.limits target now (L.bucketGroups target) { groups := L.groups } with ⟨done, pass⟩
  dsimp only
  split_ifs
  · exact (Conserves.refl L report.flow).of_findings rfl
  · exact (((Conserves.refl L report.flow).of_findings (N := { L with groups := pass.groups }) rfl).sweep
      fun _ => isLive_assignGroup).of_findings rfl

theorem conserves_applyTarget {report : LedgerApplyReport} {e : TargetEvaluation} :
    Conserves L report.flow (applyTarget outcome policy now L report e).2.1
      (applyTarget outcome policy now L report e).2.2.flow := by
  have hdrafts := @conserves_applyDrafts _ outcome policy now L e.bestFreshness (draftMap e.drafts) report
  rw [applyTarget]
  generalize applyDrafts outcome policy now e.bestFreshness (draftMap e.drafts) L report = applied at hdrafts ⊢
  obtain ⟨drafted, report'⟩ := applied
  dsimp only at hdrafts ⊢
  have hsettled := @conserves_settleUndrafted _ outcome now drafted e.complianceDecidable e.target (draftMap e.drafts)
    report'
  generalize settleUndrafted outcome now e.complianceDecidable e.target (draftMap e.drafts) drafted report' = pass
    at hsettled ⊢
  have hgroups := @conserves_refreshGroups now pass.ledger e.target pass.report
  generalize pass.ledger.refreshGroups e.target now pass.report = applied at hgroups ⊢
  obtain ⟨status, refreshed, report''⟩ := applied
  dsimp only at hgroups ⊢
  split_ifs
  · exact (hdrafts.trans hsettled).trans hgroups
  · exact ((hdrafts.trans hsettled).trans hgroups).of_findings rfl

theorem conserves_applyTargets {targets : List TargetEvaluation} {report : LedgerApplyReport} :
    Conserves L report.flow (applyTargets outcome policy now targets L report).2.1
      (applyTargets outcome policy now targets L report).2.2.flow := by
  induction targets generalizing L report with
  | nil => exact .refl L _
  | cons e rest ih =>
    have hone := @conserves_applyTarget _ outcome policy now L report e
    rw [applyTargets]
    generalize applyTarget outcome policy now L report e = applied at hone ⊢
    obtain ⟨status, M, made⟩ := applied
    dsimp only at hone ⊢
    split_ifs
    · exact hone
    · exact hone.trans ih

/-- What an evaluation reports is what it does to the findings, also when it is refused half-way. -/
theorem conserves_applyEvaluation : Conserves L {} (L.applyEvaluation outcome policy now).2.1
    (L.applyEvaluation outcome policy now).2.2.flow := by
  have htargets := @conserves_applyTargets _ outcome policy now L (outcome.targets.filter L.accepts)
    { fencedTargets := outcome.targets.length - (outcome.targets.filter L.accepts).length }
  rw [applyEvaluation]
  generalize applyTargets outcome policy now (outcome.targets.filter L.accepts) L _ = applied at htargets ⊢
  obtain ⟨status, M, report⟩ := applied
  dsimp only at htargets ⊢
  split_ifs
  · exact .refl L _
  · exact htargets
  · refine Conserves.of_findings (htargets.kept (N := M.expireSuppressions now) fun id => ?_) rfl
    rcases (@worked_expireSuppressions _ M now).findings id with hnone | ⟨f, f', hf, hf', htouched⟩
    · exact .inl hnone
    · exact .inr ⟨f, f', hf, hf', htouched.isLive rfl⟩

/-! ### Other operations -/

/-- A commit ends exactly the findings it reports as rebased or retired. -/
theorem conserves_rebaseFindingsForTarget {baseline : IntentBaseline} {target : TargetId} {generation : IntentGeneration}
    {report : IntentCommitReport} {flow : Flow} (hflow : flow = report.flow) :
    Conserves L flow (L.rebaseFindingsForTarget baseline target generation now report).1
      (L.rebaseFindingsForTarget baseline target generation now report).2.flow := by
  have hcount : ∀ fs : List Finding,
      (fs.map fun f => (rebaseFinding L.limits baseline target generation now f).1).countP Finding.isLive +
        (fs.filter (rebases target generation)).length = fs.countP Finding.isLive := by
    intro fs
    induction fs with
    | nil => rfl
    | cons f rest ih =>
      rw [List.map_cons, List.countP_cons, List.countP_cons, List.filter_cons]
      cases hr : rebases target generation f with
      | true =>
        have hlive : f.isLive = true := by
          simp only [rebases, Bool.and_eq_true] at hr
          exact hr.1.2
        rw [isLive_rebaseFinding hr, hlive, if_pos rfl, List.length_cons]
        simp only [Bool.false_eq_true, if_false, if_true]
        omega
      | false =>
        have hsame : (rebaseFinding L.limits baseline target generation now f).1 = f := by
          rw [rebaseFinding, if_neg (by rw [hr]; exact Bool.false_ne_true)]
        rw [hsame, if_neg Bool.false_ne_true]
        omega
  have hlive := hcount L.findings.values
  have hmanaged := List.countP_le_length (p := fun f => stillManaged baseline f.identity)
    (l := L.findings.values.filter (rebases target generation))
  subst hflow
  rw [rebaseFindingsForTarget]
  refine ⟨?_, ?_⟩
  · simp only [dropGroups, findings_sweep, IntentCommitReport.flow, ← OrdMap.length_values, OrdMap.values_mapValues,
      List.length_map]
  · simp only [liveCount, dropGroups, findings_sweep, OrdMap.values_mapValues, IntentCommitReport.flow, Flow.leaving,
      Flow.entering]
    omega

theorem conserves_commitIntent {document : IntentGenerationDocument} :
    Conserves L {} (L.commitIntent document now).2.1 (L.commitIntent document now).2.2.flow := by
  have hrefl := Conserves.refl L {}
  unfold commitIntent
  dsimp only
  split
  · exact hrefl
  · cases L.findBaseline document.target with
    | none =>
      dsimp only
      split
      · exact hrefl
      · exact hrefl.of_findings rfl
    | some existing =>
      dsimp only
      repeat' split
      all_goals first | exact hrefl | skip
      refine Conserves.of_findings (Conserves.trans (hrefl.of_findings ?_) (conserves_rebaseFindingsForTarget ?_)) rfl
      · rfl
      · rfl

theorem conserves_operator {op : Operation} (hop : op.isOperator = true) {flow : Flow} :
    Conserves L flow (L.operate op) flow := by
  have hnone : L.applied op = none := by
    cases op <;> first | rfl | cases hop
  refine (Conserves.refl L flow).kept fun id => ?_
  rcases (worked_operate hnone).findings id with h | ⟨f, f', hf, hf', htouched⟩
  · exact .inl h
  · exact .inr ⟨f, f', hf, hf', htouched.isLive hop⟩

end Apply

end FindingLedger

/-! ### The engine -/

namespace Observatory
variable {o : Observatory}

/-- The counters of findings that evaluations add to. -/
structure Tally where
  created : UInt64
  reopened : UInt64
  resolved : UInt64

def tally (o : Observatory) : Tally where
  created := o.counters.findingsCreated
  reopened := o.counters.findingsReopened
  resolved := o.counters.findingsResolved

/-- What the tally has after a report. -/
def tallied (tally : Tally) (report : Flow) : Tally where
  created := tally.created + UInt64.ofNat report.created
  reopened := tally.reopened + UInt64.ofNat report.reopened
  resolved := tally.resolved + UInt64.ofNat report.resolved

section Frames

theorem start_findings : o.start.2.ledger.findings = o.ledger.findings ∧ o.start.2.tally = o.tally := by
  unfold start
  dsimp only
  repeat' split
  all_goals exact ⟨rfl, rfl⟩

theorem rotateIncarnation_findings {incarnation : Incarnation} {epoch : FabricEpoch} {now : NdoTime} :
    (o.rotateIncarnation incarnation epoch now).2.ledger.findings = o.ledger.findings ∧
      (o.rotateIncarnation incarnation epoch now).2.tally = o.tally := by
  unfold rotateIncarnation FindingLedger.invalidateRetainedEvidence
  repeat' split
  all_goals exact ⟨rfl, rfl⟩

theorem registerSource_findings {descriptor : SourceDescriptor} :
    (o.registerSource descriptor).2.ledger.findings = o.ledger.findings ∧
      (o.registerSource descriptor).2.tally = o.tally := by
  unfold registerSource
  dsimp only
  repeat' split
  all_goals exact ⟨rfl, rfl⟩

theorem recordObservation_findings {L : FindingLedger} {snapshot : ObservationSnapshot} {verdict : FreshnessVerdict}
    {recovered : Bool} : (L.recordObservation snapshot verdict recovered).2.1.findings = L.findings := by
  unfold FindingLedger.recordObservation
  dsimp only
  repeat' split
  all_goals rfl

theorem ingestObservation_findings {snapshot : ObservationSnapshot} {receiveTime : NdoTime} :
    (o.ingestObservation snapshot receiveTime).2.1.ledger.findings = o.ledger.findings ∧
      (o.ingestObservation snapshot receiveTime).2.1.tally = o.tally := by
  unfold ingestObservation
  dsimp only
  repeat' split
  all_goals first | exact ⟨rfl, rfl⟩ | exact ⟨recordObservation_findings, rfl⟩

theorem setPolicy_findings {policy : ObservatoryPolicy} {now : NdoTime} :
    (o.setPolicy policy now).2.ledger.findings = o.ledger.findings ∧ (o.setPolicy policy now).2.tally = o.tally := by
  unfold setPolicy
  dsimp only
  split <;> exact ⟨rfl, rfl⟩

theorem admitEvaluation_findings {now : NdoTime} : (o.admitEvaluation now).2.ledger.findings = o.ledger.findings ∧
    (o.admitEvaluation now).2.tally = o.tally := by
  unfold admitEvaluation
  repeat' split
  all_goals exact ⟨rfl, rfl⟩

end Frames

variable [DoubleChars]

theorem publishIntent_conserves {document : IntentGenerationDocument} {stamp : NdoTime} :
    FindingLedger.Conserves o.ledger {} (o.publishIntent document stamp).2.1.ledger
        (o.publishIntent document stamp).2.2.flow ∧
      (o.publishIntent document stamp).2.1.tally = o.tally := by
  have hcommit := @FindingLedger.conserves_commitIntent _ stamp o.ledger document
  unfold publishIntent
  dsimp only
  repeat' split
  all_goals first | exact ⟨.refl _ _, rfl⟩ | exact ⟨hcommit, rfl⟩

/-- The report of the evaluation that a publication applies, with whether the ledger accepts it. -/
def appliedReport (o : Observatory) (input : EvaluationInput) (policy : ObservatoryPolicy)
    (targets : List TargetEvaluation) (apply : Bool) : Option (Bool × Flow) :=
  if o.cancelled then none
  else if o.stopping || (o.config.requireStarted && !o.started) then none
  else if input.epoch ≠ o.config.epoch ∨ input.incarnation ≠ o.config.incarnation then none
  else if apply then
    let (status, _, report) := o.ledger.applyEvaluation (input.outcome targets) policy input.now
    some (status.ok, report.flow)
  else none

theorem publishEvaluation_conserves {input : EvaluationInput} {policy : ObservatoryPolicy}
    {targets : List TargetEvaluation} {apply : Bool} :
    let report := o.appliedReport input policy targets apply
    let o' := (o.publishEvaluation input policy targets apply).2
    FindingLedger.Conserves o.ledger {} o'.ledger ((report.map Prod.snd).getD {}) ∧
      o'.tally = ((report.filter Prod.fst).map Prod.snd).elim o.tally (tallied o.tally) := by
  have happly := @FindingLedger.conserves_applyEvaluation _ (input.outcome targets) policy input.now o.ledger
  rcases happlied : o.ledger.applyEvaluation (input.outcome targets) policy input.now with ⟨status, M, report⟩
  rw [happlied] at happly
  simp only [publishEvaluation, appliedReport, happlied]
  split_ifs with hcancelled hstopped hfenced _ hrefused
  · exact ⟨.refl _ _, rfl⟩
  · exact ⟨.refl _ _, rfl⟩
  · exact ⟨.refl _ _, rfl⟩
  · rw [Bool.not_eq_true'] at hrefused
    rw [hrefused]
    exact ⟨happly, rfl⟩
  · rw [Bool.not_eq_true', Bool.not_eq_false] at hrefused
    rw [hrefused]
    exact ⟨happly, rfl⟩
  · exact ⟨.refl _ _, rfl⟩

end Observatory

namespace System
variable [DoubleChars] {s : System} {a : Action} {reports : List (Bool × Flow)}

/-- What a step reports of the findings, with whether the engine adds it to its counters. -/
def reported (s : System) : Action → Option (Bool × Flow)
  | .publishIntent document stamp => some (false, (s.observatory.publishIntent document stamp).2.2.flow)
  | .publish index => match s.evaluations[index]? with
    | none => none
    | some e => match e.policy with
      | none => none
      | some policy =>
        if e.inFlight && e.joined then s.observatory.appliedReport e.input policy e.targets e.apply else none
  | _ => none

/-- The step puts another ledger in the place of the engine's. -/
def Restores : Action → Prop
  | .replaceLedger _ => True
  | _ => False

theorem step_conserves (h : ¬ Restores a) :
    FindingLedger.Conserves s.observatory.ledger {} (s.step a).observatory.ledger
        (((s.reported a).map Prod.snd).getD {}) ∧
      (s.step a).observatory.tally =
        (((s.reported a).filter Prod.fst).map Prod.snd).elim s.observatory.tally
          (Observatory.tallied s.observatory.tally) := by
  have hsame : ∀ {o : Observatory}, o.ledger.findings = s.observatory.ledger.findings ∧ o.tally = s.observatory.tally →
      FindingLedger.Conserves s.observatory.ledger {} o.ledger {} ∧
        o.tally = s.observatory.tally := fun hframe =>
    ⟨(FindingLedger.Conserves.refl _ _).of_findings hframe.1, hframe.2⟩
  cases a with
  | replaceLedger => exact absurd trivial h
  | start => exact hsame Observatory.start_findings
  | rotateIncarnation => exact hsame Observatory.rotateIncarnation_findings
  | registerSource => exact hsame Observatory.registerSource_findings
  | ingestObservation => exact hsame Observatory.ingestObservation_findings
  | setPolicy => exact hsame Observatory.setPolicy_findings
  | publishIntent => exact Observatory.publishIntent_conserves
  | suppressFinding finding actor reason expiresAt now =>
    refine ⟨@FindingLedger.conserves_operator _ _ (.suppress finding actor reason expiresAt now) rfl _, ?_⟩
    rw [step, Observatory.suppressFinding]
    dsimp only [Observatory.tally]
    split_ifs <;> rfl
  | clearSuppression finding actor now =>
    exact ⟨@FindingLedger.conserves_operator _ _ (.clearSuppression finding actor now) rfl _, rfl⟩
  | acknowledgeFinding finding actor reason now =>
    refine ⟨@FindingLedger.conserves_operator _ _ (.acknowledge finding actor reason now) rfl _, ?_⟩
    rw [step, Observatory.acknowledgeFinding]
    dsimp only [Observatory.tally]
    split_ifs <;> rfl
  | clearAcknowledgement finding actor now =>
    exact ⟨@FindingLedger.conserves_operator _ _ (.clearAcknowledgement finding actor now) rfl _, rfl⟩
  | expireSuppressions now =>
    exact ⟨@FindingLedger.conserves_operator _ _ (.expireSuppressions now) rfl _, rfl⟩
  | evaluateAt now apply =>
    rw [step, evaluateAt_observatory]
    exact hsame Observatory.admitEvaluation_findings
  | publish index =>
    rw [step, publish, reported]
    cases s.evaluations[index]? with
    | none => exact hsame ⟨rfl, rfl⟩
    | some e =>
      dsimp only
      cases e.policy with
      | none => exact hsame ⟨rfl, rfl⟩
      | some policy =>
        dsimp only
        split_ifs
        · exact Observatory.publishEvaluation_conserves
        · exact hsame ⟨rfl, rfl⟩
  | _ => exact hsame ⟨rfl, rfl⟩

/-- What is reported is what the ledger has and the counters count. -/
structure Reconciled (s : System) (reports : List (Bool × Flow)) : Prop where
  size : s.observatory.ledger.findings.size = (reports.map fun r => r.2.created).sum
  live : s.observatory.ledger.liveCount + (reports.map fun r => r.2.leaving).sum =
    (reports.map fun r => r.2.entering).sum
  created : s.observatory.tally.created = UInt64.ofNat ((reports.filter Prod.fst).map fun r => r.2.created).sum
  reopened : s.observatory.tally.reopened = UInt64.ofNat ((reports.filter Prod.fst).map fun r => r.2.reopened).sum
  resolved : s.observatory.tally.resolved = UInt64.ofNat ((reports.filter Prod.fst).map fun r => r.2.resolved).sum

theorem Reconciled.step (h : Reconciled s reports) (ha : ¬ Restores a) :
    Reconciled (s.step a) (reports ++ (s.reported a).toList) := by
  obtain ⟨hflow, htally⟩ := @step_conserves _ s a ha
  obtain ⟨hsize, hlive, hcreated, hreopened, hresolved⟩ := h
  rcases hreport : s.reported a with _ | ⟨counted, flow⟩
  · rw [hreport] at hflow htally
    have hsize' : (s.step a).observatory.ledger.findings.size = s.observatory.ledger.findings.size := hflow.size
    have hlive' : (s.step a).observatory.ledger.liveCount = s.observatory.ledger.liveCount := hflow.live
    have htally' : (s.step a).observatory.tally = s.observatory.tally := htally
    rw [Option.toList_none, List.append_nil]
    refine ⟨hsize'.trans hsize, hlive'.symm ▸ hlive, ?_, ?_, ?_⟩
    all_goals rw [htally']
    · exact hcreated
    · exact hreopened
    · exact hresolved
  · rw [hreport] at hflow htally
    have hsize' : (s.step a).observatory.ledger.findings.size =
        s.observatory.ledger.findings.size + flow.created := hflow.size
    have hlive' : (s.step a).observatory.ledger.liveCount + flow.leaving =
        s.observatory.ledger.liveCount + flow.entering := hflow.live
    rw [Option.toList_some]
    refine ⟨?_, ?_, ?_, ?_, ?_⟩
    · rw [hsize', hsize, List.map_append, List.sum_append, List.map_singleton, List.sum_singleton]
    · simp only [List.map_append, List.sum_append, List.map_singleton, List.sum_singleton]
      omega
    all_goals rw [htally, List.filter_append]
    all_goals cases counted
    all_goals simp [Observatory.tallied, Option.filter, hcreated, hreopened, hresolved]

end System

end DriftObservatory
