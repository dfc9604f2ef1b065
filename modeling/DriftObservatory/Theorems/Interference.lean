import DriftObservatory.Theorems.Atomicity
import DriftObservatory.Theorems.Operators
import DriftObservatory.Theorems.Pointwise

/-! Operator actions and detection. A finding without what operators write is its core; every step of detection reads
    and writes cores only, and no operator action changes one. -/

namespace DriftObservatory

/-! ### Cores -/

/-- The state as far as detection is concerned: the live states are one. -/
def FindingState.core (state : FindingState) : FindingState := if state.isLive then .open else state

theorem FindingState.core_core (state : FindingState) : state.core.core = state.core := by
  cases state <;> rfl

/-- The finding without suppression, acknowledgement, explanation and history. -/
def Finding.core (f : Finding) : Finding :=
  { f with
    state := f.state.core
    suppression := none, suppressionOrigin := .none, suppressedBy := default, suppressionReason := []
    suppressionExpiresAt := none
    acknowledgedBy := default, acknowledgedAt := default, acknowledgementReason := []
    summary := [], timeline := [] }

/-- What operators write into a finding, with the history and the explanation that follow. -/
structure Marks where
  state : FindingState
  suppression : Option SuppressionId
  suppressionOrigin : SuppressionOrigin
  suppressedBy : ActorId
  suppressionReason : Text
  suppressionExpiresAt : Option NdoTime
  acknowledgedBy : ActorId
  acknowledgedAt : NdoTime
  acknowledgementReason : Text
  summary : Text
  timeline : List TimelineEntry

def Finding.marked (f : Finding) (m : Marks) : Finding :=
  { f with
    state := m.state
    suppression := m.suppression, suppressionOrigin := m.suppressionOrigin, suppressedBy := m.suppressedBy
    suppressionReason := m.suppressionReason, suppressionExpiresAt := m.suppressionExpiresAt
    acknowledgedBy := m.acknowledgedBy, acknowledgedAt := m.acknowledgedAt
    acknowledgementReason := m.acknowledgementReason, summary := m.summary, timeline := m.timeline }

namespace Finding
variable {f g : Finding}

@[simp] theorem id_core : f.core.id = f.id := rfl

@[simp] theorem identity_core : f.core.identity = f.identity := rfl

@[simp] theorem klass_core : f.core.klass = f.klass := rfl

@[simp] theorem baselineGeneration_core : f.core.baselineGeneration = f.baselineGeneration := rfl

@[simp] theorem baselineEpoch_core : f.core.baselineEpoch = f.baselineEpoch := rfl

@[simp] theorem isLive_core : f.core.isLive = f.isLive := by
  unfold core isLive FindingState.core
  cases f.state <;> rfl

theorem isLive_of_core (h : f.core = g.core) : f.isLive = g.isLive := by
  rw [← isLive_core, h, isLive_core]

@[simp] theorem core_push {entry : TimelineEntry} : (f.push entry).core = f.core := rfl

@[simp] theorem core_recomputeSummary [DoubleChars] {limits : RuntimeLimits} :
    (f.recomputeSummary limits).core = f.core := by
  obtain ⟨timeline, summary, h⟩ := f.recomputeSummary_eq limits
  rw [h]
  rfl

@[simp] theorem core_clearSuppression : f.clearSuppression.core = f.core := by
  have hstate : f.clearSuppression.state.core = f.state.core := by
    unfold clearSuppression
    by_cases hs : f.state = .suppressed
    · cases f.acknowledgedBy.empty <;> simp [hs, FindingState.core, FindingState.isLive]
    · simp [hs]
  unfold core
  rw [hstate]
  rfl

/-- Findings with the same core differ in what operators write only. -/
theorem exists_of_core (h : f.core = g.core) : ∃ m : Marks, m.state.core = f.state.core ∧ g = f.marked m := by
  refine ⟨⟨g.state, g.suppression, g.suppressionOrigin, g.suppressedBy, g.suppressionReason, g.suppressionExpiresAt,
    g.acknowledgedBy, g.acknowledgedAt, g.acknowledgementReason, g.summary, g.timeline⟩,
    (congrArg Finding.state h).symm, ?_⟩
  cases f
  cases g
  simp only [core, Finding.mk.injEq] at h
  simp only [marked, Finding.mk.injEq]
  tauto

end Finding

namespace FindingLedger

/-! ### Findings with the same core -/

section Findings
variable [DoubleChars] {limits : RuntimeLimits} {outcome : EvaluationOutcome} {policy : ObservatoryPolicy}
  {now : NdoTime} {freshness : FreshnessState} {draft : FindingDraft} {f g : Finding}

omit [DoubleChars] in
theorem core_lapsePolicySuppression : (lapsePolicySuppression policy now f).1.core = f.core := by
  unfold lapsePolicySuppression
  split_ifs
  · exact Finding.core_push.trans Finding.core_clearSuppression
  · rfl

omit [DoubleChars] in
theorem core_absorbDraft (h : f.core = g.core) :
    (absorbDraft outcome now freshness draft f).core = (absorbDraft outcome now freshness draft g).core := by
  obtain ⟨m, hstate, rfl⟩ := Finding.exists_of_core h
  simp only [absorbDraft, Finding.core, Finding.marked, hstate]

omit [DoubleChars] in
theorem core_reopenOrUpdate {before before' : Finding} (hb : before.core = before'.core) (h : f.core = g.core) :
    (reopenOrUpdate now before f).1.core = (reopenOrUpdate now before' g).1.core := by
  have hlive := Finding.isLive_of_core hb
  by_cases hdead : before.isLive = true
  · have hkeep : ∀ b x : Finding, b.isLive = true → (reopenOrUpdate now b x).1.core = x.core := fun b x hl => by
      unfold reopenOrUpdate
      rw [hl]
      simp only [Bool.not_true, Bool.false_eq_true, if_false]
      split_ifs <;> rfl
    rw [hkeep _ _ hdead, hkeep _ _ (hlive ▸ hdead), h]
  · have hdead' := hdead
    rw [hlive] at hdead'
    obtain ⟨m, -, rfl⟩ := Finding.exists_of_core h
    simp only [reopenOrUpdate, hdead, hdead', Bool.not_false, if_true]
    rfl

theorem core_updateFinding (h : f.core = g.core) :
    (updateFinding limits outcome policy now freshness draft f).1.core =
      (updateFinding limits outcome policy now freshness draft g).1.core := by
  unfold updateFinding
  dsimp only
  rw [Finding.core_recomputeSummary, Finding.core_recomputeSummary, core_lapsePolicySuppression,
    core_lapsePolicySuppression]
  exact core_reopenOrUpdate h (core_absorbDraft h)

omit [DoubleChars] in
theorem core_supersedeFinding (h : f.core = g.core) :
    (supersedeFinding now f).1.core = (supersedeFinding now g).1.core := by
  obtain ⟨m, -, rfl⟩ := Finding.exists_of_core h
  unfold supersedeFinding
  dsimp only [Finding.marked]
  split_ifs <;> rfl

theorem core_resolveFinding {streak : Nat} (h : f.core = g.core) :
    (resolveFinding limits now streak f).1.core = (resolveFinding limits now streak g).1.core := by
  obtain ⟨m, -, rfl⟩ := Finding.exists_of_core h
  unfold resolveFinding
  dsimp only [Finding.marked]
  rw [Finding.core_push, Finding.core_push, Finding.core_recomputeSummary, Finding.core_recomputeSummary]
  split_ifs <;> rfl

omit [DoubleChars] in
theorem rebases_of_core {target : TargetId} {generation : IntentGeneration} (h : f.core = g.core) :
    rebases target generation f = rebases target generation g := by
  have hlive := Finding.isLive_of_core h
  obtain ⟨m, -, rfl⟩ := Finding.exists_of_core h
  unfold rebases
  rw [hlive]
  rfl

theorem core_rebaseFinding {baseline : IntentBaseline} {target : TargetId} {generation : IntentGeneration}
    (h : f.core = g.core) : (rebaseFinding limits baseline target generation now f).1.core =
      (rebaseFinding limits baseline target generation now g).1.core := by
  have hrebases := @rebases_of_core f g target generation h
  by_cases hr : rebases target generation f = true
  · obtain ⟨m, -, rfl⟩ := Finding.exists_of_core h
    simp only [rebaseFinding, ← hrebases, hr, if_true, Finding.core_recomputeSummary, Finding.core_push]
    by_cases hg : f.group.isSet = true
    · simp only [Finding.marked, hg, if_true]
      rfl
    · simp only [Finding.marked, hg]
      rfl
  · simp only [rebaseFinding, ← hrebases, hr]
    exact h

omit [DoubleChars] in
theorem core_assignGroup {target : TargetId} {assignment : OrdMap FindingId GroupId} (h : f.core = g.core) :
    (assignGroup target now assignment f).1.core = (assignGroup target now assignment g).1.core := by
  have hlive := Finding.isLive_of_core h
  obtain ⟨m, hstate, rfl⟩ := Finding.exists_of_core h
  by_cases hown : (f.identity.target == target && f.isLive) = true
  · have hown' : ((f.marked m).identity.target == target && (f.marked m).isLive) = true := hlive ▸ hown
    cases ha : assignment.find? f.id with
    | none =>
      have ha' : assignment.find? (f.marked m).id = none := ha
      simp only [assignGroup, hown, hown', ha, ha', if_true]
      simp only [Finding.core, Finding.marked, hstate]
    | some group =>
      have ha' : assignment.find? (f.marked m).id = some group := ha
      by_cases hg : f.group = group
      · have hg' : (f.marked m).group = group := hg
        simp only [assignGroup, hown, hown', ha, ha', hg, hg', if_true]
        exact h
      · have hg' : (f.marked m).group ≠ group := hg
        simp only [assignGroup, hown, hown', ha, ha', hg, hg', if_true, if_false, Finding.core_push]
        simp only [Finding.core, Finding.marked, hstate]
  · have hown' : ¬ ((f.marked m).identity.target == target && (f.marked m).isLive) = true := hlive ▸ hown
    simp only [assignGroup, hown, hown']
    exact h

theorem core_expireFinding : (expireFinding limits now f).1.core = f.core := by
  unfold expireFinding
  split_ifs
  · dsimp only
    rw [Finding.core_recomputeSummary, Finding.core_push, Finding.core_clearSuppression]
  · rfl

end Findings

/-! ### Ledgers with the same cores -/

/-- The ledgers hold the same evidence and groups, and findings with the same cores. -/
structure Alike (L M : FindingLedger) : Prop where
  limits : L.limits = M.limits
  baselines : L.baselines = M.baselines
  windows : L.windows = M.windows
  groups : L.groups = M.groups
  streaks : L.resolutionStreak = M.resolutionStreak
  findings : ∀ id, (L.findings.find? id).map Finding.core = (M.findings.find? id).map Finding.core

section Ledgers
variable {L M : FindingLedger} {target : TargetId} {id : FindingId}

theorem Alike.refl (L : FindingLedger) : Alike L L := ⟨rfl, rfl, rfl, rfl, rfl, fun _ => rfl⟩

theorem Alike.symm (h : Alike L M) : Alike M L :=
  ⟨h.limits.symm, h.baselines.symm, h.windows.symm, h.groups.symm, h.streaks.symm, fun id => (h.findings id).symm⟩

theorem Alike.trans {N : FindingLedger} (h : Alike L M) (h' : Alike M N) : Alike L N :=
  ⟨h.limits.trans h'.limits, h.baselines.trans h'.baselines, h.windows.trans h'.windows, h.groups.trans h'.groups,
    h.streaks.trans h'.streaks, fun id => (h.findings id).trans (h'.findings id)⟩

theorem Alike.cases_find? (h : Alike L M) (id : FindingId) :
    (L.findings.find? id = none ∧ M.findings.find? id = none) ∨
      ∃ f g, L.findings.find? id = some f ∧ M.findings.find? id = some g ∧ f.core = g.core := by
  have hid := h.findings id
  cases hf : L.findings.find? id with
  | none =>
    rw [hf] at hid
    exact .inl ⟨rfl, Option.map_eq_none_iff.mp hid.symm⟩
  | some f =>
    rw [hf] at hid
    obtain ⟨g, hg, hcore⟩ := Option.map_eq_some_iff.mp hid.symm
    exact .inr ⟨f, g, rfl, hg, hcore.symm⟩

theorem Alike.contains (h : Alike L M) : L.findings.contains id = M.findings.contains id := by
  rcases h.cases_find? id with ⟨hf, hg⟩ | ⟨f, g, hf, hg, -⟩
  · rw [OrdMap.contains, OrdMap.contains, hf, hg]
  · rw [OrdMap.contains, OrdMap.contains, hf, hg]
    rfl

theorem Alike.entries (h : Alike L M) : L.findings.entries.map (fun entry => (entry.1, entry.2.core)) =
    M.findings.entries.map fun entry => (entry.1, entry.2.core) := by
  have hmaps : L.findings.mapValues (fun _ => Finding.core) = M.findings.mapValues fun _ => Finding.core :=
    OrdMap.ext_find? fun id => by rw [OrdMap.find?_mapValues, OrdMap.find?_mapValues, h.findings]
  exact congrArg OrdMap.entries hmaps

theorem Alike.values (h : Alike L M) : L.findings.values.map Finding.core = M.findings.values.map Finding.core := by
  have hvalues := congrArg (List.map Prod.snd) h.entries
  simpa only [OrdMap.values, List.map_map, Function.comp_def] using hvalues

theorem Alike.size (h : Alike L M) : L.findings.size = M.findings.size := by
  simpa [OrdMap.size] using congrArg List.length h.entries

/-- A filter that reads cores commutes with taking them. -/
theorem filter_core {p : Finding → Bool} (hp : ∀ f, p f.core = p f) (fs : List Finding) :
    (fs.filter p).map Finding.core = (fs.map Finding.core).filter p := by
  rw [List.filter_map]
  exact congrArg (List.map Finding.core) (List.filter_congr fun f _ => (hp f).symm)

theorem Alike.liveOf (h : Alike L M) : (L.liveOf target).map Finding.core = (M.liveOf target).map Finding.core := by
  have hp : ∀ f : Finding, (f.core.identity.target == target && f.core.isLive) =
      (f.identity.target == target && f.isLive) := fun f => by rw [Finding.isLive_core]; rfl
  unfold FindingLedger.liveOf
  rw [filter_core hp, filter_core hp, h.values]

/-- Timeline, revision and suppression counts are nobody's evidence. -/
theorem Alike.appendAll (h : Alike L M) {entries entries' : List TimelineEntry} :
    Alike (L.appendAll entries) (M.appendAll entries') := by
  obtain ⟨log, hL⟩ := appendAll_eq entries L
  obtain ⟨log', hM⟩ := appendAll_eq entries' M
  rw [hL, hM]
  exact ⟨h.limits, h.baselines, h.windows, h.groups, h.streaks, h.findings⟩

theorem Alike.sweep (h : Alike L M) {step step' : Finding → Finding × List TimelineEntry}
    (hstep : ∀ f g : Finding, f.core = g.core → (step f).1.core = (step' g).1.core) :
    Alike (L.sweep step) (M.sweep step') := by
  have hmapped : Alike { L with findings := L.findings.mapValues fun _ f => (step f).1 }
      { M with findings := M.findings.mapValues fun _ f => (step' f).1 } := by
    refine ⟨h.limits, h.baselines, h.windows, h.groups, h.streaks, fun id => ?_⟩
    rw [OrdMap.find?_mapValues, OrdMap.find?_mapValues]
    rcases h.cases_find? id with ⟨hf, hg⟩ | ⟨f, g, hf, hg, hcore⟩
    · rw [hf, hg]
      rfl
    · rw [hf, hg, Option.map_some, Option.map_some, Option.map_some, Option.map_some, hstep f g hcore]
  exact hmapped.appendAll

theorem Alike.dropGroups (h : Alike L M) {ids : List GroupId} : Alike (L.dropGroups ids) (M.dropGroups ids) :=
  ⟨h.limits, h.baselines, h.windows, congrArg (fun groups => ids.foldl OrdMap.erase groups) h.groups, h.streaks,
    h.findings⟩

end Ledgers

/-! ### Detection reads cores only -/

section Detection
variable [DoubleChars] {outcome : EvaluationOutcome} {policy : ObservatoryPolicy} {now : NdoTime} {L M : FindingLedger}
  {e : TargetEvaluation} {drafts : OrdMap FindingId FindingDraft} {target : TargetId}

theorem Alike.drafted (h : Alike L M) : Alike (L.drafted outcome policy now e) (M.drafted outcome policy now e) := by
  have hpart : ∀ id, ((L.drafted outcome policy now e).part id).1.map Finding.core =
        ((M.drafted outcome policy now e).part id).1.map Finding.core ∧
      ((L.drafted outcome policy now e).part id).2 = ((M.drafted outcome policy now e).part id).2 := fun id => by
    obtain ⟨hL, hL'⟩ := @part_drafted _ outcome policy now L e id
    obtain ⟨hM, hM'⟩ := @part_drafted _ outcome policy now M e id
    cases hd : (draftMap e.drafts).find? id with
    | none =>
      rw [hL' hd, hM' hd]
      exact ⟨h.findings id, congrArg (fun streaks => OrdMap.find? streaks id) h.streaks⟩
    | some d =>
      rw [hL d hd, hM d hd, h.limits, h.streaks]
      rcases h.cases_find? id with ⟨hf, hg⟩ | ⟨f, g, hf, hg, hcore⟩
      · rw [hf, hg]
        exact ⟨rfl, rfl⟩
      · rw [hf, hg]
        exact ⟨congrArg some (core_updateFinding hcore), rfl⟩
  obtain ⟨findings, streak, sequence, log, hl⟩ := @restated_drafted _ outcome policy now L e
  obtain ⟨findings', streak', sequence', log', hm⟩ := @restated_drafted _ outcome policy now M e
  rw [hl, hm] at hpart ⊢
  exact ⟨h.limits, h.baselines, h.windows, h.groups, OrdMap.ext_find? fun id => (hpart id).2, fun id => (hpart id).1⟩

omit [DoubleChars] in
theorem Alike.reclassified (h : Alike L M) {f g : Finding} (hcore : f.core = g.core) :
    L.reclassified drafts f = M.reclassified drafts g := by
  obtain ⟨m, -, rfl⟩ := Finding.exists_of_core hcore
  unfold FindingLedger.reclassified
  rw [Bool.eq_iff_iff, List.any_eq_true, List.any_eq_true]
  refine exists_congr fun id => and_congr_right fun _ => ?_
  rcases h.cases_find? id with ⟨hf, hg⟩ | ⟨a, b, ha, hb, hab⟩
  · rw [hf, hg]
    exact Iff.rfl
  · obtain ⟨n, -, rfl⟩ := Finding.exists_of_core hab
    rw [ha, hb]
    exact Iff.rfl

omit [DoubleChars] in
theorem Alike.undrafted (h : Alike L M) : L.undrafted target drafts = M.undrafted target drafts := by
  have hp : ∀ entry : FindingId × Finding,
      (entry.2.identity.target == target && entry.2.isLive && !drafts.contains entry.1) =
        (entry.2.core.identity.target == target && entry.2.core.isLive && !drafts.contains entry.1) := fun entry => by
    rw [Finding.isLive_core]
    rfl
  have hsplit : ∀ entries : List (FindingId × Finding), (entries.filter fun entry =>
      entry.2.identity.target == target && entry.2.isLive && !drafts.contains entry.1).map Prod.fst =
      ((entries.map fun entry => (entry.1, entry.2.core)).filter fun entry =>
        entry.2.identity.target == target && entry.2.isLive && !drafts.contains entry.1).map Prod.fst := fun entries => by
    rw [List.filter_map, List.map_map]
    exact congrArg (List.map Prod.fst) (List.filter_congr fun entry _ => hp entry)
  unfold FindingLedger.undrafted
  rw [hsplit L.findings.entries, hsplit M.findings.entries, h.entries]

theorem core_settledFinding (h : Alike L M) {streak : Nat} {f g : Finding} (hcore : f.core = g.core) :
    (L.settledFinding outcome now drafts streak f).core = (M.settledFinding outcome now drafts streak g).core := by
  unfold settledFinding
  rw [h.reclassified hcore, h.limits]
  split_ifs
  · exact core_supersedeFinding hcore
  · exact core_resolveFinding hcore
  · obtain ⟨m, hstate, rfl⟩ := Finding.exists_of_core hcore
    simp only [Finding.core, Finding.marked, hstate]

theorem Alike.settleUndrafted (h : Alike L M) {decidable : Bool} :
    Alike (settleUndrafted outcome now decidable target drafts L {}).ledger
        (settleUndrafted outcome now decidable target drafts M {}).ledger ∧
      (settleUndrafted outcome now decidable target drafts L {}).drops =
        (settleUndrafted outcome now decidable target drafts M {}).drops := by
  have hsettled : ∀ id, (L.settledPart outcome now decidable drafts (L.part id)).1.map Finding.core =
        (M.settledPart outcome now decidable drafts (M.part id)).1.map Finding.core ∧
      (L.settledPart outcome now decidable drafts (L.part id)).2 =
        (M.settledPart outcome now decidable drafts (M.part id)).2 ∧
      L.settledDrops outcome decidable drafts (L.part id) = M.settledDrops outcome decidable drafts (M.part id) :=
      fun id => by
    unfold part
    rw [h.streaks]
    rcases h.cases_find? id with ⟨hf, hg⟩ | ⟨f, g, hf, hg, hcore⟩
    · rw [hf, hg]
      exact ⟨rfl, rfl, rfl⟩
    · have hgroup : groupOf f = groupOf g := by
        obtain ⟨m, -, rfl⟩ := Finding.exists_of_core hcore
        rfl
      rw [hf, hg]
      simp only [settledPart, settledDrops, ends, h.reclassified hcore, hgroup]
      cases decidable with
      | false => exact ⟨congrArg some hcore, rfl, rfl⟩
      | true => exact ⟨congrArg some (core_settledFinding h hcore), rfl, rfl⟩
  refine ⟨?_, ?_⟩
  · have hpart : ∀ id, ((FindingLedger.settleUndrafted outcome now decidable target drafts L {}).ledger.part id).1.map
          Finding.core =
          ((FindingLedger.settleUndrafted outcome now decidable target drafts M {}).ledger.part id).1.map Finding.core ∧
        ((FindingLedger.settleUndrafted outcome now decidable target drafts L {}).ledger.part id).2 =
          ((FindingLedger.settleUndrafted outcome now decidable target drafts M {}).ledger.part id).2 := fun id => by
      obtain ⟨hL, hL'⟩ := @part_settleUndrafted _ outcome now id decidable drafts L target
      obtain ⟨hM, hM'⟩ := @part_settleUndrafted _ outcome now id decidable drafts M target
      by_cases hmem : id ∈ L.undrafted target drafts
      · rw [hL hmem, hM (h.undrafted ▸ hmem)]
        exact ⟨(hsettled id).1, (hsettled id).2.1⟩
      · rw [hL' hmem, hM' (h.undrafted ▸ hmem)]
        exact ⟨h.findings id, congrArg (fun streaks => OrdMap.find? streaks id) h.streaks⟩
    obtain ⟨findings, streak, sequence, log, hl⟩ := @restated_settleUndrafted _ outcome now decidable drafts L target
    obtain ⟨findings', streak', sequence', log', hm⟩ := @restated_settleUndrafted _ outcome now decidable drafts M target
    rw [hl, hm] at hpart ⊢
    exact ⟨h.limits, h.baselines, h.windows, h.groups, OrdMap.ext_find? fun id => (hpart id).2, fun id => (hpart id).1⟩
  · rw [drops_settleUndrafted, drops_settleUndrafted, ← h.undrafted]
    exact congrArg (fun g => List.flatMap g (L.undrafted target drafts)) (funext fun id => (hsettled id).2.2)

theorem Alike.settling (h : Alike L M) :
    Alike (L.settling outcome policy now e).ledger (M.settling outcome policy now e).ledger ∧
      (L.settling outcome policy now e).drops = (M.settling outcome policy now e).drops :=
  h.drafted.settleUndrafted

end Detection

/-! ### Groups -/

/-- The group with the cores of its members. -/
def BucketGroup.core (b : BucketGroup) : BucketGroup := { b with members := b.members.map Finding.core }

section Groups
variable {limits : RuntimeLimits} {target : TargetId} {now : NdoTime} {L M : FindingLedger}

theorem bucketGroup_core (bucket : List Finding) :
    bucketGroup target (bucket.map Finding.core) = (bucketGroup target bucket).map BucketGroup.core := by
  have hsort : sortBy (fun a b : Finding => decide (a.id < b.id)) (bucket.map Finding.core) =
      (sortBy (fun a b : Finding => decide (a.id < b.id)) bucket).map Finding.core :=
    (sortBy.map Finding.core (fun _ _ => rfl) bucket).symm
  have hdisc : ∀ members : List Finding, groupDiscriminator (members.map Finding.core) = groupDiscriminator members := by
    intro members
    have hq : (members.map Finding.core).map memberQualifier = members.map memberQualifier := by
      rw [List.map_map]
      rfl
    unfold groupDiscriminator
    rw [hq]
  unfold bucketGroup
  rw [hsort]
  cases sortBy (fun a b : Finding => decide (a.id < b.id)) bucket with
  | nil => rfl
  | cons first rest =>
    have hd := hdisc (first :: rest)
    rw [List.map_cons] at hd ⊢
    simp only [hd, List.length_cons, List.length_map, Finding.klass_core, Finding.baselineGeneration_core,
      Finding.baselineEpoch_core]
    split_ifs <;> rfl

theorem Alike.bucketGroups (h : Alike L M) :
    (L.bucketGroups target).map BucketGroup.core = (M.bucketGroups target).map BucketGroup.core := by
  have hcore : ∀ N : FindingLedger, (N.bucketGroups target).map BucketGroup.core =
      (((((N.liveOf target).map Finding.core).map bucketKey).insertionSort (· ≤ ·)).dedup.map fun key =>
        ((N.liveOf target).map Finding.core).filter fun f => bucketKey f == key).filterMap (bucketGroup target) := by
    intro N
    have hkeys : ((N.liveOf target).map Finding.core).map bucketKey = (N.liveOf target).map bucketKey := by
      rw [List.map_map]
      rfl
    have hkey : ∀ key f, (bucketKey (Finding.core f) == key) = (bucketKey f == key) := fun _ _ => rfl
    unfold FindingLedger.bucketGroups buckets
    rw [hkeys, List.map_filterMap, List.filterMap_map, List.filterMap_map]
    refine List.filterMap_congr fun key _ => ?_
    rw [Function.comp_apply, Function.comp_apply, ← filter_core (hkey key), bucketGroup_core]
  rw [hcore, hcore, h.liveOf]

theorem refreshedGroup_core (b : BucketGroup) (existing : Option RootCauseGroup) :
    refreshedGroup target now b.core existing = refreshedGroup target now b existing := by
  have hids : b.core.members.map Finding.id = b.members.map Finding.id := List.map_map
  have hobjects : b.core.members.map (fun f => f.identity.object) = b.members.map fun f => f.identity.object :=
    List.map_map
  have hlen : b.core.members.length = b.members.length := List.length_map _
  unfold refreshedGroup
  rw [hids, hobjects, hlen]
  rfl

theorem refreshBucket_core (pass : GroupPass) (b : BucketGroup) :
    refreshBucket limits target now pass b.core = refreshBucket limits target now pass b := by
  have hassign : b.core.members.foldl (fun m f => m.insert f.id b.id) pass.assignment =
      b.members.foldl (fun m f => m.insert f.id b.id) pass.assignment := List.foldl_map
  unfold refreshBucket
  dsimp only
  rw [refreshedGroup_core, show b.core.id = b.id from rfl, hassign]

theorem refreshBuckets_core : ∀ (bs : List BucketGroup) (pass : GroupPass),
    refreshBuckets limits target now (bs.map BucketGroup.core) pass = refreshBuckets limits target now bs pass
  | [], _ => rfl
  | b :: bs, pass => by
    rw [List.map_cons, refreshBuckets, refreshBuckets, refreshBucket_core]
    cases refreshBucket limits target now pass b with
    | none => rfl
    | some next => exact refreshBuckets_core bs next

theorem Alike.refreshGroups (h : Alike L M) {report report' : LedgerApplyReport} :
    (L.refreshGroups target now report).1 = (M.refreshGroups target now report').1 ∧
      Alike (L.refreshGroups target now report).2.1 (M.refreshGroups target now report').2.1 := by
  have hpass : refreshBuckets L.limits target now (L.bucketGroups target) { groups := L.groups } =
      refreshBuckets M.limits target now (M.bucketGroups target) { groups := M.groups } := by
    rw [← refreshBuckets_core, h.bucketGroups, refreshBuckets_core, h.limits, h.groups]
  unfold FindingLedger.refreshGroups
  rw [hpass]
  generalize refreshBuckets M.limits target now (M.bucketGroups target) { groups := M.groups } = result
  obtain ⟨done, pass⟩ := result
  have htouched : Alike { L with groups := pass.groups } { M with groups := pass.groups } :=
    ⟨h.limits, h.baselines, h.windows, rfl, h.streaks, h.findings⟩
  cases done with
  | false => exact ⟨rfl, htouched⟩
  | true =>
    have hswept := htouched.sweep fun f g => @core_assignGroup now f g target pass.assignment
    refine ⟨rfl, hswept.limits, hswept.baselines, hswept.windows, ?_, hswept.streaks, hswept.findings⟩
    exact congrArg (fun groups => OrdMap.filter groups fun id group =>
      !(group.target == target && !pass.produced.contains id)) hswept.groups

end Groups


/-! ### The steps of detection -/

section Steps
variable [DoubleChars] {outcome : EvaluationOutcome} {policy : ObservatoryPolicy} {now : NdoTime} {L M : FindingLedger}
  {e : TargetEvaluation}

theorem Alike.applyTarget (h : Alike L M) {report report' : LedgerApplyReport} :
    (applyTarget outcome policy now L report e).1 = (applyTarget outcome policy now M report' e).1 ∧
      Alike (applyTarget outcome policy now L report e).2.1 (applyTarget outcome policy now M report' e).2.1 := by
  obtain ⟨hsettled, hdrops⟩ := @Alike.settling _ outcome policy now L M e h
  obtain ⟨r, hL⟩ := @applyTarget_eq _ outcome policy now L report e
  obtain ⟨r', hM⟩ := @applyTarget_eq _ outcome policy now M report' e
  obtain ⟨hstatus, hledger⟩ := @Alike.refreshGroups e.target now _ _ hsettled r r'
  rw [hL, hM]
  dsimp only
  rw [← hstatus, ← hdrops]
  split_ifs
  · exact ⟨hstatus, hledger⟩
  · exact ⟨rfl, hledger.dropGroups⟩

theorem Alike.applyTargets : ∀ {targets : List TargetEvaluation} {L M : FindingLedger}
    {report report' : LedgerApplyReport}, Alike L M →
    (applyTargets outcome policy now targets L report).1 = (applyTargets outcome policy now targets M report').1 ∧
      Alike (applyTargets outcome policy now targets L report).2.1
        (applyTargets outcome policy now targets M report').2.1
  | [], _, _, _, _, h => ⟨rfl, h⟩
  | e :: rest, L, M, report, report', h => by
    obtain ⟨hstatus, hledger⟩ := @Alike.applyTarget _ outcome policy now L M e h report report'
    rcases hl : FindingLedger.applyTarget outcome policy now L report e with ⟨status, L', r⟩
    rcases hm : FindingLedger.applyTarget outcome policy now M report' e with ⟨status', M', r'⟩
    rw [hl, hm] at hstatus hledger
    obtain rfl : status = status' := hstatus
    simp only [FindingLedger.applyTargets, hl, hm]
    split
    · exact ⟨rfl, hledger⟩
    · exact Alike.applyTargets hledger

theorem alike_expireSuppressions : Alike L (L.expireSuppressions now) := by
  have hsweep : Alike L (L.sweep (expireFinding L.limits now)) := by
    have hid : Alike (L.sweep fun f => (f, [])) (L.sweep (expireFinding L.limits now)) :=
      (Alike.refl L).sweep fun f g hcore => hcore.trans core_expireFinding.symm
    refine Alike.trans ⟨?_, ?_, ?_, ?_, ?_, fun id => ?_⟩ hid <;> simp [FindingLedger.sweep]
  unfold FindingLedger.expireSuppressions
  dsimp only
  split_ifs <;>
    exact ⟨hsweep.limits, hsweep.baselines, hsweep.windows, hsweep.groups, hsweep.streaks, hsweep.findings⟩

theorem Alike.applyEvaluation (h : Alike L M) :
    Alike (L.applyEvaluation outcome policy now).2.1 (M.applyEvaluation outcome policy now).2.1 := by
  have haccepts : L.accepts = M.accepts := by
    funext e
    unfold accepts findBaseline
    rw [h.baselines]
  have hnew : L.newFindings outcome.targets = M.newFindings outcome.targets := by
    unfold newFindings
    simp only [haccepts, h.contains]
  obtain ⟨hstatus, hledger⟩ := @Alike.applyTargets _ outcome policy now (outcome.targets.filter M.accepts) L M
    { fencedTargets := outcome.targets.length - (outcome.targets.filter M.accepts).length }
    { fencedTargets := outcome.targets.length - (outcome.targets.filter M.accepts).length } h
  rcases hl : FindingLedger.applyTargets outcome policy now (outcome.targets.filter M.accepts) L
    { fencedTargets := outcome.targets.length - (outcome.targets.filter M.accepts).length } with ⟨status, L', r⟩
  rcases hm : FindingLedger.applyTargets outcome policy now (outcome.targets.filter M.accepts) M
    { fencedTargets := outcome.targets.length - (outcome.targets.filter M.accepts).length } with ⟨status', M', r'⟩
  rw [hl, hm] at hstatus hledger
  obtain rfl : status = status' := hstatus
  simp only [FindingLedger.applyEvaluation, haccepts, hnew, h.size, h.limits, hl, hm]
  split
  · exact h
  · split
    · exact hledger
    · have hend := (@alike_expireSuppressions _ now L').symm.trans (hledger.trans (@alike_expireSuppressions _ now M'))
      exact ⟨hend.limits, hend.baselines, hend.windows, hend.groups, hend.streaks, hend.findings⟩

theorem Alike.rebaseFindingsForTarget (h : Alike L M) {baseline : IntentBaseline} {target : TargetId}
    {generation : IntentGeneration} {report : IntentCommitReport} :
    Alike (L.rebaseFindingsForTarget baseline target generation now report).1
      (M.rebaseFindingsForTarget baseline target generation now report).1 := by
  have hrebases : ∀ f : Finding, rebases target generation f.core = rebases target generation f := fun f =>
    (@rebases_of_core f f.core target generation (by simp [Finding.core, FindingState.core_core])).symm
  have hmoved : (L.findings.values.filter (rebases target generation)).map Finding.core =
      (M.findings.values.filter (rebases target generation)).map Finding.core := by
    rw [filter_core hrebases, filter_core hrebases, h.values]
  have hdrops : ∀ fs : List Finding, (fs.filter fun f => f.group.isSet).map Finding.group =
      ((fs.map Finding.core).filter fun f => f.group.isSet).map Finding.group := fun fs => by
    rw [← filter_core fun _ => rfl, List.map_map]
    rfl
  unfold FindingLedger.rebaseFindingsForTarget
  dsimp only
  rw [hdrops (L.findings.values.filter _), hmoved, ← hdrops, h.limits]
  exact (h.sweep fun f g => core_rebaseFinding).dropGroups

theorem Alike.commitIntent (h : Alike L M) {document : IntentGenerationDocument} :
    Alike (L.commitIntent document now).2.1 (M.commitIntent document now).2.1 := by
  have hrebased := fun baselines report => @Alike.rebaseFindingsForTarget _ now { L with baselines := baselines }
    { M with baselines := baselines } ⟨h.limits, rfl, h.windows, h.groups, h.streaks, h.findings⟩
    (baselineOf document now) document.target document.generation report
  obtain ⟨limits, revision, sequence, baselines, windows, findings, groups, log, streaks, active, expired⟩ := L
  obtain ⟨limits', revision', sequence', baselines', windows', findings', groups', log', streaks', active', expired'⟩ := M
  obtain rfl : limits = limits' := h.limits
  obtain rfl : baselines = baselines' := h.baselines
  unfold FindingLedger.commitIntent findBaseline
  dsimp only
  split
  · exact h
  · split
    · split
      · exact h
      · exact ⟨rfl, rfl, h.windows, h.groups, h.streaks, h.findings⟩
    · rename_i existing _
      split
      · exact h
      · split
        · exact h
        · split
          · split <;> exact h
          · have hr := hrebased (baselines.insert document.target
                { baselineOf document now with target := existing.target })
              { target := document.target, epoch := document.epoch, previousGeneration := existing.generation
                committedGeneration := document.generation }
            exact ⟨hr.limits, hr.baselines, hr.windows, hr.groups, hr.streaks, hr.findings⟩

omit [DoubleChars] in
theorem Alike.recordObservation (h : Alike L M) {snapshot : ObservationSnapshot} {verdict : FreshnessVerdict}
    {recovered : Bool} : Alike (L.recordObservation snapshot verdict recovered).2.1
      (M.recordObservation snapshot verdict recovered).2.1 := by
  obtain ⟨limits, revision, sequence, baselines, windows, findings, groups, log, streaks, active, expired⟩ := L
  obtain ⟨limits', revision', sequence', baselines', windows', findings', groups', log', streaks', active', expired'⟩ := M
  obtain rfl : limits = limits' := h.limits
  obtain rfl : windows = windows' := h.windows
  unfold FindingLedger.recordObservation
  dsimp only
  split
  · exact h
  · split
    · exact h
    · exact ⟨rfl, h.baselines, rfl, h.groups, h.streaks, h.findings⟩

omit [DoubleChars] in
theorem Alike.invalidateRetainedEvidence (h : Alike L M) {reason : ReasonCode} :
    Alike (L.invalidateRetainedEvidence reason now) (M.invalidateRetainedEvidence reason now) := by
  unfold FindingLedger.invalidateRetainedEvidence
  rw [h.windows]
  dsimp only
  split_ifs <;> exact ⟨h.limits, h.baselines, rfl, h.groups, h.streaks, h.findings⟩

omit [DoubleChars] in
/-- An evaluation reads the baselines and the windows. -/
theorem Alike.evaluateLedgerOnce (h : Alike L M) {limits : RuntimeLimits} {epoch : FabricEpoch}
    {incarnation : Incarnation} : L.evaluateLedgerOnce policy limits epoch incarnation now =
      M.evaluateLedgerOnce policy limits epoch incarnation now := by
  have htargets : L.targets = M.targets := by
    unfold targets
    rw [h.baselines, h.windows]
  have hinput : comparisonInputOnce policy epoch now L = comparisonInputOnce policy epoch now M := by
    funext target
    unfold comparisonInputOnce findBaseline observationsFor
    rw [h.baselines, h.windows]
  unfold FindingLedger.evaluateLedgerOnce Observatory.evaluationTargets
  rw [htargets, hinput]

omit [DoubleChars] in
theorem Alike.outcomeOf (h : Alike L M) (op : Operation) : L.outcomeOf op = M.outcomeOf op := by
  cases op <;> simp only [FindingLedger.outcomeOf, h.evaluateLedgerOnce]

/-- Every operation takes ledgers with the same cores to such ledgers. -/
theorem Alike.detect (h : Alike L M) {op : Operation} (hop : op.isOperator = false) :
    Alike (L.operate op) (M.operate op) := by
  cases op with
  | commitIntent document now => exact h.commitIntent
  | recordObservation snapshot verdict recovered => exact h.recordObservation
  | evaluate policy limits epoch incarnation now =>
    simp only [operate, evaluateAndApply, h.evaluateLedgerOnce]
    cases M.evaluateLedgerOnce policy limits epoch incarnation now with
    | error _ => exact h
    | ok outcome => exact h.applyEvaluation
  | applyEvaluation outcome policy now => exact h.applyEvaluation
  | invalidateRetainedEvidence reason now => exact h.invalidateRetainedEvidence
  | recordEvent entry => exact ⟨h.limits, h.baselines, h.windows, h.groups, h.streaks, h.findings⟩
  | _ => cases hop

/-! ### Operators write no core -/

theorem alike_actOn {id : FindingId} {f f₀ : Finding} {event : TimelineEntry} (hf : L.findings.find? id = some f₀)
    (hcore : f.core = f₀.core) : Alike L (L.actOn id f event) := by
  refine ⟨rfl, rfl, rfl, rfl, rfl, fun k => ?_⟩
  simp only [actOn, bumpRevision, appendTimeline]
  by_cases hk : id = k
  · subst hk
    rw [hf, OrdMap.find?_insert_self, Option.map_some, Option.map_some, Finding.core_recomputeSummary,
      Finding.core_push, hcore]
  · rw [OrdMap.find?_insert_of_ne hk]

theorem alike_operator {op : Operation} (hop : op.isOperator = true) : Alike L (L.operate op) := by
  have hstep := @operator_step _ L op hop
  generalize L.operate op = M at hstep
  have hcounted : ∀ active, Alike L { L with suppressionsActive := active } := fun _ =>
    ⟨rfl, rfl, rfl, rfl, rfl, fun _ => rfl⟩
  cases hstep with
  | refused => exact Alike.refl L
  | suppressed id actor reason expiresAt now f sid event hf hroom hsid hevent =>
    have hstate : (if f.isLive then FindingState.suppressed else f.state).core = f.state.core := by
      unfold Finding.isLive
      cases f.state <;> rfl
    refine (hcounted _).trans (alike_actOn hf ?_)
    simp only [Finding.suppressedAs, Finding.core, hstate]
  | unsuppressed id actor now f event hf hset hevent =>
    exact (hcounted _).trans (alike_actOn hf Finding.core_clearSuppression)
  | acknowledged id actor reason now f event hf =>
    have hstate : (if f.state = .open then FindingState.acknowledged else f.state).core = f.state.core := by
      cases f.state <;> rfl
    exact alike_actOn hf (by simp only [Finding.acknowledgedAs, Finding.core, hstate])
  | unacknowledged id actor now f event hf =>
    have hstate : (if f.state = .acknowledged then FindingState.open else f.state).core = f.state.core := by
      cases f.state <;> rfl
    exact alike_actOn hf (by simp only [Finding.unacknowledged, Finding.core, hstate])
  | expired now => exact alike_expireSuppressions

omit [DoubleChars] in
theorem outcomeOf_operator {op : Operation} (hop : op.isOperator = true) : L.outcomeOf op = none := by
  cases op <;> first | rfl | cases hop

/-! ### Two runs -/

/-- A run computes and detects what its detection steps alone do. -/
theorem run_alike : ∀ {run : List Operation} {L M : FindingLedger}, Alike L M →
    Run.outputs operate outcomeOf L run =
        Run.outputs operate outcomeOf M (run.filter fun op => !op.isOperator) ∧
      Alike (Run.exec operate L run) (Run.exec operate M (run.filter fun op => !op.isOperator))
  | [], _, _, h => ⟨rfl, h⟩
  | op :: rest, L, M, h => by
    cases hop : op.isOperator with
    | true =>
      obtain ⟨hout, hend⟩ := @run_alike rest _ _ ((alike_operator hop).symm.trans h)
      rw [List.filter_cons_of_neg (by simp [hop]), Run.outputs, outcomeOf_operator hop]
      exact ⟨hout, hend⟩
    | false =>
      obtain ⟨hout, hend⟩ := @run_alike rest _ _ (h.detect hop)
      rw [List.filter_cons_of_pos (by simp [hop]), Run.outputs, Run.outputs, h.outcomeOf, hout]
      exact ⟨rfl, hend⟩

/-- Runs that differ in operator actions only compute the same outcomes and leave findings that agree in everything
    operators do not write. -/
theorem detection_undisturbed (L : FindingLedger) (run run' : List Operation)
    (h : (run.filter fun op => !op.isOperator) = run'.filter fun op => !op.isOperator) :
    Run.outputs operate outcomeOf L run = Run.outputs operate outcomeOf L run' ∧
      (Run.exec operate L run).resolutionStreak = (Run.exec operate L run').resolutionStreak ∧
      (Run.exec operate L run).groups = (Run.exec operate L run').groups ∧
      ∀ id, ((Run.exec operate L run).findings.find? id).map Finding.core =
        ((Run.exec operate L run').findings.find? id).map Finding.core := by
  obtain ⟨hout, hend⟩ := @run_alike _ run L L (Alike.refl L)
  obtain ⟨hout', hend'⟩ := @run_alike _ run' L L (Alike.refl L)
  rw [h] at hout hend
  have hboth := hend.trans hend'.symm
  exact ⟨hout.trans hout'.symm, hboth.streaks, hboth.groups, hboth.findings⟩

end Steps

end FindingLedger

namespace Sample
open FindingLedger

/-- A policy that asks for the target. -/
def requiring : ObservatoryPolicy := { requiredTargets := [target], evidence := .synthetic }

/-- The ledger of a required target nobody has published intent for. -/
def unpublished : FindingLedger :=
  @operate noDoubles { limits := {} } (.evaluate requiring {} ⟨1⟩ ⟨1⟩ ⟨1⟩)

/-- The target is evaluated again. -/
def reevaluate : Operation := .evaluate requiring {} ⟨1⟩ ⟨1⟩ ⟨2⟩

/-- An operator suppresses the first finding before. -/
def silence : Operation :=
  .suppress (unpublished.findings.keys.headD default) ⟨ascii "me"⟩ (ascii "known") none ⟨1⟩

end Sample

theorem FindingLedger.detection_undisturbed_silenced :
    (Run.exec (@operate Sample.noDoubles) Sample.unpublished
        [Sample.silence, Sample.reevaluate]).findings.values.map Finding.state = [.suppressed] ∧
      (Run.exec (@operate Sample.noDoubles) Sample.unpublished [Sample.reevaluate]).findings.values.map
        Finding.state = [.open] ∧
      ∀ id, ((Run.exec (@operate Sample.noDoubles) Sample.unpublished
          [Sample.silence, Sample.reevaluate]).findings.find? id).map Finding.core =
        ((Run.exec (@operate Sample.noDoubles) Sample.unpublished [Sample.reevaluate]).findings.find? id).map
          Finding.core := by
  have hfacts : (Run.exec (@operate Sample.noDoubles) Sample.unpublished
        [Sample.silence, Sample.reevaluate]).findings.values.map Finding.state = [.suppressed] ∧
      (Run.exec (@operate Sample.noDoubles) Sample.unpublished [Sample.reevaluate]).findings.values.map
        Finding.state = [.open] := by decide +kernel
  exact ⟨hfacts.1, hfacts.2, (@FindingLedger.detection_undisturbed Sample.noDoubles Sample.unpublished
    [Sample.silence, Sample.reevaluate] [Sample.reevaluate] rfl).2.2.2⟩

end DriftObservatory
