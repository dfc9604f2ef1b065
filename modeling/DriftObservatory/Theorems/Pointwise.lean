import DriftObservatory.Theorems.Phases
import DriftObservatory.Lib.Run

/-! Applying an evaluation finding by finding: what the drafts, the settling and the group refresh of a target make
    of one finding and its streak, from that finding and the drafts alone. -/

namespace DriftObservatory

namespace FindingLedger

section Target
variable [DoubleChars]

/-! ### Drafts -/

/-- A finding and its streak. -/
def part (L : FindingLedger) (id : FindingId) : Option Finding × Option Nat :=
  (L.findings.find? id, L.resolutionStreak.find? id)

/-- The finding under a drafted identity. -/
def draftedFinding (limits : RuntimeLimits) (outcome : EvaluationOutcome) (policy : ObservatoryPolicy) (now : NdoTime)
    (freshness : FreshnessState) (id : FindingId) (draft : FindingDraft) : Option Finding → Finding
  | none => (createFinding limits outcome policy now freshness id draft).1
  | some before => (updateFinding limits outcome policy now freshness draft before).1

/-- The streak under a drafted identity. -/
def draftedStreak : Option Finding → Option Nat → Option Nat
  | none, streak => streak
  | some _, _ => some 0

variable {outcome : EvaluationOutcome} {policy : ObservatoryPolicy} {now : NdoTime} {L : FindingLedger}
  {e : TargetEvaluation} {id : FindingId}

omit [DoubleChars] in
theorem find?_of_part {M : FindingLedger} (h : M.part id = L.part id) : M.findings.find? id = L.findings.find? id :=
  congrArg Prod.fst h

omit [DoubleChars] in
theorem streak_of_part {M : FindingLedger} (h : M.part id = L.part id) :
    M.resolutionStreak.find? id = L.resolutionStreak.find? id := congrArg Prod.snd h

theorem DraftStep.limits {freshness : FreshnessState} {draft : FindingDraft} {M : FindingLedger}
    (h : DraftStep outcome policy now freshness L id draft M) : M.limits = L.limits := by
  cases h with
  | created hf => rfl
  | updated before hf => exact limits_appendAll

theorem DraftStep.part_self {freshness : FreshnessState} {draft : FindingDraft} {M : FindingLedger}
    (h : DraftStep outcome policy now freshness L id draft M) :
    M.part id = (some (draftedFinding L.limits outcome policy now freshness id draft (L.part id).1),
      draftedStreak (L.part id).1 (L.part id).2) := by
  cases h with
  | created hf =>
    simp only [part, hf, appendTimeline, OrdMap.find?_insert_self]
    rfl
  | updated before hf =>
    simp only [part, hf, findings_appendAll, resolutionStreak_appendAll, OrdMap.find?_insert_self]
    rfl

theorem DraftStep.part_other {freshness : FreshnessState} {draft : FindingDraft} {M : FindingLedger} {k : FindingId}
    (h : DraftStep outcome policy now freshness L id draft M) (hne : id ≠ k) : M.part k = L.part k := by
  cases h with
  | created hf => simp only [part, appendTimeline, OrdMap.find?_insert_of_ne hne]
  | updated before hf =>
    simp only [part, findings_appendAll, resolutionStreak_appendAll, OrdMap.find?_insert_of_ne hne]

/-- A drafted identity has the finding of its draft, every other identity what it had. -/
theorem part_drafted :
    (∀ d, (draftMap e.drafts).find? id = some d → (L.drafted outcome policy now e).part id =
      (some (draftedFinding L.limits outcome policy now e.bestFreshness id d (L.findings.find? id)),
        draftedStreak (L.findings.find? id) (L.resolutionStreak.find? id))) ∧
    ((draftMap e.drafts).find? id = none → (L.drafted outcome policy now e).part id = L.part id) := by
  have hrun := @Run.exec_part (FindingLedger × LedgerApplyReport) (FindingId × FindingDraft) FindingId _
    (applyDraft outcome policy now e.bestFreshness) Prod.fst (fun acc => acc.1.part) (fun acc => acc.1.limits = L.limits)
    (fun entry p => (some (draftedFinding L.limits outcome policy now e.bestFreshness entry.1 entry.2 p.1),
      draftedStreak p.1 p.2)) (draftMap e.drafts).entries
    (fun acc entry _ h => (applyDraft_step acc.1 acc.2 entry).limits.trans h)
    (fun acc entry _ h => h ▸ (applyDraft_step acc.1 acc.2 entry).part_self)
    (fun acc entry k hne => (applyDraft_step acc.1 acc.2 entry).part_other hne) (L, {}) rfl
    (draftMap e.drafts).nodup_keys
  refine ⟨fun d hd => hrun.1 (id, d) (OrdMap.mem_entries_iff.mpr hd), fun hnone => hrun.2 id ?_⟩
  rw [show (draftMap e.drafts).entries.map Prod.fst = (draftMap e.drafts).keys from rfl, OrdMap.mem_keys,
    OrdMap.contains_iff, hnone]
  rintro ⟨_, h⟩
  cases h

/-! ### Undrafted findings -/

/-- Whether settling ends an undrafted finding that has agreed `streak` times, seen from the ledger after the drafts. -/
def ends (D : FindingLedger) (outcome : EvaluationOutcome) (drafts : OrdMap FindingId FindingDraft) (streak : Nat)
    (f : Finding) : Bool :=
  D.reclassified drafts f || decide (requiredConfirmations outcome ≤ streak)

/-- What settling makes of it. -/
def settledFinding (D : FindingLedger) (outcome : EvaluationOutcome) (now : NdoTime)
    (drafts : OrdMap FindingId FindingDraft) (streak : Nat) (f : Finding) : Finding :=
  if D.reclassified drafts f then (supersedeFinding now f).1
  else if requiredConfirmations outcome ≤ streak then (resolveFinding D.limits now streak f).1
  else { f with resolutionConfirmations := streak }

/-- The finding and the streak after settling. -/
def settledPart (D : FindingLedger) (outcome : EvaluationOutcome) (now : NdoTime) (decidable : Bool)
    (drafts : OrdMap FindingId FindingDraft) : Option Finding × Option Nat → Option Finding × Option Nat
  | (none, streak) => (none, streak)
  | (some f, streak) =>
    if decidable then
      (some (D.settledFinding outcome now drafts (streak.getD 0 + 1) f),
        if D.reclassified drafts f then streak else some (streak.getD 0 + 1))
    else (some f, streak)

/-- The group an ended finding leaves. -/
def settledDrops (D : FindingLedger) (outcome : EvaluationOutcome) (decidable : Bool)
    (drafts : OrdMap FindingId FindingDraft) : Option Finding × Option Nat → List GroupId
  | (none, _) => []
  | (some f, streak) => if decidable && D.ends outcome drafts (streak.getD 0 + 1) f then groupOf f else []

variable {decidable : Bool} {drafts : OrdMap FindingId FindingDraft} {M D : FindingLedger} {drops : List GroupId}

theorem SettleStep.limits (h : SettleStep outcome now decidable drafts L id M drops) : M.limits = L.limits := by
  cases h <;> rfl

theorem SettleStep.part_other {k : FindingId} (h : SettleStep outcome now decidable drafts L id M drops)
    (hne : id ≠ k) : M.part k = L.part k := by
  cases h <;> simp only [part, appendTimeline, OrdMap.find?_insert_of_ne hne]

omit [DoubleChars] in
theorem reclassified_congr {f : Finding} (h : ∀ k ∈ drafts.keys, L.findings.find? k = D.findings.find? k) :
    L.reclassified drafts f = D.reclassified drafts f := by
  unfold reclassified
  rw [Bool.eq_iff_iff, List.any_eq_true, List.any_eq_true]
  refine exists_congr fun k => and_congr_right fun hk => ?_
  rw [h k hk]

/-- What a round of the loop reads outside its own finding: the limits and the drafted findings. -/
structure SettleFrame (D : FindingLedger) (drafts : OrdMap FindingId FindingDraft) (L : FindingLedger) : Prop where
  limits : L.limits = D.limits
  drafted : ∀ k ∈ drafts.keys, L.findings.find? k = D.findings.find? k

theorem SettleStep.frame (h : SettleStep outcome now decidable drafts L id M drops) (hid : drafts.contains id = false)
    (hf : SettleFrame D drafts L) : SettleFrame D drafts M := by
  refine ⟨h.limits.trans hf.limits, fun k hk => ?_⟩
  have hne : id ≠ k := by
    rintro rfl
    rw [OrdMap.mem_keys, hid] at hk
    cases hk
  rw [← hf.drafted k hk]
  exact congrArg Prod.fst (h.part_other hne)

theorem SettleStep.part_self (h : SettleStep outcome now decidable drafts L id M drops)
    (hf : SettleFrame D drafts L) : M.part id = D.settledPart outcome now decidable drafts (L.part id) ∧
      drops = D.settledDrops outcome decidable drafts (L.part id) := by
  have hr : ∀ f, L.reclassified drafts f = D.reclassified drafts f := fun f => reclassified_congr hf.drafted
  cases h with
  | skipped hs =>
    rcases hs with hnone | rfl
    · simp only [part, hnone, settledPart, settledDrops, and_self]
    · cases hfind : L.findings.find? id <;>
        simp [part, hfind, settledPart, settledDrops]
  | superseded f hfind hd hre =>
    rw [hr] at hre
    simp [part, hfind, hd, hre, appendTimeline, settledPart, settledDrops, settledFinding, ends]
  | resolved f hfind hd hre hs =>
    rw [hr] at hre
    simp only [nextStreak] at hs
    simp [part, hfind, hd, hre, appendTimeline, settledPart, settledDrops, settledFinding, ends, nextStreak, hs,
      hf.limits]
  | waiting f hfind hd hre hs =>
    rw [hr] at hre
    have hs' := not_le.mpr hs
    simp only [nextStreak] at hs'
    simp [part, hfind, hd, hre, settledPart, settledDrops, settledFinding, ends, nextStreak, hs']

omit [DoubleChars] in
theorem nodup_undrafted {target : TargetId} : ((L.undrafted target drafts).map fun k => k).Nodup := by
  rw [List.map_id']
  exact L.findings.nodup_keys.sublist (List.filter_sublist.map Prod.fst)

section Loop
variable {target : TargetId}

theorem settle_frame {pass : SettlePass} : ∀ k ∈ D.undrafted target drafts, SettleFrame D drafts pass.ledger →
    SettleFrame D drafts (settleFinding outcome now decidable drafts pass k).ledger := by
  intro k hk h
  obtain ⟨_, -, -, -, hnone⟩ := mem_undrafted.mp hk
  obtain ⟨drops, -, hstep⟩ := @settleFinding_step _ outcome now decidable drafts pass k
  exact hstep.frame (OrdMap.contains_eq_false_iff.mpr hnone) h

theorem settle_other {pass : SettlePass} {k k' : FindingId} (hne : k ≠ k') :
    (settleFinding outcome now decidable drafts pass k).ledger.part k' = pass.ledger.part k' := by
  obtain ⟨drops, -, hstep⟩ := @settleFinding_step _ outcome now decidable drafts pass k
  exact hstep.part_other hne

theorem settle_self {pass : SettlePass} {k : FindingId} (h : SettleFrame D drafts pass.ledger) :
    (settleFinding outcome now decidable drafts pass k).ledger.part k =
        D.settledPart outcome now decidable drafts (pass.ledger.part k) ∧
      (settleFinding outcome now decidable drafts pass k).drops =
        pass.drops ++ D.settledDrops outcome decidable drafts (pass.ledger.part k) := by
  obtain ⟨drops, hdrops, hstep⟩ := @settleFinding_step _ outcome now decidable drafts pass k
  obtain ⟨hpart, rfl⟩ := hstep.part_self h
  exact ⟨hpart, hdrops⟩

/-- Settling owns the undrafted live findings of the target and leaves all others as they are. -/
theorem part_settleUndrafted :
    (id ∈ D.undrafted target drafts → (settleUndrafted outcome now decidable target drafts D {}).ledger.part id =
      D.settledPart outcome now decidable drafts (D.part id)) ∧
    (id ∉ D.undrafted target drafts →
      (settleUndrafted outcome now decidable target drafts D {}).ledger.part id = D.part id) := by
  have hrun := @Run.exec_part SettlePass FindingId FindingId _ (settleFinding outcome now decidable drafts)
    (fun k => k) (fun pass => pass.ledger.part) (fun pass => SettleFrame D drafts pass.ledger)
    (fun _ => D.settledPart outcome now decidable drafts) (D.undrafted target drafts)
    (fun _ k hk => settle_frame k hk) (fun _ k _ h => (settle_self h).1) (fun _ k k' hne => settle_other hne)
    { ledger := D, report := {} } ⟨rfl, fun _ _ => rfl⟩ nodup_undrafted
  rw [List.map_id'] at hrun
  exact ⟨hrun.1 id, hrun.2 id⟩

theorem drops_settleUndrafted : (settleUndrafted outcome now decidable target drafts D {}).drops =
    (D.undrafted target drafts).flatMap fun id => D.settledDrops outcome decidable drafts (D.part id) := by
  have hrun := @Run.exec_output SettlePass FindingId FindingId _ GroupId (settleFinding outcome now decidable drafts)
    (fun k => k) (fun pass => pass.ledger.part) (fun pass => SettleFrame D drafts pass.ledger)
    (D.undrafted target drafts) SettlePass.drops (fun _ => D.settledDrops outcome decidable drafts)
    (fun _ k hk => settle_frame k hk) (fun _ k _ h => (settle_self h).2) (fun _ k k' hne => settle_other hne)
    { ledger := D, report := {} } ⟨rfl, fun _ _ => rfl⟩ nodup_undrafted
  rw [List.nil_append] at hrun
  exact hrun

end Loop

/-! ### What an evaluation does not touch -/

/-- The ledgers have the same limits, baselines and windows. -/
structure SameGround (L M : FindingLedger) : Prop where
  limits : M.limits = L.limits
  baselines : M.baselines = L.baselines
  windows : M.windows = L.windows

omit [DoubleChars] in
theorem SameGround.refl (L : FindingLedger) : SameGround L L := ⟨rfl, rfl, rfl⟩

omit [DoubleChars] in
theorem SameGround.trans {N : FindingLedger} (h : SameGround L M) (h' : SameGround M N) : SameGround L N :=
  ⟨h'.limits.trans h.limits, h'.baselines.trans h.baselines, h'.windows.trans h.windows⟩

omit [DoubleChars] in
theorem SameGround.appendAll {entries : List TimelineEntry} (h : SameGround L M) :
    SameGround L (M.appendAll entries) := by
  obtain ⟨log, heq⟩ := appendAll_eq entries M
  rw [heq]
  exact ⟨h.limits, h.baselines, h.windows⟩

omit [DoubleChars] in
theorem SameGround.sweep {step : Finding → Finding × List TimelineEntry} (h : SameGround L M) :
    SameGround L (M.sweep step) :=
  SameGround.appendAll ⟨h.limits, h.baselines, h.windows⟩

/-- The ledgers differ in findings, streaks and timeline only. -/
def Restated (L M : FindingLedger) : Prop := ∃ findings streak sequence log,
  M = { L with
    findings := findings, resolutionStreak := streak, timelineSequence := sequence, globalTimeline := log }

omit [DoubleChars] in
theorem Restated.trans {N : FindingLedger} (h : Restated L M) (h' : Restated M N) : Restated L N := by
  obtain ⟨_, _, _, _, rfl⟩ := h
  obtain ⟨findings, streak, sequence, log, rfl⟩ := h'
  exact ⟨findings, streak, sequence, log, rfl⟩

omit [DoubleChars] in
theorem Restated.ground (h : Restated L M) : SameGround L M := by
  obtain ⟨_, _, _, _, rfl⟩ := h
  exact ⟨rfl, rfl, rfl⟩

theorem DraftStep.restated {freshness : FreshnessState} {draft : FindingDraft}
    (h : DraftStep outcome policy now freshness L id draft M) : Restated L M := by
  cases h with
  | created hf => exact ⟨_, _, _, _, rfl⟩
  | updated before hf =>
    obtain ⟨log, heq⟩ := appendAll_eq (updateFinding L.limits outcome policy now freshness draft before).2
      { L with
        findings := L.findings.insert id (updateFinding L.limits outcome policy now freshness draft before).1
        resolutionStreak := L.resolutionStreak.insert id 0 }
    exact ⟨_, _, _, _, heq⟩

theorem SettleStep.restated (h : SettleStep outcome now decidable drafts L id M drops) : Restated L M := by
  cases h <;> exact ⟨_, _, _, _, rfl⟩

theorem restated_drafted : Restated L (L.drafted outcome policy now e) :=
  @Run.always _ _ (applyDraft outcome policy now e.bestFreshness) (fun acc => Restated L acc.1)
    (fun acc entry h => h.trans (applyDraft_step acc.1 acc.2 entry).restated) (draftMap e.drafts).entries (L, {})
    ⟨_, _, _, _, rfl⟩

theorem restated_settleUndrafted {target : TargetId} :
    Restated D (settleUndrafted outcome now decidable target drafts D {}).ledger := by
  refine @Run.always SettlePass _ (settleFinding outcome now decidable drafts)
    (fun pass => Restated D pass.ledger) (fun pass k h => ?_) _ _ ⟨_, _, _, _, rfl⟩
  obtain ⟨drops, -, hstep⟩ := @settleFinding_step _ outcome now decidable drafts pass k
  exact h.trans hstep.restated

theorem restated_settling : Restated L (L.settling outcome policy now e).ledger :=
  restated_drafted.trans restated_settleUndrafted

/-- The ledgers differ in findings, streaks, groups and timeline only. -/
def Reapplied (L M : FindingLedger) : Prop := ∃ findings streak sequence log groups,
  M = { L with
    findings := findings, resolutionStreak := streak, timelineSequence := sequence, globalTimeline := log
    groups := groups }

theorem reapplied_applyTarget {report : LedgerApplyReport} :
    Reapplied L (applyTarget outcome policy now L report e).2.1 := by
  obtain ⟨findings, streak, sequence, log, hs⟩ := @restated_settling _ outcome policy now L e
  rcases applyTarget_spec L report e with ⟨-, -, h⟩ | ⟨-, -, h⟩
  · rw [h, afterTarget, hs]
    unfold regrouped sweep
    dsimp only
    obtain ⟨log', heq⟩ := appendAll_eq _ _
    rw [heq]
    exact ⟨_, _, _, _, _, rfl⟩
  · generalize (applyTarget outcome policy now L report e).2.1 = M at h
    rw [hs] at h
    cases h with
    | refused => exact ⟨_, _, _, _, _, rfl⟩

omit [DoubleChars] in
theorem Reapplied.ground (h : Reapplied L M) : SameGround L M := by
  obtain ⟨_, _, _, _, _, rfl⟩ := h
  exact ⟨rfl, rfl, rfl⟩

theorem ground_applyTarget {report : LedgerApplyReport} :
    SameGround L (applyTarget outcome policy now L report e).2.1 := reapplied_applyTarget.ground

theorem applyTargets_rule {P : FindingLedger → Prop} : ∀ {targets : List TargetEvaluation},
    (∀ M report, ∀ e ∈ targets, P M → P (applyTarget outcome policy now M report e).2.1) →
    ∀ {L : FindingLedger} {report : LedgerApplyReport}, P L → P (applyTargets outcome policy now targets L report).2.1
  | [], _, _, _, h => h
  | e :: rest, hstep, L, report, h => by
    have hone := hstep L report e List.mem_cons_self h
    rcases happly : applyTarget outcome policy now L report e with ⟨status, M, report'⟩
    rw [happly] at hone
    simp only [applyTargets, happly]
    split
    · exact hone
    · exact applyTargets_rule (fun M report e' he' => hstep M report e' (List.mem_cons_of_mem e he')) hone

/-- What every accepted target and the closing expiry keep, an evaluation keeps. -/
theorem applyEvaluation_rule {P : FindingLedger → Prop}
    (hstep : ∀ M report, ∀ e ∈ outcome.targets, L.accepts e = true → P M →
      P (applyTarget outcome policy now M report e).2.1)
    (hexpire : ∀ M, P M → P (M.expireSuppressions now).bumpRevision.trimTimelineIfNeeded) (h : P L) :
    P (L.applyEvaluation outcome policy now).2.1 := by
  have htargets := @applyTargets_rule _ outcome policy now P (outcome.targets.filter L.accepts)
    (fun M report e he => hstep M report e (List.mem_of_mem_filter he) (List.of_mem_filter he)) L
    { fencedTargets := outcome.targets.length - (outcome.targets.filter L.accepts).length } h
  rcases happly : applyTargets outcome policy now (outcome.targets.filter L.accepts) L
    { fencedTargets := outcome.targets.length - (outcome.targets.filter L.accepts).length } with ⟨status, M, report⟩
  rw [happly] at htargets
  simp only [applyEvaluation, happly]
  split
  · exact h
  · split
    · exact htargets
    · exact hexpire M htargets

theorem ground_applyEvaluation : SameGround L (L.applyEvaluation outcome policy now).2.1 := by
  refine applyEvaluation_rule (fun M report e _ _ h => h.trans ground_applyTarget) (fun M h => ?_) (SameGround.refl L)
  have hs := @SameGround.sweep L M (expireFinding M.limits now) h
  unfold expireSuppressions
  dsimp only
  split <;> exact ⟨hs.limits, hs.baselines, hs.windows⟩

/-- What every target keeps and one target establishes, a completed loop has. -/
theorem applyTargets_established {Q : FindingLedger → Prop} {targets : List TargetEvaluation} {e : TargetEvaluation}
    (hkeep : ∀ M report, ∀ e ∈ targets, Q M → Q (applyTarget outcome policy now M report e).2.1) (he : e ∈ targets)
    (hset : ∀ M report, Q (applyTarget outcome policy now M report e).2.1) {report : LedgerApplyReport}
    (hok : (applyTargets outcome policy now targets L report).1.ok = true) :
    Q (applyTargets outcome policy now targets L report).2.1 := by
  induction targets generalizing L report with
  | nil => exact absurd he List.not_mem_nil
  | cons first rest ih =>
    have hkeep' := fun M report e (he : e ∈ rest) => hkeep M report e (List.mem_cons_of_mem first he)
    rcases happly : applyTarget outcome policy now L report first with ⟨status, M, report'⟩
    simp only [applyTargets, happly] at hok ⊢
    split at hok
    · rename_i hbad
      rw [hok] at hbad
      cases hbad
    · rename_i hgood
      rw [if_neg hgood]
      rcases List.mem_cons.mp he with rfl | he
      · have hone := hset L report
        rw [happly] at hone
        exact applyTargets_rule hkeep' hone
      · exact ih hkeep' he hok

theorem applyEvaluation_established {Q : FindingLedger → Prop}
    (hkeep : ∀ M report, ∀ e ∈ outcome.targets, Q M → Q (applyTarget outcome policy now M report e).2.1)
    (he : e ∈ outcome.targets) (hacc : L.accepts e = true)
    (hset : ∀ M report, Q (applyTarget outcome policy now M report e).2.1)
    (hexpire : ∀ M, Q M → Q (M.expireSuppressions now).bumpRevision.trimTimelineIfNeeded)
    (hok : (L.applyEvaluation outcome policy now).1.ok = true) : Q (L.applyEvaluation outcome policy now).2.1 := by
  have htargets := @applyTargets_established _ outcome policy now L Q (outcome.targets.filter L.accepts) e
    (fun M report e he => hkeep M report e (List.mem_of_mem_filter he)) (List.mem_filter.mpr ⟨he, hacc⟩) hset
    { fencedTargets := outcome.targets.length - (outcome.targets.filter L.accepts).length }
  rcases happly : applyTargets outcome policy now (outcome.targets.filter L.accepts) L
    { fencedTargets := outcome.targets.length - (outcome.targets.filter L.accepts).length } with ⟨status, M, report⟩
  rw [happly] at htargets
  simp only [applyEvaluation, happly] at hok ⊢
  split at hok
  · cases hok
  · rename_i hroom
    rw [if_neg hroom]
    split at hok
    · rename_i hbad
      rw [hok] at hbad
      cases hbad
    · rename_i hgood
      rw [if_neg hgood]
      exact hexpire M (htargets (by simpa using hgood))

/-! ### One finding -/

/-- What the drafts and the settling of a target make of the finding under an identity. -/
inductive FindingStep (outcome : EvaluationOutcome) (policy : ObservatoryPolicy) (now : NdoTime) (L : FindingLedger)
    (e : TargetEvaluation) (id : FindingId) : Option Finding → Finding → Prop
  | drafted (before : Option Finding) (d : FindingDraft) (hd : d ∈ e.drafts) (hid : d.identity.computeId = id) :
      FindingStep outcome policy now L e id before
        (draftedFinding L.limits outcome policy now e.bestFreshness id d before)
  | kept (f : Finding) (hd : (draftMap e.drafts).find? id = none) : FindingStep outcome policy now L e id (some f) f
  | settled (f : Finding) (hd : (draftMap e.drafts).find? id = none) (ht : f.identity.target = e.target)
      (hl : f.isLive = true) (hdec : e.complianceDecidable = true) :
      FindingStep outcome policy now L e id (some f)
        ((L.drafted outcome policy now e).settledFinding outcome now (draftMap e.drafts) (L.nextStreak id) f)

/-- The finding and the streak under an identity once the drafts are applied and the other findings settled. -/
theorem part_settling :
    (∀ d, (draftMap e.drafts).find? id = some d → (L.settling outcome policy now e).ledger.part id =
      (some (draftedFinding L.limits outcome policy now e.bestFreshness id d (L.findings.find? id)),
        draftedStreak (L.findings.find? id) (L.resolutionStreak.find? id))) ∧
    ((draftMap e.drafts).find? id = none →
      (L.settling outcome policy now e).ledger.part id = L.part id ∨
      ∃ f, L.findings.find? id = some f ∧ f.identity.target = e.target ∧ f.isLive = true ∧
        e.complianceDecidable = true ∧
        (L.settling outcome policy now e).ledger.part id =
          (some ((L.drafted outcome policy now e).settledFinding outcome now (draftMap e.drafts) (L.nextStreak id) f),
            if (L.drafted outcome policy now e).reclassified (draftMap e.drafts) f then L.resolutionStreak.find? id
            else some (L.nextStreak id))) := by
  obtain ⟨hset, hskip⟩ := @part_settleUndrafted _ outcome now id e.complianceDecidable (draftMap e.drafts)
    (L.drafted outcome policy now e) e.target
  obtain ⟨hdrafted, hfresh⟩ := @part_drafted _ outcome policy now L e id
  unfold settling
  refine ⟨fun d hd => ?_, fun hnone => ?_⟩
  · have hmem : id ∉ (L.drafted outcome policy now e).undrafted e.target (draftMap e.drafts) := fun hmem => by
      obtain ⟨_, -, -, -, hnone⟩ := mem_undrafted.mp hmem
      rw [hd] at hnone
      cases hnone
    rw [hskip hmem, hdrafted d hd]
  · have hsame := hfresh hnone
    by_cases hmem : id ∈ (L.drafted outcome policy now e).undrafted e.target (draftMap e.drafts)
    · obtain ⟨f, hf, ht, hl, -⟩ := mem_undrafted.mp hmem
      have hfind : L.findings.find? id = some f := (congrArg Prod.fst hsame).symm.trans hf
      rw [hset hmem, hsame]
      cases hdec : e.complianceDecidable with
      | false =>
        left
        rw [part, hfind]
        rfl
      | true =>
        refine .inr ⟨f, hfind, ht, hl, rfl, ?_⟩
        rw [part, hfind]
        rfl
    · exact .inl (by rw [hskip hmem, hsame])

theorem find?_settling {f : Finding} (h : (L.settling outcome policy now e).ledger.findings.find? id = some f) :
    FindingStep outcome policy now L e id (L.findings.find? id) f := by
  obtain ⟨hdrafted, hrest⟩ := @part_settling _ outcome policy now L e id
  have hpart : ((L.settling outcome policy now e).ledger.part id).1 = some f := h
  cases hd : (draftMap e.drafts).find? id with
  | some d =>
    rw [hdrafted d hd] at hpart
    obtain rfl := Option.some.inj hpart
    obtain ⟨hin, hid⟩ := mem_of_find?_draftMap hd
    exact .drafted _ d hin hid
  | none =>
    rcases hrest hd with hsame | ⟨g, hg, ht, hl, hdec, hset⟩
    · rw [hsame] at hpart
      rw [show L.findings.find? id = some f from hpart]
      exact .kept f hd
    · rw [hset] at hpart
      obtain rfl := Option.some.inj hpart
      rw [hg]
      exact .settled g hd ht hl hdec

/-- The group refresh is refused and changes no finding, or gives each finding the group of its bucket. -/
theorem find?_applyTarget_group {report : LedgerApplyReport} : ∃ g : Finding → Finding,
    ((∀ f, g f = f) ∨ (L.settling outcome policy now e).ledger.RoomForGroups e.target ∧ ∀ f, g f = (assignGroup e.target now
      (assignments ((L.settling outcome policy now e).ledger.bucketGroups e.target)) f).1) ∧
    ∀ id, (applyTarget outcome policy now L report e).2.1.findings.find? id =
      ((L.settling outcome policy now e).ledger.findings.find? id).map g := by
  rcases applyTarget_spec L report e with ⟨hroom, -, h⟩ | ⟨-, -, h⟩
  · refine ⟨fun f => (assignGroup e.target now (assignments ((L.settling outcome policy now e).ledger.bucketGroups
      e.target)) f).1, .inr ⟨hroom, fun f => rfl⟩, fun id => ?_⟩
    rw [h, afterTarget]
    generalize (L.settling outcome policy now e).ledger = M
    have hfindings : (M.regrouped e.target now).findings =
        M.findings.mapValues fun _ f => (assignGroup e.target now (assignments (M.bucketGroups e.target)) f).1 := by
      unfold regrouped sweep
      exact findings_appendAll
    show (M.regrouped e.target now).findings.find? id = _
    rw [hfindings, OrdMap.find?_mapValues]
  · refine ⟨fun f => f, .inl fun f => rfl, fun id => ?_⟩
    generalize (applyTarget outcome policy now L report e).2.1 = N at h
    cases h with
    | refused => exact Option.map_id'.symm

/-- The group refresh gives or takes a group and changes no other finding. -/
theorem find?_applyTarget_eq {report : LedgerApplyReport} : ∃ g : Finding → Finding,
    (∀ f, g f = f ∨ ∃ assignment, g f = (assignGroup e.target now assignment f).1) ∧
    ∀ id, (applyTarget outcome policy now L report e).2.1.findings.find? id =
      ((L.settling outcome policy now e).ledger.findings.find? id).map g := by
  obtain ⟨g, hg, hfind⟩ := @find?_applyTarget_group _ outcome policy now L e report
  refine ⟨g, fun f => ?_, hfind⟩
  rcases hg with hsame | ⟨-, hassign⟩
  · exact .inl (hsame f)
  · exact .inr ⟨_, hassign f⟩

theorem find?_applyTarget {report : LedgerApplyReport} {f' : Finding}
    (h : (applyTarget outcome policy now L report e).2.1.findings.find? id = some f') : ∃ f,
    FindingStep outcome policy now L e id (L.findings.find? id) f ∧
      (f' = f ∨ ∃ assignment, f' = (assignGroup e.target now assignment f).1) := by
  obtain ⟨g, hg, hfind⟩ := @find?_applyTarget_eq _ outcome policy now L e report
  rw [hfind] at h
  obtain ⟨f, hf, rfl⟩ := Option.map_eq_some_iff.mp h
  exact ⟨f, find?_settling hf, hg f⟩

/-- Every draft has its finding afterwards, and no finding is forgotten. -/
theorem contains_applyTarget {report : LedgerApplyReport}
    (h : (draftMap e.drafts).contains id = true ∨ L.findings.contains id = true) :
    (applyTarget outcome policy now L report e).2.1.findings.contains id = true := by
  obtain ⟨g, -, hfind⟩ := @find?_applyTarget_eq _ outcome policy now L e report
  obtain ⟨hset, hskip⟩ := @part_settleUndrafted _ outcome now id e.complianceDecidable (draftMap e.drafts)
    (L.drafted outcome policy now e) e.target
  obtain ⟨hdrafted, hfresh⟩ := @part_drafted _ outcome policy now L e id
  suffices hsome : ((L.settling outcome policy now e).ledger.part id).1.isSome = true by
    rw [OrdMap.contains, hfind, Option.isSome_map]
    exact hsome
  unfold settling
  by_cases hmem : id ∈ (L.drafted outcome policy now e).undrafted e.target (draftMap e.drafts)
  · obtain ⟨f, hf, -, -, -⟩ := mem_undrafted.mp hmem
    rw [hset hmem, part, hf, settledPart]
    split <;> rfl
  · rw [hskip hmem]
    cases hd : (draftMap e.drafts).find? id with
    | some d => rw [hdrafted d hd]; rfl
    | none =>
      rw [hfresh hd]
      rw [OrdMap.contains, hd] at h
      exact h.resolve_left (by simp)

/-- The closing expiry lifts suppressions and changes no other finding. -/
theorem find?_expireSuppressions : (L.expireSuppressions now).bumpRevision.trimTimelineIfNeeded.findings.find? id =
    (L.findings.find? id).map fun f => (expireFinding L.limits now f).1 := by
  have hsweep : (L.sweep (expireFinding L.limits now)).findings.find? id =
      (L.findings.find? id).map fun f => (expireFinding L.limits now f).1 := by
    rw [sweep, findings_appendAll, OrdMap.find?_mapValues]
  unfold expireSuppressions
  dsimp only
  split <;> exact hsweep

end Target

end FindingLedger

end DriftObservatory
