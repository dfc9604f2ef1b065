import DriftObservatory.Lib.Run
import DriftObservatory.Theorems.Envelope
import DriftObservatory.Theorems.Newest
import DriftObservatory.Theorems.Parallel

/-! An observation that comes late, behind a newer one of its source, changes nothing in a run of the ledger but the
    retained evidence itself and the traces of the evaluations. -/

namespace DriftObservatory

open Json

namespace FindingLedger

open Ascending

/-! ### The ledger without its evidence -/

/-- What of a ledger is neither its evidence nor its revision. -/
def unwitnessed (L : FindingLedger) : FindingLedger := { L with windows := ∅, revision := 0 }

section Unwitnessed
variable {L M : FindingLedger} {outcome : EvaluationOutcome} {policy : ObservatoryPolicy} {now : NdoTime}

@[simp] theorem unwitnessed_bumpRevision : L.bumpRevision.unwitnessed = L.unwitnessed := rfl

theorem unwitnessed_appendAll {entries : List TimelineEntry} :
    (L.appendAll entries).unwitnessed = L.unwitnessed.appendAll entries := by
  unfold appendAll
  induction entries generalizing L with
  | nil => rfl
  | cons entry rest ih => exact ih

theorem unwitnessed_trimTimelineIfNeeded : L.trimTimelineIfNeeded.unwitnessed = L.unwitnessed.trimTimelineIfNeeded := rfl

theorem unwitnessed_dropGroups {ids : List GroupId} : (L.dropGroups ids).unwitnessed = L.unwitnessed.dropGroups ids := rfl

theorem unwitnessed_sweep {step : Finding → Finding × List TimelineEntry} :
    (L.sweep step).unwitnessed = L.unwitnessed.sweep step :=
  unwitnessed_appendAll

theorem unwitnessed_applyDraft [DoubleChars] {freshness : FreshnessState} {acc : FindingLedger × LedgerApplyReport}
    {entry : FindingId × FindingDraft} : applyDraft outcome policy now freshness (acc.1.unwitnessed, acc.2) entry =
      ((applyDraft outcome policy now freshness acc entry).1.unwitnessed,
        (applyDraft outcome policy now freshness acc entry).2) := by
  obtain ⟨L, report⟩ := acc
  obtain ⟨id, draft⟩ := entry
  have hfindings : L.unwitnessed.findings = L.findings := rfl
  unfold applyDraft
  dsimp only
  rw [hfindings]
  cases L.findings.find? id with
  | none => rfl
  | some before =>
    dsimp only
    rw [unwitnessed_appendAll]
    rfl

theorem unwitnessed_applyDrafts [DoubleChars] {freshness : FreshnessState} {drafts : OrdMap FindingId FindingDraft}
    {report : LedgerApplyReport} : applyDrafts outcome policy now freshness drafts L.unwitnessed report =
      ((applyDrafts outcome policy now freshness drafts L report).1.unwitnessed,
        (applyDrafts outcome policy now freshness drafts L report).2) := by
  unfold applyDrafts
  suffices h : ∀ (entries : List (FindingId × FindingDraft)) (acc : FindingLedger × LedgerApplyReport),
      entries.foldl (applyDraft outcome policy now freshness) (acc.1.unwitnessed, acc.2) =
        ((entries.foldl (applyDraft outcome policy now freshness) acc).1.unwitnessed,
          (entries.foldl (applyDraft outcome policy now freshness) acc).2) from h _ (L, report)
  intro entries
  induction entries with
  | nil => exact fun _ => rfl
  | cons entry rest ih =>
    intro acc
    rw [List.foldl_cons, List.foldl_cons, unwitnessed_applyDraft]
    exact ih _

theorem unwitnessed_refreshGroups {target : TargetId} {report : LedgerApplyReport} :
    L.unwitnessed.refreshGroups target now report = ((L.refreshGroups target now report).1,
      (L.refreshGroups target now report).2.1.unwitnessed, (L.refreshGroups target now report).2.2) := by
  have hbuckets : L.unwitnessed.bucketGroups target = L.bucketGroups target := rfl
  unfold refreshGroups
  rw [hbuckets]
  have hsame : refreshBuckets L.unwitnessed.limits target now (L.bucketGroups target) { groups := L.unwitnessed.groups } =
    refreshBuckets L.limits target now (L.bucketGroups target) { groups := L.groups } := rfl
  rw [hsame]
  rcases refreshBuckets L.limits target now (L.bucketGroups target) { groups := L.groups } with ⟨done, pass⟩
  dsimp only
  split_ifs
  · rfl
  · have hfilter : ∀ (N : FindingLedger) (keep : GroupId → RootCauseGroup → Bool),
        FindingLedger.unwitnessed { N with groups := N.groups.filter keep } =
          { N.unwitnessed with groups := N.unwitnessed.groups.filter keep } := fun _ _ => rfl
    rw [hfilter, unwitnessed_sweep]
    rfl

variable [DoubleChars]

def SettlePass.unwitnessed (pass : SettlePass) : SettlePass := { pass with ledger := pass.ledger.unwitnessed }

theorem unwitnessed_settleFinding {decidable : Bool} {drafts : OrdMap FindingId FindingDraft} {pass : SettlePass}
    {id : FindingId} : settleFinding outcome now decidable drafts (SettlePass.unwitnessed pass) id =
      SettlePass.unwitnessed (settleFinding outcome now decidable drafts pass id) := by
  have hfindings : (SettlePass.unwitnessed pass).ledger.findings = pass.ledger.findings := rfl
  have hreclassified : ∀ f, (SettlePass.unwitnessed pass).ledger.reclassified drafts f = pass.ledger.reclassified drafts f :=
    fun _ => rfl
  unfold settleFinding
  dsimp only
  rw [hfindings]
  cases pass.ledger.findings.find? id with
  | none => rfl
  | some f =>
    dsimp only
    rw [hreclassified]
    have hstreak : (SettlePass.unwitnessed pass).ledger.resolutionStreak = pass.ledger.resolutionStreak := rfl
    rw [hstreak]
    split_ifs <;> rfl

theorem unwitnessed_settleUndrafted {decidable : Bool} {target : TargetId} {drafts : OrdMap FindingId FindingDraft}
    {report : LedgerApplyReport} : settleUndrafted outcome now decidable target drafts L.unwitnessed report =
      (settleUndrafted outcome now decidable target drafts L report).unwitnessed := by
  have hundrafted : L.unwitnessed.undrafted target drafts = L.undrafted target drafts := rfl
  unfold settleUndrafted
  rw [hundrafted]
  show List.foldl _ (SettlePass.unwitnessed { ledger := L, report := report }) _ = _
  exact List.foldl_hom SettlePass.unwitnessed fun _ _ => unwitnessed_settleFinding

theorem unwitnessed_applyTarget {e : TargetEvaluation} {report : LedgerApplyReport} :
    applyTarget outcome policy now L.unwitnessed report e = ((applyTarget outcome policy now L report e).1,
      (applyTarget outcome policy now L report e).2.1.unwitnessed, (applyTarget outcome policy now L report e).2.2) := by
  unfold applyTarget
  dsimp only
  rw [unwitnessed_applyDrafts]
  generalize applyDrafts outcome policy now e.bestFreshness (draftMap e.drafts) L report = drafted
  obtain ⟨M, report⟩ := drafted
  dsimp only
  rw [unwitnessed_settleUndrafted]
  generalize settleUndrafted outcome now e.complianceDecidable e.target (draftMap e.drafts) M report = pass
  obtain ⟨N, report, drops⟩ := pass
  unfold SettlePass.unwitnessed
  dsimp only
  rw [unwitnessed_refreshGroups]
  generalize N.refreshGroups e.target now report = refreshed
  obtain ⟨status, N, report⟩ := refreshed
  dsimp only
  split_ifs <;> rfl

theorem unwitnessed_applyTargets : ∀ {targets : List TargetEvaluation} {L : FindingLedger} {report : LedgerApplyReport},
    applyTargets outcome policy now targets L.unwitnessed report =
      ((applyTargets outcome policy now targets L report).1,
        (applyTargets outcome policy now targets L report).2.1.unwitnessed,
        (applyTargets outcome policy now targets L report).2.2)
  | [], _, _ => rfl
  | e :: rest, L, report => by
    rw [applyTargets, unwitnessed_applyTarget, applyTargets]
    rcases applyTarget outcome policy now L report e with ⟨status, M, report'⟩
    dsimp only
    split_ifs
    · rfl
    · exact unwitnessed_applyTargets

theorem unwitnessed_expireSuppressions :
    (L.expireSuppressions now).unwitnessed = (L.unwitnessed.expireSuppressions now).unwitnessed := by
  have hswept : ∀ N : FindingLedger, (N.expireSuppressions now).unwitnessed =
      { N.unwitnessed.sweep (expireFinding N.limits now) with
        suppressionsActive := N.suppressionsActive - N.findings.values.countP (suppressionExpires now)
        suppressionsExpired := N.suppressionsExpired + N.findings.values.countP (suppressionExpires now) } := fun N => by
    rw [← unwitnessed_sweep]
    unfold expireSuppressions
    dsimp only
    split_ifs <;> rfl
  rw [hswept, hswept]
  rfl

theorem unwitnessed_applyEvaluation :
    (L.applyEvaluation outcome policy now).2.1.unwitnessed =
      (L.unwitnessed.applyEvaluation outcome policy now).2.1.unwitnessed := by
  have haccepts : L.unwitnessed.accepts = L.accepts := rfl
  have hnew : L.unwitnessed.newFindings outcome.targets = L.newFindings outcome.targets := rfl
  have hlimits : L.unwitnessed.limits = L.limits := rfl
  have hfindings : L.unwitnessed.findings = L.findings := rfl
  have hends : ∀ N : FindingLedger, N.unwitnessed.unwitnessed = N.unwitnessed := fun _ => rfl
  have hclosing : ∀ N : FindingLedger, ((N.expireSuppressions now).bumpRevision.trimTimelineIfNeeded).unwitnessed =
      ((N.unwitnessed.expireSuppressions now).bumpRevision.trimTimelineIfNeeded).unwitnessed := fun N => by
    rw [unwitnessed_trimTimelineIfNeeded, unwitnessed_bumpRevision, unwitnessed_expireSuppressions,
      unwitnessed_trimTimelineIfNeeded, unwitnessed_bumpRevision]
  unfold applyEvaluation
  rw [haccepts, hnew, hlimits, hfindings]
  dsimp only
  rw [unwitnessed_applyTargets]
  generalize applyTargets outcome policy now (outcome.targets.filter L.accepts) L
    { fencedTargets := outcome.targets.length - (outcome.targets.filter L.accepts).length } = applied
  obtain ⟨status, M, report⟩ := applied
  dsimp only
  split_ifs
  · rfl
  · rfl
  · exact hclosing M

theorem unwitnessed_rebaseFindingsForTarget {baseline : IntentBaseline} {target : TargetId}
    {generation : IntentGeneration} {report : IntentCommitReport} :
    L.unwitnessed.rebaseFindingsForTarget baseline target generation now report =
      ((L.rebaseFindingsForTarget baseline target generation now report).1.unwitnessed,
        (L.rebaseFindingsForTarget baseline target generation now report).2) := by
  unfold rebaseFindingsForTarget
  dsimp only
  rw [unwitnessed_dropGroups, unwitnessed_sweep]
  rfl

theorem unwitnessed_commitIntent {document : IntentGenerationDocument} :
    (L.commitIntent document now).2.1.unwitnessed = (L.unwitnessed.commitIntent document now).2.1.unwitnessed := by
  have hlimits : L.unwitnessed.limits = L.limits := rfl
  have hbaselines : L.unwitnessed.baselines = L.baselines := rfl
  have hfind : L.unwitnessed.findBaseline document.target = L.findBaseline document.target := rfl
  unfold commitIntent
  rw [hlimits, hfind, hbaselines]
  cases L.findBaseline document.target with
  | none =>
    dsimp only
    split_ifs <;> rfl
  | some existing =>
    dsimp only
    split_ifs
    · rfl
    · rfl
    · rfl
    · rfl
    · rfl
    · have hrebase := fun baselines => @unwitnessed_rebaseFindingsForTarget { L with baselines := baselines } now _
        (baselineOf document now) document.target document.generation
        { target := document.target, previousGeneration := existing.generation
          committedGeneration := document.generation, epoch := document.epoch }
      dsimp only [unwitnessed] at hrebase ⊢
      rw [hrebase]
      rfl

theorem unwitnessed_operator {op : Operation} (hop : op.isOperator = true) :
    (L.operate op).unwitnessed = (L.unwitnessed.operate op).unwitnessed := by
  have hfind : ∀ id, L.unwitnessed.findings.find? id = L.findings.find? id := fun _ => rfl
  cases op with
  | suppress id actor reason expiresAt now =>
    simp only [operate, suppress, hfind]
    cases L.findings.find? id with
    | none => rfl
    | some f =>
      dsimp only
      cases StringId.tryParse (ascii "suppression/" ++ (toHex f.id.digest.bytes).take 24) with
      | none => split_ifs <;> rfl
      | some sid =>
        dsimp only
        have hactive : L.unwitnessed.suppressionsActive = L.suppressionsActive := rfl
        have hlimits : L.unwitnessed.limits = L.limits := rfl
        rw [hactive, hlimits]
        split_ifs <;> rfl
  | clearSuppression id actor now =>
    simp only [operate, FindingLedger.clearSuppression, hfind]
    cases L.findings.find? id with
    | none => rfl
    | some f =>
      dsimp only
      split_ifs <;> rfl
  | acknowledge id actor reason now =>
    simp only [operate, acknowledge, hfind]
    cases L.findings.find? id with
    | none => rfl
    | some f =>
      dsimp only
      split_ifs <;> rfl
  | clearAcknowledgement id actor now =>
    simp only [operate, clearAcknowledgement, hfind]
    cases L.findings.find? id with
    | none => rfl
    | some f =>
      dsimp only
      split_ifs <;> rfl
  | expireSuppressions now => exact unwitnessed_expireSuppressions
  | _ => cases hop

end Unwitnessed

/-! ### Ledgers with the same newest observations -/

/-- The ledgers agree but for what their windows keep behind the newest observations. -/
structure Level (L M : FindingLedger) : Prop where
  settled : M.unwitnessed = L.unwitnessed
  newest : ∀ key, M.newestOf key = L.newestOf key
  kept : ∃ admitted, L.WindowsKept admitted
  kept' : ∃ admitted, M.WindowsKept admitted

section Level
variable {L M : FindingLedger} {admitted : List ObservationSnapshot} {key : SourceWindowKey} {target : TargetId}
  {snapshot : ObservationSnapshot} {judged : FreshnessVerdict} {recovered : Bool}

theorem getLast?_windowFor : (L.windowFor snapshot).getLast? = L.newestOf snapshot.windowOf := by
  unfold windowFor newestOf
  cases L.windows.find? snapshot.windowOf <;> rfl

theorem Level.limits (h : Level L M) : M.limits = L.limits := (FindingLedger.mk.inj h.settled).1

theorem Level.baselines (h : Level L M) : M.baselines = L.baselines := (FindingLedger.mk.inj h.settled).2.2.2.1

/-- Whether an observation is admitted, and what is reported, the newest observation decides. -/
theorem Level.admission (h : Level L M) :
    (M.recordObservation snapshot judged recovered).1 = (L.recordObservation snapshot judged recovered).1 ∧
      (M.recordObservation snapshot judged recovered).2.2 = (L.recordObservation snapshot judged recovered).2.2 := by
  have hlast : ((M.windows.find? ⟨snapshot.target, snapshot.source⟩).getD []).getLast? =
      ((L.windows.find? ⟨snapshot.target, snapshot.source⟩).getD []).getLast? :=
    getLast?_windowFor.trans ((h.newest _).trans getLast?_windowFor.symm)
  unfold FindingLedger.recordObservation
  dsimp only
  rw [h.limits, hlast]
  split_ifs
  · exact ⟨rfl, rfl⟩
  · cases ((L.windows.find? ⟨snapshot.target, snapshot.source⟩).getD []).getLast? with
    | none => exact ⟨rfl, rfl⟩
    | some newest =>
      dsimp only
      generalize fenceObservation newest.snapshot snapshot _ = decision
      cases decision <;> exact ⟨rfl, rfl⟩

/-- The newest observation of a window once an observation is recorded. -/
theorem newestOf_recordObservation (hL : L.WindowsKept admitted) :
    (L.recordObservation snapshot judged recovered).2.1.newestOf key =
      if (L.admission (.operate (.recordObservation snapshot judged recovered))).isSome ∧ snapshot.windowOf = key ∧
          (L.newestOf key).all fun newest => newest.windowKey < snapshot.windowKey then
        some ⟨snapshot, judged, recovered⟩
      else L.newestOf key := by
  rcases @recordObservation_spec L snapshot judged recovered with ⟨hsame, hdup⟩ | ⟨hok, hdup, hnew, hledger⟩
  · have hnone : L.admission (.operate (.recordObservation snapshot judged recovered)) = none := by
      rw [admission]
      refine if_neg fun hboth => ?_
      rw [Bool.and_eq_true, Bool.not_eq_true'] at hboth
      rw [hdup hboth.1] at hboth
      cases hboth.2
    rw [hsame, hnone, if_neg fun hboth => Bool.false_ne_true hboth.1]
  · have hsome : L.admission (.operate (.recordObservation snapshot judged recovered)) = some snapshot := by
      rw [admission, hok, hdup]
      rfl
    rw [hsome, hledger]
    by_cases hkey : snapshot.windowOf = key
    swap
    · rw [if_neg fun hboth => hkey hboth.2.1]
      simp only [newestOf, bumpRevision, OrdMap.find?_insert_of_ne hkey]
    subst hkey
    simp only [newestOf, bumpRevision, OrdMap.find?_insert_self, Option.bind_some, Option.isSome_some, true_and]
    obtain ⟨record, hrecord⟩ : ∃ record : RetainedObservation, record = ⟨snapshot, judged, recovered⟩ := ⟨_, rfl⟩
    have hrecordKey : record.windowKey = snapshot.windowKey := by rw [hrecord]; rfl
    rw [← hrecord, ← hrecordKey]
    cases hfind : L.windows.find? snapshot.windowOf with
    | none =>
      have hwindow : boundWindow L.limits.maxRetainedSnapshotsPerSource (insertLower olderThan record []) = [record] :=
        if_neg (not_lt.mpr hL.retains)
      rw [windowFor, hfind, Option.getD_none, hwindow]
      rfl
    | some window =>
      obtain ⟨front, newest, rfl, hpeaked⟩ := hL.peaks.peaked _ window hfind
      have hbounded := (hL.kept _ _ hfind).bounded
      have hlast : L.newestOf snapshot.windowOf = some newest := by
        rw [newestOf, hfind]
        exact getLast?_concat
      have hne := hnew newest (getLast?_windowFor.trans hlast)
      rw [← hrecordKey] at hne
      rw [windowFor, hfind, Option.getD_some, Option.bind_some, getLast?_concat]
      rcases lt_or_gt_of_ne hne with hbelow | habove
      · obtain ⟨front', hwindow, -⟩ := @boundWindow_eq _ (insertLower olderThan record front) newest hL.retains
          (by rw [length_insertLower]; rw [List.length_append, List.length_singleton] at hbounded; exact hbounded)
        rw [insertLower_of_below olderThan_iff hbelow, hwindow, getLast?_concat, Option.all_some,
          if_neg fun hall => lt_asymm hbelow (of_decide_eq_true hall)]
      · obtain ⟨front', hwindow, -⟩ := @boundWindow_eq _ (front ++ [newest]) record hL.retains hbounded
        rw [insertLower_of_above olderThan_iff hpeaked habove, hwindow, getLast?_concat, Option.all_some,
          if_pos (decide_eq_true habove)]

theorem unwitnessed_recordObservation :
    (L.recordObservation snapshot judged recovered).2.1.unwitnessed = L.unwitnessed := by
  rcases @recordObservation_spec L snapshot judged recovered with ⟨hsame, -⟩ | ⟨-, -, -, hledger⟩
  · rw [hsame]
  · rw [hledger]
    rfl

theorem unwitnessed_invalidateRetainedEvidence {reason : ReasonCode} {now : NdoTime} :
    (L.invalidateRetainedEvidence reason now).unwitnessed = L.unwitnessed := by
  unfold invalidateRetainedEvidence
  dsimp only
  split_ifs <;> rfl

theorem newestOf_invalidateRetainedEvidence {reason : ReasonCode} {now : NdoTime} :
    (L.invalidateRetainedEvidence reason now).newestOf key = (L.newestOf key).map (invalidate reason now) := by
  rw [newestOf, windows_invalidateRetainedEvidence, OrdMap.find?_mapValues, newestOf]
  cases L.windows.find? key with
  | none => rfl
  | some window => exact List.getLast?_map

theorem newestOf_congr (h : M.windows = L.windows) : M.newestOf key = L.newestOf key := by
  rw [newestOf, newestOf, h]

/-- The targets of an evaluation. -/
theorem Level.evaluationTargets (h : Level L M) {policy : ObservatoryPolicy} :
    Observatory.evaluationTargets policy M = Observatory.evaluationTargets policy L := by
  obtain ⟨admitted, hL⟩ := h.kept
  obtain ⟨admitted', hM⟩ := h.kept'
  have hwindow : ∀ {N : FindingLedger} {admitted : List ObservationSnapshot}, N.WindowsKept admitted →
      ∀ key, (∃ window, N.windows.find? key = some window) ↔ ∃ newest, N.newestOf key = some newest := by
    intro N admitted hN key
    constructor
    · rintro ⟨window, hfind⟩
      obtain ⟨front, newest, rfl, hpeaked⟩ := hN.peaks.peaked key window hfind
      exact ⟨newest, hN.peaks.newestOf_eq_some.mpr ⟨front, hfind, hpeaked⟩⟩
    · rintro ⟨newest, hnewest⟩
      obtain ⟨front, hfind, -⟩ := hN.peaks.newestOf_eq_some.mp hnewest
      exact ⟨_, hfind⟩
  refine Observatory.sorted_evaluationTargets.eq_of_mem_iff Observatory.sorted_evaluationTargets fun target => ?_
  rw [Observatory.mem_evaluationTargets, Observatory.mem_evaluationTargets, mem_targets, mem_targets, findBaseline,
    findBaseline, h.baselines]
  refine or_congr_left (or_congr_right (exists_congr fun key => ?_))
  rw [exists_and_right, exists_and_right, hwindow hM, hwindow hL, h.newest]

/-- The outcome of an evaluation without the traces of the comparisons. -/
def untracedOutcome (outcome : EvaluationOutcome) : EvaluationOutcome :=
  { outcome with targets := outcome.targets.map TargetEvaluation.untraced }

theorem Level.evaluateLedgerOnce (h : Level L M) {policy : ObservatoryPolicy} {limits : RuntimeLimits}
    {epoch : FabricEpoch} {incarnation : Incarnation} {now : NdoTime} :
    (M.evaluateLedgerOnce policy limits epoch incarnation now).map untracedOutcome =
      (L.evaluateLedgerOnce policy limits epoch incarnation now).map untracedOutcome := by
  obtain ⟨admitted, hL⟩ := h.kept
  obtain ⟨admitted', hM⟩ := h.kept'
  unfold FindingLedger.evaluateLedgerOnce
  dsimp only
  rw [h.evaluationTargets]
  split_ifs
  · rfl
  · simp only [Except.map, untracedOutcome, List.map_map]
    congr 2
    refine List.map_congr_left fun target _ => ?_
    exact (indistinct_of_newest hL.peaks hM.peaks h.newest h.baselines).2 policy limits

theorem applyDrafts_untraced [DoubleChars] {outcome : EvaluationOutcome} {policy : ObservatoryPolicy} {now : NdoTime} :
    applyDrafts (untracedOutcome outcome) policy now = applyDrafts outcome policy now := by
  have hcreate : ∀ limits, createFinding limits (untracedOutcome outcome) = createFinding limits outcome := fun _ => rfl
  have hupdate : ∀ limits, updateFinding limits (untracedOutcome outcome) = updateFinding limits outcome := fun _ => rfl
  have hdraft : applyDraft (untracedOutcome outcome) policy now = applyDraft outcome policy now := by
    funext freshness acc entry
    unfold applyDraft
    simp only [hcreate, hupdate]
  funext freshness drafts L report
  unfold applyDrafts
  rw [hdraft]

theorem applyTarget_untraced [DoubleChars] {outcome : EvaluationOutcome} {policy : ObservatoryPolicy} {now : NdoTime}
    {report : LedgerApplyReport} {e : TargetEvaluation} :
    applyTarget (untracedOutcome outcome) policy now L report e.untraced =
      applyTarget outcome policy now L report e := by
  have hsettle : settleUndrafted (untracedOutcome outcome) now = settleUndrafted outcome now := rfl
  have hdrafts : e.untraced.drafts = e.drafts := rfl
  have hfreshness : e.untraced.bestFreshness = e.bestFreshness := rfl
  have hdecidable : e.untraced.complianceDecidable = e.complianceDecidable := rfl
  have htarget : e.untraced.target = e.target := rfl
  unfold applyTarget
  rw [applyDrafts_untraced, hsettle, hdrafts, hfreshness, hdecidable, htarget]

/-- The ledger does not read the traces. -/
theorem applyEvaluation_untraced [DoubleChars] {outcome : EvaluationOutcome} {policy : ObservatoryPolicy}
    {now : NdoTime} : L.applyEvaluation (untracedOutcome outcome) policy now = L.applyEvaluation outcome policy now := by
  have haccepts : L.accepts ∘ TargetEvaluation.untraced = L.accepts := rfl
  have hfilter : (outcome.targets.map TargetEvaluation.untraced).filter L.accepts =
      (outcome.targets.filter L.accepts).map TargetEvaluation.untraced := by
    rw [List.filter_map, haccepts]
  have htargets : ∀ (targets : List TargetEvaluation) (N : FindingLedger) (report : LedgerApplyReport),
      applyTargets (untracedOutcome outcome) policy now (targets.map TargetEvaluation.untraced) N report =
        applyTargets outcome policy now targets N report := by
    intro targets
    induction targets with
    | nil => exact fun _ _ => rfl
    | cons e rest ih =>
      intro N report
      rw [List.map_cons, applyTargets, applyTargets, applyTarget_untraced]
      simp only [ih]
  have hnew : L.newFindings (outcome.targets.map TargetEvaluation.untraced) = L.newFindings outcome.targets := by
    rw [newFindings, newFindings, hfilter, List.map_map]
    rfl
  have hlisted : (untracedOutcome outcome).targets = outcome.targets.map TargetEvaluation.untraced := rfl
  unfold applyEvaluation
  rw [hlisted, hfilter, hnew]
  simp only [htargets, List.length_map]

theorem unwitnessed_eq_of {f : FindingLedger → FindingLedger}
    (hf : ∀ N : FindingLedger, (f N).unwitnessed = (f N.unwitnessed).unwitnessed) (h : M.unwitnessed = L.unwitnessed) :
    (f M).unwitnessed = (f L).unwitnessed := by
  rw [hf M, h, ← hf L]

theorem Level.evaluateAndApply [DoubleChars] (h : Level L M) {policy : ObservatoryPolicy} {limits : RuntimeLimits}
    {epoch : FabricEpoch} {incarnation : Incarnation} {now : NdoTime} :
    (M.evaluateAndApply policy limits epoch incarnation now).unwitnessed =
      (L.evaluateAndApply policy limits epoch incarnation now).unwitnessed := by
  have houtcome := @Level.evaluateLedgerOnce _ _ h policy limits epoch incarnation now
  unfold FindingLedger.evaluateAndApply
  generalize M.evaluateLedgerOnce policy limits epoch incarnation now = there at houtcome ⊢
  generalize L.evaluateLedgerOnce policy limits epoch incarnation now = here at houtcome ⊢
  cases there with
  | error status =>
    cases here with
    | error status' => exact h.settled
    | ok outcome => cases houtcome
  | ok outcome' =>
    cases here with
    | error status => cases houtcome
    | ok outcome =>
      have hsame : untracedOutcome outcome' = untracedOutcome outcome := Except.ok.inj houtcome
      dsimp only
      rw [← applyEvaluation_untraced, hsame, applyEvaluation_untraced]
      exact unwitnessed_eq_of (f := fun N => (N.applyEvaluation outcome policy now).2.1)
        (fun _ => unwitnessed_applyEvaluation) h.settled

variable [DoubleChars] [LawfulDoubleChars]

theorem WindowsKept.operate (h : L.WindowsKept admitted) {op : Operation} : ∃ admitted', (L.operate op).WindowsKept admitted' :=
  ⟨_, @windowsKept_advance _ _ _ _ (.operate op) h trivial⟩

/-- Every operation keeps the ledgers level. -/
theorem Level.operate (h : Level L M) {op : Operation} : Level (L.operate op) (M.operate op) := by
  obtain ⟨admitted, hL⟩ := h.kept
  obtain ⟨admitted', hM⟩ := h.kept'
  have hframe : ∀ {op : Operation}, (∀ snapshot verdict recovered, op ≠ .recordObservation snapshot verdict recovered) →
      (∀ reason now, op ≠ .invalidateRetainedEvidence reason now) →
      (M.operate op).unwitnessed = (L.operate op).unwitnessed → Level (L.operate op) (M.operate op) := by
    intro op hrecord hinvalidate hsettled
    refine ⟨hsettled, fun key => ?_, hL.operate, hM.operate⟩
    rw [newestOf_congr (windows_operate hrecord hinvalidate), newestOf_congr (windows_operate hrecord hinvalidate),
      h.newest]
  have hoperator : ∀ op : Operation, op.isOperator = true → (M.operate op).unwitnessed = (L.operate op).unwitnessed :=
    fun op hop => unwitnessed_eq_of (f := fun N => N.operate op) (fun _ => unwitnessed_operator hop) h.settled
  cases op with
  | recordObservation snapshot judged recovered =>
    refine ⟨?_, fun key => ?_, hL.operate, hM.operate⟩
    · exact unwitnessed_recordObservation.trans (h.settled.trans unwitnessed_recordObservation.symm)
    · obtain ⟨hstatus, hreport⟩ := @Level.admission _ _ snapshot judged recovered h
      have hadmission : M.admission (.operate (.recordObservation snapshot judged recovered)) =
          L.admission (.operate (.recordObservation snapshot judged recovered)) := by
        rw [FindingLedger.admission, FindingLedger.admission, hstatus, hreport]
      have hnewest := @newestOf_recordObservation M admitted' key snapshot judged recovered hM
      rw [hadmission, h.newest] at hnewest
      exact hnewest.trans (newestOf_recordObservation hL).symm
  | invalidateRetainedEvidence reason now =>
    refine ⟨?_, fun key => ?_, hL.operate, hM.operate⟩
    · exact unwitnessed_invalidateRetainedEvidence.trans
        (h.settled.trans unwitnessed_invalidateRetainedEvidence.symm)
    · exact newestOf_invalidateRetainedEvidence.trans
        ((congrArg _ (h.newest key)).trans newestOf_invalidateRetainedEvidence.symm)
  | commitIntent document now =>
    exact hframe (fun _ _ _ heq => by cases heq) (fun _ _ heq => by cases heq)
      (unwitnessed_eq_of (f := fun N => (N.commitIntent document now).2.1) (fun _ => unwitnessed_commitIntent) h.settled)
  | evaluate policy limits epoch incarnation now =>
    exact hframe (fun _ _ _ heq => by cases heq) (fun _ _ heq => by cases heq) h.evaluateAndApply
  | applyEvaluation outcome policy now =>
    exact hframe (fun _ _ _ heq => by cases heq) (fun _ _ heq => by cases heq)
      (unwitnessed_eq_of (f := fun N => (N.applyEvaluation outcome policy now).2.1)
        (fun _ => unwitnessed_applyEvaluation) h.settled)
  | recordEvent entry =>
    exact hframe (fun _ _ _ heq => by cases heq) (fun _ _ heq => by cases heq)
      (unwitnessed_eq_of (f := fun N => N.recordEvent entry) (fun _ => rfl) h.settled)
  | _ => exact hframe (fun _ _ _ heq => by cases heq) (fun _ _ heq => by cases heq) (hoperator _ rfl)

/-! ### Late observations -/

/-- The operation records an observation that is older than the newest one of its window. -/
def late (L : FindingLedger) : Operation → Bool
  | .recordObservation snapshot _ _ => (L.newestOf snapshot.windowOf).any fun newest => snapshot.windowKey < newest.windowKey
  | _ => false

theorem Level.late (h : Level L M) {op : Operation} (hlate : L.late op = true) : Level (L.operate op) M := by
  obtain ⟨admitted, hL⟩ := h.kept
  cases op with
  | recordObservation snapshot judged recovered =>
    obtain ⟨newest, hnewest, hbelow⟩ := (Option.any_eq_true _ _).mp hlate
    refine ⟨h.settled.trans unwitnessed_recordObservation.symm, fun key => ?_, hL.operate, h.kept'⟩
    rw [h.newest]
    refine ((newestOf_recordObservation hL).trans (if_neg ?_)).symm
    rintro ⟨-, rfl, habove⟩
    rw [hnewest, Option.all_some] at habove
    exact lt_asymm (of_decide_eq_true hbelow) (of_decide_eq_true habove)
  | _ => cases hlate

omit [DoubleChars] [LawfulDoubleChars] in
theorem WindowsKept.newestOnly (h : L.WindowsKept admitted) : L.newestOnly.WindowsKept admitted := by
  refine ⟨h.retains, fun key window hfind => ?_, fun key hfind => ?_⟩
  · rw [FindingLedger.newestOnly, OrdMap.find?_mapValues] at hfind
    obtain ⟨before, hbefore, rfl⟩ := Option.map_eq_some_iff.mp hfind
    have hkept := h.kept key before hbefore
    obtain ⟨front, newest, rfl, -, hrecalled, hgreatest⟩ := hkept.newest
    rw [getLast?_concat]
    refine ⟨fun o ho => ?_, h.retains, [], newest, rfl,
      ⟨List.Pairwise.nil, fun o ho => absurd ho List.not_mem_nil⟩, hrecalled, hgreatest⟩
    rw [List.mem_singleton.mp ho]
    exact hkept.placed newest (List.mem_append_right _ List.mem_cons_self)
  · rw [FindingLedger.newestOnly, OrdMap.find?_mapValues, Option.map_eq_none_iff] at hfind
    exact h.absent key hfind

end Level

/-- In every run of a ledger, whatever its life before, the late observations and all that its windows keep behind the
    newest observations can be left out: the outcomes of the evaluations are the same but for their traces, and so is
    the ledger but for its evidence, of which the newest of each source is the same. -/
theorem late_observations_silent [DoubleChars] [LawfulDoubleChars] {limits : RuntimeLimits}
    (hlimits : 1 ≤ limits.maxRetainedSnapshotsPerSource) {steps : List LedgerStep} (h : ∀ step ∈ steps, Retains step)
    (L : FindingLedger) (hL : L = Run.exec advance { limits := limits } steps) (ops : List Operation) :
    (Run.outputs operate outcomeOf L ops).map (Except.map untracedOutcome) =
        (Run.outputs operate outcomeOf L.newestOnly (Run.audible operate late L ops)).map (Except.map untracedOutcome) ∧
      (Run.exec operate L.newestOnly (Run.audible operate late L ops)).unwitnessed =
        (Run.exec operate L ops).unwitnessed ∧
      (∀ key, (Run.exec operate L.newestOnly (Run.audible operate late L ops)).newestOf key =
        (Run.exec operate L ops).newestOf key) ∧
      ∀ policy epoch now target, (Observatory.comparisonInput policy epoch now
          (Run.exec operate L.newestOnly (Run.audible operate late L ops)) target).Indistinct
        (Observatory.comparisonInput policy epoch now (Run.exec operate L ops) target) := by
  have hkept := @Run.invariant_outputs _ _ advance (fun _ step => Retains step) _ admission WindowsKept
    (fun L step out hL hstep => windowsKept_advance hL hstep) steps { limits := limits } []
    ⟨hlimits, fun _ _ hnone => (by cases hnone), fun _ _ _ hs => absurd hs List.not_mem_nil⟩
    (Run.permits_of_mem fun step hstep _ => h step hstep)
  rw [← hL] at hkept
  have hlevel : Level L L.newestOnly := ⟨rfl, fun _ => newestOf_newestOnly, ⟨_, hkept⟩, ⟨_, hkept.newestOnly⟩⟩
  have hsilent : ∀ L M op, Level L M → L.late op = true → Level (L.operate op) M := fun _ _ _ h hlate => h.late hlate
  have hstep : ∀ L M op, Level L M → Level (L.operate op) (M.operate op) := fun _ _ _ h => h.operate
  have hend := @Run.audible_related _ _ _ _ _ hsilent hstep ops _ _ hlevel
  obtain ⟨_, hfull⟩ := hend.kept
  obtain ⟨_, hpruned⟩ := hend.kept'
  refine ⟨Run.outputs_audible hsilent hstep (fun L op hlate => ?_) (fun L M op h => ?_) hlevel, hend.settled, hend.newest,
    fun policy epoch now target =>
      (indistinct_of_newest hfull.peaks hpruned.peaks hend.newest hend.baselines).1⟩
  · cases op with
    | recordObservation => rfl
    | _ => cases hlate
  · cases op with
    | evaluate policy limits epoch incarnation now => exact congrArg some h.evaluateLedgerOnce.symm
    | _ => rfl

end FindingLedger

namespace Sample
open FindingLedger

/-- The newer of two observations came first. -/
def ahead : FindingLedger := Run.exec (@advance bitDoubles) { limits := {} } [observe 2]

/-- The older observation comes, and the ledger is evaluated. -/
def belated : List Operation := [.recordObservation (empty 1) {} false, .evaluate requiring {} ⟨1⟩ ⟨1⟩ ⟨1⟩]

end Sample

theorem FindingLedger.late_observations_silent_belated :
    (Run.audible (@operate Sample.bitDoubles) late Sample.ahead Sample.belated).length = 1 ∧
      (Run.exec (@operate Sample.bitDoubles) Sample.ahead.newestOnly
          (Run.audible (@operate Sample.bitDoubles) late Sample.ahead Sample.belated)).unwitnessed =
        (Run.exec (@operate Sample.bitDoubles) Sample.ahead Sample.belated).unwitnessed :=
  ⟨by decide +kernel, (@late_observations_silent Sample.bitDoubles Sample.lawful_bitDoubles {} (by decide) [Sample.observe 2]
    (fun step hstep => by
      rw [List.mem_singleton.mp hstep]
      exact trivial) Sample.ahead rfl Sample.belated).2.1⟩

end DriftObservatory
