import DriftObservatory.Theorems.Confirmation
import DriftObservatory.Theorems.Recovery

/-! Invariants over the life of a ledger: through its operations, through the targets of each evaluation that is
    applied, and through restarts. -/

namespace DriftObservatory

open Json

namespace FindingLedger

section Rounds
variable [DoubleChars]

/-! ### The targets of an evaluation as steps -/

/-- A condition on the targets of an outcome and the ledgers they are applied to. -/
abbrev Rule := EvaluationOutcome → ObservatoryPolicy → NdoTime → FindingLedger → TargetEvaluation → Prop

/-- The ledger after one accepted target of an outcome. -/
def round (outcome : EvaluationOutcome) (policy : ObservatoryPolicy) (now : NdoTime) (L : FindingLedger)
    (e : TargetEvaluation) : FindingLedger := (applyTarget outcome policy now L {} e).2.1

variable {outcome : EvaluationOutcome} {policy : ObservatoryPolicy} {now : NdoTime} {L M : FindingLedger}
  {op : Operation} {allowed : Rule}

theorem applyTarget_round (report : LedgerApplyReport) (e : TargetEvaluation) :
    (applyTarget outcome policy now L report e).2.1 = L.round outcome policy now e := by
  have hrefresh : ∀ (M : FindingLedger) (target : TargetId) (r r' : LedgerApplyReport),
      (M.refreshGroups target now r).1 = (M.refreshGroups target now r').1 ∧
        (M.refreshGroups target now r).2.1 = (M.refreshGroups target now r').2.1 := by
    intro M target r r'
    unfold refreshGroups
    dsimp only
    split <;> exact ⟨rfl, rfl⟩
  obtain ⟨r, hr⟩ := @applyTarget_eq _ outcome policy now L report e
  obtain ⟨r', hr'⟩ := @applyTarget_eq _ outcome policy now L {} e
  obtain ⟨hstatus, hledger⟩ := hrefresh (L.settling outcome policy now e).ledger e.target r r'
  rw [round, hr, hr']
  dsimp only
  rw [hstatus]
  split
  · exact hledger
  · rw [hledger]

/-- The loop over the accepted targets takes the rounds of those it reaches. -/
theorem applyTargets_processed {targets : List TargetEvaluation} {report : LedgerApplyReport} :
    (applyTargets outcome policy now targets L report).2.1 =
      Run.exec (round outcome policy now) L (processed outcome policy now targets L report) := by
  induction targets generalizing L report with
  | nil => rfl
  | cons e rest ih =>
    have hledger := @applyTarget_round _ outcome policy now L report e
    rcases happly : applyTarget outcome policy now L report e with ⟨status, M, report'⟩
    rw [happly] at hledger
    simp only [applyTargets, processed, happly, Run.exec_cons, ← hledger]
    split
    · rfl
    · exact ih

/-- An applied outcome takes the rounds of its evaluations, and then lifts the suppressions that expire unless it was
    refused on the way. -/
theorem applyEvaluation_processed :
    (L.applyEvaluation outcome policy now).2.1 =
        Run.exec (round outcome policy now) L (L.evaluationsOf (.applyEvaluation outcome policy now)) ∨
      (L.applyEvaluation outcome policy now).2.1 = ((Run.exec (round outcome policy now) L
        (L.evaluationsOf (.applyEvaluation outcome policy now))).expireSuppressions now).bumpRevision.trimTimelineIfNeeded := by
  simp only [evaluationsOf, applied]
  split
  · rename_i hfull
    left
    rw [applyEvaluation, if_pos hfull]
    rfl
  · rename_i hroom
    have hrounds := @applyTargets_processed _ outcome policy now L (outcome.targets.filter L.accepts)
      { fencedTargets := outcome.targets.length - (outcome.targets.filter L.accepts).length }
    rcases hloop : applyTargets outcome policy now (outcome.targets.filter L.accepts) L
      { fencedTargets := outcome.targets.length - (outcome.targets.filter L.accepts).length } with ⟨status, M, report⟩
    rw [hloop] at hrounds
    rw [← hrounds]
    simp only [applyEvaluation, if_neg hroom, hloop]
    split
    · exact .inl rfl
    · exact .inr rfl

theorem evaluationsOf_applied (h : L.applied op = some (outcome, policy, now)) :
    L.evaluationsOf op = L.evaluationsOf (.applyEvaluation outcome policy now) := by
  simp only [evaluationsOf, h]
  rfl

/-- Every accepted target that the operation applies is allowed in the ledger it is applied to. -/
def Allows (allowed : Rule) (L : FindingLedger) (op : Operation) : Prop :=
  ∀ outcome policy now, L.applied op = some (outcome, policy, now) →
    Run.Permits (round outcome policy now) (allowed outcome policy now) L (L.evaluationsOf op)

/-- An operation that applies one target at most is judged at the ledger it meets. -/
theorem allows_of_one (hone : (L.evaluationsOf op).length ≤ 1)
    (h : ∀ outcome policy now e, L.applied op = some (outcome, policy, now) → allowed outcome policy now L e) :
    L.Allows allowed op := by
  intro outcome policy now happly
  match hlist : L.evaluationsOf op with
  | [] => exact trivial
  | [e] => exact ⟨h outcome policy now e happly, trivial⟩
  | _ :: _ :: _ =>
    rw [hlist] at hone
    simp at hone

theorem allows_of_applied_none (h : L.applied op = none) : L.Allows allowed op := fun _ _ _ happly => by
  rw [h] at happly
  cases happly

omit [DoubleChars] in
theorem applied_evaluate {limits : RuntimeLimits} {epoch : FabricEpoch} {incarnation : Incarnation}
    {policy' : ObservatoryPolicy} {now' : NdoTime}
    (h : L.applied (.evaluate policy limits epoch incarnation now) = some (outcome, policy', now')) :
    policy' = policy ∧ now' = now := by
  simp only [applied] at h
  split at h
  · cases h
  · simp only [Option.some.injEq, Prod.mk.injEq] at h
    exact ⟨h.2.1.symm, h.2.2.symm⟩

theorem operate_allowed {I : FindingLedger → Prop}
    (hround : ∀ outcome policy now M e, allowed outcome policy now M e → I M → I (M.round outcome policy now e))
    (hexpire : ∀ M now, I M → I (M.expireSuppressions now).bumpRevision.trimTimelineIfNeeded)
    (hother : L.applied op = none → I (L.operate op)) (hop : L.Allows allowed op) (h : I L) : I (L.operate op) := by
  cases happly : L.applied op with
  | none => exact hother happly
  | some applied =>
    obtain ⟨outcome, policy, now⟩ := applied
    have hp := hop outcome policy now happly
    have hrounds : I (Run.exec (round outcome policy now) L (L.evaluationsOf op)) :=
      Run.invariant (fun M e hM he => hround outcome policy now M e he hM) h hp
    rw [evaluationsOf_applied happly] at hrounds
    rw [operate_applied happly]
    rcases @applyEvaluation_processed _ outcome policy now L with hledger | hledger
    · rw [hledger]
      exact hrounds
    · rw [hledger]
      exact hexpire _ now hrounds

variable {e : TargetEvaluation}

theorem processed_of_ok {targets : List TargetEvaluation} {report : LedgerApplyReport}
    (hok : (applyTargets outcome policy now targets L report).1.ok = true) :
    processed outcome policy now targets L report = targets := by
  induction targets generalizing L report with
  | nil => rfl
  | cons e rest ih =>
    rcases happly : applyTarget outcome policy now L report e with ⟨status, M, report'⟩
    simp only [applyTargets, processed, happly] at hok ⊢
    split at hok
    · rename_i hbad
      rw [hok] at hbad
      cases hbad
    · rename_i hgood
      rw [if_neg hgood, ih hok]

/-- An evaluation that succeeds takes its accepted targets one by one, then lifts the suppressions that expire. -/
theorem applyEvaluation_rounds (hok : (L.applyEvaluation outcome policy now).1.ok = true) :
    (L.applyEvaluation outcome policy now).2.1 =
      ((Run.exec (round outcome policy now) L (outcome.targets.filter L.accepts)).expireSuppressions
        now).bumpRevision.trimTimelineIfNeeded := by
  have hrounds := @applyTargets_processed _ outcome policy now L (outcome.targets.filter L.accepts)
    { fencedTargets := outcome.targets.length - (outcome.targets.filter L.accepts).length }
  have hreached := @processed_of_ok _ outcome policy now L (outcome.targets.filter L.accepts)
    { fencedTargets := outcome.targets.length - (outcome.targets.filter L.accepts).length }
  rcases happly : applyTargets outcome policy now (outcome.targets.filter L.accepts) L
    { fencedTargets := outcome.targets.length - (outcome.targets.filter L.accepts).length } with ⟨status, M, report⟩
  rw [happly] at hrounds hreached
  simp only [applyEvaluation, happly] at hok ⊢
  split at hok
  · cases hok
  · rename_i hroom
    rw [if_neg hroom]
    split at hok
    · rename_i hbad
      rw [hok] at hbad
      cases hbad
    · rename_i hgood
      rw [hreached (by simpa using hgood)] at hrounds
      rw [if_neg hgood, ← hrounds]

theorem limits_round : (L.round outcome policy now e).limits = L.limits := by
  rw [round]
  exact ground_applyTarget.limits

theorem limits_rounds {targets : List TargetEvaluation} :
    (Run.exec (round outcome policy now) L targets).limits = L.limits :=
  @Run.always _ _ (round outcome policy now) (fun M => M.limits = L.limits) (fun _ _ h => limits_round.trans h) targets L rfl

theorem streak_round : (L.round outcome policy now e).resolutionStreak =
    (L.settling outcome policy now e).ledger.resolutionStreak := by
  rcases applyTarget_spec L {} e with ⟨-, -, h⟩ | ⟨-, -, h⟩
  · rw [round, h, afterTarget]
    unfold regrouped sweep
    exact resolutionStreak_appendAll
  · rw [round]
    generalize (applyTarget outcome policy now L {} e).2.1 = N at h
    cases h with
    | refused => rfl

/-- A finding and its streak after a round are what settling leaves, under the group of the bucket. -/
theorem find?_round : ∃ g : Finding → Finding,
    (∀ f, g f = f ∨ ∃ assignment, g f = (assignGroup e.target now assignment f).1) ∧
    (∀ id, (L.round outcome policy now e).findings.find? id =
      ((L.settling outcome policy now e).ledger.findings.find? id).map g) ∧
    ∀ id, (L.round outcome policy now e).resolutionStreak.find? id =
      (L.settling outcome policy now e).ledger.resolutionStreak.find? id := by
  obtain ⟨g, hg, hfind⟩ := @find?_applyTarget_eq _ outcome policy now L e {}
  refine ⟨g, hg, fun id => ?_, fun id => ?_⟩
  · rw [round, hfind]
  · rw [streak_round]

/-! ### What operations do not touch -/

theorem ground_expireSuppressions : SameGround L (L.expireSuppressions now) := by
  have hs := @SameGround.sweep L L (expireFinding L.limits now) (SameGround.refl L)
  unfold expireSuppressions
  dsimp only
  split <;> exact ⟨hs.limits, hs.baselines, hs.windows⟩

theorem OperatorStep.ground (h : OperatorStep L op M) : SameGround L M := by
  cases h with
  | refused => exact SameGround.refl L
  | expired now => exact ground_expireSuppressions
  | _ => exact ⟨rfl, rfl, rfl⟩

/-- An operation that neither commits intent nor records observations leaves limits, baselines and windows alone. -/
theorem ground_operate (hop : op.isOperator = true ∨ L.applied op ≠ none) : SameGround L (L.operate op) := by
  rcases hop with hop | hop
  · exact (operator_step hop).ground
  · obtain ⟨⟨outcome, policy, now⟩, happly⟩ := Option.ne_none_iff_exists'.mp hop
    rw [operate_applied happly]
    exact ground_applyEvaluation

theorem CommitStep.ground {document : IntentGenerationDocument} (h : CommitStep L document now M) :
    M.limits = L.limits ∧ M.windows = L.windows := by
  cases h with
  | refused => exact ⟨rfl, rfl⟩
  | first => exact ⟨rfl, rfl⟩
  | advanced event existing hb hnew =>
    exact ⟨(@SameGround.sweep _ _ (rebaseFinding _ _ _ _ _) ⟨rfl, rfl, rfl⟩).limits,
      (@SameGround.sweep _ _ (rebaseFinding _ _ _ _ _) ⟨rfl, rfl, rfl⟩).windows⟩

omit [DoubleChars] in
theorem ground_recordObservation {snapshot : ObservationSnapshot} {verdict : FreshnessVerdict} {recovered : Bool} :
    (L.recordObservation snapshot verdict recovered).2.1.limits = L.limits ∧
      (L.recordObservation snapshot verdict recovered).2.1.baselines = L.baselines := by
  unfold recordObservation
  dsimp only
  split
  · exact ⟨rfl, rfl⟩
  · split <;> exact ⟨rfl, rfl⟩

theorem limits_operate : (L.operate op).limits = L.limits := by
  cases op with
  | commitIntent document now => exact commitIntent_step.ground.1
  | recordObservation => exact ground_recordObservation.1
  | evaluate policy limits epoch incarnation now =>
    simp only [operate, evaluateAndApply]
    split
    · rfl
    · exact ground_applyEvaluation.limits
  | applyEvaluation => exact ground_applyEvaluation.limits
  | invalidateRetainedEvidence =>
    simp only [operate, invalidateRetainedEvidence]
    split_ifs <;> rfl
  | recordEvent => rfl
  | suppress => exact (ground_operate (.inl rfl)).limits
  | clearSuppression => exact (ground_operate (.inl rfl)).limits
  | acknowledge => exact (ground_operate (.inl rfl)).limits
  | clearAcknowledgement => exact (ground_operate (.inl rfl)).limits
  | expireSuppressions => exact (ground_operate (.inl rfl)).limits

theorem baselines_operate (hcommit : ∀ document now, op ≠ .commitIntent document now) :
    (L.operate op).baselines = L.baselines := by
  cases op with
  | commitIntent document now => exact absurd rfl (hcommit document now)
  | recordObservation => exact ground_recordObservation.2
  | evaluate policy limits epoch incarnation now =>
    simp only [operate, evaluateAndApply]
    split
    · rfl
    · exact ground_applyEvaluation.baselines
  | applyEvaluation => exact ground_applyEvaluation.baselines
  | invalidateRetainedEvidence =>
    simp only [operate, invalidateRetainedEvidence]
    split_ifs <;> rfl
  | recordEvent => rfl
  | suppress => exact (ground_operate (.inl rfl)).baselines
  | clearSuppression => exact (ground_operate (.inl rfl)).baselines
  | acknowledge => exact (ground_operate (.inl rfl)).baselines
  | clearAcknowledgement => exact (ground_operate (.inl rfl)).baselines
  | expireSuppressions => exact (ground_operate (.inl rfl)).baselines

theorem windows_operate (hrecord : ∀ snapshot verdict recovered, op ≠ .recordObservation snapshot verdict recovered)
    (hinvalidate : ∀ reason now, op ≠ .invalidateRetainedEvidence reason now) : (L.operate op).windows = L.windows := by
  cases op with
  | commitIntent document now => exact commitIntent_step.ground.2
  | recordObservation snapshot verdict recovered => exact absurd rfl (hrecord snapshot verdict recovered)
  | evaluate policy limits epoch incarnation now =>
    simp only [operate, evaluateAndApply]
    split
    · rfl
    · exact ground_applyEvaluation.windows
  | applyEvaluation => exact ground_applyEvaluation.windows
  | invalidateRetainedEvidence reason now => exact absurd rfl (hinvalidate reason now)
  | recordEvent => rfl
  | suppress => exact (ground_operate (.inl rfl)).windows
  | clearSuppression => exact (ground_operate (.inl rfl)).windows
  | acknowledge => exact (ground_operate (.inl rfl)).windows
  | clearAcknowledgement => exact (ground_operate (.inl rfl)).windows
  | expireSuppressions => exact (ground_operate (.inl rfl)).windows

/-! ### Restarts -/

/-- A restart keeps the ledger, or leaves what its payload is restored as. -/
theorem recover_cases [LawfulDoubleChars] {limits : RuntimeLimits} {epoch liveEpoch : FabricEpoch}
    {incarnation : Incarnation} : L.recover limits epoch incarnation liveEpoch = L ∨
      L.Legible limits ∧ L.recover limits epoch incarnation liveEpoch = L.restored limits := by
  unfold recover
  cases hdecode : decodeLedger limits liveEpoch (L.encodeLedger epoch incarnation) with
  | error => exact .inl rfl
  | ok decoded =>
    obtain ⟨R, report⟩ := decoded
    obtain ⟨⟨-, -, -, -, hlegible⟩, hrestored, -⟩ := decodeLedger_encodeLedger.mp hdecode
    exact .inr ⟨hlegible, hrestored⟩

/-- What allowed targets, expiry, the other operations and recovery keep holds through the life of a ledger. -/
theorem lifetime_invariant [LawfulDoubleChars] {I : FindingLedger → Prop} {steps : List LedgerStep}
    {permitted : FindingLedger → LedgerStep → Prop}
    (hallows : ∀ M op, permitted M (.operate op) → M.Allows allowed op)
    (hround : ∀ outcome policy now M e, allowed outcome policy now M e → I M → I (M.round outcome policy now e))
    (hexpire : ∀ M now, I M → I (M.expireSuppressions now).bumpRevision.trimTimelineIfNeeded)
    (hother : ∀ M op, permitted M (.operate op) → M.applied op = none → I M → I (M.operate op))
    (hrestored : ∀ M limits epoch incarnation liveEpoch, permitted M (.restart limits epoch incarnation liveEpoch) →
      M.Legible limits → I M → I (M.restored limits)) (h : I L)
    (hp : Run.Permits advance permitted L steps) : I (Run.exec advance L steps) := by
  refine Run.invariant (fun M step hM hstep => ?_) h hp
  cases step with
  | operate op =>
    rw [advance]
    exact operate_allowed hround hexpire (fun happly => hother M op hstep happly hM) (hallows M op hstep) hM
  | restart limits epoch incarnation liveEpoch =>
    rw [advance]
    rcases @recover_cases _ M _ limits epoch liveEpoch incarnation with hsame | ⟨hlegible, hrestart⟩
    · rw [hsame]
      exact hM
    · rw [hrestart]
      exact hrestored M limits epoch incarnation liveEpoch hstep hlegible hM

end Rounds

/-- The targets an operation applies are allowed; a restart is free. -/
def Permitted [DoubleChars] (allowed : Rule) (L : FindingLedger) : LedgerStep → Prop
  | .operate op => L.Allows allowed op
  | .restart .. => True

/-! ### What a finding is about -/

/-- The findings are about the same drift. -/
structure Kin (f f' : Finding) : Prop where
  id : f'.id = f.id
  identity : f'.identity = f.identity
  klass : f'.klass = f.klass
  generation : f'.baselineGeneration = f.baselineGeneration

section Kin
variable {f f' : Finding} {now : NdoTime}

theorem Kin.refl (f : Finding) : Kin f f := ⟨rfl, rfl, rfl, rfl⟩

theorem Kin.recomputeSummary [DoubleChars] {limits : RuntimeLimits} (h : Kin f f') :
    Kin f (f'.recomputeSummary limits) := by
  obtain ⟨timeline, summary, heq⟩ := f'.recomputeSummary_eq limits
  rw [heq]
  exact ⟨h.id, h.identity, h.klass, h.generation⟩

theorem kin_assignGroup {target : TargetId} {assignment : OrdMap FindingId GroupId} :
    Kin f (assignGroup target now assignment f).1 := by
  unfold assignGroup
  split_ifs
  · split
    · split_ifs <;> exact ⟨rfl, rfl, rfl, rfl⟩
    · exact ⟨rfl, rfl, rfl, rfl⟩
  · exact Kin.refl f

variable [DoubleChars]

theorem kin_settledFinding {outcome : EvaluationOutcome} {D : FindingLedger} {drafts : OrdMap FindingId FindingDraft}
    {streak : Nat} : Kin f (D.settledFinding outcome now drafts streak f) := by
  unfold settledFinding
  split_ifs
  · have h := ended_supersedeFinding now f
    exact ⟨h.id, h.identity, h.klass, h.generation⟩
  · have h := ended_resolveFinding D.limits now streak f
    exact ⟨h.id, h.identity, h.klass, h.generation⟩
  · exact ⟨rfl, rfl, rfl, rfl⟩

theorem kin_expireFinding {limits : RuntimeLimits} : Kin f (expireFinding limits now f).1 := by
  unfold expireFinding
  split_ifs
  · exact Kin.recomputeSummary ⟨rfl, rfl, rfl, rfl⟩
  · exact Kin.refl f

theorem kin_rebaseFinding {limits : RuntimeLimits} {baseline : IntentBaseline} {target : TargetId}
    {generation : IntentGeneration} : Kin f (rebaseFinding limits baseline target generation now f).1 := by
  unfold rebaseFinding
  split_ifs
  · refine Kin.recomputeSummary ?_
    dsimp only
    split_ifs <;> exact ⟨rfl, rfl, rfl, rfl⟩
  · exact Kin.refl f

theorem Touched.kin {limits : RuntimeLimits} {op : Operation} (h : Touched limits op f f') : Kin f f' := by
  cases h with
  | kept => exact Kin.refl f
  | rebased => exact kin_rebaseFinding
  | suppressed => exact Kin.recomputeSummary ⟨rfl, rfl, rfl, rfl⟩
  | unsuppressed => exact Kin.recomputeSummary ⟨rfl, rfl, rfl, rfl⟩
  | acknowledged => exact Kin.recomputeSummary ⟨rfl, rfl, rfl, rfl⟩
  | unacknowledged => exact Kin.recomputeSummary ⟨rfl, rfl, rfl, rfl⟩
  | expired => exact kin_expireFinding

end Kin

/-! ### What holds of every finding -/

/-- The property holds of every finding under its identity. -/
def Everywhere (P : FindingId → Finding → Prop) (L : FindingLedger) : Prop :=
  ∀ id f, L.findings.find? id = some f → P id f

section Everywhere
variable [DoubleChars] {P : FindingId → Finding → Prop} {outcome : EvaluationOutcome} {policy : ObservatoryPolicy}
  {now : NdoTime} {L : FindingLedger} {e : TargetEvaluation}

theorem Everywhere.round (h : Everywhere P L)
    (hcreate : ∀ id d, (draftMap e.drafts).find? id = some d → L.findings.find? id = none →
      P id (createFinding L.limits outcome policy now e.bestFreshness id d).1)
    (hupdate : ∀ id d f, (draftMap e.drafts).find? id = some d → L.findings.find? id = some f → P id f →
      P id (updateFinding L.limits outcome policy now e.bestFreshness d f).1)
    (hsettle : ∀ id f, L.findings.find? id = some f → (draftMap e.drafts).find? id = none → e.complianceDecidable = true →
      f.identity.target = e.target → f.isLive = true → P id f →
      P id ((L.drafted outcome policy now e).settledFinding outcome now (draftMap e.drafts) (L.nextStreak id) f))
    (hassign : ∀ id f, (L.settling outcome policy now e).ledger.findings.find? id = some f →
      (L.settling outcome policy now e).ledger.RoomForGroups e.target → P id f →
      P id (assignGroup e.target now
        (assignments ((L.settling outcome policy now e).ledger.bucketGroups e.target)) f).1) :
    Everywhere P (L.round outcome policy now e) := by
  intro id f' hf'
  obtain ⟨g, hg, hfind⟩ := @find?_applyTarget_group _ outcome policy now L e {}
  rw [FindingLedger.round, hfind] at hf'
  obtain ⟨f, hf, rfl⟩ := Option.map_eq_some_iff.mp hf'
  suffices hsettled : P id f by
    rcases hg with hsame | ⟨hroom, hgroup⟩
    · rwa [hsame]
    · rw [hgroup]
      exact hassign id f hf hroom hsettled
  obtain ⟨hdrafted, hrest⟩ := @part_settling _ outcome policy now L e id
  have hpart : ((L.settling outcome policy now e).ledger.part id).1 = some f := hf
  cases hd : (draftMap e.drafts).find? id with
  | some d =>
    rw [hdrafted d hd] at hpart
    obtain rfl := Option.some.inj hpart
    cases hbefore : L.findings.find? id with
    | none => exact hcreate id d hd hbefore
    | some before => exact hupdate id d before hd hbefore (h id before hbefore)
  | none =>
    rcases hrest hd with hsame | ⟨before, hbefore, htarget, hlive, hdecidable, hset⟩
    · rw [hsame] at hpart
      exact h id f hpart
    · rw [hset] at hpart
      obtain rfl := Option.some.inj hpart
      exact hsettle id before hbefore hd hdecidable htarget hlive (h id before hbefore)

/-- A mark that no draft sets and no step of a target changes is on the same findings after it. -/
theorem any_round {p : Finding → Bool}
    (hcreate : ∀ id d, (draftMap e.drafts).find? id = some d → L.findings.find? id = none →
      p (createFinding L.limits outcome policy now e.bestFreshness id d).1 = false)
    (hupdate : ∀ id d f, (draftMap e.drafts).find? id = some d → L.findings.find? id = some f →
      p (updateFinding L.limits outcome policy now e.bestFreshness d f).1 = p f)
    (hsettle : ∀ (D : FindingLedger) drafts streak f, p (D.settledFinding outcome now drafts streak f) = p f)
    (hassign : ∀ assignment f, p (assignGroup e.target now assignment f).1 = p f) (id : FindingId) :
    ((L.round outcome policy now e).findings.find? id).any p = (L.findings.find? id).any p := by
  obtain ⟨g, hg, hfind⟩ := @find?_applyTarget_eq _ outcome policy now L e {}
  have hkeep : ∀ f, p (g f) = p f := fun f => by
    rcases hg f with hsame | ⟨assignment, hgroup⟩
    · rw [hsame]
    · rw [hgroup, hassign]
  have hsettled : ((L.settling outcome policy now e).ledger.findings.find? id).any p =
      (L.findings.find? id).any p := by
    obtain ⟨hdrafted, hrest⟩ := @part_settling _ outcome policy now L e id
    show ((L.settling outcome policy now e).ledger.part id).1.any p = _
    cases hd : (draftMap e.drafts).find? id with
    | some d =>
      rw [hdrafted d hd, Option.any_some]
      cases hbefore : L.findings.find? id with
      | none => exact hcreate id d hd hbefore
      | some before => exact hupdate id d before hd hbefore
    | none =>
      rcases hrest hd with hsame | ⟨before, hbefore, -, -, -, hset⟩
      · rw [hsame]
        rfl
      · rw [hset, hbefore, Option.any_some, Option.any_some, hsettle]
  rw [FindingLedger.round, hfind, ← hsettled]
  cases (L.settling outcome policy now e).ledger.findings.find? id with
  | none => rfl
  | some f => exact hkeep f

theorem Everywhere.worked {op : Operation} {M : FindingLedger} (h : Everywhere P L) (hw : Worked op L M)
    (htouched : ∀ id f f', Touched L.limits op f f' → P id f → P id f') : Everywhere P M := by
  intro id f' hf'
  rcases hw.findings id with ⟨-, hnone⟩ | ⟨f, f'', hf, hf'', ht⟩
  · rw [hnone] at hf'
    cases hf'
  · rw [hf''] at hf'
    obtain rfl := Option.some.inj hf'
    exact htouched id f f'' ht (h id f hf)

theorem Everywhere.expired (h : Everywhere P L) (hexpire : ∀ id f, P id f → P id (expireFinding L.limits now f).1) :
    Everywhere P (L.expireSuppressions now).bumpRevision.trimTimelineIfNeeded := by
  intro id f' hf'
  rw [find?_expireSuppressions] at hf'
  obtain ⟨f, hf, rfl⟩ := Option.map_eq_some_iff.mp hf'
  exact hexpire id f (h id f hf)

omit [DoubleChars] in
theorem mem_recoverAll {limits : RuntimeLimits} {f : Finding} : ∀ {fs : List Finding} {sequence : Nat},
    f ∈ recoverAll limits sequence fs → ∃ n, ∃ g ∈ fs, f = recoverFinding limits n g ∧ sequence < n ∧
      (recoversNow g = true → n ≤ sequence + fs.countP recoversNow)
  | [], _, h => absurd h List.not_mem_nil
  | g :: fs, sequence, h => by
    rcases List.mem_cons.mp h with rfl | h
    · refine ⟨sequence + 1, g, List.mem_cons_self, rfl, Nat.lt_succ_self _, fun hg => ?_⟩
      rw [List.countP_cons_of_pos hg]
      omega
    · obtain ⟨n, g', hg', rfl, hlow, hhigh⟩ := mem_recoverAll h
      refine ⟨n, g', List.mem_cons_of_mem g hg', rfl, ?_, fun hg => ?_⟩
      · split_ifs at hlow <;> omega
      · have hn := hhigh hg
        rw [List.countP_cons]
        split_ifs at hn ⊢ <;> omega

omit [DoubleChars] in
/-- A restored finding is one of the ledger's, read back and recovered, under its own identity. -/
theorem find?_restored {limits : RuntimeLimits} {id : FindingId} {f : Finding}
    (h : (L.restored limits).findings.find? id = some f) :
    f.id = id ∧ ∃ n k g, L.findings.find? k = some g ∧
      f = recoverFinding limits n (g.reread (ledgerPayloadLimits limits)) ∧ L.timelineSequence % 2 ^ 64 < n ∧
      (recoversNow (g.reread (ledgerPayloadLimits limits)) = true → n ≤ (L.restored limits).timelineSequence) := by
  rcases OrdMap.find?_foldl_insert h with ⟨hmem, hid⟩ | hnone
  · obtain ⟨n, g, hg, rfl, hnumber⟩ := mem_recoverAll hmem
    obtain ⟨g', hg', rfl⟩ := List.mem_map.mp hg
    obtain ⟨k, hk⟩ := OrdMap.mem_values.mp hg'
    exact ⟨hid, n, k, g', hk, rfl, hnumber⟩
  · cases hnone

omit [DoubleChars] in
theorem Everywhere.restored {limits : RuntimeLimits} (h : Everywhere P L)
    (hrecover : ∀ id k n g, P k g → (recoverFinding limits n (g.reread (ledgerPayloadLimits limits))).id = id →
      P id (recoverFinding limits n (g.reread (ledgerPayloadLimits limits)))) : Everywhere P (L.restored limits) := by
  intro id f hf
  obtain ⟨hid, n, k, g, hg, rfl, -⟩ := find?_restored hf
  exact hrecover id k n g (h k g hg) hid

/-! ### Findings under their own identity -/

/-- Every finding is under its own identity. -/
def Keyed (L : FindingLedger) : Prop := Everywhere (fun id f => f.id = id) L

theorem Keyed.round (h : Keyed L) : Keyed (L.round outcome policy now e) := by
  refine Everywhere.round h (fun id d _ _ => ?_) (fun id d f _ _ hf => ?_) (fun id f _ _ _ _ _ hf => ?_)
    fun id f _ _ hf => ?_
  · exact (created_createFinding id d).id
  · exact (absorbed_updateFinding d f).id.trans hf
  · exact kin_settledFinding.id.trans hf
  · exact kin_assignGroup.id.trans hf

theorem Keyed.operate {op : Operation} (h : Keyed L) (happly : L.applied op = none) : Keyed (L.operate op) :=
  Everywhere.worked h (worked_operate happly) fun _ _ _ ht hf => ht.kin.id.trans hf

theorem Keyed.expired (h : Keyed L) : Keyed (L.expireSuppressions now).bumpRevision.trimTimelineIfNeeded :=
  Everywhere.expired h fun _ _ hf => kin_expireFinding.id.trans hf

omit [DoubleChars] in
theorem keyed_restored {limits : RuntimeLimits} : Keyed (L.restored limits) := fun _ _ hf => (find?_restored hf).1

omit [DoubleChars] in
theorem ids_recoverAll {limits : RuntimeLimits} : ∀ {fs : List Finding} {n : Nat},
    (recoverAll limits n fs).map Finding.id = fs.map Finding.id
  | [], _ => rfl
  | f :: fs, n => by
    rw [recoverAll, List.map_cons, List.map_cons, ids_recoverAll]
    rfl

omit [DoubleChars] in
theorem ids_rereadFindings {limits : RuntimeLimits} :
    (L.rereadFindings limits).map Finding.id = L.findings.values.map Finding.id := by
  rw [rereadFindings, List.map_map]
  rfl

omit [DoubleChars] in
/-- The findings of a restored ledger, in order. -/
theorem Keyed.values_restored (h : Keyed L) {limits : RuntimeLimits} : (L.restored limits).findings.values =
    recoverAll limits (L.timelineSequence % 2 ^ 64) (L.rereadFindings limits) := by
  refine OrdMap.values_foldl_insert (List.pairwise_map.mp ?_)
  rw [ids_recoverAll, ids_rereadFindings]
  exact List.pairwise_map.mpr (OrdMap.pairwise_values h)

omit [DoubleChars] in
theorem Keyed.keys_eq (h : Keyed L) : L.findings.keys = L.findings.values.map Finding.id := by
  rw [OrdMap.keys, OrdMap.values, List.map_map]
  refine List.map_congr_left fun entry hentry => ?_
  exact (h entry.1 entry.2 (OrdMap.mem_entries_iff.mp hentry)).symm

omit [DoubleChars] in
/-- A restart keeps every finding and brings no other. -/
theorem Keyed.keys_restored (h : Keyed L) {limits : RuntimeLimits} :
    (L.restored limits).findings.keys = L.findings.keys := by
  rw [keyed_restored.keys_eq, h.values_restored, ids_recoverAll, ids_rereadFindings, h.keys_eq]

end Everywhere

end FindingLedger

end DriftObservatory
