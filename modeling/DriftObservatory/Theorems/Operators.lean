import DriftObservatory.Operations
import DriftObservatory.Theorems.Phases

/-! The operations of a ledger, one inversion lemma for each: what an operator action, a commit of intent and an
    observation leave behind. -/

namespace DriftObservatory

/-! ### Operator actions -/

namespace Finding

/-- The finding once an operator has suppressed it. -/
def suppressedAs (f : Finding) (id : SuppressionId) (actor : ActorId) (reason : Text) (expiresAt : Option NdoTime) :
    Finding :=
  { f with
    suppression := some id, suppressionOrigin := .operator, suppressedBy := actor
    suppressionReason := boundedDetail reason, suppressionExpiresAt := expiresAt
    state := if f.isLive then .suppressed else f.state }

/-- The identity is the one an operator's suppression of the finding gets. -/
def names (f : Finding) (id : SuppressionId) : Prop :=
  StringId.tryParse (ascii "suppression/" ++ (toHex f.id.digest.bytes).take 24) = some id

def suppressionEvent (f : Finding) (actor : ActorId) (now : NdoTime) : TimelineEntry :=
  { f.event .suppressed now .suppressedByOperator
      (boundedDetail (ascii "suppressed by " ++ actor.str ++ ascii ": " ++ f.suppressionReason)) with actor := actor }

def suppressionClearedEvent (f : Finding) (actor : ActorId) (now : NdoTime) : TimelineEntry :=
  { f.event .suppressionCleared now .none (ascii "suppression cleared; the underlying evidence is unchanged") with
    actor := actor }

/-- The finding once an operator has acknowledged it. -/
def acknowledgedAs (f : Finding) (actor : ActorId) (reason : Text) (now : NdoTime) : Finding :=
  { f with
    acknowledgedBy := actor, acknowledgedAt := now, acknowledgementReason := boundedDetail reason
    state := if f.state = .open then .acknowledged else f.state }

def acknowledgementEvent (f : Finding) (actor : ActorId) (now : NdoTime) : TimelineEntry :=
  { f.event .acknowledged now .acknowledgementRecorded
      (boundedDetail (ascii "acknowledged by " ++ actor.str ++ ascii ": " ++ f.acknowledgementReason)) with
    actor := actor }

/-- The finding once its acknowledgement is taken back. -/
def unacknowledged (f : Finding) : Finding :=
  { f with
    acknowledgedBy := default, acknowledgedAt := default, acknowledgementReason := []
    state := if f.state = .acknowledged then .open else f.state }

def acknowledgementClearedEvent (f : Finding) (actor : ActorId) (now : NdoTime) : TimelineEntry :=
  { f.event .acknowledgementCleared now .none (ascii "acknowledgement cleared") with actor := actor }

end Finding

namespace FindingLedger

/-- What an operator action on a finding leaves behind. -/
inductive OperatorStep [DoubleChars] (L : FindingLedger) : Operation → FindingLedger → Prop
  | refused (op : Operation) : OperatorStep L op L
  | suppressed (id : FindingId) (actor : ActorId) (reason : Text) (expiresAt : Option NdoTime) (now : NdoTime)
      (f : Finding) (sid : SuppressionId) (event : TimelineEntry) (hf : L.findings.find? id = some f)
      (hroom : f.suppression = none → L.suppressionsActive < L.limits.maxSuppressions)
      (hsid : f.names sid) (hevent : event = (f.suppressedAs sid actor reason expiresAt).suppressionEvent actor now) :
      OperatorStep L (.suppress id actor reason expiresAt now)
        ({ L with
            suppressionsActive := L.suppressionsActive + if f.suppression.isNone then 1 else 0 }.actOn id
          (f.suppressedAs sid actor reason expiresAt) event)
  | unsuppressed (id : FindingId) (actor : ActorId) (now : NdoTime) (f : Finding) (event : TimelineEntry)
      (hf : L.findings.find? id = some f) (hset : f.suppression ≠ none)
      (hevent : event = f.clearSuppression.suppressionClearedEvent actor now) :
      OperatorStep L (.clearSuppression id actor now)
        ({ L with suppressionsActive := L.suppressionsActive - 1 }.actOn id f.clearSuppression event)
  | acknowledged (id : FindingId) (actor : ActorId) (reason : Text) (now : NdoTime) (f : Finding)
      (event : TimelineEntry) (hf : L.findings.find? id = some f)
      (hevent : event = (f.acknowledgedAs actor reason now).acknowledgementEvent actor now) :
      OperatorStep L (.acknowledge id actor reason now) (L.actOn id (f.acknowledgedAs actor reason now) event)
  | unacknowledged (id : FindingId) (actor : ActorId) (now : NdoTime) (f : Finding) (event : TimelineEntry)
      (hf : L.findings.find? id = some f) (hevent : event = f.unacknowledged.acknowledgementClearedEvent actor now) :
      OperatorStep L (.clearAcknowledgement id actor now) (L.actOn id f.unacknowledged event)
  | expired (now : NdoTime) : OperatorStep L (.expireSuppressions now) (L.expireSuppressions now)

section Operators
variable [DoubleChars] {L : FindingLedger} {id : FindingId} {actor : ActorId} {reason : Text} {now : NdoTime}

theorem suppress_step {expiresAt : Option NdoTime} :
    OperatorStep L (.suppress id actor reason expiresAt now) (L.suppress id actor reason expiresAt now).2 := by
  unfold suppress
  cases hf : L.findings.find? id with
  | none => exact .refused _
  | some f =>
    by_cases hactor : (actor.empty || !isValidIdentityText actor.str) = true
    · simp only [hactor, if_true]
      exact .refused _
    · by_cases hfull : (L.limits.maxSuppressions ≤ L.suppressionsActive && f.suppression.isNone) = true
      · simp only [hactor, hfull, if_true]
        exact .refused _
      · simp only [hactor, hfull]
        cases hsid : StringId.tryParse (ascii "suppression/" ++ (toHex f.id.digest.bytes).take 24) with
        | none => exact .refused _
        | some sid =>
          have hroom : f.suppression = none → L.suppressionsActive < L.limits.maxSuppressions := fun hnone => by
            simpa [hnone] using hfull
          have hstep := @OperatorStep.suppressed _ L id actor reason expiresAt now f sid _ hf hroom hsid rfl
          cases hnone : f.suppression.isNone with
          | true =>
            simp only [hnone, if_true] at hstep
            exact hstep
          | false =>
            simp only [hnone] at hstep
            exact hstep

theorem clearSuppression_step : OperatorStep L (.clearSuppression id actor now) (L.clearSuppression id actor now).2 := by
  unfold clearSuppression
  cases hf : L.findings.find? id with
  | none => exact .refused _
  | some f =>
    dsimp only
    split_ifs with hnone
    · exact .refused _
    · exact .unsuppressed id actor now f _ hf (fun h => hnone (by rw [h]; rfl)) rfl

theorem acknowledge_step : OperatorStep L (.acknowledge id actor reason now) (L.acknowledge id actor reason now).2 := by
  unfold acknowledge
  cases hf : L.findings.find? id with
  | none => exact .refused _
  | some f =>
    by_cases hactor : (actor.empty || !isValidIdentityText actor.str) = true
    · simp only [hactor, if_true]
      exact .refused _
    · simp only [hactor]
      exact .acknowledged id actor reason now f _ hf rfl

theorem clearAcknowledgement_step :
    OperatorStep L (.clearAcknowledgement id actor now) (L.clearAcknowledgement id actor now).2 := by
  unfold clearAcknowledgement
  cases hf : L.findings.find? id with
  | none => exact .refused _
  | some f =>
    by_cases hnone : f.acknowledgedBy.empty = true
    · simp only [hnone, if_true]
      exact .refused _
    · simp only [hnone]
      exact .unacknowledged id actor now f _ hf rfl

theorem operator_step {op : Operation} (hop : op.isOperator = true) : OperatorStep L op (L.operate op) := by
  cases op with
  | suppress finding actor reason expiresAt now => exact suppress_step
  | clearSuppression finding actor now => exact clearSuppression_step
  | acknowledge finding actor reason now => exact acknowledge_step
  | clearAcknowledgement finding actor now => exact clearAcknowledgement_step
  | expireSuppressions now => exact .expired now
  | _ => cases hop

end Operators

/-! ### Commits of intent -/

/-- What a commit of intent leaves behind: nothing changes, or the target gets its first baseline, or its baseline
    advances and its live findings are rebased. -/
inductive CommitStep [DoubleChars] (L : FindingLedger) (document : IntentGenerationDocument) (now : NdoTime) :
    FindingLedger → Prop
  | refused : CommitStep L document now L
  | first (event : TimelineEntry) (hb : L.findBaseline document.target = none) :
      CommitStep L document now
        ({ L with baselines := L.baselines.insert document.target (baselineOf document now) }.appendTimeline
          event).bumpRevision
  | advanced (event : TimelineEntry) (existing : IntentBaseline)
      (hb : L.findBaseline document.target = some existing) (hnew : existing.generation < document.generation) :
      CommitStep L document now
        ((({ L with
            baselines := L.baselines.insert document.target { baselineOf document now with target := existing.target }
          }.sweep (rebaseFinding L.limits (baselineOf document now) document.target document.generation now)).dropGroups
          (((L.findings.values.filter (rebases document.target document.generation)).filter fun f : Finding =>
            f.group.isSet).map Finding.group)).appendTimeline event).bumpRevision

theorem commitIntent_step [DoubleChars] {L : FindingLedger} {document : IntentGenerationDocument} {now : NdoTime} :
    CommitStep L document now (L.commitIntent document now).2.1 := by
  unfold commitIntent
  dsimp only
  split
  · exact .refused
  · split
    · rename_i hb
      split
      · exact .refused
      · exact .first _ hb
    · rename_i existing hb
      split
      · exact .refused
      · split
        · exact .refused
        · rename_i hold
          split
          · split <;> exact .refused
          · rename_i hne
            exact .advanced _ existing hb (lt_of_le_of_ne (not_lt.mp hold) (Ne.symm hne))

/-! ### Operations that apply an evaluation, and the others -/

/-- The evaluation an operation applies. -/
def applied (L : FindingLedger) : Operation → Option (EvaluationOutcome × ObservatoryPolicy × NdoTime)
  | .evaluate policy limits epoch incarnation now =>
    match L.evaluateLedgerOnce policy limits epoch incarnation now with
    | .error _ => none
    | .ok outcome => some (outcome, policy, now)
  | .applyEvaluation outcome policy now => some (outcome, policy, now)
  | _ => none

section Operations
variable [DoubleChars] {L : FindingLedger} {op : Operation}

theorem operate_applied {outcome : EvaluationOutcome} {policy : ObservatoryPolicy} {now : NdoTime}
    (h : L.applied op = some (outcome, policy, now)) : L.operate op = (L.applyEvaluation outcome policy now).2.1 := by
  cases op with
  | evaluate policy limits epoch incarnation now =>
    simp only [applied, operate, evaluateAndApply] at h ⊢
    cases ho : L.evaluateLedgerOnce policy limits epoch incarnation now with
    | error _ => simp [ho] at h
    | ok outcome =>
      simp only [ho, Option.some.injEq, Prod.mk.injEq] at h
      obtain ⟨rfl, rfl, rfl⟩ := h
      rfl
  | applyEvaluation outcome policy now =>
    simp only [applied, Option.some.injEq, Prod.mk.injEq] at h
    obtain ⟨rfl, rfl, rfl⟩ := h
    rfl
  | _ => cases h

theorem operate_evaluate_refused {policy : ObservatoryPolicy} {limits : RuntimeLimits} {epoch : FabricEpoch}
    {incarnation : Incarnation} {now : NdoTime} (h : L.applied (.evaluate policy limits epoch incarnation now) = none) :
    L.operate (.evaluate policy limits epoch incarnation now) = L := by
  cases ho : L.evaluateLedgerOnce policy limits epoch incarnation now with
  | error _ => simp only [operate, evaluateAndApply, ho]
  | ok outcome =>
    simp only [applied, ho] at h
    cases h

/-- What an operation that applies no evaluation makes of a finding. -/
inductive Touched (limits : RuntimeLimits) : Operation → Finding → Finding → Prop
  | kept (op : Operation) (f : Finding) : Touched limits op f f
  | rebased (document : IntentGenerationDocument) (now : NdoTime) (f : Finding) :
      Touched limits (.commitIntent document now) f
        (rebaseFinding limits (baselineOf document now) document.target document.generation now f).1
  | suppressed (id : FindingId) (actor : ActorId) (reason : Text) (expiresAt : Option NdoTime) (now : NdoTime)
      (f : Finding) (sid : SuppressionId) (hsid : f.names sid) :
      Touched limits (.suppress id actor reason expiresAt now) f
        (((f.suppressedAs sid actor reason expiresAt).push
          ((f.suppressedAs sid actor reason expiresAt).suppressionEvent actor now)).recomputeSummary limits)
  | unsuppressed (id : FindingId) (actor : ActorId) (now : NdoTime) (f : Finding) (event : TimelineEntry)
      (hevent : event = f.clearSuppression.suppressionClearedEvent actor now) :
      Touched limits (.clearSuppression id actor now) f ((f.clearSuppression.push event).recomputeSummary limits)
  | acknowledged (id : FindingId) (actor : ActorId) (reason : Text) (now : NdoTime) (f : Finding) :
      Touched limits (.acknowledge id actor reason now) f
        (((f.acknowledgedAs actor reason now).push
          ((f.acknowledgedAs actor reason now).acknowledgementEvent actor now)).recomputeSummary limits)
  | unacknowledged (id : FindingId) (actor : ActorId) (now : NdoTime) (f : Finding) (event : TimelineEntry)
      (hevent : event = f.unacknowledged.acknowledgementClearedEvent actor now) :
      Touched limits (.clearAcknowledgement id actor now) f ((f.unacknowledged.push event).recomputeSummary limits)
  | expired (now : NdoTime) (f : Finding) : Touched limits (.expireSuppressions now) f (expireFinding limits now f).1

/-- An operation that applies no evaluation keeps the streaks and touches each finding on its own. -/
structure Worked (op : Operation) (L M : FindingLedger) : Prop where
  streaks : M.resolutionStreak = L.resolutionStreak
  findings : ∀ id, (L.findings.find? id = none ∧ M.findings.find? id = none) ∨
    ∃ f f', L.findings.find? id = some f ∧ M.findings.find? id = some f' ∧ Touched L.limits op f f'

section Worked
variable {M : FindingLedger}

theorem worked_of_map (g : Finding → Finding) (hs : M.resolutionStreak = L.resolutionStreak)
    (hf : ∀ id, M.findings.find? id = (L.findings.find? id).map g) (hg : ∀ f, Touched L.limits op f (g f)) :
    Worked op L M := by
  refine ⟨hs, fun id => ?_⟩
  rw [hf]
  cases L.findings.find? id with
  | none => exact .inl ⟨rfl, rfl⟩
  | some f => exact .inr ⟨f, g f, rfl, rfl, hg f⟩

theorem worked_of_same (hs : M.resolutionStreak = L.resolutionStreak) (hf : M.findings = L.findings) :
    Worked op L M :=
  worked_of_map (fun f => f) hs (fun id => by rw [hf, Option.map_id']) fun f => .kept op f

theorem worked_actOn {id : FindingId} {f f₀ : Finding} {event : TimelineEntry} {active : Nat}
    (hf : L.findings.find? id = some f₀) (ht : Touched L.limits op f₀ ((f.push event).recomputeSummary L.limits)) :
    Worked op L ({ L with suppressionsActive := active }.actOn id f event) := by
  refine ⟨rfl, fun k => ?_⟩
  simp only [actOn, bumpRevision, appendTimeline]
  by_cases hid : id = k
  · subst hid
    rw [OrdMap.find?_insert_self]
    exact .inr ⟨f₀, _, hf, rfl, ht⟩
  · rw [OrdMap.find?_insert_of_ne hid]
    exact (worked_of_same rfl rfl).findings k

theorem worked_expireSuppressions {now : NdoTime} :
    Worked (.expireSuppressions now) L (L.expireSuppressions now) := by
  have hsweep : Worked (.expireSuppressions now) L (L.sweep (expireFinding L.limits now)) := by
    refine worked_of_map (fun f => (expireFinding L.limits now f).1) resolutionStreak_appendAll (fun id => ?_)
      fun f => .expired now f
    rw [sweep, findings_appendAll, OrdMap.find?_mapValues]
  unfold expireSuppressions
  dsimp only
  split_ifs <;> exact ⟨hsweep.streaks, hsweep.findings⟩

end Worked

theorem worked_operate (h : L.applied op = none) : Worked op L (L.operate op) := by
  cases hop : op.isOperator with
  | true =>
    have hstep := @operator_step _ L op hop
    generalize L.operate op = M at hstep
    cases hstep with
    | refused => exact worked_of_same rfl rfl
    | suppressed id actor reason expiresAt now f sid event hf hroom hsid hevent =>
      subst hevent
      exact worked_actOn hf (.suppressed id actor reason expiresAt now f sid hsid)
    | unsuppressed id actor now f event hf hset hevent =>
      exact worked_actOn hf (.unsuppressed id actor now f event hevent)
    | acknowledged id actor reason now f event hf hevent =>
      subst hevent
      exact worked_actOn hf (.acknowledged id actor reason now f)
    | unacknowledged id actor now f event hf hevent =>
      exact worked_actOn hf (.unacknowledged id actor now f event hevent)
    | expired now => exact worked_expireSuppressions
  | false =>
    cases op with
    | commitIntent document now =>
      have hstep := @commitIntent_step _ L document now
      simp only [operate]
      generalize (L.commitIntent document now).2.1 = M at hstep
      cases hstep with
      | refused => exact worked_of_same rfl rfl
      | first event hb => exact worked_of_same rfl rfl
      | advanced event existing hb hnew =>
        refine worked_of_map (fun f => (rebaseFinding L.limits (baselineOf document now) document.target
          document.generation now f).1) resolutionStreak_appendAll (fun id => ?_) fun f => .rebased document now f
        simp only [bumpRevision, appendTimeline, dropGroups, sweep, findings_appendAll, OrdMap.find?_mapValues]
    | recordObservation snapshot verdict recovered =>
      simp only [operate, recordObservation]
      split
      · exact worked_of_same rfl rfl
      · split <;> exact worked_of_same rfl rfl
    | invalidateRetainedEvidence reason now =>
      simp only [operate, invalidateRetainedEvidence]
      split_ifs <;> exact worked_of_same rfl rfl
    | recordEvent entry => exact worked_of_same rfl rfl
    | evaluate policy limits epoch incarnation now =>
      rw [operate_evaluate_refused h]
      exact worked_of_same rfl rfl
    | applyEvaluation => cases h
    | _ => cases hop

end Operations

end FindingLedger

end DriftObservatory
