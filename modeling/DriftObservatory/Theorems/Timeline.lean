import DriftObservatory.Lib.Log
import DriftObservatory.Theorems.Atomicity
import DriftObservatory.Theorems.Suppression

/-! The global timeline and the histories of the findings through the life of a ledger: their numbers, their bounds,
    and how far the copy of an event on its finding agrees with the one on the global timeline. -/

namespace DriftObservatory

open Json

namespace FindingLedger

/-! ### Numbers -/

/-- The ledgers differ on the timeline by entries appended under the next numbers, and by trimming. -/
def Logs (L M : FindingLedger) : Prop :=
  Log.Continues TimelineEntry.sequence L.timelineSequence L.globalTimeline M.timelineSequence M.globalTimeline

section Logs
variable {L M N : FindingLedger} {entries : List TimelineEntry} {entry : TimelineEntry}

theorem Logs.refl (L : FindingLedger) : Logs L L := Log.Continues.refl _ _

theorem Logs.trans (h : Logs L M) (h' : Logs M N) : Logs L N := Log.Continues.trans h h'

theorem logs_of_same (hsequence : M.timelineSequence = L.timelineSequence)
    (hlog : M.globalTimeline = L.globalTimeline) : Logs L M := by
  unfold Logs
  rw [hsequence, hlog]
  exact Log.Continues.refl _ _

theorem Logs.appendTimeline (h : Logs L M) : Logs L (M.appendTimeline entry) :=
  h.trans ⟨[_], rfl, rfl, List.suffix_rfl⟩

theorem Logs.appendAll (h : Logs L M) : Logs L (M.appendAll entries) := by
  induction entries generalizing M with
  | nil => exact h
  | cons entry rest ih => exact ih h.appendTimeline

theorem Logs.sweep {step : Finding → Finding × List TimelineEntry} (h : Logs L M) : Logs L (M.sweep step) :=
  Logs.appendAll (Logs.trans h (logs_of_same rfl rfl))

theorem Logs.trim (h : Logs L M) : Logs L M.trimTimelineIfNeeded :=
  h.trans (Log.Continues.trim (List.drop_suffix _ _))

theorem Logs.dropGroups {ids : List GroupId} (h : Logs L M) : Logs L (M.dropGroups ids) := h

theorem Logs.bumpRevision (h : Logs L M) : Logs L M.bumpRevision := h

variable [DoubleChars] {outcome : EvaluationOutcome} {policy : ObservatoryPolicy} {now : NdoTime}
  {e : TargetEvaluation} {id : FindingId}

theorem DraftStep.logs {freshness : FreshnessState} {draft : FindingDraft}
    (h : DraftStep outcome policy now freshness L id draft M) : Logs L M := by
  cases h with
  | created hf => exact Logs.appendTimeline (logs_of_same rfl rfl)
  | updated before hf => exact Logs.appendAll (logs_of_same rfl rfl)

theorem SettleStep.logs {decidable : Bool} {drafts : OrdMap FindingId FindingDraft} {drops : List GroupId}
    (h : SettleStep outcome now decidable drafts L id M drops) : Logs L M := by
  cases h with
  | skipped => exact Logs.refl L
  | superseded => exact Logs.appendTimeline (logs_of_same rfl rfl)
  | resolved => exact Logs.appendTimeline (logs_of_same rfl rfl)
  | waiting => exact logs_of_same rfl rfl

theorem logs_settling : Logs L (L.settling outcome policy now e).ledger := by
  have hdrafted : Logs L (L.drafted outcome policy now e) :=
    @Run.always _ _ (applyDraft outcome policy now e.bestFreshness) (fun acc => Logs L acc.1)
      (fun acc entry h => h.trans (applyDraft_step acc.1 acc.2 entry).logs) (draftMap e.drafts).entries (L, {})
      (Logs.refl L)
  refine @Run.always SettlePass _ (settleFinding outcome now e.complianceDecidable (draftMap e.drafts))
    (fun pass => Logs L pass.ledger) (fun pass k h => ?_) _ _ hdrafted
  obtain ⟨drops, -, hstep⟩ := @settleFinding_step _ outcome now e.complianceDecidable (draftMap e.drafts) pass k
  exact h.trans hstep.logs

theorem logs_applyTarget {report : LedgerApplyReport} : Logs L (applyTarget outcome policy now L report e).2.1 := by
  have hsettling := @logs_settling L _ outcome policy now e
  rcases applyTarget_spec L report e with ⟨-, -, h⟩ | ⟨-, -, h⟩
  · rw [h, afterTarget]
    generalize (L.settling outcome policy now e).ledger = M at hsettling
    have hsweep := @Logs.sweep L { M with groups := touchGroups e.target now M.groups (M.bucketGroups e.target) }
      (assignGroup e.target now (assignments (M.bucketGroups e.target))) (hsettling.trans (logs_of_same rfl rfl))
    exact hsweep.trans (logs_of_same rfl rfl)
  · generalize (applyTarget outcome policy now L report e).2.1 = M at h
    cases h with
    | refused => exact hsettling.trans (logs_of_same rfl rfl)

theorem logs_expireSuppressions : Logs L (L.expireSuppressions now) := by
  have h : Logs L (L.sweep (expireFinding L.limits now)) := (Logs.refl L).sweep
  unfold expireSuppressions
  dsimp only
  split_ifs <;> exact h.trans (logs_of_same rfl rfl)

theorem logs_applyEvaluation : Logs L (L.applyEvaluation outcome policy now).2.1 :=
  applyEvaluation_rule (fun _ _ _ _ _ h => h.trans logs_applyTarget)
    (fun _ h => (h.trans logs_expireSuppressions).bumpRevision.trim) (Logs.refl L)

theorem OperatorStep.logs {op : Operation} (h : OperatorStep L op M) : Logs L M := by
  have hact : ∀ {active id f event}, Logs L ({ L with suppressionsActive := active }.actOn id f event) :=
    (Logs.appendTimeline (logs_of_same rfl rfl)).bumpRevision
  cases h with
  | refused => exact Logs.refl L
  | expired now => exact logs_expireSuppressions
  | suppressed => exact hact
  | unsuppressed => exact hact
  | acknowledged => exact hact
  | unacknowledged => exact hact

theorem CommitStep.logs {document : IntentGenerationDocument} (h : CommitStep L document now M) : Logs L M := by
  cases h with
  | refused => exact Logs.refl L
  | first => exact (Logs.appendTimeline (logs_of_same rfl rfl)).bumpRevision
  | advanced event existing hb hnew =>
    refine Logs.bumpRevision (Logs.appendTimeline (Logs.dropGroups (Logs.sweep ?_)))
    exact logs_of_same rfl rfl

theorem logs_operate {op : Operation} : Logs L (L.operate op) := by
  cases hop : op.isOperator with
  | true => exact (operator_step hop).logs
  | false =>
    cases op with
    | commitIntent document now => exact commitIntent_step.logs
    | recordObservation snapshot verdict recovered =>
      simp only [operate, recordObservation]
      split
      · exact Logs.refl L
      · split
        · exact Logs.refl L
        · exact logs_of_same rfl rfl
    | evaluate policy limits epoch incarnation now =>
      simp only [operate, evaluateAndApply]
      split
      · exact Logs.refl L
      · exact logs_applyEvaluation
    | applyEvaluation outcome policy now => exact logs_applyEvaluation
    | invalidateRetainedEvidence reason now =>
      simp only [operate, invalidateRetainedEvidence]
      split_ifs <;> exact logs_of_same rfl rfl
    | recordEvent entry => exact (Logs.refl L).appendTimeline.trim.bumpRevision
    | _ => cases hop

end Logs

/-- The numbers of the global timeline ascend, from 1 on and up to the counter. -/
def Ordered (L : FindingLedger) : Prop := Log.Ordered TimelineEntry.sequence L.timelineSequence L.globalTimeline

section Numbers
variable [DoubleChars] {L : FindingLedger} {step : LedgerStep}

/-- The numbers a run takes from the counter, in order: each is handed out when the counter reaches it. -/
def issued (L : FindingLedger) (steps : List LedgerStep) : List Nat := Log.takenIn advance timelineSequence L steps

omit [DoubleChars] in
theorem sequences_restored {limits : RuntimeLimits} (h : L.Ordered) (hbound : L.timelineSequence < 2 ^ 64) :
    (L.restored limits).globalTimeline.map TimelineEntry.sequence = L.globalTimeline.map TimelineEntry.sequence := by
  rw [show (L.restored limits).globalTimeline = L.globalTimeline.map TimelineEntry.reread from rfl, List.map_map]
  refine List.map_congr_left fun entry hentry => ?_
  exact Nat.mod_eq_of_lt (lt_of_le_of_lt (h.bounded entry hentry) hbound)

omit [DoubleChars] in
theorem sequence_restored {limits : RuntimeLimits} (hbound : L.timelineSequence < 2 ^ 64) :
    (L.restored limits).timelineSequence = L.timelineSequence + (L.rereadFindings limits).countP recoversNow := by
  rw [show (L.restored limits).timelineSequence = L.timelineSequence % 2 ^ 64 + _ from rfl, Nat.mod_eq_of_lt hbound]

theorem sequence_recover_empty [LawfulDoubleChars] {limits : RuntimeLimits} {epoch liveEpoch : FabricEpoch}
    {incarnation : Incarnation} (hempty : L.findings.values = []) (hbound : L.timelineSequence < 2 ^ 64) :
    (L.advance (.restart limits epoch incarnation liveEpoch)).timelineSequence = L.timelineSequence := by
  rw [advance]
  rcases @recover_cases _ L _ limits epoch liveEpoch incarnation with hsame | ⟨-, hrestart⟩
  · rw [hsame]
  · rw [hrestart, sequence_restored hbound, rereadFindings, hempty]
    rfl

theorem sequence_advance [LawfulDoubleChars] (hbound : L.timelineSequence < 2 ^ 64) :
    L.timelineSequence ≤ (L.advance step).timelineSequence := by
  cases step with
  | operate op => exact Log.Continues.le logs_operate
  | restart limits epoch incarnation liveEpoch =>
    rw [advance]
    rcases @recover_cases _ L _ limits epoch liveEpoch incarnation with hsame | ⟨-, hrestart⟩
    · rw [hsame]
    · rw [hrestart, sequence_restored hbound]
      exact Nat.le_add_right _ _

/-- A step keeps the numbers of the entries it retains, and gives the entries it appends the numbers it takes. -/
theorem numbered_advance [LawfulDoubleChars] (h : L.Ordered) (hbound : L.timelineSequence < 2 ^ 64) :
    (L.advance step).Ordered ∧ ∀ entry ∈ (L.advance step).globalTimeline,
      entry.sequence ∈ L.issued [step] ∨ ∃ old ∈ L.globalTimeline, old.sequence = entry.sequence := by
  have hissued : L.issued [step] =
      List.range' (L.timelineSequence + 1) ((L.advance step).timelineSequence - L.timelineSequence) :=
    List.append_nil _
  rw [hissued]
  cases step with
  | operate op =>
    have hlogs := @logs_operate L _ op
    refine ⟨h.continues hlogs, fun entry hentry => ?_⟩
    obtain ⟨added, hnumbers, hsequence, hsuffix⟩ := hlogs
    rcases List.mem_append.mp (hsuffix.subset hentry) with hold | hnew
    · exact .inr ⟨entry, hold, rfl⟩
    · left
      have hmem := List.mem_map_of_mem (f := TimelineEntry.sequence) hnew
      rw [advance, hsequence, Nat.add_sub_cancel_left]
      rwa [hnumbers] at hmem
  | restart limits epoch incarnation liveEpoch =>
    rw [advance]
    rcases @recover_cases _ L _ limits epoch liveEpoch incarnation with hsame | ⟨-, hrestart⟩
    · rw [hsame]
      exact ⟨h, fun entry hentry => .inr ⟨entry, hentry, rfl⟩⟩
    · rw [hrestart]
      have hsame := @sequences_restored L limits h hbound
      have hold : ∀ entry ∈ (L.restored limits).globalTimeline, ∃ old ∈ L.globalTimeline,
          old.sequence = entry.sequence := fun entry hentry => by
        have hmem := List.mem_map_of_mem (f := TimelineEntry.sequence) hentry
        rw [hsame] at hmem
        exact List.mem_map.mp hmem
      refine ⟨⟨?_, fun entry hentry => ?_, fun entry hentry => ?_⟩, fun entry hentry => .inr (hold entry hentry)⟩
      · rw [hsame]
        exact h.ascending
      · obtain ⟨old, hmem, hnumber⟩ := hold entry hentry
        rw [← hnumber]
        exact h.positive old hmem
      · obtain ⟨old, hmem, hnumber⟩ := hold entry hentry
        rw [← hnumber, sequence_restored hbound]
        exact (h.bounded old hmem).trans (Nat.le_add_right _ _)

theorem ordered_exec [LawfulDoubleChars] {steps : List LedgerStep} (h : L.Ordered)
    (hbound : L.timelineSequence + (L.issued steps).length < 2 ^ 64) : (Run.exec advance L steps).Ordered := by
  induction steps generalizing L with
  | nil => exact h
  | cons step rest ih =>
    have hlow : L.timelineSequence < 2 ^ 64 := by omega
    have hle := @sequence_advance _ L step _ hlow
    refine ih (numbered_advance h hlow).1 ?_
    simp only [issued, Log.takenIn, Log.taken, List.length_append, List.length_range'] at hbound ⊢
    omega

end Numbers

/-- Through every life of a ledger, until a counter of 64 bits has been through all its values: the global timeline
    ascends, from 1 on and up to the counter; no number is issued twice; and what a step adds to the timeline has one
    of the numbers it issues. -/
theorem timeline_ordered [DoubleChars] [LawfulDoubleChars] (limits : RuntimeLimits) (steps : List LedgerStep) :
    2 ^ 64 ≤ (issued { limits := limits } steps).length ∨
      ((Run.exec advance { limits := limits } steps).globalTimeline.map TimelineEntry.sequence).Pairwise (· < ·) ∧
      (∀ entry ∈ (Run.exec advance { limits := limits } steps).globalTimeline,
        0 < entry.sequence ∧ entry.sequence ≤ (Run.exec advance { limits := limits } steps).timelineSequence) ∧
      (issued { limits := limits } steps).Pairwise (· < ·) ∧
      ∀ front step rest, steps = front ++ step :: rest →
        ∀ entry ∈ ((Run.exec advance { limits := limits } front).advance step).globalTimeline,
          entry.sequence ∈ (Run.exec advance { limits := limits } front).issued [step] ∨
          ∃ old ∈ (Run.exec advance { limits := limits } front).globalTimeline, old.sequence = entry.sequence := by
  rw [or_iff_not_imp_left, not_le]
  intro hbound
  have hnew : Ordered { limits := limits } := Log.ordered_nil
  have hordered : (Run.exec advance { limits := limits } steps).Ordered :=
    ordered_exec hnew (by rw [Nat.zero_add]; exact hbound)
  have hissued := (@Log.takenIn_eq _ _ advance timelineSequence (2 ^ 64) (fun _ _ => sequence_advance) steps
    { limits := limits } (by rw [Nat.zero_add]; exact hbound)).1
  refine ⟨hordered.ascending, fun entry hentry => ⟨hordered.positive entry hentry, hordered.bounded entry hentry⟩, ?_,
    fun front step rest hsteps => ?_⟩
  · rw [issued, hissued]
    exact List.pairwise_lt_range'
  · have hfront : (issued { limits := limits } front).length < 2 ^ 64 := by
      rw [hsteps, issued, Log.takenIn_append, List.length_append] at hbound
      exact lt_of_le_of_lt (Nat.le_add_right _ _) hbound
    have hsequence := (@Log.takenIn_eq _ _ advance timelineSequence (2 ^ 64) (fun _ _ => sequence_advance) front
      { limits := limits } (by rw [Nat.zero_add]; exact hfront)).2
    refine (numbered_advance (ordered_exec hnew (by rw [Nat.zero_add]; exact hfront)) ?_).2
    rw [hsequence, Nat.zero_add]
    exact hfront

/-! ### The bound of the global timeline -/

/-- The entries that an operation, other than an evaluation or an event from outside, records. -/
def recorded (L : FindingLedger) : Operation → Nat
  | .commitIntent document _ =>
    if !(document.validate L.limits).ok then 0
    else match L.findBaseline document.target with
      | none => if L.limits.maxTargets ≤ L.baselines.size then 0 else 1
      | some existing =>
        if document.epoch < existing.epoch then 0
        else if document.generation ≤ existing.generation then 0
        else L.findings.values.countP (rebases document.target document.generation) + 1
  | .suppress finding actor .. =>
    match L.findings.find? finding with
    | none => 0
    | some f =>
      if actor.empty || !isValidIdentityText actor.str then 0
      else if L.limits.maxSuppressions ≤ L.suppressionsActive && f.suppression.isNone then 0
      else 1
  | .clearSuppression finding .. => if (L.findings.find? finding).any fun f => f.suppression.isSome then 1 else 0
  | .acknowledge finding actor .. =>
    if (L.findings.find? finding).isNone || actor.empty || !isValidIdentityText actor.str then 0 else 1
  | .clearAcknowledgement finding .. => if (L.findings.find? finding).any fun f => !f.acknowledgedBy.empty then 1 else 0
  | .expireSuppressions now => L.findings.values.countP (suppressionExpires now)
  | _ => 0

section Bound
variable [DoubleChars] {L M : FindingLedger} {op : Operation}

/-- The step finds room: an evaluation for its groups, every other operation for the entries it records. -/
def TimelineRoom (L : FindingLedger) : LedgerStep → Prop
  | .operate op => match L.applied op with
    | some (outcome, policy, now) =>
      L.limits.maxFindings < L.findings.size + L.newFindings outcome.targets ∨
        GroupsFit outcome policy now (outcome.targets.filter L.accepts) L
    | none => L.globalTimeline.length + L.recorded op ≤ L.limits.maxGlobalTimelineEntries
  | .restart .. => True

omit [DoubleChars] in
theorem length_keepLast {α : Type} (limit : Nat) (items : List α) : (keepLast limit items).length ≤ limit := by
  rw [keepLast, List.length_drop]
  omega

omit [DoubleChars] in
theorem length_appendAll {entries : List TimelineEntry} :
    (L.appendAll entries).globalTimeline.length = L.globalTimeline.length + entries.length := by
  induction entries generalizing L with
  | nil => rfl
  | cons entry rest ih =>
    rw [show L.appendAll (entry :: rest) = (L.appendTimeline entry).appendAll rest from rfl, ih, List.length_cons,
      appendTimeline, List.length_append, List.length_singleton]
    omega

omit [DoubleChars] in
/-- A sweep records an event for each finding it changes. -/
theorem length_sweep {step : Finding → Finding × List TimelineEntry} {p : Finding → Bool}
    (hstep : ∀ f, (step f).2.length = (p f).toNat) :
    (L.sweep step).globalTimeline.length = L.globalTimeline.length + L.findings.values.countP p := by
  have hcount : ∀ fs : List Finding, (fs.flatMap fun f => (step f).2).length = fs.countP p := by
    intro fs
    induction fs with
    | nil => rfl
    | cons f fs ih =>
      rw [List.flatMap_cons, List.length_append, ih, hstep, List.countP_cons]
      cases p f <;> simp [Nat.add_comm]
  rw [sweep, length_appendAll, hcount]

theorem length_expireSuppressions {now : NdoTime} : (L.expireSuppressions now).globalTimeline.length =
    L.globalTimeline.length + L.findings.values.countP (suppressionExpires now) := by
  have hsweep := @length_sweep L (expireFinding L.limits now) (suppressionExpires now) fun f => by
    unfold expireFinding
    split_ifs with hexpires
    · rw [hexpires]
      rfl
    · rw [Bool.not_eq_true] at hexpires
      rw [hexpires]
      rfl
  rw [← hsweep]
  unfold expireSuppressions
  dsimp only
  split_ifs <;> rfl

theorem length_commitIntent {document : IntentGenerationDocument} {now : NdoTime} :
    (L.commitIntent document now).2.1.globalTimeline.length =
      L.globalTimeline.length + L.recorded (.commitIntent document now) := by
  have hstep : ∀ f, (rebaseFinding L.limits (baselineOf document now) document.target document.generation now
      f).2.length = (rebases document.target document.generation f).toNat := fun f => by
    unfold rebaseFinding
    split_ifs with hrebases
    · rw [hrebases]
      rfl
    · rw [Bool.not_eq_true] at hrebases
      rw [hrebases]
      rfl
  unfold commitIntent recorded
  dsimp only
  split
  · rfl
  · cases L.findBaseline document.target with
    | none =>
      dsimp only
      split
      · rfl
      · rw [bumpRevision, appendTimeline, List.length_append]
        rfl
    | some existing =>
      dsimp only
      split
      · rfl
      · by_cases hold : document.generation < existing.generation
        · rw [if_pos hold, if_pos (le_of_lt hold)]
          rfl
        · by_cases hsame : document.generation = existing.generation
          · rw [if_neg hold, if_pos hsame, if_pos (le_of_eq hsame)]
            split <;> rfl
          · have hle : ¬ document.generation ≤ existing.generation := fun hle => hold (lt_of_le_of_ne hle hsame)
            rw [if_neg hold, if_neg hsame, if_neg hle]
            simp only [bumpRevision, appendTimeline, rebaseFindingsForTarget, dropGroups, List.length_append,
              List.length_singleton]
            rw [length_sweep hstep, Nat.add_assoc]

theorem length_actOn {id : FindingId} {f : Finding} {event : TimelineEntry} {active : Nat} :
    ({ L with suppressionsActive := active }.actOn id f event).globalTimeline.length = L.globalTimeline.length + 1 :=
  List.length_append

theorem length_operator (hop : op.isOperator = true) :
    (L.operate op).globalTimeline.length ≤ L.globalTimeline.length + L.recorded op := by
  cases op with
  | suppress finding actor reason expiresAt now =>
    simp only [operate, suppress, recorded]
    cases L.findings.find? finding with
    | none => exact Nat.le_refl _
    | some f =>
      dsimp only
      split
      · exact Nat.le_refl _
      · split
        · exact Nat.le_refl _
        · split
          · exact Nat.le_add_right _ _
          · split <;> exact le_of_eq length_actOn
  | clearSuppression finding actor now =>
    simp only [operate, clearSuppression, recorded]
    cases L.findings.find? finding with
    | none => exact Nat.le_refl _
    | some f =>
      dsimp only
      rw [Option.any_some]
      cases f.suppression with
      | none => exact Nat.le_refl _
      | some sid => exact le_of_eq length_actOn
  | acknowledge finding actor reason now =>
    simp only [operate, acknowledge, recorded]
    cases L.findings.find? finding with
    | none => exact Nat.le_refl _
    | some f =>
      dsimp only
      rw [Option.isNone_some, Bool.false_or]
      split
      · exact Nat.le_refl _
      · exact le_of_eq length_actOn
  | clearAcknowledgement finding actor now =>
    simp only [operate, clearAcknowledgement, recorded]
    cases L.findings.find? finding with
    | none => exact Nat.le_refl _
    | some f =>
      dsimp only
      rw [Option.any_some]
      cases f.acknowledgedBy.empty with
      | true => exact Nat.le_refl _
      | false => exact le_of_eq length_actOn
  | expireSuppressions now => exact le_of_eq length_expireSuppressions
  | _ => cases hop

/-- The timeline is within its bound. -/
def TimelineBounded (L : FindingLedger) : Prop := L.globalTimeline.length ≤ L.limits.maxGlobalTimelineEntries

theorem bounded_applyEvaluation {outcome : EvaluationOutcome} {policy : ObservatoryPolicy} {now : NdoTime}
    (hroom : L.limits.maxFindings < L.findings.size + L.newFindings outcome.targets ∨
      GroupsFit outcome policy now (outcome.targets.filter L.accepts) L) (h : L.TimelineBounded) :
    (L.applyEvaluation outcome policy now).2.1.TimelineBounded := by
  unfold applyEvaluation
  dsimp only
  split
  · exact h
  · rename_i hfits
    rcases @applyTargets_spec _ outcome policy now (outcome.targets.filter L.accepts) L
      { fencedTargets := outcome.targets.length - (outcome.targets.filter L.accepts).length } with
      ⟨-, hok⟩ | ⟨hfit, -⟩
    · rcases hloop : applyTargets outcome policy now (outcome.targets.filter L.accepts) L
        { fencedTargets := outcome.targets.length - (outcome.targets.filter L.accepts).length } with ⟨status, M, report⟩
      rw [hloop] at hok
      simp only at hok
      simp only [hok, Bool.not_true, Bool.false_eq_true, if_false]
      exact length_keepLast _ _
    · exact absurd (hroom.resolve_left hfits) hfit

theorem bounded_operate (hroom : L.TimelineRoom (.operate op)) (h : L.TimelineBounded) :
    (L.operate op).TimelineBounded := by
  simp only [TimelineRoom] at hroom
  cases happly : L.applied op with
  | some applied =>
    obtain ⟨outcome, policy, now⟩ := applied
    rw [happly] at hroom
    rw [operate_applied happly]
    exact bounded_applyEvaluation hroom h
  | none =>
    rw [happly] at hroom
    dsimp only at hroom
    rw [TimelineBounded, limits_operate]
    cases hop : op.isOperator with
    | true => exact (length_operator hop).trans hroom
    | false =>
      cases op with
      | commitIntent document now => exact (le_of_eq length_commitIntent).trans hroom
      | recordObservation snapshot verdict recovered =>
        simp only [operate, recordObservation]
        split
        · exact h
        · split <;> exact h
      | evaluate policy limits epoch incarnation now =>
        rw [operate_evaluate_refused happly]
        exact h
      | applyEvaluation => cases happly
      | invalidateRetainedEvidence reason now =>
        simp only [operate, invalidateRetainedEvidence]
        split_ifs <;> exact h
      | recordEvent entry => exact length_keepLast _ _
      | _ => cases hop

/-- In every life of a ledger in which each step finds room for what it records without trimming, the global timeline
    stays within its bound. -/
theorem timeline_bounded [LawfulDoubleChars] (limits : RuntimeLimits) {steps : List LedgerStep}
    (h : Run.Permits advance TimelineRoom { limits := limits } steps) :
    (Run.exec advance { limits := limits } steps).globalTimeline.length ≤
      (Run.exec advance { limits := limits } steps).limits.maxGlobalTimelineEntries := by
  refine @Run.invariant _ _ advance TimelineRoom TimelineBounded (fun M step hM hstep => ?_) steps _ (Nat.zero_le _) h
  cases step with
  | operate op => exact bounded_operate hstep hM
  | restart limits epoch incarnation liveEpoch =>
    rw [advance]
    rcases @recover_cases _ M _ limits epoch liveEpoch incarnation with hsame | ⟨hlegible, hrestart⟩
    · rw [hsame]
      exact hM
    · rw [hrestart, TimelineBounded]
      show (M.globalTimeline.map TimelineEntry.reread).length ≤ limits.maxGlobalTimelineEntries
      rw [List.length_map]
      exact hlegible.timelineCount

end Bound

end FindingLedger

namespace Sample
open FindingLedger

/-- The intent of two targets is published. -/
def publishBoth : List LedgerStep :=
  [.operate (.commitIntent document ⟨1⟩), .operate (.commitIntent { document with target := other } ⟨1⟩)]

/-- An event is recorded, the ledger written and read back, and the event recorded again. -/
def recordedAgain : List LedgerStep :=
  [.operate (.recordEvent (intentEvent document .created ⟨1⟩ .none [])), .restart {} ⟨1⟩ ⟨1⟩ ⟨1⟩,
    .operate (.recordEvent (intentEvent document .created ⟨1⟩ .none []))]

end Sample

theorem FindingLedger.timeline_overgrown :
    ¬ (Run.exec (@advance Sample.bitDoubles) { limits := { maxGlobalTimelineEntries := 1 } }
        Sample.publishBoth).globalTimeline.length ≤
      (Run.exec (@advance Sample.bitDoubles) { limits := { maxGlobalTimelineEntries := 1 } }
        Sample.publishBoth).limits.maxGlobalTimelineEntries := by decide +kernel

theorem FindingLedger.timeline_bounded_publishBoth :
    (Run.exec (@advance Sample.bitDoubles) { limits := { maxGlobalTimelineEntries := 2 } }
        Sample.publishBoth).globalTimeline.length = 2 ∧
      (Run.exec (@advance Sample.bitDoubles) { limits := { maxGlobalTimelineEntries := 2 } }
          Sample.publishBoth).globalTimeline.length ≤
        (Run.exec (@advance Sample.bitDoubles) { limits := { maxGlobalTimelineEntries := 2 } }
          Sample.publishBoth).limits.maxGlobalTimelineEntries := by
  refine ⟨by decide +kernel, @timeline_bounded Sample.bitDoubles Sample.lawful_bitDoubles _ _ ⟨?_, ?_, trivial⟩⟩
  · have hroom : ([] : List TimelineEntry).length +
        recorded { limits := { maxGlobalTimelineEntries := 2 } } (.commitIntent Sample.document ⟨1⟩) ≤ 2 := by
      decide +kernel
    exact hroom
  · have hroom : (@advance Sample.bitDoubles { limits := { maxGlobalTimelineEntries := 2 } }
        (.operate (.commitIntent Sample.document ⟨1⟩))).globalTimeline.length +
        (@advance Sample.bitDoubles { limits := { maxGlobalTimelineEntries := 2 } }
          (.operate (.commitIntent Sample.document ⟨1⟩))).recorded
          (.commitIntent { Sample.document with target := Sample.other } ⟨1⟩) ≤
        (@advance Sample.bitDoubles { limits := { maxGlobalTimelineEntries := 2 } }
          (.operate (.commitIntent Sample.document ⟨1⟩))).limits.maxGlobalTimelineEntries := by
      decide +kernel
    exact hroom

theorem FindingLedger.timeline_ordered_recordedAgain :
    (@issued Sample.bitDoubles { limits := {} } Sample.recordedAgain) = [1, 2] ∧
      ((Run.exec (@advance Sample.bitDoubles) { limits := {} } Sample.recordedAgain).globalTimeline.map
        TimelineEntry.sequence).Pairwise (· < ·) := by
  have hissued : (@issued Sample.bitDoubles { limits := {} } Sample.recordedAgain) = [1, 2] := by
    simp only [issued, Sample.recordedAgain, Log.takenIn, Log.taken]
    obtain ⟨L, hL⟩ : ∃ L, L = @advance Sample.bitDoubles { limits := {} }
      (.operate (.recordEvent (intentEvent Sample.document .created ⟨1⟩ .none []))) := ⟨_, rfl⟩
    have hone : L.timelineSequence = 1 := by rw [hL]; rfl
    have hempty : L.findings.values = [] := by rw [hL]; rfl
    have hrestart := @sequence_recover_empty Sample.bitDoubles L Sample.lawful_bitDoubles {} ⟨1⟩ ⟨1⟩ ⟨1⟩ hempty
      (by omega)
    rw [← hL]
    generalize @advance Sample.bitDoubles L (.restart {} ⟨1⟩ ⟨1⟩ ⟨1⟩) = M at hrestart ⊢
    have hnext : (@advance Sample.bitDoubles M (.operate
        (.recordEvent (intentEvent Sample.document .created ⟨1⟩ .none [])))).timelineSequence = M.timelineSequence + 1 := rfl
    rw [hnext, hrestart, hone]
    rfl
  refine ⟨hissued, ?_⟩
  rcases @timeline_ordered Sample.bitDoubles Sample.lawful_bitDoubles {} Sample.recordedAgain with hmany | hordered
  · rw [hissued] at hmany
    exact absurd hmany (by decide)
  · exact hordered.1

end DriftObservatory
