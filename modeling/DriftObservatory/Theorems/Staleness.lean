import DriftObservatory.Theorems.Cancellation
import DriftObservatory.Theorems.Pointwise
import DriftObservatory.Theorems.Verdicts

/-! What an outcome that resolves a finding was computed from. The apply step fences the epoch, the incarnation and the
    baseline generation; it does not look at the observations, so the newest one may have been overtaken since. -/

namespace DriftObservatory

namespace FindingLedger

/-! ### The newest observation of a source -/

/-- The newest retained observation of a source for a target. -/
def newest (L : FindingLedger) (target : TargetId) (source : SourceId) : Option ObservationSnapshot :=
  ((L.windows.find? ⟨target, source⟩).getD []).getLast?.map RetainedObservation.snapshot

/-- The snapshot is of the same epoch and incarnation as the newest one and comes before it. -/
def Precedes (snapshot newest : ObservationSnapshot) : Prop :=
  snapshot.epoch = newest.epoch ∧ snapshot.incarnation = newest.incarnation ∧ snapshot.sequence < newest.sequence

section Windows
variable {window : List RetainedObservation} {record last : RetainedObservation} {limit : Nat}

theorem getLast?_eraseIdx {α : Type} {xs : List α} {i : Nat} (h : i + 1 < xs.length) :
    (xs.eraseIdx i).getLast? = xs.getLast? := by
  have hne : xs ≠ [] := List.ne_nil_of_length_pos (by omega)
  conv_lhs => rw [← List.dropLast_append_getLast hne]
  rw [List.eraseIdx_append_of_lt_length (by rw [List.length_dropLast]; omega), List.getLast?_concat,
    List.getLast?_eq_some_getLast hne]

theorem victim_lt (h : 2 ≤ window.length) : victim window + 1 < window.length := by
  unfold victim
  cases hidx : window.dropLast.findIdx? RetainedObservation.recovered with
  | none => exact h
  | some i =>
    have hlt := (List.findIdx?_eq_some_iff_getElem.mp hidx).1
    rw [List.length_dropLast] at hlt
    show i + 1 < window.length
    omega

/-- The window bound evicts no newest observation. -/
theorem getLast?_boundWindow (h : 2 ≤ window.length) : (boundWindow limit window).getLast? = window.getLast? := by
  unfold boundWindow
  split_ifs
  · exact getLast?_eraseIdx (victim_lt h)
  · rfl

/-- An observation that precedes the newest one is inserted before it. -/
theorem getLast?_insertObservation (hlast : window.getLast? = some last)
    (hp : Precedes record.snapshot last.snapshot) :
    (insertObservation record window).getLast? = some last ∧ 2 ≤ (insertObservation record window).length := by
  have hnot : olderThan last record = false := by
    simp only [olderThan, hp.1, hp.2.1, ne_eq, not_true_eq_false, if_false, decide_eq_false_iff_not, not_lt]
    exact hp.2.2.le
  obtain ⟨front, rfl⟩ := List.getLast?_eq_some_iff.mp hlast
  have hdrop : ∃ rest, (front ++ [last]).dropWhile (fun o => olderThan o record) = rest ++ [last] := by
    induction front with
    | nil => exact ⟨[], by simp [hnot]⟩
    | cons o front ih =>
      rw [List.cons_append, List.dropWhile_cons]
      split_ifs
      · exact ih (by simp)
      · exact ⟨o :: front, rfl⟩
  obtain ⟨rest, hdrop⟩ := hdrop
  unfold insertObservation
  rw [hdrop]
  refine ⟨?_, by simp; omega⟩
  rw [← List.cons_append, ← List.append_assoc, List.getLast?_concat]

end Windows

section Record
variable {L : FindingLedger} {snapshot : ObservationSnapshot} {verdict : FreshnessVerdict} {recovered : Bool}
  {target : TargetId} {source : SourceId}

/-- Recording an observation leaves the ledger alone, or puts the observation into its window. -/
theorem recordObservation_cases :
    ((L.recordObservation snapshot verdict recovered).2.1 = L ∧
      ((L.recordObservation snapshot verdict recovered).1.ok = true →
        (L.recordObservation snapshot verdict recovered).2.2.duplicateIdentical = true)) ∨
    ((L.recordObservation snapshot verdict recovered).1.ok = true ∧
      (L.recordObservation snapshot verdict recovered).2.2.duplicateIdentical = false ∧
      (L.recordObservation snapshot verdict recovered).2.1 = { L with
        windows := L.windows.insert ⟨snapshot.target, snapshot.source⟩
          (boundWindow L.limits.maxRetainedSnapshotsPerSource (insertObservation ⟨snapshot, verdict, recovered⟩
            ((L.windows.find? ⟨snapshot.target, snapshot.source⟩).getD []))) }.bumpRevision) := by
  unfold recordObservation
  dsimp only
  split
  · rename_i hbad
    exact .inl ⟨rfl, fun hok => absurd hok (by simpa using hbad)⟩
  · split
    · rename_i status report hdec
      refine .inl ⟨rfl, fun hok => ?_⟩
      split at hdec
      · cases hdec
      · unfold fenceObservation at hdec
        split_ifs at hdec <;> cases hdec
        · cases hok
        · cases hok
        · rfl
        · cases hok
    · rename_i report hdec
      refine .inr ⟨rfl, ?_, rfl⟩
      split at hdec
      · cases hdec
        rfl
      · unfold fenceObservation at hdec
        split_ifs at hdec
        cases hdec
        rfl

/-- Only an admitted observation that does not precede the newest one takes its place. -/
theorem newest_recordObservation
    (h : snapshot.target = target → snapshot.source = source →
      (L.recordObservation snapshot verdict recovered).1.ok = true →
      (L.recordObservation snapshot verdict recovered).2.2.duplicateIdentical = false →
      ∃ last, L.newest target source = some last ∧ Precedes snapshot last) :
    (L.recordObservation snapshot verdict recovered).2.1.newest target source = L.newest target source := by
  rcases @recordObservation_cases L snapshot verdict recovered with ⟨hsame, -⟩ | ⟨hok, hdup, hwindow⟩
  · rw [hsame]
  · rw [hwindow]
    by_cases hkey : (⟨snapshot.target, snapshot.source⟩ : SourceWindowKey) = ⟨target, source⟩
    · have ht : snapshot.target = target := congrArg SourceWindowKey.target hkey
      have hs : snapshot.source = source := congrArg SourceWindowKey.source hkey
      obtain ⟨last, hlast, hp⟩ := h ht hs hok hdup
      subst ht hs
      obtain ⟨retained, hretained, rfl⟩ := Option.map_eq_some_iff.mp hlast
      obtain ⟨hins, hlen⟩ := @getLast?_insertObservation _ ⟨snapshot, verdict, recovered⟩ retained hretained hp
      rw [hlast]
      simp only [newest, bumpRevision, OrdMap.find?_insert_self, Option.getD_some]
      rw [getLast?_boundWindow hlen, hins]
      rfl
    · simp only [newest, bumpRevision, OrdMap.find?_insert_of_ne hkey]

theorem newest_invalidateRetainedEvidence {reason : ReasonCode} {now : NdoTime} :
    (L.invalidateRetainedEvidence reason now).newest target source = L.newest target source := by
  have hmap : ({ L with windows := L.windows.mapValues fun _ window => window.map (invalidate reason now) } :
      FindingLedger).newest target source = L.newest target source := by
    simp only [newest, OrdMap.find?_mapValues]
    cases L.windows.find? ⟨target, source⟩ with
    | none => rfl
    | some window =>
      simp only [Option.map_some, Option.getD_some, List.getLast?_map, Option.map_map]
      rfl
  unfold invalidateRetainedEvidence
  dsimp only
  split_ifs <;> exact hmap

/-- The newest observation is one of those an evaluation of the target copies. -/
theorem mem_observationsFor_of_newest (h : L.newest target source = some snapshot) :
    ∃ o ∈ L.observationsFor target, o.snapshot = snapshot := by
  obtain ⟨o, ho, rfl⟩ := Option.map_eq_some_iff.mp h
  refine ⟨o, ?_, rfl⟩
  cases hw : L.windows.find? ⟨target, source⟩ with
  | none => simp [hw] at ho
  | some window =>
    rw [hw, Option.getD_some] at ho
    refine List.mem_flatMap.mpr ⟨_, OrdMap.mem_entries_iff.mpr hw, ?_⟩
    simpa using List.mem_of_getLast? ho

end Record

/-! ### Resolutions -/

section Resolution
variable [DoubleChars] {outcome : EvaluationOutcome} {policy : ObservatoryPolicy} {now : NdoTime} {L M : FindingLedger}
  {e : TargetEvaluation} {id : FindingId} {limits : RuntimeLimits}

theorem isLive_draftedFinding {freshness : FreshnessState} {d : FindingDraft} (before : Option Finding) :
    (draftedFinding limits outcome policy now freshness id d before).isLive = true := by
  cases before with
  | none => exact (created_createFinding id d).live
  | some f => exact (absorbed_updateFinding d f).live

theorem identity_settledFinding {drafts : OrdMap FindingId FindingDraft} {streak : Nat} {f : Finding} :
    (L.settledFinding outcome now drafts streak f).identity = f.identity := by
  unfold settledFinding
  split_ifs
  · exact (ended_supersedeFinding now f).identity
  · exact (ended_resolveFinding L.limits now streak f).identity
  · rfl

omit [DoubleChars] in
theorem assignGroup_kept {target : TargetId} {assignment : OrdMap FindingId GroupId} {f : Finding} :
    (assignGroup target now assignment f).1.identity = f.identity ∧
      (assignGroup target now assignment f).1.state = f.state := by
  unfold assignGroup
  split_ifs
  · split
    · split_ifs <;> exact ⟨rfl, rfl⟩
    · exact ⟨rfl, rfl⟩
  · exact ⟨rfl, rfl⟩

omit [DoubleChars] in
theorem resolved_clearSuppression {f : Finding} (h : f.clearSuppression.state = .resolved) : f.state = .resolved := by
  simp only [Finding.clearSuppression] at h
  split_ifs at h
  exact h

theorem resolved_expireFinding {f : Finding} (h : (expireFinding limits now f).1.state = .resolved) :
    f.state = .resolved ∧ (expireFinding limits now f).1.identity = f.identity := by
  unfold expireFinding at h ⊢
  split_ifs at h ⊢ with he
  · exact ⟨resolved_clearSuppression h, rfl⟩
  · exact ⟨h, rfl⟩

/-- A resolved finding was resolved before, or an accepted, decided target of the outcome resolved it. -/
def ResolvedBy (outcome : EvaluationOutcome) (L M : FindingLedger) : Prop :=
  ∀ id f', M.findings.find? id = some f' → f'.state = .resolved →
    (∃ f, L.findings.find? id = some f ∧ f.state = .resolved) ∨
    ∃ e ∈ outcome.targets, L.accepts e = true ∧ e.complianceDecidable = true ∧ e.target = f'.identity.target

theorem resolvedBy_applyTarget {report : LedgerApplyReport} (he : e ∈ outcome.targets) (hacc : L.accepts e = true)
    (h : ResolvedBy outcome L M) : ResolvedBy outcome L (applyTarget outcome policy now M report e).2.1 := by
  intro id f' hf' hres
  obtain ⟨f, hstep, hf⟩ := find?_applyTarget hf'
  have hkept : f'.identity = f.identity ∧ f'.state = f.state := by
    rcases hf with rfl | ⟨assignment, rfl⟩
    · exact ⟨rfl, rfl⟩
    · exact assignGroup_kept
  rw [hkept.2] at hres
  rw [hkept.1]
  generalize hbefore : M.findings.find? id = before at hstep
  cases hstep with
  | drafted before d hd hid =>
    have hlive := @isLive_draftedFinding _ outcome policy now id M.limits e.bestFreshness d before
    rw [Finding.isLive, hres] at hlive
    cases hlive
  | kept f hd => exact h id f hbefore hres
  | settled f hd ht hl hdec => exact .inr ⟨e, he, hacc, hdec, by rw [identity_settledFinding, ht]⟩

theorem resolvedBy_applyEvaluation : ResolvedBy outcome L (L.applyEvaluation outcome policy now).2.1 := by
  refine applyEvaluation_rule (fun M report e he hacc h => resolvedBy_applyTarget he hacc h) (fun M h => ?_)
    fun id f hf hres => .inl ⟨f, hf, hres⟩
  intro id f' hf' hres
  rw [find?_expireSuppressions] at hf'
  obtain ⟨f, hf, rfl⟩ := Option.map_eq_some_iff.mp hf'
  obtain ⟨hbefore, hidentity⟩ := resolved_expireFinding hres
  rw [hidentity]
  exact h id f hf hbefore

end Resolution

/-! ### Operations that keep the newest observation -/

section Frame
variable {L M : FindingLedger} {target : TargetId} {source : SourceId}

theorem newest_congr (h : M.windows = L.windows) : M.newest target source = L.newest target source := by
  rw [newest, newest, h]

variable [DoubleChars]

theorem windows_commitIntent {document : IntentGenerationDocument} {now : NdoTime} :
    (L.commitIntent document now).2.1.windows = L.windows := by
  unfold commitIntent
  dsimp only
  repeat' split
  all_goals first | rfl | skip
  exact (@SameGround.sweep _ _ (rebaseFinding _ _ _ _ _) ⟨rfl, rfl, rfl⟩).windows

theorem windows_suppress {finding : FindingId} {actor : ActorId} {reason : Text} {expiresAt : Option NdoTime}
    {now : NdoTime} : (L.suppress finding actor reason expiresAt now).2.windows = L.windows := by
  unfold suppress
  dsimp only
  repeat' split
  all_goals rfl

theorem windows_clearSuppression {finding : FindingId} {actor : ActorId} {now : NdoTime} :
    (L.clearSuppression finding actor now).2.windows = L.windows := by
  unfold clearSuppression
  dsimp only
  repeat' split
  all_goals rfl

theorem windows_acknowledge {finding : FindingId} {actor : ActorId} {reason : Text} {now : NdoTime} :
    (L.acknowledge finding actor reason now).2.windows = L.windows := by
  unfold acknowledge
  dsimp only
  repeat' split
  all_goals rfl

theorem windows_clearAcknowledgement {finding : FindingId} {actor : ActorId} {now : NdoTime} :
    (L.clearAcknowledgement finding actor now).2.windows = L.windows := by
  unfold clearAcknowledgement
  dsimp only
  repeat' split
  all_goals rfl

theorem windows_expireSuppressions {now : NdoTime} : (L.expireSuppressions now).windows = L.windows := by
  have hs := @SameGround.sweep L L (expireFinding L.limits now) (SameGround.refl L)
  unfold expireSuppressions
  dsimp only
  split <;> exact hs.windows

end Frame

end FindingLedger

/-! ### Runs -/

namespace System

/-- Ingestion leaves the ledger alone, or records the observation at its receive time. -/
theorem ingestObservation_cases {o : Observatory} {snapshot : ObservationSnapshot} {receiveTime : NdoTime} :
    (o.ingestObservation snapshot receiveTime).2.1.ledger = o.ledger ∨
    ∃ verdict,
      (o.ingestObservation snapshot receiveTime).2.1.ledger =
        (o.ledger.recordObservation { snapshot with receivedAt := receiveTime } verdict false).2.1 ∧
      (o.ingestObservation snapshot receiveTime).1.ok =
        (o.ledger.recordObservation { snapshot with receivedAt := receiveTime } verdict false).1.ok ∧
      (o.ingestObservation snapshot receiveTime).2.2 =
        (o.ledger.recordObservation { snapshot with receivedAt := receiveTime } verdict false).2.2 := by
  unfold Observatory.ingestObservation
  dsimp only
  split
  · exact .inl rfl
  · split
    · exact .inl rfl
    · refine .inr ⟨evaluateFreshness { snapshot with receivedAt := receiveTime }
        (Observatory.freshnessFor o.config.policy snapshot.target) receiveTime o.config.epoch false, ?_⟩
      generalize o.ledger.recordObservation _ _ false = recorded
      split
      · exact ⟨rfl, rfl, rfl⟩
      · rename_i hok
        have hok : recorded.1.ok = true := by simpa using hok
        split <;> exact ⟨rfl, hok.symm, rfl⟩

/-- A rotation is refused and changes nothing, or it invalidates the retained evidence. -/
theorem rotateIncarnation_cases {o : Observatory} {incarnation : Incarnation} {epoch : FabricEpoch} {now : NdoTime} :
    ((o.rotateIncarnation incarnation epoch now).1.ok = false ∧ (o.rotateIncarnation incarnation epoch now).2 = o) ∨
    (o.rotateIncarnation incarnation epoch now).2.ledger =
      o.ledger.invalidateRetainedEvidence .evidenceRecoveredNotFresh now := by
  unfold Observatory.rotateIncarnation
  split_ifs
  · exact .inl ⟨rfl, rfl⟩
  · exact .inl ⟨rfl, rfl⟩
  · exact .inl ⟨rfl, rfl⟩
  · exact .inr rfl

variable {s : System} {a : Action} {target : TargetId} {source : SourceId}

/-- A step that can put another observation of the source in the place of the newest one: an admitted observation that
    does not precede it, or a new ledger. -/
def Overtakes (o : Observatory) (target : TargetId) (source : SourceId) : Action → Prop
  | .replaceLedger _ => True
  | .ingestObservation snapshot receiveTime =>
    snapshot.target = target ∧ snapshot.source = source ∧ (o.ingestObservation snapshot receiveTime).1.ok = true ∧
      (o.ingestObservation snapshot receiveTime).2.2.duplicateIdentical = false ∧
      ∀ last, o.ledger.newest target source = some last → ¬ FindingLedger.Precedes snapshot last
  | _ => False

theorem newest_ingestObservation {o : Observatory} {snapshot : ObservationSnapshot} {receiveTime : NdoTime}
    (h : ¬ Overtakes o target source (.ingestObservation snapshot receiveTime)) :
    (o.ingestObservation snapshot receiveTime).2.1.ledger.newest target source = o.ledger.newest target source := by
  rcases @ingestObservation_cases o snapshot receiveTime with hsame | ⟨verdict, hledger, hok, hreport⟩
  · rw [hsame]
  · rw [hledger]
    refine FindingLedger.newest_recordObservation fun ht hs hrec hdup => ?_
    by_contra hnone
    refine h ⟨ht, hs, hok.trans hrec, by rw [hreport]; exact hdup, fun last hlast hp => hnone ⟨last, hlast, hp⟩⟩

variable [DoubleChars]

theorem publishIntent_windows {o : Observatory} {document : IntentGenerationDocument} {stamp : NdoTime} :
    (o.publishIntent document stamp).2.1.ledger.windows = o.ledger.windows := by
  have hcommit := @FindingLedger.windows_commitIntent o.ledger _ document stamp
  unfold Observatory.publishIntent
  dsimp only
  repeat' split
  all_goals first | rfl | exact hcommit

theorem publish_windows {index : Nat} : (s.step (.publish index)).observatory.ledger.windows =
    s.observatory.ledger.windows := by
  cases he : s.evaluations[index]? with
  | none => simp only [step, publish, he]
  | some e =>
    rcases publish_spec he with ⟨hsame, -⟩ | ⟨policy, -, -, -, hpub, -⟩
    · rw [hsame]
    · rw [hpub]
      rcases @Observatory.publishEvaluation_spec s.observatory _ e.input policy e.targets e.apply with
        ⟨hsame, -⟩ | ⟨-, -, -, hledger, -⟩
      · rw [hsame]
      · rw [hledger]
        exact FindingLedger.ground_applyEvaluation.windows

/-- The steps that change an observation window. -/
def touchesWindows : Action → Bool
  | .replaceLedger _ | .ingestObservation .. | .rotateIncarnation .. => true
  | _ => false

theorem windows_step (h : touchesWindows a = false) :
    (s.step a).observatory.ledger.windows = s.observatory.ledger.windows := by
  cases a with
  | replaceLedger | ingestObservation | rotateIncarnation => cases h
  | start =>
    simp only [step, Observatory.start]
    repeat' split
    all_goals rfl
  | registerSource =>
    simp only [step, Observatory.registerSource]
    repeat' split
    all_goals rfl
  | publishIntent => exact publishIntent_windows
  | setPolicy =>
    simp only [step, Observatory.setPolicy]
    split <;> rfl
  | suppressFinding => exact FindingLedger.windows_suppress
  | clearSuppression => exact FindingLedger.windows_clearSuppression
  | acknowledgeFinding => exact FindingLedger.windows_acknowledge
  | clearAcknowledgement => exact FindingLedger.windows_clearAcknowledgement
  | expireSuppressions => exact FindingLedger.windows_expireSuppressions
  | evaluateAt now apply =>
    rw [show s.step (.evaluateAt now apply) = s.evaluateAt now apply from rfl, evaluateAt_observatory]
    simp only [Observatory.admitEvaluation]
    repeat' split
    all_goals rfl
  | publish index => exact publish_windows
  | _ => rfl

theorem newest_step (h : ¬ Overtakes s.observatory target source a) :
    (s.step a).observatory.ledger.newest target source = s.observatory.ledger.newest target source := by
  cases a with
  | replaceLedger => exact absurd trivial h
  | ingestObservation => exact newest_ingestObservation h
  | rotateIncarnation incarnation epoch now =>
    show (s.observatory.rotateIncarnation incarnation epoch now).2.ledger.newest target source = _
    rcases @rotateIncarnation_cases s.observatory incarnation epoch now with ⟨-, hsame⟩ | hledger
    · rw [hsame]
    · rw [hledger]
      exact FindingLedger.newest_invalidateRetainedEvidence
  | _ => exact FindingLedger.newest_congr (windows_step rfl)

theorem input_exec {actions : List Action} {index : Nat} {e : Evaluation} (he : s.evaluations[index]? = some e) :
    ∃ e', (Run.exec System.step s actions).evaluations[index]? = some e' ∧ e'.input = e.input := by
  induction actions generalizing s e with
  | nil => exact ⟨e, he, rfl⟩
  | cons a rest ih =>
    obtain ⟨e₁, he₁, hm⟩ := @evaluations_kept s a index e _ he
    obtain ⟨e₂, he₂, hin⟩ := ih he₁
    exact ⟨e₂, he₂, hin.trans hm.input.1⟩

theorem newest_exec {actions : List Action}
    (h : Run.Permits System.step (fun s a => ¬ Overtakes s.observatory target source a) s actions) :
    (Run.exec System.step s actions).observatory.ledger.newest target source =
      s.observatory.ledger.newest target source := by
  refine @Run.invariant _ _ _ _
    (fun s' => s'.observatory.ledger.newest target source = s.observatory.ledger.newest target source)
    (fun s' a hs ha => (newest_step ha).trans hs) _ _ rfl h

/-- A publication that resolves a finding passes the fences of the engine, and an accepted, decided target of the
    evaluation is about the target of the finding. -/
theorem resolved_publish {index : Nat} {e : Evaluation} {id : FindingId} {f : Finding}
    (he : s.evaluations[index]? = some e)
    (hf : (s.step (.publish index)).observatory.ledger.findings.find? id = some f) (hres : f.state = .resolved)
    (hnew : ∀ f₀, s.observatory.ledger.findings.find? id = some f₀ → f₀.state ≠ .resolved) :
    ∃ policy, e.policy = some policy ∧ e.input.epoch = s.observatory.config.epoch ∧
      e.input.incarnation = s.observatory.config.incarnation ∧
      ∃ t ∈ e.targets, s.observatory.ledger.accepts t = true ∧ t.complianceDecidable = true ∧
        t.target = f.identity.target := by
  rcases publish_spec he with ⟨hsame, -⟩ | ⟨policy, hpolicy, -, -, hpub, -⟩
  · rw [hsame] at hf
    exact absurd hres (hnew f hf)
  · rw [hpub] at hf
    rcases @Observatory.publishEvaluation_spec s.observatory _ e.input policy e.targets e.apply with
      ⟨hsame, -⟩ | ⟨hepoch, hincarnation, -, hledger, -⟩
    · rw [hsame] at hf
      exact absurd hres (hnew f hf)
    · rw [hledger] at hf
      refine ⟨policy, hpolicy, hepoch, hincarnation, ?_⟩
      rcases FindingLedger.resolvedBy_applyEvaluation id f hf hres with ⟨f₀, hf₀, hres₀⟩ | hby
      · exact absurd hres₀ (hnew f₀ hf₀)
      · exact hby

/-- Whenever a publication resolves a finding, the epoch, the incarnation and the generation of the target's baseline
    are those its input was built under, and the newest retained observation of every source is the one in its input
    unless it was overtaken since. -/
theorem resolved_from_newest (o : Observatory) (before between : List Action) (now : NdoTime) (apply : Bool) :
    let start := Run.exec System.step ⟨o, []⟩ before
    let launch := start.step (.evaluateAt now apply)
    let s := Run.exec System.step launch between
    let index := start.evaluations.length
    launch.evaluations ≠ start.evaluations →
    ∀ id f, (s.step (.publish index)).observatory.ledger.findings.find? id = some f → f.state = .resolved →
      (∀ f₀, s.observatory.ledger.findings.find? id = some f₀ → f₀.state ≠ .resolved) →
      s.observatory.config.epoch = start.observatory.config.epoch ∧
      s.observatory.config.incarnation = start.observatory.config.incarnation ∧
      (∃ baseline current, start.observatory.ledger.findBaseline f.identity.target = some baseline ∧
        s.observatory.ledger.findBaseline f.identity.target = some current ∧
        current.generation = baseline.generation) ∧
      ∃ e c, s.evaluations[index]? = some e ∧ c ∈ e.input.targets ∧ c.target = f.identity.target ∧
        ∀ source, Run.Permits System.step (fun s a => ¬ Overtakes s.observatory f.identity.target source a)
            launch between →
          s.observatory.ledger.newest f.identity.target source =
              start.observatory.ledger.newest f.identity.target source ∧
            ∀ snapshot, s.observatory.ledger.newest f.identity.target source = some snapshot →
              some snapshot ∈ c.snapshots := by
  intro start launch s index hadmitted id f hf hres hnew
  have hlaunch : launch.evaluations = start.evaluations ++ [launched start.observatory now apply] :=
    evaluateAt_cases.resolve_left hadmitted
  have hfirst : launch.evaluations[index]? = some (launched start.observatory now apply) := by
    rw [hlaunch]
    exact List.getElem?_concat_length
  obtain ⟨e, he, hin⟩ : ∃ e, s.evaluations[index]? = some e ∧
      e.input = start.observatory.buildEvaluationInput now := input_exec hfirst
  obtain ⟨policy, hpolicy, hepoch, hincarnation, t, ht, hacc, hdec, htarget⟩ := resolved_publish he hf hres hnew
  have hfaithful : e.Faithful s.observatory := by
    have hall := @faithful_exec _ o (before ++ .evaluateAt now apply :: between)
    rw [Run.exec_append] at hall
    exact hall e (List.mem_of_getElem? he)
  obtain ⟨c, hc, rfl⟩ : ∃ c ∈ e.input.targets, t = compareTarget c policy s.observatory.config.limits := by
    rcases hfaithful.compared policy hpolicy t ht with rfl | h
    · cases hdec
    · exact h
  rw [target_compareTarget] at htarget
  have hmem : c ∈ (start.observatory.buildEvaluationInput now).targets := by
    rw [← hin]
    exact hc
  obtain ⟨target, -, hctarget⟩ := List.mem_map.mp hmem
  obtain ⟨baseline, primary, hcompared, -⟩ := compared_of_decidable hdec
  have hsame : target = f.identity.target := by
    rw [← htarget, ← hctarget]
    rfl
  subst hsame
  have hbaseline : start.observatory.ledger.findBaseline f.identity.target = some baseline := by
    rw [← hcompared.committed, ← hctarget]
    rfl
  refine ⟨hepoch.symm.trans (congrArg Observatory.EvaluationInput.epoch hin),
    hincarnation.symm.trans (congrArg Observatory.EvaluationInput.incarnation hin), ?_, e, c, he, hc, htarget, ?_⟩
  · unfold FindingLedger.accepts at hacc
    rw [target_compareTarget, htarget, hasBaseline_compareTarget, hcompared.committed,
      generation_compareTarget hcompared.committed] at hacc
    cases hcurrent : s.observatory.ledger.findBaseline f.identity.target with
    | none => simp [hcurrent] at hacc
    | some current => exact ⟨baseline, current, hbaseline, rfl, by simpa [hcurrent] using hacc⟩
  · intro source hquiet
    have hnewest : s.observatory.ledger.newest f.identity.target source =
        start.observatory.ledger.newest f.identity.target source := by
      refine (newest_exec hquiet).trans ?_
      exact newest_step fun h => h
    refine ⟨hnewest, fun snapshot hsnapshot => ?_⟩
    rw [hnewest] at hsnapshot
    obtain ⟨retained, hmem, rfl⟩ := FindingLedger.mem_observationsFor_of_newest hsnapshot
    rw [← hctarget]
    exact List.mem_map.mpr ⟨retained, hmem, rfl⟩

end System

namespace Sample

/-- Intent that declares the target and no object. -/
def document : IntentGenerationDocument where
  target := target
  generation := ⟨1⟩
  epoch := ⟨1⟩
  authority := .localPolicy
  policy := ⟨ascii "p"⟩
  authoredAt := ⟨1⟩
  evidence := .synthetic
  objects := ∅

/-- A complete observation of nothing. -/
def empty (sequence : UInt64) : ObservationSnapshot :=
  let s := { snapshot "a" { id := object, presence := .present, fields := ∅ } with
    sequence := ⟨sequence⟩, objects := ∅ }
  { s with snapshotId := s.computeSnapshotId }

/-- A finding about the missing evidence, then the first observation. -/
def observed : List Action :=
  [.start, .publishIntent document ⟨1⟩, .evaluateAt ⟨1⟩ true, .copyPolicy 0, .testCancelled 0 0, .compareNext 0 0,
    .publish 0, .ingestObservation (empty 1) ⟨2⟩]

/-- A second observation comes while the evaluation of the first is under way. -/
def overtaken : List Action :=
  [.copyPolicy 1, .ingestObservation (empty 2) ⟨3⟩, .testCancelled 1 0, .compareNext 1 0]

/-- The evaluation of the first observation is alone. -/
def alone : List Action := [.copyPolicy 1, .testCancelled 1 0, .compareNext 1 0]

/-- The state in which the evaluation of the first observation publishes. -/
def publishing (between : List Action) : System :=
  Run.exec (@System.step noDoubles)
    (@System.step noDoubles (Run.exec (@System.step noDoubles) ⟨observatory, []⟩ observed) (.evaluateAt ⟨2⟩ true)) between

theorem publishing_eq {between : List Action} :
    Run.exec (@System.step noDoubles) (@System.step noDoubles (Run.exec (@System.step noDoubles) ⟨observatory, []⟩
      observed) (.evaluateAt ⟨2⟩ true)) between = publishing between := rfl

theorem mem_of_find? {L : FindingLedger} {id : FindingId} {f : Finding} {α : Type} {g : Finding → α} {xs : List α}
    (h : L.findings.values.map g = xs) (hf : L.findings.find? id = some f) : g f ∈ xs := by
  rw [← h]
  exact List.mem_map_of_mem (OrdMap.mem_values.mpr ⟨id, hf⟩)

end Sample

theorem System.resolved_from_newest_alone :
    (@System.step Sample.noDoubles (Sample.publishing Sample.alone) (.publish 1)).observatory.ledger.findings.values.map
        Finding.state = [.resolved] ∧
      ∀ id f, (@System.step Sample.noDoubles (Sample.publishing Sample.alone)
          (.publish 1)).observatory.ledger.findings.find? id = some f →
        ∃ e c, (Sample.publishing Sample.alone).evaluations[1]? = some e ∧ c ∈ e.input.targets ∧
          c.target = f.identity.target ∧ ∀ source snapshot,
            (Sample.publishing Sample.alone).observatory.ledger.newest f.identity.target source = some snapshot →
              some snapshot ∈ c.snapshots := by
  have hfacts : (Sample.publishing Sample.alone).observatory.ledger.findings.values.map Finding.state = [.open] ∧
      (@System.step Sample.noDoubles (Sample.publishing Sample.alone)
        (.publish 1)).observatory.ledger.findings.values.map Finding.state = [.resolved] ∧
      (Run.exec (@System.step Sample.noDoubles) ⟨Sample.observatory, []⟩ Sample.observed).evaluations.length = 1 ∧
      (@System.step Sample.noDoubles (Run.exec (@System.step Sample.noDoubles) ⟨Sample.observatory, []⟩
        Sample.observed) (.evaluateAt ⟨2⟩ true)).evaluations.length = 2 := by decide +kernel
  obtain ⟨hbefore, hafter, hone, htwo⟩ := hfacts
  refine ⟨hafter, fun id f hf => ?_⟩
  have happly := @System.resolved_from_newest Sample.noDoubles Sample.observatory Sample.observed Sample.alone ⟨2⟩ true
  dsimp only at happly
  rw [hone, Sample.publishing_eq] at happly
  obtain ⟨-, -, -, e, c, he, hc, htarget, hnewest⟩ := happly
    (fun heq => absurd (congrArg List.length heq) (by rw [hone, htwo]; decide)) id f hf
    (List.mem_singleton.mp (Sample.mem_of_find? hafter hf))
    (fun f₀ hf₀ hres => by
      have hopen := List.mem_singleton.mp (Sample.mem_of_find? hbefore hf₀)
      rw [hres] at hopen
      cases hopen)
  refine ⟨e, c, he, hc, htarget, fun source => (hnewest source ?_).2⟩
  exact ⟨fun h => h, fun h => h, fun h => h, trivial⟩

theorem System.resolved_overtaken :
    ¬ ∀ (o : Observatory) (before between : List Action) (now : NdoTime) (apply : Bool),
      let start := Run.exec (@System.step Sample.noDoubles) ⟨o, []⟩ before
      let s := Run.exec (@System.step Sample.noDoubles) (@System.step Sample.noDoubles start (.evaluateAt now apply))
        between
      let index := start.evaluations.length
      ∀ id f, (@System.step Sample.noDoubles s (.publish index)).observatory.ledger.findings.find? id = some f →
        f.state = .resolved →
        (∀ f₀, s.observatory.ledger.findings.find? id = some f₀ → f₀.state ≠ .resolved) →
        ∀ e, s.evaluations[index]? = some e → ∀ c ∈ e.input.targets, c.target = f.identity.target →
          ∀ source snapshot, s.observatory.ledger.newest f.identity.target source = some snapshot →
            some snapshot ∈ c.snapshots := by
  intro h
  have hrun := h Sample.observatory Sample.observed Sample.overtaken ⟨2⟩ true
  have hfacts : (Sample.publishing Sample.overtaken).observatory.ledger.findings.values.map Finding.state = [.open] ∧
      (@System.step Sample.noDoubles (Sample.publishing Sample.overtaken)
        (.publish 1)).observatory.ledger.findings.values.map (fun f => (f.state, f.identity.target)) =
          [(.resolved, Sample.target)] ∧
      ((Sample.publishing Sample.overtaken).observatory.ledger.newest Sample.target ⟨ascii "a"⟩).map
        ObservationSnapshot.sequence = some ⟨2⟩ ∧
      (Sample.publishing Sample.overtaken).evaluations[1]?.map (fun e => e.input.targets.map fun c =>
        (c.target, c.snapshots.map fun s => s.map ObservationSnapshot.sequence)) =
          some [(Sample.target, [some ⟨1⟩])] ∧
      (Run.exec (@System.step Sample.noDoubles) ⟨Sample.observatory, []⟩ Sample.observed).evaluations.length = 1 := by
    decide +kernel
  obtain ⟨hbefore, hafter, hnewest, hinput, hone⟩ := hfacts
  dsimp only at hrun
  rw [hone, Sample.publishing_eq] at hrun
  obtain ⟨f, hmem, hf⟩ := List.exists_of_mem_map (hafter ▸ List.mem_singleton.mpr rfl)
  rw [Prod.mk.injEq] at hf
  obtain ⟨id, hfind⟩ := OrdMap.mem_values.mp hmem
  obtain ⟨e, he, htargets⟩ := Option.map_eq_some_iff.mp hinput
  obtain ⟨c, hc, hpair⟩ := List.exists_of_mem_map (htargets ▸ List.mem_singleton.mpr rfl)
  rw [Prod.mk.injEq] at hpair
  obtain ⟨snapshot, hsnapshot, hsequence⟩ := Option.map_eq_some_iff.mp hnewest
  have hcopied := hrun id f hfind hf.1
    (fun f₀ hf₀ hres => by
      have hopen := List.mem_singleton.mp (Sample.mem_of_find? hbefore hf₀)
      rw [hres] at hopen
      cases hopen) e he c hc (hpair.1.trans hf.2.symm) ⟨ascii "a"⟩ snapshot (by rw [hf.2]; exact hsnapshot)
  have hsecond : some (⟨2⟩ : SourceSequence) ∈ [some (⟨1⟩ : SourceSequence)] := by
    rw [← hpair.2, ← hsequence]
    exact List.mem_map_of_mem hcopied
  exact absurd hsecond (by decide)

end DriftObservatory
