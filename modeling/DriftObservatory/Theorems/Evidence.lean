import DriftObservatory.Theorems.Restart
import DriftObservatory.Theorems.Staleness

/-! Recovered evidence decides nothing: after a ledger was loaded or the incarnation rotated, only an observation that
    was admitted since can make a target decidable. -/

namespace DriftObservatory

namespace FindingLedger

/-! ### Current evidence -/

/-- Every retained observation that counts as current is in the list, and in the window of its source. -/
def CurrentFrom (admitted : List ObservationSnapshot) (L : FindingLedger) : Prop :=
  ∀ key window, L.windows.find? key = some window → ∀ o ∈ window, o.recovered = false →
    o.snapshot ∈ admitted ∧ (⟨o.snapshot.target, o.snapshot.source⟩ : SourceWindowKey) = key

section Current
variable {L M : FindingLedger} {admitted : List ObservationSnapshot} {target : TargetId} {source : SourceId}

theorem CurrentFrom.congr (h : CurrentFrom admitted L) (hw : M.windows = L.windows) : CurrentFrom admitted M := by
  intro key window hfind
  rw [hw] at hfind
  exact h key window hfind

theorem CurrentFrom.mono {more : List ObservationSnapshot} (h : CurrentFrom admitted L) :
    CurrentFrom (admitted ++ more) L := by
  intro key window hfind o ho hcurrent
  obtain ⟨hmem, hkey⟩ := h key window hfind o ho hcurrent
  exact ⟨List.mem_append_left more hmem, hkey⟩

theorem windows_invalidateRetainedEvidence {reason : ReasonCode} {now : NdoTime} :
    (L.invalidateRetainedEvidence reason now).windows =
      L.windows.mapValues fun _ window => window.map (invalidate reason now) := by
  unfold invalidateRetainedEvidence
  dsimp only
  split_ifs <;> rfl

/-- Evidence that was invalidated is not current. -/
theorem currentFrom_invalidateRetainedEvidence {reason : ReasonCode} {now : NdoTime} :
    CurrentFrom admitted (L.invalidateRetainedEvidence reason now) := by
  intro key window hfind o ho hcurrent
  rw [windows_invalidateRetainedEvidence, OrdMap.find?_mapValues] at hfind
  obtain ⟨before, -, rfl⟩ := Option.map_eq_some_iff.mp hfind
  obtain ⟨o', -, rfl⟩ := List.mem_map.mp ho
  cases hcurrent

theorem currentFrom_restoreObservation {snapshot : ObservationSnapshot} (h : CurrentFrom admitted L) :
    CurrentFrom admitted (restoreObservation L snapshot) := by
  intro key window hfind o ho hcurrent
  by_cases hkey : (⟨snapshot.target, snapshot.source⟩ : SourceWindowKey) = key
  · subst hkey
    simp only [restoreObservation, OrdMap.find?_insert_self, Option.some.injEq] at hfind
    subst hfind
    rcases List.mem_append.mp ho with ho | ho
    · have hold : o ∈ (L.windows.find? ⟨snapshot.target, snapshot.source⟩).getD [] := by
        split_ifs at ho
        · exact List.mem_of_mem_tail ho
        · exact ho
      cases hw : L.windows.find? ⟨snapshot.target, snapshot.source⟩ with
      | none => rw [hw] at hold; cases hold
      | some before =>
        rw [hw] at hold
        exact h _ before hw o hold hcurrent
    · rw [List.mem_singleton.mp ho] at hcurrent
      cases hcurrent
  · simp only [restoreObservation, OrdMap.find?_insert_of_ne hkey] at hfind
    exact h key window hfind o ho hcurrent

/-- Nothing in a decoded ledger is current. -/
theorem currentFrom_decodeLedger [DoubleChars] {limits : RuntimeLimits} {liveEpoch : FabricEpoch} {bytes : Text}
    {report : LedgerRecoveryReport} (h : decodeLedger limits liveEpoch bytes = .ok (L, report)) :
    CurrentFrom admitted L := by
  refine decodeLedger_rule (fun _ _ _ _ hfind => by cases hfind) (fun L b M hL hM => ?_)
    (fun L s hL => currentFrom_restoreObservation hL) (fun L v f M hL _ hM => ?_) (fun L g M hL hM => ?_)
    (fun L e hL => hL.congr rfl) h
  · rw [restoreBaseline, Outcome.ite_error_eq_ok] at hM
    exact hL.congr (by rw [← Except.ok.inj hM.2])
  · rw [restoreFinding, Outcome.ite_error_eq_ok, Outcome.ite_error_eq_ok] at hM
    exact hL.congr (by rw [← Except.ok.inj hM.2.2])
  · rw [restoreGroup, Outcome.ite_error_eq_ok] at hM
    exact hL.congr (by rw [← Except.ok.inj hM.2])

theorem mem_insertObservation {record o : RetainedObservation} {window : List RetainedObservation} :
    o ∈ insertObservation record window → o = record ∨ o ∈ window := by
  intro h
  rcases List.mem_append.mp h with h | h
  · exact .inr ((List.takeWhile_sublist _).mem h)
  · rcases List.mem_cons.mp h with rfl | h
    · exact .inl rfl
    · exact .inr ((List.dropWhile_sublist _).mem h)

theorem mem_boundWindow {limit : Nat} {o : RetainedObservation} {window : List RetainedObservation}
    (h : o ∈ boundWindow limit window) : o ∈ window := by
  unfold boundWindow at h
  split_ifs at h
  · exact List.mem_of_mem_eraseIdx h
  · exact h

/-- Recording adds at most the recorded observation to the current evidence, and only if it was not refused. -/
theorem currentFrom_recordObservation {snapshot : ObservationSnapshot} {verdict : FreshnessVerdict} {recovered : Bool}
    (h : CurrentFrom admitted L)
    (hnew : (L.recordObservation snapshot verdict recovered).1.ok = true →
      (L.recordObservation snapshot verdict recovered).2.2.duplicateIdentical = false → snapshot ∈ admitted) :
    CurrentFrom admitted (L.recordObservation snapshot verdict recovered).2.1 := by
  rcases @recordObservation_cases L snapshot verdict recovered with ⟨hsame, -⟩ | ⟨hok, hdup, hwindow⟩
  · rw [hsame]
    exact h
  · rw [hwindow]
    intro key window hfind o ho hcurrent
    by_cases hkey : (⟨snapshot.target, snapshot.source⟩ : SourceWindowKey) = key
    · subst hkey
      simp only [bumpRevision, OrdMap.find?_insert_self, Option.some.injEq] at hfind
      subst hfind
      rcases mem_insertObservation (mem_boundWindow ho) with rfl | ho
      · exact ⟨hnew hok hdup, rfl⟩
      · cases hw : L.windows.find? ⟨snapshot.target, snapshot.source⟩ with
        | none => rw [hw] at ho; cases ho
        | some before =>
          rw [hw] at ho
          exact h _ before hw o ho hcurrent
    · simp only [bumpRevision, OrdMap.find?_insert_of_ne hkey] at hfind
      exact h key window hfind o ho hcurrent

/-! ### What decides a target -/

theorem collectViews_comparisonInput {policy policy' : ObservatoryPolicy} {epoch : FabricEpoch} {now : NdoTime} :
    collectViews policy' (Observatory.comparisonInput policy epoch now L target) =
      (L.observationsFor target).map fun o =>
        .make policy' o.snapshot (Observatory.verdictFor policy epoch now target o) := by
  simp only [collectViews, Observatory.comparisonInput, List.zip_map', List.filterMap_map]
  exact congrFun List.filterMap_eq_map (L.observationsFor target)

theorem olderThan_eq_newerThan {policy : ObservatoryPolicy} {o o' : RetainedObservation}
    {verdict verdict' : FreshnessVerdict} :
    olderThan o o' =
      (EvidenceView.make policy o'.snapshot verdict').newerThan (EvidenceView.make policy o.snapshot verdict) := by
  unfold olderThan EvidenceView.newerThan EvidenceView.make
  by_cases he : o.snapshot.epoch = o'.snapshot.epoch
  · by_cases hi : o.snapshot.incarnation = o'.snapshot.incarnation
    · simp [he, hi]
    · simp [he, hi, Ne.symm hi]
  · simp [he, Ne.symm he]

/-- A target is decidable only through a current observation that is the newest of its source. -/
theorem current_of_decidable {policy policy' : ObservatoryPolicy} {limits : RuntimeLimits} {epoch : FabricEpoch}
    {now : NdoTime}
    (h : (compareTarget (Observatory.comparisonInput policy epoch now L target) policy' limits).complianceDecidable =
      true) :
    ∃ o ∈ L.observationsFor target, o.recovered = false ∧
      ∀ o' ∈ L.observationsFor target, o'.snapshot.source = o.snapshot.source → olderThan o o' = false := by
  obtain ⟨baseline, primary, hcompared, -⟩ := compared_of_decidable h
  obtain ⟨hmem, hnewest⟩ := newest_of_mem_orderedViews (List.mem_of_head? hcompared.preferred)
  rw [collectViews_comparisonInput] at hmem hnewest
  obtain ⟨o, ho, rfl⟩ := List.mem_map.mp hmem
  refine ⟨o, ho, ?_, fun o' ho' hsource => ?_⟩
  · by_contra hrecovered
    have husable : (Observatory.verdictFor policy epoch now target o).maySupportCompliance = true := hcompared.usable
    rw [Observatory.verdictFor, if_pos (by simpa using hrecovered)] at husable
    cases husable
  · rw [olderThan_eq_newerThan]
    exact hnewest _ (List.mem_map_of_mem ho') hsource

theorem CurrentFrom.of_mem {o : RetainedObservation} (h : CurrentFrom admitted L) (ho : o ∈ L.observationsFor target)
    (hcurrent : o.recovered = false) : o.snapshot ∈ admitted ∧ o.snapshot.target = target := by
  obtain ⟨⟨key, window⟩, hentry, hmem⟩ := List.mem_flatMap.mp ho
  split_ifs at hmem with hkey
  · obtain ⟨hadmitted, hplace⟩ := h key window (OrdMap.mem_entries_iff.mp hentry) o hmem hcurrent
    exact ⟨hadmitted, (congrArg SourceWindowKey.target hplace).trans hkey⟩
  · cases hmem

end Current

end FindingLedger

/-! ### Runs -/

namespace System
variable [DoubleChars]

/-- Ledgers are loaded from encoded bytes. -/
def Loads : Action → Prop
  | .replaceLedger decoded => ∃ limits liveEpoch bytes report,
      FindingLedger.decodeLedger limits liveEpoch bytes = .ok (decoded, report)
  | _ => True

/-- The event leaves no current evidence: a ledger is loaded, or the incarnation is rotated. -/
inductive Recovers (o : Observatory) : Action → Prop
  | loaded {limits : RuntimeLimits} {liveEpoch : FabricEpoch} {bytes : Text} {decoded : FindingLedger}
      {report : LedgerRecoveryReport} (h : FindingLedger.decodeLedger limits liveEpoch bytes = .ok (decoded, report)) :
      Recovers o (.replaceLedger decoded)
  | rotated {incarnation : Incarnation} {epoch : FabricEpoch} {now : NdoTime}
      (h : (o.rotateIncarnation incarnation epoch now).1.ok = true) :
      Recovers o (.rotateIncarnation incarnation epoch now)

/-- The observation that a step newly admits as current evidence. -/
def admission (s : System) : Action → Option ObservationSnapshot
  | .ingestObservation snapshot receiveTime =>
    if (s.observatory.ingestObservation snapshot receiveTime).1.ok &&
        !(s.observatory.ingestObservation snapshot receiveTime).2.2.duplicateIdentical then
      some { snapshot with receivedAt := receiveTime }
    else none
  | _ => none

variable {s : System} {a : Action} {admitted : List ObservationSnapshot}

theorem currentFrom_recovers (h : Recovers s.observatory a) :
    (s.step a).observatory.ledger.CurrentFrom admitted := by
  cases h with
  | loaded h => exact FindingLedger.currentFrom_decodeLedger h
  | @rotated incarnation epoch now h =>
    show FindingLedger.CurrentFrom admitted (s.observatory.rotateIncarnation incarnation epoch now).2.ledger
    rcases @rotateIncarnation_cases s.observatory incarnation epoch now with ⟨hbad, -⟩ | hledger
    · rw [hbad] at h
      cases h
    · rw [hledger]
      exact FindingLedger.currentFrom_invalidateRetainedEvidence

theorem currentFrom_step (h : s.observatory.ledger.CurrentFrom admitted) (ha : Loads a) :
    (s.step a).observatory.ledger.CurrentFrom (admitted ++ (s.admission a).toList) := by
  cases a with
  | replaceLedger decoded =>
    obtain ⟨limits, liveEpoch, bytes, report, hdecode⟩ := ha
    exact FindingLedger.currentFrom_decodeLedger hdecode
  | rotateIncarnation incarnation epoch now =>
    show FindingLedger.CurrentFrom _ (s.observatory.rotateIncarnation incarnation epoch now).2.ledger
    rcases @rotateIncarnation_cases s.observatory incarnation epoch now with ⟨-, hsame⟩ | hledger
    · rw [hsame]
      exact h.mono
    · rw [hledger]
      exact FindingLedger.currentFrom_invalidateRetainedEvidence
  | ingestObservation snapshot receiveTime =>
    show FindingLedger.CurrentFrom _ (s.observatory.ingestObservation snapshot receiveTime).2.1.ledger
    rcases @ingestObservation_cases s.observatory snapshot receiveTime with hsame | ⟨verdict, hledger, hok, hreport⟩
    · rw [hsame]
      exact h.mono
    · rw [hledger]
      refine FindingLedger.currentFrom_recordObservation h.mono fun hrecorded hfirst => ?_
      rw [← hok] at hrecorded
      rw [← hreport] at hfirst
      simp [admission, hrecorded, hfirst]
  | _ => exact h.mono.congr (windows_step rfl)

/-- After a load or a rotation, a target evaluation is decidable only if an observation of the target that was admitted
    since is the newest retained one of its source. -/
theorem decidable_admitted (s : System) {event : Action} (hevent : Recovers s.observatory event) {run : List Action}
    (hrun : ∀ a ∈ run, Loads a) (now : NdoTime) (policy : ObservatoryPolicy) (limits : RuntimeLimits)
    {input : TargetComparisonInput}
    (hinput : input ∈ ((Run.exec System.step (s.step event) run).observatory.buildEvaluationInput now).targets)
    (h : (compareTarget input policy limits).complianceDecidable = true) :
    ∃ o ∈ (Run.exec System.step (s.step event) run).observatory.ledger.observationsFor input.target,
      o.snapshot ∈ Run.outputs System.step admission (s.step event) run ∧ o.snapshot.target = input.target ∧
      o.recovered = false ∧
      ∀ o' ∈ (Run.exec System.step (s.step event) run).observatory.ledger.observationsFor input.target,
        o'.snapshot.source = o.snapshot.source → FindingLedger.olderThan o o' = false := by
  have hcurrent := @Run.invariant_outputs _ _ System.step (fun _ a => Loads a) _ admission
    (fun s admitted => s.observatory.ledger.CurrentFrom admitted) (fun s a out hs ha => currentFrom_step hs ha) run
    (s.step event) [] (currentFrom_recovers hevent) (Run.permits_of_mem fun a ha _ => hrun a ha)
  rw [List.nil_append] at hcurrent
  obtain ⟨target, -, rfl⟩ := List.mem_map.mp hinput
  obtain ⟨o, ho, hfresh, hnewest⟩ := FindingLedger.current_of_decidable h
  obtain ⟨hadmitted, htarget⟩ := hcurrent.of_mem ho hfresh
  exact ⟨o, ho, hadmitted, htarget, hfresh, hnewest⟩

end System

namespace Sample

/-- An observatory with intent and one observation, before its incarnation is rotated. -/
def rotating : System :=
  Run.exec (@System.step noDoubles) ⟨observatory, []⟩
    [.start, .publishIntent document ⟨1⟩, .ingestObservation (empty 1) ⟨1⟩]

/-- The rotation and a second observation. -/
def rotated : System :=
  Run.exec (@System.step noDoubles) (@System.step noDoubles rotating (.rotateIncarnation ⟨2⟩ ⟨1⟩ ⟨2⟩))
    [.ingestObservation (empty 2) ⟨3⟩]

end Sample

theorem System.decidable_admitted_rotated :
    ∃ o ∈ Sample.rotated.observatory.ledger.observationsFor Sample.target,
      o.snapshot ∈ Run.outputs (@System.step Sample.noDoubles) System.admission
        (@System.step Sample.noDoubles Sample.rotating (.rotateIncarnation ⟨2⟩ ⟨1⟩ ⟨2⟩))
        [.ingestObservation (Sample.empty 2) ⟨3⟩] ∧ o.recovered = false := by
  have hok : (Sample.rotating.observatory.rotateIncarnation ⟨2⟩ ⟨1⟩ ⟨2⟩).1.ok = true := by decide +kernel
  have hany : (Sample.rotated.observatory.buildEvaluationInput ⟨3⟩).targets.any (fun input =>
      input.target == Sample.target && (compareTarget input {} {}).complianceDecidable) = true := by decide +kernel
  obtain ⟨input, hinput, hdec⟩ := List.any_eq_true.mp hany
  rw [Bool.and_eq_true, beq_iff_eq] at hdec
  obtain ⟨o, ho, hadmitted, -, hcurrent, -⟩ := @System.decidable_admitted Sample.noDoubles Sample.rotating _
    (@System.Recovers.rotated Sample.noDoubles _ _ _ _ hok) [.ingestObservation (Sample.empty 2) ⟨3⟩]
    (fun a ha => by rw [List.mem_singleton.mp ha]; exact trivial) ⟨3⟩ {} {} input hinput hdec.2
  rw [hdec.1] at ho
  exact ⟨o, ho, hadmitted, hcurrent⟩

end DriftObservatory
