import DriftObservatory.Theorems.Confirmation
import DriftObservatory.Theorems.Interference
import DriftObservatory.Theorems.Restart

/-! Resolutions in every run, from an empty ledger or from one that was restored. -/

namespace DriftObservatory

namespace FindingLedger

/-- Where a run starts: at an empty ledger, or at one that was just decoded. -/
inductive Start [DoubleChars] : FindingLedger → Prop
  | empty (limits : RuntimeLimits) : Start { limits := limits }
  | decoded (limits : RuntimeLimits) (liveEpoch : FabricEpoch) (bytes : Text) (L : FindingLedger)
      (report : LedgerRecoveryReport) (h : decodeLedger limits liveEpoch bytes = .ok (L, report)) : Start L

theorem unconfirmed_start [DoubleChars] {L : FindingLedger} (h : Start L) : Unconfirmed L := by
  cases h with
  | empty limits => exact ⟨rfl, fun id f hf => by cases hf⟩
  | decoded limits liveEpoch bytes L report h =>
    refine decodeLedger_rule (fun _ _ => ⟨rfl, fun id f hf => by cases hf⟩) (fun L b M hL hM => ?_)
      (fun L s hL => ⟨hL.streaks, hL.keyed⟩) (fun L v f M hL hf hM => ?_) (fun L g M hL hM => ?_)
      (fun L e hL => ⟨hL.streaks, hL.keyed⟩) h
    · rw [restoreBaseline, Outcome.ite_error_eq_ok] at hM
      rw [← Except.ok.inj hM.2]
      exact ⟨hL.streaks, hL.keyed⟩
    · rw [restoreFinding, Outcome.ite_error_eq_ok, Outcome.ite_error_eq_ok] at hM
      rw [← Except.ok.inj hM.2.2]
      refine ⟨hL.streaks, fun id g hg => ?_⟩
      by_cases hid : f.id = id
      · simp only [OrdMap.find?_insert, hid, if_true, Option.some.injEq] at hg
        rw [← hg, ← hid, ← decodeFinding_identity hf]
        rfl
      · simp only [OrdMap.find?_insert, hid, if_false] at hg
        exact hL.keyed id g hg
    · rw [restoreGroup, Outcome.ite_error_eq_ok] at hM
      rw [← Except.ok.inj hM.2]
      exact ⟨hL.streaks, hL.keyed⟩

/-- A finding becomes resolved only when an evaluation is applied, and then the evaluation that resolved it and those
    that confirmed its absence before, since it was last drafted in the run, make up what the outcome requires; unless
    two identities of the run have the same SHA-256 digest. -/
theorem resolved_confirmed [DoubleChars] {start : FindingLedger} (hstart : Start start) {run : List Operation}
    {op : Operation} {id : FindingId} {f : Finding}
    (hf : ((Run.exec operate start run).operate op).findings.find? id = some f) (hres : f.state = .resolved)
    (hnew : ∀ f₀, (Run.exec operate start run).findings.find? id = some f₀ → f₀.state ≠ .resolved) :
    ∃ outcome policy now, (Run.exec operate start run).applied op = some (outcome, policy, now) ∧
      (Collision start (start.history (run ++ [op])) ∨
        ∃ earlier e later front back, (Run.exec operate start run).evaluationsOf op = earlier ++ e :: later ∧
          start.history run ++ earlier = front ++ back ∧
          (∀ e' ∈ back, ∀ d ∈ e'.drafts, d.identity.computeId ≠ id) ∧ confirms id f e = true ∧
          max 1 outcome.resolutionConfirmations.toNat ≤ (back ++ [e]).countP (confirms id f)) := by
  obtain ⟨outcome, policy, now, happly, hend⟩ := resolved_operate (unconfirmed_start hstart) hf hres hnew
  refine ⟨outcome, policy, now, happly, hend.imp_right ?_⟩
  rintro ⟨earlier, e, later, front, back, hdone, hsplit, hundrafted, hconfirms, hcount⟩
  refine ⟨earlier, e, later, front, back, hdone, hsplit, hundrafted, hconfirms, ?_⟩
  rw [List.countP_append, List.countP_singleton, hconfirms]
  exact hcount

end FindingLedger

namespace Sample
open FindingLedger

/-- An evaluation that is decidable and has nothing to report. -/
def agreeing : EvaluationOutcome :=
  { unappliedEverywhere with targets := [{ target := target, complianceDecidable := true }] }

/-- The target is first found to lack intent. -/
def lacking : List Operation := [.evaluate requiring {} ⟨1⟩ ⟨1⟩ ⟨1⟩]

/-- The finding about it. -/
def lackingId : FindingId := (Run.exec (@operate noDoubles) { limits := {} } lacking).findings.keys.headD default

/-- The agreeing evaluation is applied. -/
def agree : Operation := .applyEvaluation agreeing requiring ⟨2⟩

end Sample

theorem FindingLedger.resolved_confirmed_agreeing :
    ∃ f, (@operate Sample.noDoubles (Run.exec (@operate Sample.noDoubles) { limits := {} } Sample.lacking)
        Sample.agree).findings.find? Sample.lackingId = some f ∧ f.state = .resolved ∧
      ∃ outcome policy now, (Run.exec (@operate Sample.noDoubles) { limits := {} } Sample.lacking).applied
          Sample.agree = some (outcome, policy, now) ∧
        (Collision { limits := {} } (@history Sample.noDoubles { limits := {} } (Sample.lacking ++ [Sample.agree])) ∨
          ∃ earlier e later, @evaluationsOf Sample.noDoubles
              (Run.exec (@operate Sample.noDoubles) { limits := {} } Sample.lacking) Sample.agree =
              earlier ++ e :: later ∧ confirms Sample.lackingId f e = true) := by
  have hfacts : ((@operate Sample.noDoubles (Run.exec (@operate Sample.noDoubles) { limits := {} } Sample.lacking)
        Sample.agree).findings.find? Sample.lackingId).map Finding.state = some .resolved ∧
      ((Run.exec (@operate Sample.noDoubles) { limits := {} } Sample.lacking).findings.find?
        Sample.lackingId).map Finding.state = some .open := by decide +kernel
  obtain ⟨f, hf, hres⟩ := Option.map_eq_some_iff.mp hfacts.1
  obtain ⟨outcome, policy, now, happly, hend⟩ := @FindingLedger.resolved_confirmed Sample.noDoubles { limits := {} }
    (@FindingLedger.Start.empty Sample.noDoubles {}) Sample.lacking Sample.agree Sample.lackingId f hf hres
    fun f₀ hf₀ hopen => by
      have hstate := hfacts.2
      rw [hf₀, Option.map_some, hopen] at hstate
      cases hstate
  refine ⟨f, hf, hres, outcome, policy, now, happly, hend.imp_right ?_⟩
  rintro ⟨earlier, e, later, -, -, hdone, -, -, hconfirms, -⟩
  exact ⟨earlier, e, later, hdone, hconfirms⟩

end DriftObservatory
