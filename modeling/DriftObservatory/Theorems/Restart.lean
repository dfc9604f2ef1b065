import DriftObservatory.Persistence
import DriftObservatory.Lib.Outcome

/-! What every ledger that was decoded has in common, whatever bytes it was decoded from. -/

namespace DriftObservatory

open Outcome

/-- A decoded finding has the identity its members hash to. -/
theorem decodeFinding_identity {limits : RuntimeLimits} {v : Value} {f : Finding} (h : decodeFinding limits v = .ok f) :
    f.identity.computeId = f.id := by
  have hsubject : ∀ {map : Members} {g : Finding}, decodeFindingSubject limits map = .ok g →
      g.identity.computeId = g.id := by
    intro map g hg
    simp only [decodeFindingSubject, bind_eq_ok, ite_error_eq_ok, Except.ok.injEq, not_not] at hg
    obtain ⟨_, -, _, -, _, -, _, -, _, -, _, -, _, -, _, -, _, -, _, -, _, -, _, -, _, -, _, -, hid, rfl⟩ := hg
    exact hid
  have hprogress : ∀ {map : Members} {g g' : Finding}, decodeFindingProgress map g = .ok g' →
      g'.identity = g.identity ∧ g'.id = g.id := by
    intro map g g' hg
    simp only [decodeFindingProgress, bind_eq_ok, Except.ok.injEq] at hg
    obtain ⟨_, -, _, -, _, -, _, -, _, -, _, -, _, -, _, -, rfl⟩ := hg
    exact ⟨rfl, rfl⟩
  have hmarks : ∀ {map : Members} {g g' : Finding}, decodeFindingMarks map g = .ok g' →
      g'.identity = g.identity ∧ g'.id = g.id := by
    intro map g g' hg
    simp only [decodeFindingMarks, bind_eq_ok, Except.ok.injEq] at hg
    obtain ⟨_, -, _, -, _, -, _, -, _, -, _, -, rfl⟩ := hg
    exact ⟨rfl, rfl⟩
  simp only [decodeFinding, bind_eq_ok, ite_error_eq_ok, Except.ok.injEq] at h
  obtain ⟨_, -, _, -, a, ha, b, hb, c, hc, _, -, -, _, -, _, -, -, _, -, rfl⟩ := h
  rw [(hmarks hc).1, (hmarks hc).2, (hprogress hb).1, (hprogress hb).2]
  exact hsubject ha

namespace FindingLedger

/-- What the empty ledger has and every restored record keeps, every decoded ledger has. -/
theorem decodeLedger_rule [DoubleChars] {I : FindingLedger → Prop} {limits : RuntimeLimits} {liveEpoch : FabricEpoch}
    {bytes : Text} {L : FindingLedger} {report : LedgerRecoveryReport}
    (hempty : ∀ revision sequence, I { limits := limits, revision := revision, timelineSequence := sequence })
    (hbaseline : ∀ L b M, I L → restoreBaseline L b = .ok M → I M)
    (hobservation : ∀ L s, I L → I (restoreObservation L s))
    (hfinding : ∀ L v f M, I L → decodeFinding (ledgerPayloadLimits limits) v = .ok f → restoreFinding L f = .ok M → I M)
    (hgroup : ∀ L g M, I L → restoreGroup L g = .ok M → I M) (htimeline : ∀ L e, I L → I (restoreTimeline L e))
    (h : decodeLedger limits liveEpoch bytes = .ok (L, report)) : I L := by
  rw [decodeLedger, bind_eq_ok] at h
  obtain ⟨payload, -, h⟩ := h
  split at h
  · cases h
  · simp only [decodeDocument, bind_eq_ok, ite_error_eq_ok] at h
    obtain ⟨_, -, _, -, _, -, -, revision, -, h⟩ := h
    simp only [restoreRecords, bind_eq_ok, ite_error_eq_ok, Except.ok.injEq, Prod.mk.injEq] at h
    obtain ⟨_, -, A, hA, _, -, B, hB, _, -, -, C, hC, _, -, D, hD, _, -, -, E, hE, rfl, -⟩ := h
    have hIA : I A := foldlM_invariant (fun s a t hs ht => by
      obtain ⟨b, -, ht⟩ := bind_eq_ok.mp ht
      exact hbaseline s b t hs ht) (hempty _ _) hA
    have hIB : I B := foldlM_invariant (fun s a t hs ht => by
      obtain ⟨snapshot, -, ht⟩ := bind_eq_ok.mp ht
      exact Except.ok.inj ht ▸ hobservation s snapshot hs) hIA hB
    have hIC : I C := foldlM_invariant (fun s a t hs ht => by
      obtain ⟨f, hf, ht⟩ := bind_eq_ok.mp ht
      exact hfinding s a f t hs hf ht) hIB hC
    have hID : I D := foldlM_invariant (fun s a t hs ht => by
      obtain ⟨g, -, ht⟩ := bind_eq_ok.mp ht
      exact hgroup s g t hs ht) hIC hD
    exact foldlM_invariant (fun s a t hs ht => by
      obtain ⟨e, -, ht⟩ := bind_eq_ok.mp ht
      exact Except.ok.inj ht ▸ htimeline s e hs) hID hE

end FindingLedger

end DriftObservatory
