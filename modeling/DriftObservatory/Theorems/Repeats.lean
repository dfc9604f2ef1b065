import DriftObservatory.Theorems.Windows

/-! Observations that come again: a window holds each observation once as long as only the newest one is repeated. -/

namespace DriftObservatory

open Json

namespace FindingLedger

open Ascending

theorem boundWindow_sublist {limit : Nat} {window : List RetainedObservation} :
    (boundWindow limit window).Sublist window := by
  unfold boundWindow
  split_ifs
  · exact List.eraseIdx_sublist _ _
  · exact List.Sublist.refl _

/-! ### Repeated observations -/

/-- The observation is valid and has the key of the newest one in its window. -/
def RepeatsNewest (L : FindingLedger) (snapshot : ObservationSnapshot) : Prop :=
  (snapshot.validate L.limits).ok = true ∧
    ∃ newest, (L.windowFor snapshot).getLast? = some newest ∧ newest.windowKey = snapshot.windowKey

/-- A recorded observation with the key of a retained one repeats the newest one. -/
def RepeatsOnlyNewest (L : FindingLedger) : LedgerStep → Prop
  | .operate (.recordObservation snapshot _ _) =>
    (∃ o ∈ L.windowFor snapshot, o.windowKey = snapshot.windowKey) → L.RepeatsNewest snapshot
  | _ => True

/-- Each window is strictly in order. -/
def Strict (L : FindingLedger) : Prop :=
  ∀ key window, L.windows.find? key = some window → window.Pairwise fun a b => a.windowKey < b.windowKey

section Strict
variable {L : FindingLedger} {snapshot : ObservationSnapshot} {verdict : FreshnessVerdict} {recovered : Bool}

theorem strict_recordObservation (h : L.Strict)
    (hrepeats : L.RepeatsOnlyNewest (.operate (.recordObservation snapshot verdict recovered))) :
    (L.recordObservation snapshot verdict recovered).2.1.Strict := by
  rcases @recordObservation_spec L snapshot verdict recovered with ⟨hsame, -⟩ | ⟨-, -, hnew, hledger⟩
  · rw [hsame]
    exact h
  · have hstrict : (L.windowFor snapshot).Pairwise fun a b => a.windowKey < b.windowKey := by
      unfold windowFor
      cases hfind : L.windows.find? snapshot.windowOf with
      | none => exact List.Pairwise.nil
      | some window => exact h _ window hfind
    -- An observation with a retained key would have the key of the newest one, and is not stored then.
    have hfresh : ∀ o ∈ L.windowFor snapshot, o.windowKey ≠ snapshot.windowKey := fun o ho hkey => by
      obtain ⟨-, newest, hnewest, hsame⟩ := hrepeats ⟨o, ho, hkey⟩
      exact hnew newest hnewest hsame.symm
    rw [hledger]
    intro key window hfind
    simp only [bumpRevision, OrdMap.find?_insert] at hfind
    split_ifs at hfind with hkey
    · obtain rfl := Option.some.inj hfind
      have hinserted := @strict_insertLower _ _ _ RetainedObservation.windowKey olderThan
        ⟨snapshot, verdict, recovered⟩ _ olderThan_iff hstrict hfresh
      exact hinserted.sublist boundWindow_sublist
    · exact h key window hfind

theorem strict_invalidateRetainedEvidence {reason : ReasonCode} {now : NdoTime} (h : L.Strict) :
    (L.invalidateRetainedEvidence reason now).Strict := by
  intro key window hfind
  rw [windows_invalidateRetainedEvidence, OrdMap.find?_mapValues] at hfind
  obtain ⟨before, hbefore, rfl⟩ := Option.map_eq_some_iff.mp hfind
  exact List.pairwise_map.mpr (h key before hbefore)

theorem strict_restored {limits : RuntimeLimits} (hplaced : L.Placed) (h : L.Strict) : (L.restored limits).Strict := by
  intro key window hfind
  have hsub := @restored_sublist L key limits hplaced
  rw [hfind, Option.getD_some] at hsub
  refine List.Pairwise.sublist hsub (List.pairwise_map.mpr ?_)
  cases hbefore : L.windows.find? key with
  | none => exact List.Pairwise.nil
  | some before =>
    refine (h key before hbefore).imp fun hab => ?_
    show ObservationSnapshot.windowKey _ < ObservationSnapshot.windowKey _
    rw [recalled, recalled, windowKey_reread, windowKey_reread]
    exact hab

theorem strict_advance [DoubleChars] [LawfulDoubleChars] {step : LedgerStep} (hplaced : L.Placed) (h : L.Strict)
    (hstep : L.RepeatsOnlyNewest step) : (L.advance step).Strict := by
  cases step with
  | restart limits epoch incarnation liveEpoch =>
    rw [advance]
    rcases @recover_cases _ L _ limits epoch liveEpoch incarnation with hsame | ⟨-, hrestart⟩
    · rw [hsame]
      exact h
    · rw [hrestart]
      exact strict_restored hplaced h
  | operate op =>
    have hsame := fun hrecord hinvalidate => @windows_operate _ L op hrecord hinvalidate
    rw [advance]
    cases op with
    | recordObservation => exact strict_recordObservation h hstep
    | invalidateRetainedEvidence => exact strict_invalidateRetainedEvidence h
    | _ =>
      rw [Strict, hsame (fun _ _ _ heq => (by cases heq)) fun _ _ heq => (by cases heq)]
      exact h

end Strict

/-- In every life of a ledger in which each observation with the key of a retained one repeats the newest one, no window
    holds two observations with one key, and such an observation is an identical duplicate or a conflict. -/
theorem observations_distinct [DoubleChars] [LawfulDoubleChars] (limits : RuntimeLimits) {steps : List LedgerStep}
    (h : Run.Permits advance RepeatsOnlyNewest { limits := limits } steps) :
    (∀ key window, (Run.exec advance { limits := limits } steps).windows.find? key = some window →
      window.Pairwise fun a b => ¬ (a.snapshot.epoch = b.snapshot.epoch ∧
        a.snapshot.incarnation = b.snapshot.incarnation ∧ a.snapshot.sequence = b.snapshot.sequence)) ∧
    ∀ snapshot verdict recovered, (Run.exec advance { limits := limits } steps).RepeatsOnlyNewest
        (.operate (.recordObservation snapshot verdict recovered)) →
      ∀ o ∈ (Run.exec advance { limits := limits } steps).windowFor snapshot, o.snapshot.epoch = snapshot.epoch →
        o.snapshot.incarnation = snapshot.incarnation → o.snapshot.sequence = snapshot.sequence →
        (Run.exec advance { limits := limits } steps).recordObservation snapshot verdict recovered =
          if snapshot.computeContentDigest = o.snapshot.computeContentDigest then
            (.okay, Run.exec advance { limits := limits } steps,
              { admissionReport snapshot verdict with duplicateIdentical := true })
          else
            (.conflict .observationDuplicateConflicting
              (ascii "two observations claim the same source sequence with different content"),
              Run.exec advance { limits := limits } steps, admissionReport snapshot verdict) := by
  have hinvariant := @Run.invariant _ _ advance RepeatsOnlyNewest (fun L => L.Placed ∧ L.Strict)
    (fun L step hL hstep => ⟨placed_advance hL.1, strict_advance hL.1 hL.2 hstep⟩) steps { limits := limits }
    ⟨fun _ _ hnone => (by cases hnone), fun _ _ hnone => (by cases hnone)⟩ h
  generalize Run.exec advance { limits := limits } steps = L at hinvariant ⊢
  obtain ⟨-, hdistinct⟩ := hinvariant
  refine ⟨fun key window hfind => ?_, fun snapshot verdict recovered hrepeats o ho hepoch hincarnation hsequence => ?_⟩
  · refine (hdistinct key window hfind).imp fun hab hsame => ?_
    exact absurd (windowKey_inj.mpr hsame) (ne_of_lt hab)
  · have hkey : o.windowKey = snapshot.windowKey := windowKey_inj.mpr ⟨hepoch, hincarnation, hsequence⟩
    obtain ⟨hvalid, newest, hnewest, hsame⟩ := hrepeats ⟨o, ho, hkey⟩
    -- The keys of a window are distinct, so the repeated observation is the newest one.
    have heq : o = newest := by
      obtain ⟨window, hfind, -⟩ := mem_windowFor ho
      have hstrict := hdistinct _ window hfind
      have hwindow : L.windowFor snapshot = window := by rw [windowFor, hfind, Option.getD_some]
      rw [hwindow] at ho hnewest
      have hinj := List.inj_on_of_nodup_map (List.pairwise_map.mpr (hstrict.imp fun hab => ne_of_lt hab))
      exact hinj ho (List.mem_of_getLast? hnewest) (hkey.trans hsame.symm)
    rw [heq]
    exact recordObservation_repeated hvalid hnewest hsame.symm

end FindingLedger

namespace Sample
open FindingLedger

/-- The older of two observations comes twice. -/
def again : FindingLedger :=
  Run.exec (@advance bitDoubles) { limits := {} } [observe 1, observe 2, observe 1]

end Sample

theorem FindingLedger.observations_repeated :
    ¬ ∀ key window, Sample.again.windows.find? key = some window →
      window.Pairwise fun a b => ¬ (a.snapshot.epoch = b.snapshot.epoch ∧
        a.snapshot.incarnation = b.snapshot.incarnation ∧ a.snapshot.sequence = b.snapshot.sequence) := by
  intro h
  have htwice : (Sample.again.windows.find? ⟨Sample.target, ⟨ascii "a"⟩⟩).any (fun window =>
      !decide (window.Pairwise fun a b => ¬ (a.snapshot.epoch = b.snapshot.epoch ∧
        a.snapshot.incarnation = b.snapshot.incarnation ∧ a.snapshot.sequence = b.snapshot.sequence))) = true := by
    decide +kernel
  cases hwindow : Sample.again.windows.find? ⟨Sample.target, ⟨ascii "a"⟩⟩ with
  | none =>
    rw [hwindow] at htwice
    cases htwice
  | some window =>
    rw [hwindow, Option.any_some, decide_eq_true (h _ window hwindow)] at htwice
    cases htwice

theorem FindingLedger.observations_distinct_observed :
    ((Run.exec (@advance Sample.bitDoubles) { limits := {} } [Sample.observe 1]).recordObservation
      (Sample.empty 1) {} false).2.1 = Run.exec (@advance Sample.bitDoubles) { limits := {} } [Sample.observe 1] := by
  have hpermits : Run.Permits (@advance Sample.bitDoubles) RepeatsOnlyNewest { limits := {} } [Sample.observe 1] := by
    refine ⟨fun hretained => ?_, trivial⟩
    obtain ⟨o, ho, -⟩ := hretained
    have hnone : ({ limits := {} } : FindingLedger).windowFor (Sample.empty 1) = [] := rfl
    rw [hnone] at ho
    exact absurd ho List.not_mem_nil
  have hvalid : ((Sample.empty 1).validate (Run.exec (@advance Sample.bitDoubles) { limits := {} }
      [Sample.observe 1]).limits).ok = true := by decide +kernel
  have hone : (((Run.exec (@advance Sample.bitDoubles) { limits := {} } [Sample.observe 1]).windowFor
      (Sample.empty 1)).map fun o => (o.snapshot.epoch, o.snapshot.incarnation, o.snapshot.sequence)) =
        [((Sample.empty 1).epoch, (Sample.empty 1).incarnation, (Sample.empty 1).sequence)] := by decide +kernel
  obtain ⟨-, hrepeat⟩ := @observations_distinct Sample.bitDoubles Sample.lawful_bitDoubles {} [Sample.observe 1] hpermits
  generalize Run.exec (@advance Sample.bitDoubles) { limits := {} } [Sample.observe 1] = L at *
  obtain ⟨record, hrecord, hkey⟩ := List.map_eq_singleton_iff.mp hone
  simp only [Prod.mk.injEq] at hkey
  have hnewest : (L.windowFor (Sample.empty 1)).getLast? = some record := by
    rw [hrecord]
    rfl
  rw [hrepeat (Sample.empty 1) {} false (fun _ => ⟨hvalid, record, hnewest, windowKey_inj.mpr hkey⟩) record
    (by rw [hrecord]; exact List.mem_cons_self) hkey.1 hkey.2.1 hkey.2.2]
  split_ifs <;> rfl

end DriftObservatory
