import DriftObservatory.Report
import DriftObservatory.Theorems.Paging
import DriftObservatory.Theorems.Spellings

/-! Reports. The findings that a report keeps are the first of those that pass its filters, and it says whether there
    are more; the number it gives as that of all of them stops at the budget, and a tally does not go beyond one. -/

namespace DriftObservatory

open Json

/-! ### Tallies -/

/-- A table that maps each key that occurs to the number of its occurrences, as a reader of the report takes it, and
    has no other key. -/
structure Tallied (key : Finding → Text) (findings : List Finding) (counts : OrdMap Text Value) : Prop where
  counted : ∀ k ∈ findings.map key, ∃ v n, counts.find? k = some v ∧ uintOf v = some n ∧
    n.toNat = (findings.map key).count k
  no_other : ∀ k, counts.contains k = true → k ∈ findings.map key
  total : (counts.values.map fun v => ((uintOf v).map UInt64.toNat).getD 0).sum = findings.length

section Tally
variable {key : Finding → Text} {findings : List Finding} {counts : OrdMap Text Value} {k : Text}

theorem uintOf_one : uintOf (.makeUint 1) = some 1 := by decide

/-- A count that fits the signed range is stored as a signed number, so it is not found again as an unsigned one. -/
theorem countOne_again (h : counts.find? k = some (.makeUint 1)) : countOne counts k = counts.insert k (.makeUint 1) := by
  have hsigned : (Value.makeUint 1).asUint = none := rfl
  simp only [countOne, h, hsigned]

theorem find?_countOne {seen : List Text}
    (h : ∀ k, counts.find? k = if k ∈ seen then some (.makeUint 1) else none) (name : Text) :
    (countOne counts name).find? k = if k ∈ seen ++ [name] then some (.makeUint 1) else none := by
  have hone : countOne counts name = counts.insert name (.makeUint 1) := by
    by_cases hname : name ∈ seen
    · exact countOne_again ((h name).trans (if_pos hname))
    · simp only [countOne, (h name).trans (if_neg hname)]
  rw [hone, OrdMap.find?_insert, h]
  by_cases hk : name = k
  · simp [hk]
  · simp [hk, Ne.symm hk]

theorem find?_foldl_countOne : ∀ {findings : List Finding} {counts : OrdMap Text Value} {seen : List Text},
    (∀ k, counts.find? k = if k ∈ seen then some (.makeUint 1) else none) → ∀ k,
      (findings.foldl (fun counts f => countOne counts (key f)) counts).find? k =
        if k ∈ seen ++ findings.map key then some (.makeUint 1) else none
  | [], _, _, h, k => by simpa using h k
  | f :: findings, _, _, h, k => by
    rw [List.foldl_cons, find?_foldl_countOne (fun _ => find?_countOne h (key f)) k, List.map_cons,
      List.append_assoc, List.singleton_append]

theorem find?_countBy : (countBy key findings).find? k = if k ∈ findings.map key then some (.makeUint 1) else none := by
  have hempty : ∀ k, (∅ : OrdMap Text Value).find? k = if k ∈ [] then some (.makeUint 1) else none := fun _ => rfl
  exact find?_foldl_countOne hempty k

theorem mem_keys_countBy : k ∈ (countBy key findings).keys ↔ k ∈ findings.map key := by
  rw [OrdMap.mem_keys, OrdMap.contains_iff, find?_countBy]
  split_ifs with hk <;> simp [hk]

theorem uintOf_values {v : Value} (h : v ∈ (countBy key findings).values) : uintOf v = some 1 := by
  obtain ⟨k, hk⟩ := OrdMap.mem_values.mp h
  rw [find?_countBy] at hk
  split_ifs at hk
  cases hk
  exact uintOf_one

/-- A tally is right exactly when no key occurs twice. -/
theorem tallied_iff : Tallied key findings (countBy key findings) ↔ (findings.map key).Nodup := by
  constructor
  · intro h
    rw [List.nodup_iff_count_eq_one]
    intro k hk
    obtain ⟨v, n, hv, hn, hcount⟩ := h.counted k hk
    rw [find?_countBy, if_pos hk] at hv
    cases hv
    cases uintOf_one.symm.trans hn
    exact hcount.symm
  · intro h
    refine ⟨fun k hk => ⟨.makeUint 1, 1, ?_, uintOf_one, ?_⟩, fun k hk => ?_, ?_⟩
    · rw [find?_countBy, if_pos hk]
    · exact (List.nodup_iff_count_eq_one.mp h k hk).symm
    · exact mem_keys_countBy.mp (OrdMap.mem_keys.mpr hk)
    · have hones : ∀ v ∈ (countBy key findings).values, ((uintOf v).map UInt64.toNat).getD 0 = 1 := fun v hv => by
        rw [uintOf_values hv]
        rfl
      have hkeys : (countBy key findings).keys.Perm (findings.map key) :=
        (List.perm_ext_iff_of_nodup (OrdMap.nodup_keys _) h).mpr fun _ => mem_keys_countBy
      have hsize : (countBy key findings).keys.length = (countBy key findings).values.length := by
        rw [OrdMap.keys, OrdMap.values, List.length_map, List.length_map]
      rw [List.map_congr_left hones, List.map_const', List.sum_replicate, ← hsize, hkeys.length_eq, List.length_map]
      exact Nat.mul_one _

/-- Names may stand for their spellings. -/
theorem nodup_map_spelled {α : Type} {spell : α → Text} {of : Finding → α} (hspell : Function.Injective spell) :
    (findings.map fun f => spell (of f)).Nodup ↔ (findings.map of).Nodup := by
  have hsplit : (findings.map fun f => spell (of f)) = (findings.map of).map spell := List.map_map.symm
  rw [hsplit, List.nodup_map_iff hspell]

end Tally

theorem injective_of_tryParse {α : Type} {tryParse : Text → Option α} {toText : α → Text}
    (h : ∀ v, tryParse (toText v) = some v) : Function.Injective toText := fun a b hab =>
  Option.some.inj ((h a).symm.trans ((congrArg tryParse hab).trans (h b)))

/-- Each table is right exactly when no two findings fall under one of its keys. -/
theorem tallies_exact_iff (findings : List Finding) :
    (Tallied (fun f => f.klass.toText) findings (countByDriftClass findings) ↔ (findings.map Finding.klass).Nodup) ∧
      (Tallied (fun f => f.severity.toText) findings (countBySeverity findings) ↔
        (findings.map Finding.severity).Nodup) ∧
      (Tallied (fun f => f.state.toText) findings (countByState findings) ↔ (findings.map Finding.state).Nodup) :=
  ⟨tallied_iff.trans (nodup_map_spelled (injective_of_tryParse DriftClass.tryParse_toText)),
    tallied_iff.trans (nodup_map_spelled (injective_of_tryParse Severity.tryParse_toText)),
    tallied_iff.trans (nodup_map_spelled (injective_of_tryParse FindingState.tryParse_toText))⟩

/-- Two findings of a class are counted as one. -/
theorem countByDriftClass_twice : ¬ Tallied (fun f => f.klass.toText) [Sample.listed 1, Sample.listed 2]
    (countByDriftClass [Sample.listed 1, Sample.listed 2]) := by
  intro h
  have hdistinct := (List.nodup_cons.mp (tallied_iff.mp h)).1
  exact hdistinct List.mem_cons_self

/-! ### What a report keeps -/

namespace ReportSpec
variable {spec : ReportSpec} {budget : Nat}

/-- The loop keeps what passes up to the budget, counts what it keeps, and says whether it left out a finding that
    passes. -/
theorem collectFindings_eq : ∀ (findings : List Finding) {kept : List Finding} {matching : Nat}, kept.length ≤ budget →
    spec.collectFindings budget findings kept matching =
      (kept ++ (findings.filter spec.passes).take (budget - kept.length),
        matching + min (budget - kept.length) (findings.filter spec.passes).length,
        decide (budget - kept.length < (findings.filter spec.passes).length))
  | [], kept, matching, _ => by simp [collectFindings]
  | f :: findings, kept, matching, h => by
    rw [collectFindings]
    by_cases hpass : spec.passes f = true
    · rw [List.filter_cons_of_pos hpass, List.length_cons, hpass, Bool.not_true, if_neg Bool.false_ne_true]
      by_cases hfull : budget ≤ kept.length
      · have hnone : budget - kept.length = 0 := Nat.sub_eq_zero_of_le hfull
        rw [if_pos hfull, hnone]
        simp
      · obtain ⟨left, hleft⟩ : ∃ left, budget - kept.length = left + 1 := ⟨budget - kept.length - 1, by omega⟩
        have hnext : budget - (kept ++ [f]).length = left := by
          rw [List.length_append, List.length_singleton]
          omega
        have hroom : (kept ++ [f]).length ≤ budget := by
          rw [List.length_append, List.length_singleton]
          omega
        rw [if_neg hfull, collectFindings_eq findings hroom, hnext, hleft, List.take_succ_cons]
        simp only [List.append_assoc, List.singleton_append, Prod.mk.injEq, true_and]
        refine ⟨by omega, ?_⟩
        simp
    · rw [List.filter_cons_of_neg hpass, Bool.not_eq_true _ |>.mp hpass, Bool.not_false, if_pos rfl]
      exact collectFindings_eq findings h

end ReportSpec

/-- A report holds the first findings that pass its filters, in the order of their identities and up to its budget, the
    number of those that pass, and whether there are more than it holds. -/
def ReportSelected (o : Observatory) (spec : ReportSpec) (stamp : NdoTime) : Prop :=
  let passing := o.ledger.findings.values.filter spec.passes
  let inputs := o.collectReportInputs spec stamp
  inputs.findings = passing.take (min spec.maxFindings o.config.limits.maxReportFindings) ∧
    inputs.matchingFindings = passing.length ∧ (inputs.truncated = true ↔ inputs.findings.length < passing.length)

section Report
variable (o : Observatory) (spec : ReportSpec) (stamp : NdoTime)

theorem collectReportInputs_findings : (o.collectReportInputs spec stamp).findings =
    (o.ledger.findings.values.filter spec.passes).take (min spec.maxFindings o.config.limits.maxReportFindings) := by
  simp [Observatory.collectReportInputs, ReportSpec.collectFindings_eq]

theorem collectReportInputs_matching : (o.collectReportInputs spec stamp).matchingFindings =
    min (min spec.maxFindings o.config.limits.maxReportFindings)
      (o.ledger.findings.values.filter spec.passes).length := by
  simp [Observatory.collectReportInputs, ReportSpec.collectFindings_eq]

theorem collectReportInputs_truncated : (o.collectReportInputs spec stamp).truncated = true ↔
    min spec.maxFindings o.config.limits.maxReportFindings < (o.ledger.findings.values.filter spec.passes).length := by
  simp [Observatory.collectReportInputs, ReportSpec.collectFindings_eq]

/-- The number of all findings that pass is right exactly when the budget covers them. -/
theorem reportSelected_iff : ReportSelected o spec stamp ↔ (o.ledger.findings.values.filter spec.passes).length ≤
    min spec.maxFindings o.config.limits.maxReportFindings := by
  simp only [ReportSelected, collectReportInputs_findings, collectReportInputs_matching, collectReportInputs_truncated,
    List.length_take, true_and]
  generalize min spec.maxFindings o.config.limits.maxReportFindings = budget
  omega

end Report

namespace Sample

/-- An observatory with two findings. -/
def twoFindings : Observatory where
  config := {}
  ledger := { limits := {}, findings := OrdMap.ofList [((listed 1).id, listed 1), ((listed 2).id, listed 2)] }

end Sample

/-- A report of one of two findings says that one passes. -/
theorem reportSelected_budgeted : ¬ ReportSelected Sample.twoFindings { maxFindings := 1 } ⟨0⟩ := by
  rw [reportSelected_iff]
  decide

end DriftObservatory
