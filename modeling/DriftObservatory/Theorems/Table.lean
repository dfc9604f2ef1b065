import DriftObservatory.Theorems.Envelope
import DriftObservatory.Theorems.Verdicts
import Mathlib.Data.List.Flatten

/-! The table of findings through the life of a ledger: which identities it holds, what each finding says about itself,
    and against which generation the live ones are measured. -/

namespace DriftObservatory

open Json

namespace FindingLedger

/-! ### The identities in the table -/

section Keys
variable [DoubleChars] {outcome : EvaluationOutcome} {policy : ObservatoryPolicy} {now : NdoTime} {L : FindingLedger}
  {e : TargetEvaluation} {op : Operation} {id : FindingId}

/-- The evaluations draft the identity. -/
def Drafts (evaluations : List TargetEvaluation) (id : FindingId) : Prop :=
  ∃ e ∈ evaluations, ∃ d ∈ e.drafts, d.identity.computeId = id

omit [DoubleChars] in
theorem drafts_append {front rest : List TargetEvaluation} : Drafts (front ++ rest) id ↔ Drafts front id ∨ Drafts rest id := by
  simp only [Drafts, List.mem_append, or_and_right, exists_or]

/-- A target adds the findings that it drafts, and forgets none. -/
theorem contains_applyTarget_iff {report : LedgerApplyReport} :
    (applyTarget outcome policy now L report e).2.1.findings.contains id = true ↔
      L.findings.contains id = true ∨ Drafts [e] id := by
  constructor
  · intro h
    obtain ⟨g, -, hfind⟩ := @find?_applyTarget_eq _ outcome policy now L e report
    rw [OrdMap.contains, hfind, Option.isSome_map] at h
    obtain ⟨f, hf⟩ := Option.isSome_iff_exists.mp h
    have hstep := find?_settling hf
    generalize hbefore : L.findings.find? id = before at hstep
    cases hstep with
    | drafted _ d hd hid => exact .inr ⟨e, List.mem_cons_self, d, hd, hid⟩
    | kept | settled => exact .inl (OrdMap.contains_iff.mpr ⟨_, hbefore⟩)
  · rintro (hold | ⟨e', he', d, hd, hid⟩)
    · exact contains_applyTarget (.inr hold)
    · rw [List.mem_singleton.mp he'] at hd
      exact contains_applyTarget (.inl (contains_draftMap.mpr ⟨d, hd, hid⟩))

/-- An operation adds the findings that the targets it applies draft, and forgets none. -/
theorem contains_operate :
    (L.operate op).findings.contains id = true ↔ L.findings.contains id = true ∨ Drafts (L.evaluationsOf op) id := by
  cases happly : L.applied op with
  | none =>
    have hnone : ¬ Drafts (L.evaluationsOf op) id := by
      rintro ⟨e, he, -⟩
      simp only [evaluationsOf, happly] at he
      cases he
    rcases (worked_operate happly).findings id with ⟨hbefore, hafter⟩ | ⟨f, f', hbefore, hafter, -⟩
    · simp [OrdMap.contains, hbefore, hafter, hnone]
    · simp [OrdMap.contains, hbefore, hafter]
  | some applied =>
    obtain ⟨outcome, policy, now⟩ := applied
    have hrule := @operate_rule _ L op
      (fun M done => M.findings.contains id = true ↔ L.findings.contains id = true ∨ Drafts done id) [] outcome policy now
      happly (fun M report done e _ hM => ?_) (fun M done hM => ?_) ?_
    · exact hrule
    · rw [contains_applyTarget_iff, hM, drafts_append, or_assoc]
    · rw [OrdMap.contains, find?_expireSuppressions, Option.isSome_map]
      exact hM
    · simp [Drafts]

end Keys

/-! ### The size of the table -/

section Size
variable [DoubleChars] {L : FindingLedger} {op : Operation}

theorem processed_sublist {outcome : EvaluationOutcome} {policy : ObservatoryPolicy} {now : NdoTime} :
    ∀ {targets : List TargetEvaluation} {L : FindingLedger} {report : LedgerApplyReport},
      (processed outcome policy now targets L report).Sublist targets
  | [], _, _ => List.Sublist.refl _
  | e :: rest, L, report => by
    rw [processed]
    dsimp only
    refine List.Sublist.cons_cons e ?_
    split
    · exact List.nil_sublist _
    · exact processed_sublist

/-- What an operation applies are accepted targets of its outcome. -/
theorem mem_evaluationsOf {outcome : EvaluationOutcome} {policy : ObservatoryPolicy} {now : NdoTime} {e : TargetEvaluation}
    (happly : L.applied op = some (outcome, policy, now)) (h : e ∈ L.evaluationsOf op) :
    e ∈ outcome.targets ∧ L.accepts e = true := by
  simp only [evaluationsOf, happly] at h
  split_ifs at h
  · cases h
  · exact List.mem_filter.mp (processed_sublist.subset h)

/-- The count of phase one leaves room for all that phase two creates. -/
theorem size_operate (h : L.findings.size ≤ L.limits.maxFindings) :
    (L.operate op).findings.size ≤ L.limits.maxFindings := by
  have hsize := @OrdMap.size_le_add_countP _ _ _ L.findings (L.operate op).findings
    ((L.evaluationsOf op).flatMap fun e => e.drafts.map fun d => d.identity.computeId) fun id hid => by
      refine (contains_operate.mp hid).imp_right fun ⟨e, he, d, hd, hid⟩ => ?_
      exact List.mem_flatMap.mpr ⟨e, he, List.mem_map.mpr ⟨d, hd, hid⟩⟩
  refine hsize.trans ?_
  cases happly : L.applied op with
  | none =>
    simp only [evaluationsOf, happly, List.flatMap_nil, List.countP_nil, Nat.add_zero]
    exact h
  | some applied =>
    obtain ⟨outcome, policy, now⟩ := applied
    simp only [evaluationsOf, happly]
    split_ifs with hfull
    · rw [List.flatMap_nil, List.countP_nil, Nat.add_zero]
      exact h
    · rw [not_lt] at hfull
      refine le_trans (Nat.add_le_add_left ?_ _) hfull
      refine ((processed_sublist.flatMap _).countP_le).trans (le_of_eq ?_)
      rw [List.countP_flatMap, newFindings]
      simp only [List.countP_map, Function.comp_def]

end Size

/-! ### What a finding says about itself -/

/-- The finding is under its identity, says about itself what the identity says, and an identity known under the same
    digest says the same about its target, its class and its generation. -/
structure Entry (known : FindingIdentity → Prop) (id : FindingId) (f : Finding) : Prop where
  under : f.id = id
  digest : f.identity.computeId = id
  klass : f.identity.klass = f.klass
  generation : f.identity.baselineGeneration = f.baselineGeneration
  drafted : ∃ i, known i ∧ i.computeId = id ∧ i.target = f.identity.target ∧ i.klass = f.klass ∧
    i.baselineGeneration = f.baselineGeneration

/-- What is drafted is known, and known identities have different digests. -/
structure Knows (known : FindingIdentity → Prop) (e : TargetEvaluation) : Prop where
  drafts : ∀ d ∈ e.drafts, known d.identity
  distinct : ∀ i j, known i → known j → i.computeId = j.computeId → i = j

section Entry
variable {known : FindingIdentity → Prop} {outcome : EvaluationOutcome} {policy : ObservatoryPolicy} {now : NdoTime}
  {L : FindingLedger} {e : TargetEvaluation} {id : FindingId} {f f' : Finding} {d : FindingDraft}

theorem Entry.kin (h : Entry known id f) (hk : Kin f f') : Entry known id f' := by
  obtain ⟨i, hi, hid, htarget, hklass, hgeneration⟩ := h.drafted
  refine ⟨hk.id.trans h.under, ?_, ?_, ?_, i, hi, hid, ?_, hklass.trans hk.klass.symm, hgeneration.trans hk.generation.symm⟩
  · rw [hk.identity, h.digest]
  · rw [hk.identity, hk.klass, h.klass]
  · rw [hk.identity, hk.generation, h.generation]
  · rw [hk.identity, htarget]

/-- A draft of the finding has its target, its class and its generation. -/
theorem Entry.same (h : Entry known id f) (hknows : Knows known e) (hd : (draftMap e.drafts).find? id = some d) :
    d.target = f.identity.target ∧ d.klass = f.klass ∧ d.baselineGeneration = f.baselineGeneration := by
  obtain ⟨hmem, hid⟩ := mem_of_find?_draftMap hd
  obtain ⟨i, hi, hdigest, htarget, hklass, hgeneration⟩ := h.drafted
  have hsame := hknows.distinct d.identity i (hknows.drafts d hmem) hi (hid.trans hdigest.symm)
  rw [← hsame] at htarget hklass hgeneration
  exact ⟨htarget, hklass, hgeneration⟩

variable [DoubleChars]

theorem entry_createFinding {limits : RuntimeLimits} {freshness : FreshnessState} (hknows : Knows known e)
    (hd : (draftMap e.drafts).find? id = some d) :
    Entry known id (createFinding limits outcome policy now freshness id d).1 := by
  obtain ⟨hmem, hid⟩ := mem_of_find?_draftMap hd
  have hc := @created_createFinding limits outcome policy now freshness _ id d
  refine ⟨hc.id, ?_, ?_, ?_, d.identity, hknows.drafts d hmem, hid, ?_, hc.klass.symm, hc.generation.symm⟩
  · rw [hc.identity, hid]
  · rw [hc.identity, hc.klass]
    rfl
  · rw [hc.identity, hc.generation]
    rfl
  · rw [hc.identity]

theorem Entry.updateFinding {limits : RuntimeLimits} {freshness : FreshnessState} (h : Entry known id f)
    (hknows : Knows known e) (hd : (draftMap e.drafts).find? id = some d) :
    Entry known id (updateFinding limits outcome policy now freshness d f).1 := by
  obtain ⟨-, hklass, hgeneration⟩ := h.same hknows hd
  have ha := @absorbed_updateFinding limits outcome policy now freshness _ d f
  exact h.kin ⟨ha.id, ha.identity, ha.klass.trans hklass, ha.generation.trans hgeneration⟩

theorem entries_round (h : Everywhere (Entry known) L) (hknows : Knows known e) :
    Everywhere (Entry known) (L.round outcome policy now e) := by
  refine Everywhere.round h (fun id d hd _ => ?_) (fun id d f hd _ hf => ?_) (fun id f _ _ _ _ _ hf => ?_)
    fun id f _ _ hf => ?_
  · exact entry_createFinding hknows hd
  · exact hf.updateFinding hknows hd
  · exact hf.kin kin_settledFinding
  · exact hf.kin kin_assignGroup

omit [DoubleChars] in
/-- A finding that is read back has an identity made of what was written, under the same digest. -/
theorem entries_restored {limits : RuntimeLimits} (h : Everywhere (Entry known) L) (hlegible : L.Legible limits) :
    Everywhere (Entry known) (L.restored limits) := by
  intro id f hf
  obtain ⟨hid, n, k, g, hg, rfl, -⟩ := find?_restored hf
  have hreadable := hlegible.findings g (OrdMap.mem_values.mpr ⟨k, hg⟩)
  have hentry := h k g hg
  have hk : k = id := hentry.under.symm.trans hid
  obtain ⟨i, hi, hdigest, htarget, hklass, hgeneration⟩ := hentry.drafted
  refine ⟨hid, hreadable.identity.trans hid, rfl, rfl, i, hi, hdigest.trans hk, htarget, hklass, hgeneration⟩

end Entry

/-! ### Whole lives -/

section Lives
variable [DoubleChars]

/-- The accepted target evaluations that a step applies. -/
def evaluated (L : FindingLedger) : LedgerStep → Option (List TargetEvaluation)
  | .operate op => some (L.evaluationsOf op)
  | .restart .. => none

/-- The accepted target evaluations of a life, in order. -/
def chronicle (L : FindingLedger) (steps : List LedgerStep) : List TargetEvaluation :=
  (Run.outputs advance evaluated L steps).flatten

variable {L : FindingLedger} {step : LedgerStep}

/-- The table holds the drafted identities, and no more than its limit. -/
structure Tabled (L : FindingLedger) (evaluations : List TargetEvaluation) : Prop where
  keyed : Keyed L
  drafted : ∀ id, L.findings.contains id = true ↔ Drafts evaluations id
  bounded : L.findings.size ≤ L.limits.maxFindings

theorem keyed_operate {op : Operation} (h : Keyed L) : Keyed (L.operate op) :=
  @operate_allowed _ L op (fun _ _ _ _ _ => True) Keyed (fun _ _ _ _ _ _ hM => hM.round) (fun _ _ hM => hM.expired)
    (fun happly => h.operate happly) (fun _ _ _ _ => Run.permits_of_mem fun _ _ _ => trivial) h

theorem tabled_advance [LawfulDoubleChars] {evaluations : List TargetEvaluation} (h : L.Tabled evaluations) :
    (L.advance step).Tabled (evaluations ++ (L.evaluated step).toList.flatten) := by
  cases step with
  | operate op =>
    rw [advance, evaluated, Option.toList_some, List.flatten_singleton]
    refine ⟨keyed_operate h.keyed, fun id => ?_, ?_⟩
    · rw [contains_operate, h.drafted, drafts_append]
    · rw [limits_operate]
      exact size_operate h.bounded
  | restart limits epoch incarnation liveEpoch =>
    rw [advance, evaluated, Option.toList_none, List.flatten_nil, List.append_nil]
    rcases @recover_cases _ L _ limits epoch liveEpoch incarnation with hsame | ⟨hlegible, hrestart⟩
    · rw [hsame]
      exact h
    · have hkeys := @Keyed.keys_restored L h.keyed limits
      rw [hrestart]
      refine ⟨keyed_restored, fun id => ?_, ?_⟩
      · rw [← OrdMap.mem_keys, hkeys, OrdMap.mem_keys, h.drafted]
      · have hsize := congrArg List.length hkeys
        rw [OrdMap.keys, OrdMap.keys, List.length_map, List.length_map] at hsize
        exact (le_of_eq hsize).trans hlegible.findingCount

theorem tabled_exec [LawfulDoubleChars] (limits : RuntimeLimits) (steps : List LedgerStep) :
    (Run.exec advance { limits := limits } steps).Tabled (chronicle { limits := limits } steps) := by
  have htabled := @Run.invariant_outputs _ _ advance (fun _ _ => True) _ evaluated (fun L out => L.Tabled out.flatten)
    (fun L step out hL _ => by rw [List.flatten_append]; exact tabled_advance hL) steps { limits := limits } []
    ⟨fun _ _ hnone => (by cases hnone), fun id => (by simp [Drafts, OrdMap.contains]), Nat.zero_le _⟩
    (Run.permits_of_mem fun _ _ _ => trivial)
  exact htabled

theorem entries_advance [LawfulDoubleChars] {known : FindingIdentity → Prop} (h : Everywhere (Entry known) L)
    (hknows : ∀ evaluations, L.evaluated step = some evaluations → ∀ e ∈ evaluations, Knows known e) :
    Everywhere (Entry known) (L.advance step) := by
  cases step with
  | operate op =>
    refine @operate_allowed _ L op (fun _ _ _ _ e => Knows known e) (Everywhere (Entry known))
      (fun _ _ _ _ e he hM => entries_round hM he)
      (fun _ _ hM => Everywhere.expired hM fun _ _ hf => hf.kin kin_expireFinding)
      (fun happly => Everywhere.worked h (worked_operate happly) fun _ _ _ ht hf => hf.kin ht.kin)
      (fun _ _ _ _ => Run.permits_of_mem fun e he _ => hknows _ rfl e he) h
  | restart limits epoch incarnation liveEpoch =>
    rw [advance]
    rcases @recover_cases _ L _ limits epoch liveEpoch incarnation with hsame | ⟨hlegible, hrestart⟩
    · rw [hsame]
      exact h
    · rw [hrestart]
      exact entries_restored h hlegible

/-- The identities drafted in a life. -/
def Known (evaluations : List TargetEvaluation) (i : FindingIdentity) : Prop :=
  ∃ e ∈ evaluations, ∃ d ∈ e.drafts, d.identity = i

/-- Two identities drafted in a life have the same digest. -/
def Collides (evaluations : List TargetEvaluation) : Prop :=
  ∃ i j, Known evaluations i ∧ Known evaluations j ∧ i ≠ j ∧ i.computeId = j.computeId

omit [DoubleChars] in
theorem knows_of_not_collides {evaluations : List TargetEvaluation} (h : ¬ Collides evaluations) :
    ∀ e ∈ evaluations, Knows (Known evaluations) e := by
  refine fun e he => ⟨fun d hd => ⟨e, he, d, hd, rfl⟩, fun i j hi hj hij => ?_⟩
  by_contra hne
  exact h ⟨i, j, hi, hj, hne, hij⟩

theorem permits_known {limits : RuntimeLimits} {steps : List LedgerStep}
    (h : ¬ Collides (chronicle { limits := limits } steps)) : Run.Permits advance
      (fun L step => ∀ evaluations, L.evaluated step = some evaluations →
        ∀ e ∈ evaluations, Knows (Known (chronicle { limits := limits } steps)) e) { limits := limits } steps :=
  Run.permits_of_outputs fun evaluations hout e he =>
    knows_of_not_collides h e (List.mem_flatten.mpr ⟨evaluations, hout, he⟩)

/-- The first evaluation of a ledger files its findings under the digests of their identities. -/
theorem keyed_applied [LawfulDoubleChars] {op : Operation} {outcome : EvaluationOutcome} {policy : ObservatoryPolicy}
    {now : NdoTime} (happly : L.applied op = some (outcome, policy, now)) (hnone : ∀ id f, L.findings.find? id ≠ some f)
    (hsha : ¬ Collides outcome.targets) :
    ∀ id f, (L.operate op).findings.find? id = some f → f.identity.computeId = id := by
  have hentries : Everywhere (Entry (Known outcome.targets)) (L.advance (.operate op)) := by
    refine entries_advance (fun id f hf => absurd hf (hnone id f)) fun evaluations hout e he => ?_
    obtain rfl := Option.some.inj hout
    exact knows_of_not_collides hsha e (mem_evaluationsOf happly he).1
  exact fun id f hf => (hentries id f hf).digest

end Lives

/-- In every life of a ledger the table holds exactly the identities that were drafted in accepted evaluations, never
    forgets one and stays within its limit, and unless drafted identities collide, each finding is under the digest of
    its identity, with the class and the generation of that identity. -/
theorem findings_tabled [DoubleChars] [LawfulDoubleChars] (limits : RuntimeLimits) (steps : List LedgerStep) :
    (Collides (chronicle { limits := limits } steps) ∨
      ∀ id f, (Run.exec advance { limits := limits } steps).findings.find? id = some f →
        f.id = id ∧ f.identity.computeId = id ∧ f.identity.klass = f.klass ∧
          f.identity.baselineGeneration = f.baselineGeneration) ∧
    (Run.exec advance { limits := limits } steps).findings.size ≤
      (Run.exec advance { limits := limits } steps).limits.maxFindings ∧
    (∀ id, (Run.exec advance { limits := limits } steps).findings.contains id = true ↔
      ∃ e ∈ chronicle { limits := limits } steps, ∃ d ∈ e.drafts, d.identity.computeId = id) ∧
    ∀ more id, (Run.exec advance { limits := limits } steps).findings.contains id = true →
      (Run.exec advance { limits := limits } (steps ++ more)).findings.contains id = true := by
  have htabled := tabled_exec limits steps
  refine ⟨?_, htabled.bounded, htabled.drafted, fun more id hid => ?_⟩
  · by_cases hcollides : Collides (chronicle { limits := limits } steps)
    · exact .inl hcollides
    · have hentries := @Run.invariant _ _ advance _
        (Everywhere (Entry (Known (chronicle { limits := limits } steps))))
        (fun L step hL hknows => entries_advance hL hknows) steps { limits := limits } (fun _ _ hnone => (by cases hnone))
        (permits_known hcollides)
      refine .inr fun id f hf => ?_
      have hentry := hentries id f hf
      exact ⟨hentry.under, hentry.digest, hentry.klass, hentry.generation⟩
  · rw [(tabled_exec limits (steps ++ more)).drafted, chronicle, Run.outputs_append, List.flatten_append, drafts_append]
    exact .inl ((htabled.drafted id).mp hid)

end FindingLedger

namespace Sample
open FindingLedger

/-- A required target without intent is evaluated twice. -/
def twice : List LedgerStep :=
  [.operate (.evaluate requiring {} ⟨1⟩ ⟨1⟩ ⟨1⟩), .operate reevaluate]

end Sample

theorem FindingLedger.findings_tabled_twice :
    (Run.exec (@advance Sample.bitDoubles) { limits := {} } Sample.twice).findings.size = 1 ∧
      ∀ id, (Run.exec (@advance Sample.bitDoubles) { limits := {} } Sample.twice).findings.contains id = true ↔
        ∃ e ∈ @chronicle Sample.bitDoubles { limits := {} } Sample.twice, ∃ d ∈ e.drafts, d.identity.computeId = id :=
  ⟨by decide +kernel,
    (@findings_tabled Sample.bitDoubles Sample.lawful_bitDoubles {} Sample.twice).2.2.1⟩

end DriftObservatory
