import DriftObservatory.Lib.Log
import DriftObservatory.Theorems.Generations
import DriftObservatory.Theorems.Sources

/-! The agreements that a resolution counts. As long as each target evaluation is fit for the agreements on record when its
    turn comes, those of a live finding are as many as its streak says, rest on different snapshots, and have no evaluation
    without usable evidence between them. -/

namespace DriftObservatory

/-- An evaluation of a target that reaches the ledger, and the snapshot it took as primary evidence. -/
structure Reading where
  evaluation : TargetEvaluation
  primary : Option ObservationSnapshot

namespace Reading

def drafts (id : FindingId) (r : Reading) : Bool := r.evaluation.drafts.any fun d => d.identity.computeId == id

/-- The source, epoch, incarnation and sequence of the primary snapshot. -/
def key (r : Reading) : Option (SourceId × FabricEpoch × Incarnation × SourceSequence) :=
  r.primary.map ObservationSnapshot.claimKey

/-- A decidable evaluation has a primary snapshot. -/
def Sighted (r : Reading) : Prop := r.evaluation.complianceDecidable = true → r.primary.isSome = true

/-- No worker got to the target; the record in its place names none. -/
def Skipped (r : Reading) : Prop := r.evaluation = {}

end Reading

/-- The readings that agree on the absence of the finding, since it was last drafted. -/
def agreements (id : FindingId) (f : Finding) (readings : List Reading) : List Reading :=
  Since.counted (Reading.drafts id) (fun r => FindingLedger.confirms id f r.evaluation) readings

/-- All readings from the first of the agreements on. -/
def agreementSpan (id : FindingId) (f : Finding) (readings : List Reading) : List Reading :=
  Since.span (Reading.drafts id) (fun r => FindingLedger.confirms id f r.evaluation) readings

/-- The agreements rest on different snapshots, and no evaluation of the target without usable evidence lies among them. -/
structure Independent (id : FindingId) (f : Finding) (readings : List Reading) : Prop where
  observed : ∀ r ∈ agreements id f readings, r.primary.isSome = true
  distinct : ((agreements id f readings).map Reading.key).Nodup
  usable : ∀ r ∈ agreementSpan id f readings, ¬ r.Skipped → r.evaluation.target = f.identity.target →
    r.evaluation.complianceDecidable = true

section Readings
variable {id : FindingId} {f f' : Finding} {readings : List Reading} {r : Reading}

theorem drafts_eq_false_iff : r.drafts id = false ↔ (FindingLedger.draftMap r.evaluation.drafts).find? id = none := by
  rw [← OrdMap.contains_eq_false_iff, ← Bool.not_eq_true, ← Bool.not_eq_true, FindingLedger.contains_draftMap]
  simp [Reading.drafts]

theorem agreements_congr (hi : f'.identity = f.identity) (hg : f'.baselineGeneration = f.baselineGeneration) :
    agreements id f' readings = agreements id f readings := by
  unfold agreements
  rw [FindingLedger.confirms_congr hi hg]

theorem Independent.congr (h : Independent id f readings) (hi : f'.identity = f.identity)
    (hg : f'.baselineGeneration = f.baselineGeneration) : Independent id f' readings := by
  refine ⟨?_, ?_, ?_⟩
  · rw [agreements_congr hi hg]
    exact h.observed
  · rw [agreements_congr hi hg]
    exact h.distinct
  · unfold agreementSpan
    rw [FindingLedger.confirms_congr hi hg, hi]
    exact h.usable

/-- A draft puts an end to the agreements. -/
theorem independent_of_drafts (h : r.drafts id = true) :
    agreements id f (readings ++ [r]) = [] ∧ Independent id f (readings ++ [r]) := by
  have hnone : agreements id f (readings ++ [r]) = [] := Since.counted_concat_of_ends h
  refine ⟨hnone, ?_, ?_, ?_⟩
  · rw [hnone]
    exact fun _ hr => absurd hr List.not_mem_nil
  · rw [hnone]
    exact List.nodup_nil
  · rw [agreementSpan, Since.span_concat_of_ends h]
    exact fun _ hr => absurd hr List.not_mem_nil

/-- A reading that agrees joins the agreements if it rests on a new snapshot, and no reading of the target may lack usable
    evidence once there are agreements. -/
theorem Independent.concat (h : Independent id f readings) (hd : r.drafts id = false) (hsighted : r.Sighted)
    (hagrees : FindingLedger.confirms id f r.evaluation = true → r.key ∉ (agreements id f readings).map Reading.key)
    (husable : agreements id f readings ≠ [] → ¬ r.Skipped → r.evaluation.target = f.identity.target →
      r.evaluation.complianceDecidable = true) : Independent id f (readings ++ [r]) := by
  have hdecidable : FindingLedger.confirms id f r.evaluation = true → r.evaluation.complianceDecidable = true := by
    intro hconfirms
    simp only [FindingLedger.confirms, Bool.and_eq_true] at hconfirms
    exact hconfirms.1.2
  have hconcat : agreements id f (readings ++ [r]) =
      agreements id f readings ++ if FindingLedger.confirms id f r.evaluation then [r] else [] := Since.counted_concat hd
  refine ⟨fun r' hr' => ?_, ?_, fun r' hr' hmet htarget => ?_⟩
  · rw [hconcat] at hr'
    rcases List.mem_append.mp hr' with hr' | hr'
    · exact h.observed r' hr'
    · split_ifs at hr' with hconfirms
      · rw [List.mem_singleton.mp hr']
        exact hsighted (hdecidable hconfirms)
      · cases hr'
  · rw [hconcat]
    split_ifs with hconfirms
    · rw [List.map_append, List.nodup_append]
      refine ⟨h.distinct, List.nodup_singleton _, fun key hkey key' hkey' heq => ?_⟩
      rw [List.map_singleton, List.mem_singleton] at hkey'
      exact hagrees hconfirms (hkey' ▸ heq ▸ hkey)
    · rw [List.append_nil]
      exact h.distinct
  · rcases Since.mem_span_concat hd hr' with hr' | ⟨rfl, hagreed | hconfirms⟩
    · exact h.usable r' hr' hmet htarget
    · exact husable hagreed hmet htarget
    · exact hdecidable hconfirms

end Readings

namespace FindingLedger

/-- The reading is fit for the agreements on record for the live findings of its target that it does not draft: it is
    decidable, and if it agrees as well, it rests on another snapshot than they do. -/
def Fit (L : FindingLedger) (readings : List Reading) (r : Reading) : Prop :=
  ¬ r.Skipped → ∀ id f, L.findings.find? id = some f → f.isLive = true → f.identity.target = r.evaluation.target →
    0 < L.streakOf id → r.drafts id = false → r.evaluation.complianceDecidable = true ∧
      (confirms id f r.evaluation = true → r.key ∉ (agreements id f readings).map Reading.key)

theorem fit_of_entries {L : FindingLedger} {readings : List Reading} {r : Reading}
    (h : (L.findings.entries.all fun entry => r.evaluation.complianceDecidable &&
      decide (r.key ∉ (agreements entry.1 entry.2 readings).map Reading.key)) = true) : L.Fit readings r := by
  intro _ id f hf _ _ _ _
  have hone := List.all_eq_true.mp h (id, f) (OrdMap.mem_entries_iff.mpr hf)
  rw [Bool.and_eq_true, decide_eq_true_eq] at hone
  exact ⟨hone.1, fun _ => hone.2⟩

/-- Every finding is under the digest of its identity, which is a known one; those that are live have as many agreements as
    their streak says, and these are independent. -/
structure Tallied (known : FindingIdentity → Prop) (L : FindingLedger) (readings : List Reading) : Prop where
  keyed : ∀ id f, L.findings.find? id = some f → f.identity.computeId = id ∧ known f.identity
  fresh : ∀ id, L.findings.find? id = none → L.streakOf id = 0
  tally : ∀ id f, L.findings.find? id = some f → f.isLive = true → (agreements id f readings).length = L.streakOf id
  independent : ∀ id f, L.findings.find? id = some f → f.isLive = true → Independent id f readings

section Tallied
variable {known : FindingIdentity → Prop} {L M : FindingLedger} {readings : List Reading}

theorem tallied_of_no_streaks (hkeyed : ∀ id f, L.findings.find? id = some f → f.identity.computeId = id ∧ known f.identity)
    (hstreaks : L.resolutionStreak = ∅) : Tallied known L [] := by
  have hzero : ∀ id, L.streakOf id = 0 := fun id => by
    rw [streakOf, hstreaks]
    rfl
  refine ⟨hkeyed, fun id _ => hzero id, fun id f _ _ => (hzero id).symm, fun id f _ _ => ⟨?_, List.nodup_nil, ?_⟩⟩
  · exact fun _ hr => absurd hr List.not_mem_nil
  · exact fun _ hr => absurd hr List.not_mem_nil

/-- What moves no finding and revives none keeps the tally. -/
theorem Tallied.quiet (h : Tallied known L readings) (hq : Quiet L M)
    (hlive : ∀ id f f', L.findings.find? id = some f → M.findings.find? id = some f' → f'.isLive = true →
      f.isLive = true) : Tallied known M readings := by
  have hstreak : ∀ id, M.streakOf id = L.streakOf id := fun id => by rw [streakOf, streakOf, hq.streaks]
  have hback : ∀ id f', M.findings.find? id = some f' →
      ∃ f, L.findings.find? id = some f ∧ Keeps f f' ∧ (f'.isLive = true → f.isLive = true) := by
    intro id f' hf'
    rcases hq.findings id with ⟨-, hnone⟩ | ⟨f, g, hf, hg, hk⟩
    · rw [hnone] at hf'
      cases hf'
    · obtain rfl := Option.some.inj (hg.symm.trans hf')
      exact ⟨f, hf, hk, hlive id f g hf hg⟩
  constructor
  · intro id f' hf'
    obtain ⟨f, hf, hk, -⟩ := hback id f' hf'
    rw [hk.identity]
    exact h.keyed id f hf
  · intro id hnone
    rw [hstreak]
    rcases hq.findings id with ⟨hbefore, -⟩ | ⟨f, g, hf, hg, hk⟩
    · exact h.fresh id hbefore
    · rw [hg] at hnone
      cases hnone
  · intro id f' hf' hlive'
    obtain ⟨f, hf, hk, hlived⟩ := hback id f' hf'
    rw [hstreak, agreements_congr hk.identity hk.generation]
    exact h.tally id f hf (hlived hlive')
  · intro id f' hf' hlive'
    obtain ⟨f, hf, hk, hlived⟩ := hback id f' hf'
    exact (h.independent id f hf (hlived hlive')).congr hk.identity hk.generation

variable [DoubleChars] {outcome : EvaluationOutcome} {policy : ObservatoryPolicy} {now : NdoTime} {r : Reading}
  {e : TargetEvaluation} {id : FindingId}

/-- No operator's step moves or revives a finding. -/
theorem Tallied.worked {op : Operation} (h : Tallied known L readings) (hw : Worked op L M) : Tallied known M readings := by
  refine h.quiet hw.quiet fun id f f' hf hf' hlive => ?_
  rcases hw.findings id with ⟨hnone, -⟩ | ⟨g, g', hg, hg', ht⟩
  · rw [hf] at hnone
    cases hnone
  · obtain rfl := Option.some.inj (hf.symm.trans hg)
    obtain rfl := Option.some.inj (hf'.symm.trans hg')
    exact live_of_touched ht hlive

/-- Settling leaves an undrafted finding alone, unless the finding is live and the evaluation decides its target. -/
theorem part_settling_undrafted {f : Finding} (hd : (draftMap e.drafts).find? id = none)
    (hf : L.findings.find? id = some f) :
    (f.identity.target = e.target ∧ f.isLive = true ∧ e.complianceDecidable = true ∧
      (L.settling outcome policy now e).ledger.part id =
        (some ((L.drafted outcome policy now e).settledFinding outcome now (draftMap e.drafts) (L.nextStreak id) f),
          if (L.drafted outcome policy now e).reclassified (draftMap e.drafts) f then L.resolutionStreak.find? id
          else some (L.nextStreak id))) ∨
    (¬ (f.identity.target = e.target ∧ f.isLive = true ∧ e.complianceDecidable = true) ∧
      (L.settling outcome policy now e).ledger.part id = L.part id) := by
  obtain ⟨hset, hskip⟩ := @part_settleUndrafted _ outcome now id e.complianceDecidable (draftMap e.drafts)
    (L.drafted outcome policy now e) e.target
  have hsame := (@part_drafted _ outcome policy now L e id).2 hd
  have hmem : id ∈ (L.drafted outcome policy now e).undrafted e.target (draftMap e.drafts) ↔
      f.identity.target = e.target ∧ f.isLive = true := by
    rw [mem_undrafted, find?_of_part hsame, hf]
    constructor
    · rintro ⟨g, hg, htarget, hlive, -⟩
      obtain rfl := Option.some.inj hg
      exact ⟨htarget, hlive⟩
    · rintro ⟨htarget, hlive⟩
      exact ⟨f, rfl, htarget, hlive, hd⟩
  unfold settling
  by_cases hundrafted : f.identity.target = e.target ∧ f.isLive = true
  · rw [hset (hmem.mpr hundrafted), hsame, part, hf]
    cases hdecidable : e.complianceDecidable with
    | false => exact .inr ⟨fun h => (by cases h.2.2), rfl⟩
    | true => exact .inl ⟨hundrafted.1, hundrafted.2, rfl, rfl⟩
  · rw [hskip (mt hmem.mp hundrafted), hsame]
    exact .inr ⟨fun h => hundrafted ⟨h.1, h.2.1⟩, rfl⟩

/-- What the turn of a target makes of the finding under an identity, and of its streak. -/
inductive Turned (known : FindingIdentity → Prop) (outcome : EvaluationOutcome) (L M : FindingLedger) (r : Reading)
    (id : FindingId) : Finding → Prop
  | drafted (f' : Finding) (hd : r.drafts id = true) (hkeyed : f'.identity.computeId = id ∧ known f'.identity)
      (hlive : f'.isLive = true) (hstreak : M.streakOf id = 0) : Turned known outcome L M r id f'
  | agreed (f f' : Finding) (hd : r.drafts id = false) (hf : L.findings.find? id = some f) (hlive : f.isLive = true)
      (hconfirms : confirms id f r.evaluation = true) (hidentity : f'.identity = f.identity)
      (hgeneration : f'.baselineGeneration = f.baselineGeneration) (hstreak : M.streakOf id = L.streakOf id + 1)
      (hresolved : f'.state = .resolved → requiredConfirmations outcome ≤ M.streakOf id) : Turned known outcome L M r id f'
  | reclassified (f f' : Finding) (hf : L.findings.find? id = some f) (hidentity : f'.identity = f.identity)
      (hstate : f'.state = .superseded) : Turned known outcome L M r id f'
  | kept (f : Finding) (hd : r.drafts id = false) (hf : L.findings.find? id = some f)
      (hskipped : ¬ (f.identity.target = r.evaluation.target ∧ f.isLive = true ∧ r.evaluation.complianceDecidable = true))
      (hstreak : M.streakOf id = L.streakOf id) : Turned known outcome L M r id f

theorem turned_settling (h : Tallied known L readings)
    (hsha : ∀ i j, known i → known j → i.computeId = j.computeId → i = j)
    (hknown : ∀ d ∈ r.evaluation.drafts, known d.identity) {f' : Finding}
    (hf' : (L.settling outcome policy now r.evaluation).ledger.findings.find? id = some f') :
    Turned known outcome L (L.settling outcome policy now r.evaluation).ledger r id f' := by
  obtain ⟨hdrafted, hrest⟩ := @part_settling _ outcome policy now L r.evaluation id
  have hundrafted := fun f => @part_settling_undrafted L _ outcome policy now r.evaluation id f
  generalize (L.settling outcome policy now r.evaluation).ledger = N at hf' hdrafted hrest hundrafted
  replace hf' : (N.part id).1 = some f' := hf'
  cases hd : (draftMap r.evaluation.drafts).find? id with
  | some d =>
    obtain ⟨hin, hid⟩ := mem_of_find?_draftMap hd
    have hdrafts : r.drafts id = true := by
      by_contra hnot
      rw [drafts_eq_false_iff.mp (Bool.eq_false_iff.mpr hnot)] at hd
      cases hd
    rw [hdrafted d hd] at hf'
    obtain ⟨-, hident⟩ := @drafted_place _ outcome policy now id r.evaluation.bestFreshness L.limits d (L.findings.find? id)
    have hlive : (draftedFinding L.limits outcome policy now r.evaluation.bestFreshness id d
        (L.findings.find? id)).isLive = true := isLive_draftedFinding _
    rw [Option.some.inj hf'] at hident hlive
    refine .drafted f' hdrafts ?_ hlive ?_
    · rcases hident with heq | ⟨g, hg, heq⟩
      · rw [heq]
        exact ⟨hid, hknown d hin⟩
      · rw [heq]
        exact h.keyed id g hg
    · rw [streakOf_eq_part, hdrafted d hd]
      cases hbefore : L.findings.find? id with
      | none => exact h.fresh id hbefore
      | some before => rfl
  | none =>
    have hdrafts := drafts_eq_false_iff.mpr hd
    obtain ⟨f, hf⟩ : ∃ f, L.findings.find? id = some f := by
      rcases hrest hd with hsame | ⟨f, hf, -⟩
      · exact ⟨f', (congrArg Prod.fst hsame).symm.trans hf'⟩
      · exact ⟨f, hf⟩
    rcases hundrafted f hd hf with ⟨htarget, hlive, hdecidable, hset⟩ | ⟨hskipped, hsame⟩
    · rw [hset] at hf'
      obtain ⟨hidentity, hgeneration⟩ := @settled_place _ outcome now (L.drafted outcome policy now r.evaluation)
        (draftMap r.evaluation.drafts) (L.nextStreak id) f
      rw [Option.some.inj hf'] at hidentity hgeneration
      cases hre : (L.drafted outcome policy now r.evaluation).reclassified (draftMap r.evaluation.drafts) f with
      | true =>
        refine .reclassified f f' hf hidentity ?_
        rw [← Option.some.inj hf', settledFinding, if_pos hre]
        exact (ended_supersedeFinding now f).state
      | false =>
        have hstreak : N.streakOf id = L.streakOf id + 1 := by
          rw [streakOf_eq_part, hset, hre]
          rfl
        refine .agreed f f' hdrafts hf hlive (confirms_of_settled h.keyed hsha hknown hd htarget hdecidable hre) hidentity
          hgeneration hstreak fun hres => ?_
        rw [← Option.some.inj hf', settledFinding, if_neg (by rw [hre]; exact Bool.false_ne_true)] at hres
        split_ifs at hres with henough
        · rw [hstreak]
          exact henough
        · rw [Finding.isLive, hres] at hlive
          cases hlive
    · rw [hsame, part, hf] at hf'
      obtain rfl := Option.some.inj hf'
      refine .kept f hdrafts hf hskipped ?_
      rw [streakOf_eq_part, hsame]
      rfl

omit [DoubleChars] in
theorem Tallied.concat {f : Finding} (h : Tallied known L readings) (hf : L.findings.find? id = some f)
    (hlive : f.isLive = true) (hd : r.drafts id = false) (hsighted : r.Sighted) (hfit : L.Fit readings r) :
    Independent id f (readings ++ [r]) := by
  have hpending : agreements id f readings ≠ [] → 0 < L.streakOf id := fun hne => by
    rw [← h.tally id f hf hlive]
    exact List.length_pos_iff.mpr hne
  refine (h.independent id f hf hlive).concat hd hsighted (fun hconfirms hkey => ?_) fun hne hmet htarget =>
    (hfit hmet id f hf hlive htarget.symm (hpending hne) hd).1
  have hmet : ¬ r.Skipped := fun hskipped => by
    rw [hskipped, confirms, Bool.and_false, Bool.false_and] at hconfirms
    cases hconfirms
  have htarget : r.evaluation.target = f.identity.target := by
    simp only [confirms, Bool.and_eq_true, beq_iff_eq] at hconfirms
    exact hconfirms.1.1
  have hne : agreements id f readings ≠ [] := fun hnil => by
    rw [hnil] at hkey
    cases hkey
  exact (hfit hmet id f hf hlive htarget.symm (hpending hne) hd).2 hconfirms hkey

/-- A reading that is fit keeps the tally. -/
theorem Tallied.settling (h : Tallied known L readings)
    (hsha : ∀ i j, known i → known j → i.computeId = j.computeId → i = j)
    (hknown : ∀ d ∈ r.evaluation.drafts, known d.identity) (hsighted : r.Sighted) (hfit : L.Fit readings r) :
    Tallied known (L.settling outcome policy now r.evaluation).ledger (readings ++ [r]) := by
  have hturned := fun id f' => @turned_settling known L readings _ outcome policy now r id h hsha hknown f'
  have hgone : ∀ id, (L.settling outcome policy now r.evaluation).ledger.findings.find? id = none →
      (L.settling outcome policy now r.evaluation).ledger.part id = L.part id := by
    intro id hnone
    obtain ⟨hdrafted, hrest⟩ := @part_settling _ outcome policy now L r.evaluation id
    replace hnone : ((L.settling outcome policy now r.evaluation).ledger.part id).1 = none := hnone
    cases hd : (draftMap r.evaluation.drafts).find? id with
    | some d =>
      rw [hdrafted d hd] at hnone
      cases hnone
    | none =>
      rcases hrest hd with hsame | ⟨f, -, -, -, -, hset⟩
      · exact hsame
      · rw [hset] at hnone
        cases hnone
  generalize (L.settling outcome policy now r.evaluation).ledger = N at hturned hgone
  constructor
  · intro id f' hf'
    cases hturned id f' hf' with
    | drafted _ hd hkeyed => exact hkeyed
    | agreed f _ hd hf hlive hconfirms hidentity =>
      rw [hidentity]
      exact h.keyed id f hf
    | reclassified f _ hf hidentity =>
      rw [hidentity]
      exact h.keyed id f hf
    | kept f hd hf => exact h.keyed id f' hf
  · intro id hnone
    rw [streakOf_eq_part, hgone id hnone]
    exact h.fresh id ((find?_of_part (hgone id hnone)).symm.trans hnone)
  · intro id f' hf' hlive'
    cases hturned id f' hf' with
    | drafted _ hd _ _ hstreak => rw [(independent_of_drafts hd).1, hstreak, List.length_nil]
    | agreed f _ hd hf hlive hconfirms hidentity hgeneration hstreak =>
      rw [agreements_congr hidentity hgeneration, hstreak, ← h.tally id f hf hlive, agreements, Since.counted_concat hd,
        if_pos hconfirms, List.length_append, List.length_singleton]
      rfl
    | reclassified f _ hf hidentity hstate =>
      rw [Finding.isLive, hstate] at hlive'
      cases hlive'
    | kept _ hd hf hskipped hstreak =>
      have hsilent : ¬ confirms id f' r.evaluation = true := by
        intro hconfirms
        simp only [confirms, Bool.and_eq_true, beq_iff_eq] at hconfirms
        exact hskipped ⟨hconfirms.1.1.symm, hlive', hconfirms.1.2⟩
      rw [hstreak, ← h.tally id f' hf hlive', agreements, Since.counted_concat hd, if_neg hsilent, List.append_nil]
      rfl
  · intro id f' hf' hlive'
    cases hturned id f' hf' with
    | drafted _ hd => exact (independent_of_drafts hd).2
    | agreed f _ hd hf hlive _ hidentity hgeneration =>
      exact (h.concat hf hlive hd hsighted hfit).congr hidentity hgeneration
    | reclassified f _ hf hidentity hstate =>
      rw [Finding.isLive, hstate] at hlive'
      cases hlive'
    | kept _ hd hf => exact h.concat hf hlive' hd hsighted hfit

/-- The group refresh of a target moves and revives nothing. -/
theorem settled_of_round {f' : Finding} (hf' : (L.round outcome policy now e).findings.find? id = some f') :
    ∃ f, (L.settling outcome policy now e).ledger.findings.find? id = some f ∧ f'.identity = f.identity ∧
      f'.baselineGeneration = f.baselineGeneration ∧ f'.isLive = f.isLive := by
  obtain ⟨g, hg, hfind, -⟩ := @find?_round _ outcome policy now L e
  rw [hfind] at hf'
  obtain ⟨f, hf, rfl⟩ := Option.map_eq_some_iff.mp hf'
  refine ⟨f, hf, ?_⟩
  rcases hg f with hsame | ⟨assignment, hsame⟩
  · rw [hsame]
    exact ⟨rfl, rfl, rfl⟩
  · rw [hsame]
    refine ⟨kin_assignGroup.identity, kin_assignGroup.generation, ?_⟩
    rw [Finding.isLive, assignGroup_marks.2]
    rfl

theorem Tallied.round (h : Tallied known L readings)
    (hsha : ∀ i j, known i → known j → i.computeId = j.computeId → i = j)
    (hknown : ∀ d ∈ r.evaluation.drafts, known d.identity) (hsighted : r.Sighted) (hfit : L.Fit readings r) :
    Tallied known (L.round outcome policy now r.evaluation) (readings ++ [r]) := by
  refine (@Tallied.settling known L readings _ outcome policy now r h hsha hknown hsighted hfit).quiet quiet_refresh ?_
  intro id f f' hf hf' hlive
  obtain ⟨g, hg, -, -, heq⟩ := settled_of_round hf'
  obtain rfl := Option.some.inj (hf.symm.trans hg)
  rwa [← heq]

/-- The turn of another target leaves the reading as fit as it was. -/
theorem Fit.round {r' : Reading} (h : Tallied known L readings)
    (hsha : ∀ i j, known i → known j → i.computeId = j.computeId → i = j)
    (hknown : ∀ d ∈ r.evaluation.drafts, known d.identity ∧ d.identity.target = r.evaluation.target)
    (hother : r.Skipped ∨ r'.Skipped ∨ r.evaluation.target ≠ r'.evaluation.target) (hfit : L.Fit readings r') :
    (L.round outcome policy now r.evaluation).Fit (readings ++ [r]) r' := by
  intro hmet id f' hf' hlive' htarget hstreak hd'
  replace hother := hother.imp_right fun h => h.resolve_left hmet
  obtain ⟨f, hf, hidentity, hgeneration, hlive⟩ := settled_of_round hf'
  rw [streakOf, streak_round] at hstreak
  rw [hidentity] at htarget
  rw [hlive'] at hlive
  rw [FindingLedger.confirms_congr hidentity hgeneration, agreements_congr hidentity hgeneration]
  have hsilent : ¬ confirms id f r.evaluation = true := by
    intro hconfirms
    simp only [confirms, Bool.and_eq_true, beq_iff_eq] at hconfirms
    rcases hother with hskipped | hne
    · rw [hskipped] at hconfirms
      cases hconfirms.1.2
    · exact hne (hconfirms.1.1.trans htarget)
  cases turned_settling h hsha (fun d hd => (hknown d hd).1) hf with
  | drafted _ hd hkeyed =>
    simp only [Reading.drafts, List.any_eq_true, beq_iff_eq] at hd
    obtain ⟨d, hmem, hid⟩ := hd
    rcases hother with hskipped | hne
    · rw [hskipped] at hmem
      cases hmem
    · have hsame := hsha f.identity d.identity hkeyed.2 (hknown d hmem).1 (hkeyed.1.trans hid.symm)
      exact absurd ((hknown d hmem).2.symm.trans (hsame ▸ htarget)) hne
  | agreed f₀ _ hd hf₀ hlive₀ hconfirms hidentity₀ hgeneration₀ =>
    rw [FindingLedger.confirms_congr hidentity₀ hgeneration₀] at hsilent
    exact absurd hconfirms hsilent
  | reclassified f₀ _ hf₀ hidentity₀ hstate =>
    rw [Finding.isLive, hstate] at hlive
    cases hlive
  | kept _ hd hf₀ hskipped hsame =>
    have hsteady : agreements id f (readings ++ [r]) = agreements id f readings := by
      rw [agreements, Since.counted_concat hd, if_neg hsilent, List.append_nil]
      rfl
    rw [hsteady]
    exact hfit hmet id f hf₀ hlive.symm htarget (hsame ▸ hstreak) hd'

/-! ### The evaluations of an outcome -/

/-- Every resolved finding was resolved before, or a reading since has resolved it: the agreements with it are as many as the
    outcome requires, and independent. -/
def Credited (outcome : EvaluationOutcome) (before : List Reading) (L M : FindingLedger) (done : List Reading) : Prop :=
  ∀ id f, M.findings.find? id = some f → f.state = .resolved →
    (∃ f₀, L.findings.find? id = some f₀ ∧ f₀.state = .resolved) ∨
    ∃ earlier r later, done = earlier ++ r :: later ∧
      requiredConfirmations outcome ≤ (agreements id f (before ++ earlier ++ [r])).length ∧
      Independent id f (before ++ earlier ++ [r])

variable {before done new : List Reading} {N : FindingLedger}

omit [DoubleChars] in
theorem Credited.quiet (h : Credited outcome before N L done) (hq : Quiet L M) : Credited outcome before N M done := by
  intro id f' hf' hres
  rcases hq.findings id with ⟨-, hnone⟩ | ⟨f, g, hf, hg, hk⟩
  · rw [hnone] at hf'
    cases hf'
  · obtain rfl := Option.some.inj (hg.symm.trans hf')
    refine (h id f hf (hk.resolved hres)).imp_right ?_
    rintro ⟨earlier, r, later, hdone, henough, hindependent⟩
    refine ⟨earlier, r, later, hdone, ?_, hindependent.congr hk.identity hk.generation⟩
    rwa [agreements_congr hk.identity hk.generation]

theorem Credited.round (ht : Tallied known L (before ++ done))
    (hsha : ∀ i j, known i → known j → i.computeId = j.computeId → i = j)
    (hknown : ∀ d ∈ r.evaluation.drafts, known d.identity) (hsighted : r.Sighted) (hfit : L.Fit (before ++ done) r)
    (h : Credited outcome before N L done) :
    Credited outcome before N (L.round outcome policy now r.evaluation) (done ++ [r]) := by
  suffices hsettled : Credited outcome before N (L.settling outcome policy now r.evaluation).ledger (done ++ [r]) from
    hsettled.quiet quiet_refresh
  intro id f' hf' hres
  have htallied := @Tallied.settling known L (before ++ done) _ outcome policy now r ht hsha hknown hsighted hfit
  cases turned_settling ht hsha hknown hf' with
  | drafted _ hd hkeyed hlive =>
    rw [Finding.isLive, hres] at hlive
    cases hlive
  | agreed f _ hd hf hlive hconfirms hidentity hgeneration hstreak hresolved =>
    refine .inr ⟨done, r, [], rfl, ?_, (ht.concat hf hlive hd hsighted hfit).congr hidentity hgeneration⟩
    have hcount : (agreements id f (before ++ done ++ [r])).length = L.streakOf id + 1 := by
      rw [← ht.tally id f hf hlive, agreements, Since.counted_concat hd, if_pos hconfirms, List.length_append,
        List.length_singleton]
      rfl
    rw [agreements_congr hidentity hgeneration, hcount, ← hstreak]
    exact hresolved hres
  | reclassified f _ hf hidentity hstate =>
    rw [hstate] at hres
    cases hres
  | kept _ hd hf =>
    refine (h id f' hf hres).imp_right ?_
    rintro ⟨earlier, r', later, rfl, hrest⟩
    exact ⟨earlier, r', later ++ [r], by rw [List.append_assoc, List.cons_append], hrest⟩

/-- The turn of a target, and the readings so far. -/
def watchRound (outcome : EvaluationOutcome) (policy : ObservatoryPolicy) (now : NdoTime)
    (w : FindingLedger × List Reading) (r : Reading) : FindingLedger × List Reading :=
  (w.1.round outcome policy now r.evaluation, w.2 ++ [r])

theorem exec_watchRound : Run.exec (watchRound outcome policy now) (L, readings) new =
    (Run.exec (FindingLedger.round outcome policy now) L (new.map Reading.evaluation), readings ++ new) := by
  induction new generalizing L readings with
  | nil => rw [Run.exec_nil, List.map_nil, Run.exec_nil, List.append_nil]
  | cons r rest ih =>
    rw [Run.exec_cons, List.map_cons, Run.exec_cons, watchRound, ih, List.append_assoc]
    rfl

/-- What is fit before an outcome with different targets is fit when its turn comes. -/
theorem permits_of_fit (h : Tallied known L before)
    (hsha : ∀ i j, known i → known j → i.computeId = j.computeId → i = j)
    (hknown : ∀ r ∈ new, ∀ d ∈ r.evaluation.drafts, known d.identity ∧ d.identity.target = r.evaluation.target)
    (hsighted : ∀ r ∈ new, r.Sighted)
    (hdistinct : new.Pairwise fun r r' => r.Skipped ∨ r'.Skipped ∨ r.evaluation.target ≠ r'.evaluation.target)
    (hfit : ∀ r ∈ new, L.Fit before r) :
    Run.Permits (watchRound outcome policy now) (fun w r => w.1.Fit w.2 r) (L, before) new := by
  induction new generalizing L before with
  | nil => trivial
  | cons r rest ih =>
    obtain ⟨hhead, hrest⟩ := List.pairwise_cons.mp hdistinct
    have hr := List.mem_cons_self (a := r) (l := rest)
    have hmem := fun r' => List.mem_cons_of_mem (a := r') r (l := rest)
    have hfirst := hfit r hr
    refine ⟨hfirst, ih ?_ (fun r' hr' => hknown r' (hmem r' hr')) (fun r' hr' => hsighted r' (hmem r' hr')) hrest ?_⟩
    · exact @Tallied.round known L before _ outcome policy now r h hsha (fun d hd => (hknown r hr d hd).1)
        (hsighted r hr) hfirst
    · exact fun r' hr' => Fit.round h hsha (hknown r hr) (hhead r' hr') (hfit r' (hmem r' hr'))

/-- Where the readings of an outcome are fit, the tally is kept, and what becomes resolved is credited. -/
theorem credited_rounds (h : Tallied known L before)
    (hsha : ∀ i j, known i → known j → i.computeId = j.computeId → i = j)
    (hknown : ∀ r ∈ new, ∀ d ∈ r.evaluation.drafts, known d.identity ∧ d.identity.target = r.evaluation.target)
    (hsighted : ∀ r ∈ new, r.Sighted)
    (hdistinct : new.Pairwise fun r r' => r.Skipped ∨ r'.Skipped ∨ r.evaluation.target ≠ r'.evaluation.target)
    (hfit : ∀ r ∈ new, L.Fit before r) :
    Tallied known (Run.exec (FindingLedger.round outcome policy now) L (new.map Reading.evaluation)) (before ++ new) ∧
      Credited outcome before L (Run.exec (FindingLedger.round outcome policy now) L (new.map Reading.evaluation)) new := by
  have hturns := @permits_of_fit known L _ outcome policy now before new h hsha hknown hsighted hdistinct hfit
  have hboth := hturns.and (@Run.permits_of_mem _ _ (watchRound outcome policy now)
    (fun _ r => (∀ d ∈ r.evaluation.drafts, known d.identity) ∧ r.Sighted) new (L, before) fun r hr _ =>
      ⟨fun d hd => (hknown r hr d hd).1, hsighted r hr⟩)
  have hinvariant := @Run.invariant _ _ (watchRound outcome policy now) _
    (fun w => ∃ done, w.2 = before ++ done ∧ Tallied known w.1 w.2 ∧ Credited outcome before L w.1 done) ?_ new (L, before)
    ⟨[], (List.append_nil _).symm, h, fun id f hf hres => .inl ⟨f, hf, hres⟩⟩ hboth
  · rw [exec_watchRound] at hinvariant
    obtain ⟨done, hdone, htallied, hcredited⟩ := hinvariant
    dsimp only at hdone htallied hcredited
    obtain rfl : new = done := List.append_cancel_left hdone
    exact ⟨htallied, hcredited⟩
  · rintro ⟨M, readings⟩ r ⟨done, rfl, htallied, hcredited⟩ ⟨hr, hknown, hsighted⟩
    unfold watchRound
    dsimp only
    refine ⟨done ++ [r], List.append_assoc _ _ _, ?_, ?_⟩
    · exact @Tallied.round known M (before ++ done) _ outcome policy now r htallied hsha hknown hsighted hr
    · exact Credited.round htallied hsha hknown hsighted hr hcredited

end Tallied

end FindingLedger

end DriftObservatory
