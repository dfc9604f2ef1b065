import DriftObservatory.Theorems.Operators
import DriftObservatory.Theorems.Pointwise

/-! Resolution over whole runs. The streak of a finding never exceeds the number of accepted evaluations that have
    confirmed its absence since it was last drafted, so a resolution has that many behind it. -/

namespace DriftObservatory

namespace FindingLedger

/-! ### The evaluations of a run -/

section History
variable [DoubleChars]

/-- The accepted targets that phase two reaches: all of them, unless the group envelope stops it. -/
def processed (outcome : EvaluationOutcome) (policy : ObservatoryPolicy) (now : NdoTime) :
    List TargetEvaluation → FindingLedger → LedgerApplyReport → List TargetEvaluation
  | [], _, _ => []
  | e :: rest, L, report =>
    let (status, L, report) := applyTarget outcome policy now L report e
    e :: if !status.ok then [] else processed outcome policy now rest L report

/-- The accepted target evaluations an operation applies, in order. -/
def evaluationsOf (L : FindingLedger) (op : Operation) : List TargetEvaluation :=
  match L.applied op with
  | none => []
  | some (outcome, policy, now) =>
    if L.limits.maxFindings < L.findings.size + L.newFindings outcome.targets then []
    else
      processed outcome policy now (outcome.targets.filter L.accepts) L
        { fencedTargets := outcome.targets.length - (outcome.targets.filter L.accepts).length }

/-- The accepted target evaluations of a run, in order. -/
def history (L : FindingLedger) (run : List Operation) : List TargetEvaluation :=
  (Run.outputs operate (fun L op => some (L.evaluationsOf op)) L run).flatten

variable {L : FindingLedger} {op : Operation}

/-- What every accepted target keeps while it joins the history, the loop over the targets keeps. -/
theorem processed_rule {outcome : EvaluationOutcome} {policy : ObservatoryPolicy} {now : NdoTime}
    {P : FindingLedger → List TargetEvaluation → Prop} : ∀ {targets : List TargetEvaluation} {L : FindingLedger}
    {report : LedgerApplyReport} {done : List TargetEvaluation},
    (∀ M r done, ∀ e ∈ processed outcome policy now targets L report, P M done →
      P (applyTarget outcome policy now M r e).2.1 (done ++ [e])) → P L done →
    P (applyTargets outcome policy now targets L report).2.1 (done ++ processed outcome policy now targets L report)
  | [], L, _, done, _, h => by simpa [processed, applyTargets] using h
  | e :: rest, L, report, done, hstep, h => by
    have hone := hstep L report done e (by simp [processed]) h
    rcases happly : applyTarget outcome policy now L report e with ⟨status, M, report'⟩
    rw [happly] at hone
    simp only [applyTargets, processed, happly] at hstep ⊢
    split
    · exact hone
    · rename_i hgood
      have hrest := @processed_rule outcome policy now P rest M report' (done ++ [e])
        (fun N r d e' he' => hstep N r d e' (by rw [if_neg hgood]; exact List.mem_cons_of_mem e he')) hone
      rwa [List.append_assoc] at hrest

theorem operate_rule {P : FindingLedger → List TargetEvaluation → Prop} {done : List TargetEvaluation}
    {outcome : EvaluationOutcome} {policy : ObservatoryPolicy} {now : NdoTime}
    (happly : L.applied op = some (outcome, policy, now))
    (hstep : ∀ M report done, ∀ e ∈ L.evaluationsOf op, P M done →
      P (applyTarget outcome policy now M report e).2.1 (done ++ [e]))
    (hexpire : ∀ M done, P M done → P (M.expireSuppressions now).bumpRevision.trimTimelineIfNeeded done)
    (h : P L done) : P (L.operate op) (done ++ L.evaluationsOf op) := by
  rw [operate_applied happly]
  simp only [evaluationsOf, happly] at hstep ⊢
  split at hstep
  · rename_i hfull
    rw [if_pos hfull, List.append_nil]
    simp only [applyEvaluation, if_pos hfull]
    exact h
  · rename_i hroom
    rw [if_neg hroom]
    have htargets := processed_rule hstep h
    rcases hloop : applyTargets outcome policy now (outcome.targets.filter L.accepts) L
      { fencedTargets := outcome.targets.length - (outcome.targets.filter L.accepts).length } with ⟨status, M, report⟩
    rw [hloop] at htargets
    simp only [applyEvaluation, if_neg hroom, hloop]
    split
    · exact htargets
    · exact hexpire M _ htargets

end History

/-! ### What confirms a finding's absence -/

/-- The evaluation is about the finding's target, decidable, and drafts neither the finding nor anything else at its
    location. -/
def confirms (id : FindingId) (f : Finding) (e : TargetEvaluation) : Bool :=
  e.target == f.identity.target && e.complianceDecidable && e.drafts.all fun d =>
    d.identity.computeId != id &&
      !(d.object == f.identity.object && d.path == f.identity.path && d.baselineGeneration == f.baselineGeneration)

/-- The finding stays at its location and does not become resolved. -/
structure Keeps (f f' : Finding) : Prop where
  identity : f'.identity = f.identity
  generation : f'.baselineGeneration = f.baselineGeneration
  resolved : f'.state = .resolved → f.state = .resolved

theorem Keeps.refl (f : Finding) : Keeps f f := ⟨rfl, rfl, fun h => h⟩

theorem confirms_congr {f f' : Finding} (hi : f'.identity = f.identity)
    (hg : f'.baselineGeneration = f.baselineGeneration) (id : FindingId) : confirms id f' = confirms id f := by
  unfold confirms
  rw [hi, hg]

section Keeps
variable {f f' : Finding} {now : NdoTime}

theorem Keeps.push {event : TimelineEntry} (h : Keeps f f') : Keeps f (f'.push event) :=
  ⟨h.identity, h.generation, h.resolved⟩

theorem Keeps.recomputeSummary [DoubleChars] {limits : RuntimeLimits} (h : Keeps f f') :
    Keeps f (f'.recomputeSummary limits) := by
  obtain ⟨timeline, summary, heq⟩ := f'.recomputeSummary_eq limits
  rw [heq]
  exact ⟨h.identity, h.generation, h.resolved⟩

theorem keeps_clearSuppression (f : Finding) : Keeps f f.clearSuppression := by
  refine ⟨rfl, rfl, fun h => ?_⟩
  simp only [Finding.clearSuppression] at h
  split_ifs at h
  exact h

theorem keeps_suppressedAs {sid : SuppressionId} {actor : ActorId} {reason : Text} {expiresAt : Option NdoTime} :
    Keeps f (f.suppressedAs sid actor reason expiresAt) := by
  refine ⟨rfl, rfl, fun h => ?_⟩
  simp only [Finding.suppressedAs] at h
  split_ifs at h
  exact h

theorem keeps_acknowledgedAs {actor : ActorId} {reason : Text} : Keeps f (f.acknowledgedAs actor reason now) := by
  refine ⟨rfl, rfl, fun h => ?_⟩
  simp only [Finding.acknowledgedAs] at h
  split_ifs at h
  exact h

theorem keeps_unacknowledged : Keeps f f.unacknowledged := by
  refine ⟨rfl, rfl, fun h => ?_⟩
  simp only [Finding.unacknowledged] at h
  split_ifs at h
  exact h

theorem keeps_assignGroup {target : TargetId} {assignment : OrdMap FindingId GroupId} :
    Keeps f (assignGroup target now assignment f).1 := by
  unfold assignGroup
  split_ifs
  · split
    · split_ifs <;> exact ⟨rfl, rfl, fun h => h⟩
    · exact ⟨rfl, rfl, fun h => h⟩
  · exact Keeps.refl f

theorem keeps_expireFinding [DoubleChars] {limits : RuntimeLimits} : Keeps f (expireFinding limits now f).1 := by
  unfold expireFinding
  split_ifs
  · exact (keeps_clearSuppression f).push.recomputeSummary
  · exact Keeps.refl f

theorem keeps_rebaseFinding [DoubleChars] {limits : RuntimeLimits} {baseline : IntentBaseline} {target : TargetId}
    {generation : IntentGeneration} : Keeps f (rebaseFinding limits baseline target generation now f).1 := by
  unfold rebaseFinding
  split_ifs
  · refine Keeps.recomputeSummary (Keeps.push ?_)
    split_ifs <;> exact ⟨rfl, rfl, fun h => (by cases h)⟩
  · exact Keeps.refl f

end Keeps

/-! ### Operations that apply no evaluation -/

/-- The ledgers have the same streaks, and each finding of one is kept in the other. -/
structure Quiet (L M : FindingLedger) : Prop where
  streaks : M.resolutionStreak = L.resolutionStreak
  findings : ∀ id, (L.findings.find? id = none ∧ M.findings.find? id = none) ∨
    ∃ f f', L.findings.find? id = some f ∧ M.findings.find? id = some f' ∧ Keeps f f'

section Quiet
variable {L M : FindingLedger} {id : FindingId}

theorem quiet_of_map (g : Finding → Finding) (hs : M.resolutionStreak = L.resolutionStreak)
    (hf : ∀ id, M.findings.find? id = (L.findings.find? id).map g) (hg : ∀ f, Keeps f (g f)) : Quiet L M := by
  refine ⟨hs, fun id => ?_⟩
  rw [hf]
  cases L.findings.find? id with
  | none => exact .inl ⟨rfl, rfl⟩
  | some f => exact .inr ⟨f, g f, rfl, rfl, hg f⟩

variable [DoubleChars]

theorem Worked.quiet {op : Operation} (h : Worked op L M) : Quiet L M := by
  refine ⟨h.streaks, fun id => (h.findings id).imp_right ?_⟩
  rintro ⟨f, f', hf, hf', htouched⟩
  refine ⟨f, f', hf, hf', ?_⟩
  cases htouched with
  | kept => exact Keeps.refl f
  | rebased => exact keeps_rebaseFinding
  | suppressed => exact keeps_suppressedAs.push.recomputeSummary
  | unsuppressed => exact (keeps_clearSuppression f).push.recomputeSummary
  | acknowledged => exact keeps_acknowledgedAs.push.recomputeSummary
  | unacknowledged => exact keeps_unacknowledged.push.recomputeSummary
  | expired => exact keeps_expireFinding

end Quiet

/-! ### The invariant -/

/-- The agreements on record for a finding. -/
def streakOf (L : FindingLedger) (id : FindingId) : Nat := (L.resolutionStreak.find? id).getD 0

/-- Every finding is under the digest of its identity, which is a known one, and at least as many evaluations as its
    streak says have confirmed its absence since it was last drafted. -/
structure Confirmed (known : FindingIdentity → Prop) (L : FindingLedger) (history : List TargetEvaluation) : Prop where
  keyed : ∀ id f, L.findings.find? id = some f → f.identity.computeId = id ∧ known f.identity
  fresh : ∀ id, L.findings.find? id = none → L.streakOf id = 0
  counted : ∀ id f, L.findings.find? id = some f → ∃ front back, history = front ++ back ∧
    (∀ e ∈ back, ∀ d ∈ e.drafts, d.identity.computeId ≠ id) ∧ L.streakOf id ≤ back.countP (confirms id f)

section Invariant
variable {known : FindingIdentity → Prop} {L M : FindingLedger} {history : List TargetEvaluation}

theorem Confirmed.quiet (h : Confirmed known L history) (hq : Quiet L M) : Confirmed known M history := by
  have hstreak : ∀ id, M.streakOf id = L.streakOf id := fun id => by rw [streakOf, streakOf, hq.streaks]
  refine ⟨fun id f' hf' => ?_, fun id hnone => ?_, fun id f' hf' => ?_⟩
  · rcases hq.findings id with ⟨-, hnone⟩ | ⟨f, g, hf, hg, hk⟩
    · rw [hnone] at hf'
      cases hf'
    · obtain rfl := Option.some.inj (hg.symm.trans hf')
      rw [hk.identity]
      exact h.keyed id f hf
  · rcases hq.findings id with ⟨hbefore, -⟩ | ⟨f, g, hf, hg, hk⟩
    · rw [hstreak]
      exact h.fresh id hbefore
    · rw [hg] at hnone
      cases hnone
  · rcases hq.findings id with ⟨-, hnone⟩ | ⟨f, g, hf, hg, hk⟩
    · rw [hnone] at hf'
      cases hf'
    · obtain rfl := Option.some.inj (hg.symm.trans hf')
      obtain ⟨front, back, heq, hundrafted, hcount⟩ := h.counted id f hf
      refine ⟨front, back, heq, hundrafted, ?_⟩
      rw [hstreak, confirms_congr hk.identity hk.generation]
      exact hcount

variable [DoubleChars] {outcome : EvaluationOutcome} {policy : ObservatoryPolicy} {now : NdoTime} {e : TargetEvaluation}
  {id : FindingId}

/-- The group refresh keeps every finding and every streak. -/
theorem quiet_refresh {report : LedgerApplyReport} :
    Quiet (L.settling outcome policy now e).ledger (applyTarget outcome policy now L report e).2.1 := by
  obtain ⟨g, hg, hfind⟩ := @find?_applyTarget_eq _ outcome policy now L e report
  refine quiet_of_map g ?_ hfind fun f => ?_
  · rcases applyTarget_spec L report e with ⟨-, -, h⟩ | ⟨-, -, h⟩
    · rw [h, afterTarget]
      generalize (L.settling outcome policy now e).ledger = N
      unfold regrouped sweep
      exact resolutionStreak_appendAll
    · generalize (applyTarget outcome policy now L report e).2.1 = N at h
      cases h with
      | refused => rfl
  · rcases hg f with heq | ⟨assignment, heq⟩ <;> rw [heq]
    · exact Keeps.refl f
    · exact keeps_assignGroup

theorem drafted_place {freshness : FreshnessState} {limits : RuntimeLimits} {d : FindingDraft}
    (before : Option Finding) :
    (draftedFinding limits outcome policy now freshness id d before).baselineGeneration = d.baselineGeneration ∧
      ((draftedFinding limits outcome policy now freshness id d before).identity = d.identity ∨
        ∃ f, before = some f ∧ (draftedFinding limits outcome policy now freshness id d before).identity = f.identity) := by
  cases before with
  | none =>
    have hc := @created_createFinding limits outcome policy now freshness _ id d
    exact ⟨hc.generation, .inl hc.identity⟩
  | some f =>
    have ha := @absorbed_updateFinding limits outcome policy now freshness _ d f
    exact ⟨ha.generation, .inr ⟨f, rfl, ha.identity⟩⟩

/-- A finding that settling does not reclassify has no draft at its location, as long as identities do not collide. -/
theorem located_of_not_reclassified
    (hkeyed : ∀ id f, L.findings.find? id = some f → f.identity.computeId = id ∧ known f.identity)
    (hsha : ∀ i j, known i → known j → i.computeId = j.computeId → i = j) (hknown : ∀ d ∈ e.drafts, known d.identity)
    {f : Finding} (hre : (L.drafted outcome policy now e).reclassified (draftMap e.drafts) f = false) :
    ∀ d ∈ e.drafts, ¬ (d.object = f.identity.object ∧ d.path = f.identity.path ∧
      d.baselineGeneration = f.baselineGeneration) := by
  rintro d hd ⟨hobject, hpath, hgeneration⟩
  have hkey : (draftMap e.drafts).contains d.identity.computeId = true := contains_draftMap.mpr ⟨d, hd, rfl⟩
  obtain ⟨d', hd'⟩ := OrdMap.contains_iff.mp hkey
  obtain ⟨hin, hid⟩ := mem_of_find?_draftMap hd'
  have hsame : d'.identity = d.identity := hsha _ _ (hknown d' hin) (hknown d hd) hid
  have hstored := congrArg Prod.fst ((@part_drafted _ outcome policy now L e d.identity.computeId).1 d' hd')
  obtain ⟨hgen, hident⟩ := @drafted_place _ outcome policy now d.identity.computeId e.bestFreshness L.limits d'
    (L.findings.find? d.identity.computeId)
  generalize draftedFinding L.limits outcome policy now e.bestFreshness d.identity.computeId d'
    (L.findings.find? d.identity.computeId) = other at hstored hgen hident
  have hidentity : other.identity = d.identity := by
    rcases hident with heq | ⟨g, hg, heq⟩
    · exact heq.trans hsame
    · obtain ⟨hdigest, hk⟩ := hkeyed _ g hg
      exact heq.trans (hsha _ _ hk (hknown d hd) hdigest)
  have hgen' : d'.baselineGeneration = d.baselineGeneration := congrArg FindingIdentity.baselineGeneration hsame
  have htrue : (L.drafted outcome policy now e).reclassified (draftMap e.drafts) f = true := by
    refine List.any_eq_true.mpr ⟨d.identity.computeId, OrdMap.mem_keys.mpr hkey, ?_⟩
    rw [show (L.drafted outcome policy now e).findings.find? d.identity.computeId = some other from hstored]
    simp only [Option.any_some, Bool.and_eq_true, beq_iff_eq, hidentity, hgen, hgen', ← hobject, ← hpath, ← hgeneration]
    exact ⟨⟨rfl, rfl⟩, trivial⟩
  rw [hre] at htrue
  cases htrue

omit [DoubleChars] in
theorem streakOf_eq_part {N : FindingLedger} : N.streakOf id = (N.part id).2.getD 0 := rfl

/-- A settled finding keeps its place. -/
theorem settled_place {D : FindingLedger} {drafts : OrdMap FindingId FindingDraft} {streak : Nat} {f : Finding} :
    (D.settledFinding outcome now drafts streak f).identity = f.identity ∧
      (D.settledFinding outcome now drafts streak f).baselineGeneration = f.baselineGeneration := by
  unfold settledFinding
  split_ifs
  · exact ⟨(ended_supersedeFinding now f).identity, (ended_supersedeFinding now f).generation⟩
  · exact ⟨(ended_resolveFinding D.limits now streak f).identity, (ended_resolveFinding D.limits now streak f).generation⟩
  · exact ⟨rfl, rfl⟩

omit [DoubleChars] in
theorem not_drafted (hd : (draftMap e.drafts).find? id = none) : ∀ d ∈ e.drafts, d.identity.computeId ≠ id :=
    fun d hmem hid => by
  have hc := contains_draftMap.mpr ⟨d, hmem, hid⟩
  rw [OrdMap.contains, hd] at hc
  cases hc

/-- What settling does not reclassify is confirmed. -/
theorem confirms_of_settled
    (hkeyed : ∀ id f, L.findings.find? id = some f → f.identity.computeId = id ∧ known f.identity)
    (hsha : ∀ i j, known i → known j → i.computeId = j.computeId → i = j) (hknown : ∀ d ∈ e.drafts, known d.identity)
    {f : Finding} (hd : (draftMap e.drafts).find? id = none) (ht : f.identity.target = e.target)
    (hdec : e.complianceDecidable = true)
    (hre : (L.drafted outcome policy now e).reclassified (draftMap e.drafts) f = false) : confirms id f e = true := by
  have hlocated := located_of_not_reclassified hkeyed hsha hknown hre
  simp only [confirms, ht, hdec, beq_self_eq_true, Bool.and_true, Bool.true_and, List.all_eq_true, Bool.and_eq_true,
    bne_iff_ne, ne_eq, Bool.not_eq_true', Bool.and_eq_false_iff, beq_eq_false_iff_ne]
  refine fun d hmem => ⟨not_drafted hd d hmem, ?_⟩
  have hnot := hlocated d hmem
  by_cases ho : d.object = f.identity.object
  · by_cases hp : d.path = f.identity.path
    · exact .inr fun hg => hnot ⟨ho, hp, hg⟩
    · exact .inl (.inr hp)
  · exact .inl (.inl ho)

theorem Confirmed.settling (h : Confirmed known L history)
    (hsha : ∀ i j, known i → known j → i.computeId = j.computeId → i = j)
    (hknown : ∀ d ∈ e.drafts, known d.identity) :
    Confirmed known (L.settling outcome policy now e).ledger (history ++ [e]) := by
  have hpart := fun id => @part_settling _ outcome policy now L e id
  generalize (L.settling outcome policy now e).ledger = N at hpart
  refine ⟨fun id f' hf' => ?_, fun id hnone => ?_, fun id f' hf' => ?_⟩
  · obtain ⟨hdrafted, hrest⟩ := hpart id
    replace hf' : (N.part id).1 = some f' := hf'
    cases hd : (draftMap e.drafts).find? id with
    | some d =>
      obtain ⟨hin, hid⟩ := mem_of_find?_draftMap hd
      rw [hdrafted d hd] at hf'
      obtain ⟨-, hident⟩ := @drafted_place _ outcome policy now id e.bestFreshness L.limits d (L.findings.find? id)
      rw [Option.some.inj hf'] at hident
      rcases hident with heq | ⟨g, hg, heq⟩
      · rw [heq]
        exact ⟨hid, hknown d hin⟩
      · rw [heq]
        exact h.keyed id g hg
    | none =>
      rcases hrest hd with hsame | ⟨g, hg, ht, hl, hdec, hset⟩
      · rw [hsame] at hf'
        exact h.keyed id f' hf'
      · rw [hset] at hf'
        rw [← Option.some.inj hf', settled_place.1]
        exact h.keyed id g hg
  · obtain ⟨hdrafted, hrest⟩ := hpart id
    replace hnone : (N.part id).1 = none := hnone
    rw [streakOf_eq_part]
    cases hd : (draftMap e.drafts).find? id with
    | some d =>
      rw [hdrafted d hd] at hnone
      cases hnone
    | none =>
      rcases hrest hd with hsame | ⟨g, hg, ht, hl, hdec, hset⟩
      · rw [hsame] at hnone ⊢
        exact h.fresh id hnone
      · rw [hset] at hnone
        cases hnone
  · obtain ⟨hdrafted, hrest⟩ := hpart id
    replace hf' : (N.part id).1 = some f' := hf'
    rw [streakOf_eq_part]
    cases hd : (draftMap e.drafts).find? id with
    | some d =>
      refine ⟨history ++ [e], [], (List.append_nil _).symm, fun _ he => absurd he List.not_mem_nil, ?_⟩
      rw [hdrafted d hd]
      cases hbefore : L.findings.find? id with
      | none => exact (h.fresh id hbefore).le
      | some before => exact Nat.zero_le _
    | none =>
      rcases hrest hd with hsame | ⟨g, hg, ht, hl, hdec, hset⟩
      · rw [hsame] at hf' ⊢
        obtain ⟨front, back, rfl, hundrafted, hcount⟩ := h.counted id f' hf'
        refine ⟨front, back ++ [e], List.append_assoc .., fun e' he' => ?_, ?_⟩
        · rcases List.mem_append.mp he' with he' | he'
          · exact hundrafted e' he'
          · exact List.mem_singleton.mp he' ▸ not_drafted hd
        · rw [List.countP_append]
          exact Nat.le_add_right_of_le hcount
      · rw [hset] at hf' ⊢
        obtain ⟨front, back, rfl, hundrafted, hcount⟩ := h.counted id g hg
        refine ⟨front, back ++ [e], List.append_assoc .., fun e' he' => ?_, ?_⟩
        · rcases List.mem_append.mp he' with he' | he'
          · exact hundrafted e' he'
          · exact List.mem_singleton.mp he' ▸ not_drafted hd
        · rw [← Option.some.inj hf', confirms_congr settled_place.1 settled_place.2, List.countP_append]
          cases hre : (L.drafted outcome policy now e).reclassified (draftMap e.drafts) g with
          | true => exact Nat.le_add_right_of_le hcount
          | false =>
            have hone := confirms_of_settled h.keyed hsha hknown hd ht hdec hre
            rw [List.countP_singleton, hone]
            exact Nat.add_le_add_right hcount 1

theorem Confirmed.applyTarget (h : Confirmed known L history)
    (hsha : ∀ i j, known i → known j → i.computeId = j.computeId → i = j)
    (hknown : ∀ d ∈ e.drafts, known d.identity) {report : LedgerApplyReport} :
    Confirmed known (applyTarget outcome policy now L report e).2.1 (history ++ [e]) :=
  (h.settling hsha hknown).quiet quiet_refresh

end Invariant

/-! ### Resolutions -/

/-- One of the evaluations an operation applies resolved the finding: it confirms the finding's absence and, with the
    confirmations before it since the finding was last drafted, makes up what the outcome requires. -/
def Concluded (outcome : EvaluationOutcome) (before done : List TargetEvaluation) (id : FindingId) (f : Finding) :
    Prop :=
  ∃ earlier e later front back, done = earlier ++ e :: later ∧ before ++ earlier = front ++ back ∧
    (∀ e' ∈ back, ∀ d ∈ e'.drafts, d.identity.computeId ≠ id) ∧ confirms id f e = true ∧
    max 1 outcome.resolutionConfirmations.toNat ≤ back.countP (confirms id f) + 1

section Resolved
variable [DoubleChars] {outcome : EvaluationOutcome} {policy : ObservatoryPolicy} {now : NdoTime} {L M : FindingLedger}
  {known : FindingIdentity → Prop} {before done : List TargetEvaluation} {e : TargetEvaluation}

/-- Every resolved finding was resolved before, or an evaluation applied since has resolved it. -/
def Accounted (outcome : EvaluationOutcome) (before : List TargetEvaluation) (L M : FindingLedger)
    (done : List TargetEvaluation) : Prop :=
  ∀ id f, M.findings.find? id = some f → f.state = .resolved →
    (∃ f₀, L.findings.find? id = some f₀ ∧ f₀.state = .resolved) ∨ Concluded outcome before done id f

omit [DoubleChars] in
theorem Accounted.quiet {N : FindingLedger} (h : Accounted outcome before L M done) (hq : Quiet M N) :
    Accounted outcome before L N done := by
  intro id f' hf' hres
  rcases hq.findings id with ⟨-, hnone⟩ | ⟨f, g, hf, hg, hk⟩
  · rw [hnone] at hf'
    cases hf'
  · obtain rfl := Option.some.inj (hg.symm.trans hf')
    refine (h id f hf (hk.resolved hres)).imp_right ?_
    unfold Concluded
    rw [confirms_congr hk.identity hk.generation]
    exact fun h => h

omit [DoubleChars] in
theorem Concluded.append {id : FindingId} {f : Finding} (h : Concluded outcome before done id f) :
    Concluded outcome before (done ++ [e]) id f := by
  obtain ⟨earlier, e', later, front, back, rfl, hrest⟩ := h
  exact ⟨earlier, e', later ++ [e], front, back, by simp, hrest⟩

theorem Accounted.settling (hc : Confirmed known M (before ++ done))
    (hsha : ∀ i j, known i → known j → i.computeId = j.computeId → i = j) (hknown : ∀ d ∈ e.drafts, known d.identity)
    (h : Accounted outcome before L M done) :
    Accounted outcome before L (M.settling outcome policy now e).ledger (done ++ [e]) := by
  intro id f' hf' hres
  have hstep := find?_settling hf'
  generalize hbefore : M.findings.find? id = m at hstep
  cases hstep with
  | drafted m d hd hid =>
    have hlive : (draftedFinding M.limits outcome policy now e.bestFreshness id d m).isLive = true := by
      cases m with
      | none => exact (created_createFinding id d).live
      | some f => exact (absorbed_updateFinding d f).live
    rw [Finding.isLive, hres] at hlive
    cases hlive
  | kept _ hd => exact (h id f' hbefore hres).imp_right Concluded.append
  | settled f hd ht hl hdec =>
    have hplace := @settled_place _ outcome now (M.drafted outcome policy now e) (draftMap e.drafts) (M.nextStreak id) f
    unfold settledFinding at hres
    split_ifs at hres with hre hstreak
    · rw [(ended_supersedeFinding now f).state] at hres
      cases hres
    · obtain ⟨front, back, hsplit, hundrafted, hcount⟩ := hc.counted id f hbefore
      refine .inr ⟨done, e, [], front, back, rfl, hsplit, hundrafted, ?_, ?_⟩
      · rw [confirms_congr hplace.1 hplace.2]
        exact confirms_of_settled hc.keyed hsha hknown hd ht hdec (by simpa using hre)
      · rw [confirms_congr hplace.1 hplace.2]
        exact hstreak.trans (Nat.add_le_add_right hcount 1)
    · rw [Finding.isLive, show f.state = .resolved from hres] at hl
      cases hl

/-! ### Whole runs -/

/-- The identities that occur in a run: those of the findings it starts with and those of its drafts. -/
def Occurs (start : FindingLedger) (history : List TargetEvaluation) (identity : FindingIdentity) : Prop :=
  (∃ id f, start.findings.find? id = some f ∧ f.identity = identity) ∨
    ∃ e ∈ history, ∃ d ∈ e.drafts, d.identity = identity

/-- Two identities of the run have the same SHA-256 digest. -/
def Collision (start : FindingLedger) (history : List TargetEvaluation) : Prop :=
  ∃ i j, Occurs start history i ∧ Occurs start history j ∧ i ≠ j ∧ i.computeId = j.computeId

/-- A ledger without streaks whose findings are under the digests of their identities. -/
structure Unconfirmed (L : FindingLedger) : Prop where
  streaks : L.resolutionStreak = ∅
  keyed : ∀ id f, L.findings.find? id = some f → f.identity.computeId = id

theorem history_append {run rest : List Operation} :
    L.history (run ++ rest) = L.history run ++ (Run.exec operate L run).history rest := by
  unfold history
  rw [Run.outputs_append, List.flatten_append]

theorem history_singleton {op : Operation} : L.history [op] = L.evaluationsOf op := by
  simp [history, Run.outputs]

theorem confirmed_operate {op : Operation} (h : Confirmed known L before)
    (hsha : ∀ i j, known i → known j → i.computeId = j.computeId → i = j)
    (hknown : ∀ e ∈ L.evaluationsOf op, ∀ d ∈ e.drafts, known d.identity) :
    Confirmed known (L.operate op) (before ++ L.evaluationsOf op) := by
  cases happly : L.applied op with
  | none =>
    have hnil : L.evaluationsOf op = [] := by simp only [evaluationsOf, happly]
    rw [hnil, List.append_nil]
    exact h.quiet (worked_operate happly).quiet
  | some apply =>
    obtain ⟨outcome, policy, now⟩ := apply
    refine operate_rule happly (fun M report done e he hM => hM.applyTarget hsha (hknown e he)) (fun M done hM => ?_) h
    have hq := (@worked_expireSuppressions _ M now).quiet
    exact hM.quiet ⟨hq.streaks, hq.findings⟩

theorem confirmed_exec : ∀ {run : List Operation} {L : FindingLedger} {before : List TargetEvaluation},
    Confirmed known L before → (∀ i j, known i → known j → i.computeId = j.computeId → i = j) →
    (∀ e ∈ L.history run, ∀ d ∈ e.drafts, known d.identity) →
    Confirmed known (Run.exec operate L run) (before ++ L.history run)
  | [], L, before, h, _, _ => by simpa [history, Run.outputs] using h
  | op :: rest, L, before, h, hsha, hknown => by
    have happend : L.history (op :: rest) = L.evaluationsOf op ++ (L.operate op).history rest := by
      rw [show op :: rest = [op] ++ rest from rfl, history_append, history_singleton]
      rfl
    rw [happend] at hknown ⊢
    have hone := confirmed_operate h hsha fun e he => hknown e (List.mem_append_left _ he)
    have hrest := confirmed_exec hone hsha fun e he => hknown e (List.mem_append_right _ he)
    rwa [List.append_assoc] at hrest

/-- A finding becomes resolved only when an evaluation is applied, and then enough evaluations have confirmed its
    absence since it was last drafted, unless identities of the run collide. -/
theorem resolved_operate {start : FindingLedger} (hstart : Unconfirmed start) {run : List Operation} {op : Operation}
    {id : FindingId} {f : Finding} (hf : ((Run.exec operate start run).operate op).findings.find? id = some f)
    (hres : f.state = .resolved)
    (hnew : ∀ f₀, (Run.exec operate start run).findings.find? id = some f₀ → f₀.state ≠ .resolved) :
    ∃ outcome policy now, (Run.exec operate start run).applied op = some (outcome, policy, now) ∧
      (Collision start (start.history (run ++ [op])) ∨
        Concluded outcome (start.history run) ((Run.exec operate start run).evaluationsOf op) id f) := by
  generalize hL : Run.exec operate start run = L at hf hnew ⊢
  cases happly : L.applied op with
  | none =>
    rcases (worked_operate happly).quiet.findings id with ⟨-, hnone⟩ | ⟨f₀, g, hf₀, hg, hk⟩
    · rw [hnone] at hf
      cases hf
    · rw [Option.some.inj (hg.symm.trans hf)] at hk
      exact absurd (hk.resolved hres) (hnew f₀ hf₀)
  | some apply =>
    obtain ⟨outcome, policy, now⟩ := apply
    refine ⟨outcome, policy, now, rfl, ?_⟩
    by_cases hcollision : Collision start (start.history (run ++ [op]))
    · exact .inl hcollision
    right
    have hsha : ∀ i j, Occurs start (start.history (run ++ [op])) i → Occurs start (start.history (run ++ [op])) j →
        i.computeId = j.computeId → i = j := fun i j hi hj heq => by
      by_contra hne
      exact hcollision ⟨i, j, hi, hj, hne, heq⟩
    have hsplit : start.history (run ++ [op]) = start.history run ++ L.evaluationsOf op := by
      rw [history_append, history_singleton, hL]
    have hc₀ : Confirmed (Occurs start (start.history (run ++ [op]))) start [] := by
      refine ⟨fun id f hf => ⟨hstart.keyed id f hf, .inl ⟨id, f, hf, rfl⟩⟩, fun id _ => ?_, fun id f _ =>
        ⟨[], [], rfl, fun _ he => absurd he List.not_mem_nil, ?_⟩⟩ <;> simp [streakOf, hstart.streaks]
    have hc := @confirmed_exec _ _ run start [] hc₀ hsha fun e he d hd =>
      .inr ⟨e, by rw [hsplit]; exact List.mem_append_left _ he, d, hd, rfl⟩
    rw [hL, List.nil_append] at hc
    have hknown : ∀ e ∈ L.evaluationsOf op, ∀ d ∈ e.drafts,
        Occurs start (start.history (run ++ [op])) d.identity := fun e he d hd =>
      .inr ⟨e, by rw [hsplit]; exact List.mem_append_right _ he, d, hd, rfl⟩
    have hend := @operate_rule _ L op
      (fun M done => Confirmed (Occurs start (start.history (run ++ [op]))) M (start.history run ++ done) ∧
        Accounted outcome (start.history run) L M done) [] outcome policy now happly
      (fun M report done e he hM => by
        refine ⟨?_, (Accounted.settling hM.1 hsha (hknown e he) hM.2).quiet quiet_refresh⟩
        rw [← List.append_assoc]
        exact hM.1.applyTarget hsha (hknown e he))
      (fun M done hM => by
        have hq := (@worked_expireSuppressions _ M now).quiet
        exact ⟨hM.1.quiet ⟨hq.streaks, hq.findings⟩, hM.2.quiet ⟨hq.streaks, hq.findings⟩⟩)
      ⟨by rw [List.append_nil]; exact hc, fun id f hf hres => .inl ⟨f, hf, hres⟩⟩
    rw [List.nil_append] at hend
    rcases hend.2 id f hf hres with ⟨f₀, hf₀, hres₀⟩ | hby
    · exact absurd hres₀ (hnew f₀ hf₀)
    · exact hby

end Resolved

end FindingLedger

end DriftObservatory
