import DriftObservatory.Theorems.Identities

/-! What an evaluation that is applied does to the ledger: its effect on the findings that its accepted targets draft, and
    the frame around it. -/

namespace DriftObservatory

namespace FindingLedger

/-! ### Owners -/

/-- Every finding is about the target that owns its identity. -/
def Owned (owner : FindingId → TargetId) (L : FindingLedger) : Prop := Everywhere (fun id f => f.identity.target = owner id) L

/-- What an evaluation drafts is about its target, which owns the identities it drafts. -/
def Owns (owner : FindingId → TargetId) (e : TargetEvaluation) : Prop :=
  ∀ d ∈ e.drafts, d.target = e.target ∧ owner d.identity.computeId = e.target

section Owners
variable [DoubleChars] {outcome : EvaluationOutcome} {policy : ObservatoryPolicy} {now : NdoTime} {L M : FindingLedger}
  {e : TargetEvaluation} {owner : FindingId → TargetId} {id : FindingId}

omit [DoubleChars] in
theorem Owns.undrafted (h : Owns owner e) (hid : owner id ≠ e.target) : (draftMap e.drafts).find? id = none := by
  refine OrdMap.contains_eq_false_iff.mp (Bool.eq_false_iff.mpr fun hcontains => ?_)
  obtain ⟨d, hd, rfl⟩ := contains_draftMap.mp hcontains
  exact hid (h d hd).2

omit [DoubleChars] in
theorem assignGroup_foreign {target : TargetId} {assignment : OrdMap FindingId GroupId} {f : Finding}
    (h : f.identity.target ≠ target) : (assignGroup target now assignment f).1 = f := by
  rw [assignGroup, beq_eq_false_iff_ne.mpr h, Bool.false_and, if_neg Bool.false_ne_true]

theorem Owned.settling (h : Owned owner L) (he : Owns owner e) : Owned owner (L.settling outcome policy now e).ledger := by
  intro id f hf
  have hstep := find?_settling hf
  generalize hbefore : L.findings.find? id = before at hstep
  cases hstep with
  | drafted _ d hd hid =>
    obtain ⟨htarget, howner⟩ := he d hd
    rw [hid] at howner
    cases before with
    | none =>
      rw [draftedFinding, (created_createFinding id d).identity, howner]
      exact htarget
    | some f =>
      rw [draftedFinding, (absorbed_updateFinding d f).identity]
      exact h id f hbefore
  | kept => exact h id f hbefore
  | settled =>
    rw [identity_settledFinding]
    exact h id _ hbefore

theorem Owned.round (h : Owned owner L) (he : Owns owner e) : Owned owner (L.round outcome policy now e) := by
  intro id f' hf'
  obtain ⟨g, hg, hfind, -⟩ := @find?_round _ outcome policy now L e
  rw [hfind] at hf'
  obtain ⟨f, hf, rfl⟩ := Option.map_eq_some_iff.mp hf'
  have hsame : (g f).identity = f.identity := by
    rcases hg f with hsame | ⟨assignment, hsame⟩
    · rw [hsame]
    · rw [hsame, kin_assignGroup.identity]
  rw [hsame]
  exact h.settling he id f hf

theorem Owned.rounds {targets : List TargetEvaluation} (h : Owned owner L) (hts : ∀ e ∈ targets, Owns owner e) :
    Owned owner (Run.exec (FindingLedger.round outcome policy now) L targets) :=
  @Run.invariant _ _ (FindingLedger.round outcome policy now) (fun _ e => Owns owner e) (Owned owner)
    (fun _ _ hM he => hM.round he) targets L h (Run.permits_of_mem fun e he _ => hts e he)

/-- A target leaves alone what others own. -/
theorem part_settling_foreign (h : Owned owner L) (he : Owns owner e) (hid : owner id ≠ e.target) :
    (L.settling outcome policy now e).ledger.part id = L.part id := by
  rcases (@part_settling _ outcome policy now L e id).2 (he.undrafted hid) with hsame | ⟨f, hf, htarget, -⟩
  · exact hsame
  · exact absurd ((h id f hf).symm.trans htarget) hid

theorem part_round_foreign (h : Owned owner L) (he : Owns owner e) (hid : owner id ≠ e.target) :
    (L.round outcome policy now e).part id = L.part id := by
  obtain ⟨g, hg, hround, hstreaks⟩ := @find?_round _ outcome policy now L e
  have hsettling := @part_settling_foreign _ outcome policy now L e owner id h he hid
  rw [part, part, hround, hstreaks, find?_of_part hsettling, streak_of_part hsettling]
  refine congrArg (Prod.mk · _) ?_
  cases hf : L.findings.find? id with
  | none => rfl
  | some f =>
    refine congrArg some ?_
    rcases hg f with hsame | ⟨assignment, hsame⟩
    · exact hsame
    · rw [hsame, assignGroup_foreign fun htarget => hid ((h id f hf).symm.trans htarget)]

theorem part_rounds_foreign {targets : List TargetEvaluation} (h : Owned owner L) (hts : ∀ e ∈ targets, Owns owner e)
    (hid : ∀ e ∈ targets, owner id ≠ e.target) :
    (Run.exec (round outcome policy now) L targets).part id = L.part id := by
  refine (@Run.invariant _ _ (round outcome policy now) (fun _ e => Owns owner e ∧ owner id ≠ e.target)
    (fun M => Owned owner M ∧ M.part id = L.part id) (fun M e hM he => ?_) targets L ⟨h, rfl⟩
    (Run.permits_of_mem fun e he _ => ⟨hts e he, hid e he⟩)).2
  exact ⟨hM.1.round he.1, (part_round_foreign hM.1 he.1 he.2).trans hM.2⟩

/-- What a target owns is as before when its turn comes, and stays as it leaves it. -/
theorem part_rounds_own {targets : List TargetEvaluation} (h : Owned owner L) (hts : ∀ e ∈ targets, Owns owner e)
    (hdistinct : (targets.map TargetEvaluation.target).Nodup) (he : e ∈ targets) :
    ∃ M, Owned owner M ∧ M.limits = L.limits ∧ (∀ id, owner id = e.target → M.part id = L.part id) ∧
      ∀ id, owner id = e.target →
        (Run.exec (round outcome policy now) L targets).part id = (M.round outcome policy now e).part id := by
  obtain ⟨front, rest, rfl⟩ := List.append_of_mem he
  rw [List.map_append, List.map_cons] at hdistinct
  obtain ⟨-, hrest, hapart⟩ := List.nodup_append.mp hdistinct
  have hfront : ∀ e' ∈ front, e.target ≠ e'.target := fun e' he' heq =>
    hapart _ (List.mem_map_of_mem he') _ List.mem_cons_self heq.symm
  have hlater : ∀ e' ∈ rest, e.target ≠ e'.target := fun e' he' heq =>
    (List.nodup_cons.mp hrest).1 (heq ▸ List.mem_map_of_mem he')
  have howned : Owned owner (Run.exec (round outcome policy now) L front) :=
    h.rounds fun e' he' => hts e' (List.mem_append_left _ he')
  refine ⟨Run.exec (round outcome policy now) L front, howned, limits_rounds, fun id hid => ?_, fun id hid => ?_⟩
  · exact part_rounds_foreign h (fun e' he' => hts e' (List.mem_append_left _ he')) fun e' he' => hid ▸ hfront e' he'
  · rw [Run.exec_append, Run.exec_cons]
    refine part_rounds_foreign (howned.round (hts e he)) (fun e' he' => hts e' ?_) fun e' he' => hid ▸ hlater e' he'
    exact List.mem_append_right _ (List.mem_cons_of_mem _ he')

end Owners

/-! ### The effect on a finding -/

/-- The finding is the same under another group. -/
def Filed (f f' : Finding) : Prop :=
  ∃ group cause timeline, f' = { f with group := group, groupCause := cause, timeline := timeline }

/-- The finding is live and says what the draft says, seen once more than before. -/
structure Reflects (d : FindingDraft) (before : Option Finding) (f : Finding) : Prop where
  live : f.isLive = true
  klass : f.klass = d.klass
  rawClass : f.rawClass = d.rawClass
  severity : f.severity = d.severity
  hasIntended : f.hasIntended = d.intended.isSome
  intended : f.intended = d.intended.getD .makeNull
  hasObserved : f.hasObserved = d.observed.isSome
  observed : f.observed = d.observed.getD .makeNull
  evidence : f.evidence = d.evidence
  complianceRelevant : f.complianceRelevant = d.complianceRelevant
  count : f.observationCount.value = before.elim 1 fun g => g.observationCount.value + 1

section Finding
variable {outcome : EvaluationOutcome} {policy : ObservatoryPolicy} {now : NdoTime} {limits : RuntimeLimits}
  {freshness : FreshnessState} {d : FindingDraft} {before : Option Finding} {f f' : Finding}

theorem filed_assignGroup {target : TargetId} {assignment : OrdMap FindingId GroupId} :
    Filed f (assignGroup target now assignment f).1 := by
  unfold assignGroup
  split
  · split
    · split
      · exact ⟨_, _, _, rfl⟩
      · exact ⟨_, _, _, rfl⟩
    · exact ⟨_, _, _, rfl⟩
  · exact ⟨_, _, _, rfl⟩

theorem filed_of_group {target : TargetId} {g : Finding → Finding}
    (hg : ∀ f, g f = f ∨ ∃ assignment, g f = (assignGroup target now assignment f).1) : Filed f (g f) := by
  rcases hg f with hsame | ⟨assignment, hsame⟩
  · rw [hsame]
    exact ⟨_, _, _, rfl⟩
  · rw [hsame]
    exact filed_assignGroup

theorem Reflects.filed (h : Reflects d before f) (hf : Filed f f') : Reflects d before f' := by
  obtain ⟨group, cause, timeline, rfl⟩ := hf
  exact ⟨h.live, h.klass, h.rawClass, h.severity, h.hasIntended, h.intended, h.hasObserved, h.observed, h.evidence,
    h.complianceRelevant, h.count⟩

theorem Reflects.clearSuppression (h : Reflects d before f) : Reflects d before f.clearSuppression where
  live := (isLive_clearSuppression f).trans h.live
  klass := h.klass
  rawClass := h.rawClass
  severity := h.severity
  hasIntended := h.hasIntended
  intended := h.intended
  hasObserved := h.hasObserved
  observed := h.observed
  evidence := h.evidence
  complianceRelevant := h.complianceRelevant
  count := h.count

theorem Reflects.push {event : TimelineEntry} (h : Reflects d before f) : Reflects d before (f.push event) :=
  ⟨h.live, h.klass, h.rawClass, h.severity, h.hasIntended, h.intended, h.hasObserved, h.observed, h.evidence,
    h.complianceRelevant, h.count⟩

theorem reflects_reopenOrUpdate {g : Finding} :
    Reflects d (some g) (reopenOrUpdate now g (absorbDraft outcome now freshness d g)).1 := by
  unfold reopenOrUpdate
  split_ifs with hlive
  · exact ⟨rfl, rfl, rfl, rfl, rfl, rfl, rfl, rfl, rfl, rfl, rfl⟩
  · have hg : g.isLive = true := by simpa using hlive
    exact ⟨hg, rfl, rfl, rfl, rfl, rfl, rfl, rfl, rfl, rfl, rfl⟩
  · have hg : g.isLive = true := by simpa using hlive
    exact ⟨hg, rfl, rfl, rfl, rfl, rfl, rfl, rfl, rfl, rfl, rfl⟩

theorem Reflects.lapse (h : Reflects d before f) : Reflects d before (lapsePolicySuppression policy now f).1 := by
  unfold lapsePolicySuppression
  split_ifs
  · exact h.clearSuppression.push
  · exact h

variable [DoubleChars]

theorem Reflects.recomputeSummary (h : Reflects d before f) : Reflects d before (f.recomputeSummary limits) := by
  obtain ⟨timeline, summary, heq⟩ := f.recomputeSummary_eq limits
  rw [heq]
  exact ⟨h.live, h.klass, h.rawClass, h.severity, h.hasIntended, h.intended, h.hasObserved, h.observed, h.evidence,
    h.complianceRelevant, h.count⟩

/-- Whether it creates a finding or updates one, a draft is reflected by the finding of its identity. -/
theorem reflects_draftedFinding {id : FindingId} :
    Reflects d before (draftedFinding limits outcome policy now freshness id d before) := by
  cases before with
  | none =>
    rw [draftedFinding]
    unfold createFinding
    split <;> exact Reflects.recomputeSummary ⟨rfl, rfl, rfl, rfl, rfl, rfl, rfl, rfl, rfl, rfl, rfl⟩
  | some g => exact (reflects_reopenOrUpdate.lapse).recomputeSummary

theorem Reflects.expire (h : Reflects d before f) : Reflects d before (expireFinding limits now f).1 := by
  unfold expireFinding
  split_ifs
  · exact h.clearSuppression.push.recomputeSummary
  · exact h

end Finding

/-! ### The groups of a target -/

section Groups
variable [DoubleChars] {outcome : EvaluationOutcome} {policy : ObservatoryPolicy} {now : NdoTime} {L M : FindingLedger}
  {e : TargetEvaluation} {owner : FindingId → TargetId} {id : FindingId}

end Groups

/-! ### The whole evaluation -/

section Whole
variable [DoubleChars] (outcome : EvaluationOutcome) (policy : ObservatoryPolicy) (now : NdoTime) (L : FindingLedger)

/-- The ledger keeps its findings under the digests of their identities and files them under groups of their own targets,
    and digests tell identities apart: those of the findings and of the drafts, and the group identities that the accepted
    targets form from those of the groups of other targets. -/
structure Distinguishes : Prop where
  keyed : ∀ id f, L.findings.find? id = some f → f.identity.computeId = id
  identities : ¬ Collision L outcome.targets
  filed : ∀ id f g, L.findings.find? id = some f → f.group.isSet = true → L.groups.find? f.group = some g →
    g.target = f.identity.target
  formed : ∀ e ∈ outcome.targets, L.accepts e = true →
    ∀ b ∈ (L.settling outcome policy now e).ledger.bucketGroups e.target,
      ∀ g, L.groups.find? b.id = some g → g.target = e.target

variable {outcome policy now L} {owner : FindingId → TargetId}

omit [DoubleChars] in
/-- Where digests tell identities apart, an identity belongs to one target. -/
theorem exists_owner (hkeyed : ∀ id f, L.findings.find? id = some f → f.identity.computeId = id)
    (hsha : ¬ Collision L outcome.targets) (htargets : ∀ e ∈ outcome.targets, ∀ d ∈ e.drafts, d.target = e.target) :
    ∃ owner, Owned owner L ∧ ∀ e ∈ outcome.targets, Owns owner e := by
  classical
  obtain ⟨owner, howner⟩ : ∃ owner : FindingId → TargetId,
      ∀ i, Occurs L outcome.targets i → owner i.computeId = i.target := by
    refine ⟨fun id => if h : ∃ i, Occurs L outcome.targets i ∧ i.computeId = id then h.choose.target else default,
      fun i hi => ?_⟩
    have hsome : ∃ j, Occurs L outcome.targets j ∧ j.computeId = i.computeId := ⟨i, hi, rfl⟩
    dsimp only
    rw [dif_pos hsome]
    by_contra hne
    exact hsha ⟨_, i, hsome.choose_spec.1, hi, fun heq => hne (congrArg FindingIdentity.target heq), hsome.choose_spec.2⟩
  refine ⟨owner, fun id f hf => ?_, fun e he d hd => ⟨htargets e he d hd, ?_⟩⟩
  · rw [← hkeyed id f hf]
    exact (howner _ (.inl ⟨id, f, hf, rfl⟩)).symm
  · exact (howner _ (.inr ⟨e, he, d, hd, rfl⟩)).trans (htargets e he d hd)

/-- What a round leaves under an identity that its target drafts: the drafted finding, but for its group. -/
theorem drafted_round {M : FindingLedger} {e : TargetEvaluation} {id : FindingId} {d : FindingDraft}
    (hd : (draftMap e.drafts).find? id = some d) :
    ∃ f, (M.round outcome policy now e).findings.find? id = some f ∧
      Filed (draftedFinding M.limits outcome policy now e.bestFreshness id d (M.findings.find? id)) f := by
  obtain ⟨g, hg, hround, -⟩ := @find?_round _ outcome policy now M e
  have hsettled : (M.settling outcome policy now e).ledger.findings.find? id =
      some (draftedFinding M.limits outcome policy now e.bestFreshness id d (M.findings.find? id)) :=
    congrArg Prod.fst ((@part_settling _ outcome policy now M e id).1 d hd)
  rw [hround, hsettled]
  exact ⟨g _, rfl, filed_of_group hg⟩

/-- A draft about a finding of its identity leaves one. -/
theorem identity_draftedFinding {limits : RuntimeLimits} {freshness : FreshnessState} {d : FindingDraft}
    {before : Option Finding} (h : ∀ f, before = some f → f.identity = d.identity) {id : FindingId} :
    (draftedFinding limits outcome policy now freshness id d before).identity = d.identity := by
  cases before with
  | none => exact (created_createFinding id d).identity
  | some f => exact (absorbed_updateFinding d f).identity.trans (h f rfl)

/-- What an evaluation leaves under an identity that an accepted target drafts: the drafted finding, but for its group, when
    the suppressions that expire have been lifted. -/
theorem drafted_applied {owner : FindingId → TargetId} (hL : Owned owner L) (howns : ∀ e ∈ outcome.targets, Owns owner e)
    (hdistinct : (outcome.targets.map TargetEvaluation.target).Nodup)
    (hok : (L.applyEvaluation outcome policy now).1.ok = true) {e : TargetEvaluation} (he : e ∈ outcome.targets)
    (haccepts : L.accepts e = true) {id : FindingId} {d : FindingDraft} (hd : (draftMap e.drafts).find? id = some d) :
    ∃ f, (L.applyEvaluation outcome policy now).2.1.findings.find? id = some (expireFinding L.limits now f).1 ∧
      Filed (draftedFinding L.limits outcome policy now e.bestFreshness id d (L.findings.find? id)) f := by
  have howns' : ∀ e ∈ outcome.targets.filter L.accepts, Owns owner e := fun e he => howns e (List.mem_filter.mp he).1
  have hdistinct' : ((outcome.targets.filter L.accepts).map TargetEvaluation.target).Nodup :=
    hdistinct.sublist (List.filter_sublist.map TargetEvaluation.target)
  obtain ⟨N, -, hlimits, hbefore, hafter⟩ := @part_rounds_own _ outcome policy now L e owner
    (outcome.targets.filter L.accepts) hL howns' hdistinct' (List.mem_filter.mpr ⟨he, haccepts⟩)
  obtain ⟨hin, hid⟩ := mem_of_find?_draftMap hd
  have howner : owner id = e.target := hid ▸ (howns e he d hin).2
  obtain ⟨f, hf, hfiled⟩ := @drafted_round _ outcome policy now N e id d hd
  rw [hlimits, find?_of_part (hbefore id howner)] at hfiled
  refine ⟨f, ?_, hfiled⟩
  have hM := (find?_of_part (hafter id howner)).trans hf
  rw [applyEvaluation_rounds hok, find?_expireSuppressions, limits_rounds, hM, Option.map_some]

end Whole

/-- Comparisons of different targets draft findings about their own targets. -/
theorem targets_compared {compared : ObservatoryPolicy} {limits : RuntimeLimits} {inputs : List TargetComparisonInput}
    (hdistinct : (inputs.map TargetComparisonInput.target).Nodup) {outcome : EvaluationOutcome}
    (houtcome : outcome.targets = inputs.map fun input => compareTarget input compared limits) :
    (∀ e ∈ outcome.targets, ∀ d ∈ e.drafts, d.target = e.target) ∧
      (outcome.targets.map TargetEvaluation.target).Nodup := by
  rw [houtcome]
  constructor
  · intro e he d hd
    obtain ⟨input, -, rfl⟩ := List.mem_map.mp he
    rw [target_of_mem_drafts hd, target_compareTarget]
  · rw [List.map_map]
    refine Eq.subst (motive := List.Nodup) (List.map_congr_left fun input _ => ?_) hdistinct
    exact target_compareTarget.symm

/-- The identities of the findings and of the drafts. -/
def identitiesAtHand (L : FindingLedger) (targets : List TargetEvaluation) : List FindingIdentity :=
  L.findings.values.map Finding.identity ++ targets.flatMap fun e => e.drafts.map FindingDraft.identity

/-- Where different identities at hand have different digests, none collide. -/
theorem not_collision {L : FindingLedger} {targets : List TargetEvaluation}
    (h : ((L.identitiesAtHand targets).dedup.map FindingIdentity.computeId).Nodup) : ¬ Collision L targets := by
  have hoccurs : ∀ i, Occurs L targets i → i ∈ (L.identitiesAtHand targets).dedup := by
    rintro i (⟨id, f, hf, rfl⟩ | ⟨e, he, d, hd, rfl⟩)
    · exact List.mem_dedup.mpr (List.mem_append_left _ (List.mem_map_of_mem (OrdMap.mem_values.mpr ⟨id, hf⟩)))
    · exact List.mem_dedup.mpr (List.mem_append_right _ (List.mem_flatMap.mpr ⟨e, he, List.mem_map_of_mem hd⟩))
  rintro ⟨i, j, hi, hj, hne, heq⟩
  exact hne (List.inj_on_of_nodup_map h (hoccurs i hi) (hoccurs j hj) heq)

end FindingLedger

namespace Sample
open FindingLedger

/-- A policy that suppresses whatever is found. -/
def hushing : ObservatoryPolicy :=
  { demanding with
    suppressions := [{ id := ⟨ascii "s"⟩, selector := {}, author := ⟨ascii "me"⟩, reason := ascii "known"
                       createdAt := ⟨1⟩ }] }

/-- A ledger with the intent of both targets. -/
def committed : FindingLedger where
  limits := {}
  baselines := OrdMap.ofList [(target, declaring), (other, { declaring with target := other })]

/-- The sources contradict each other about one target, and the intent of the other one is not applied. -/
def earlier : EvaluationOutcome :=
  { disputedOutcome with
    targets := [compareTarget (.ofPairs target (some declaring) ([first, second, third].map fun s => (some s, fresh)))
      demanding {}, unapplied other] }

/-- The ledger with findings and groups about both targets. -/
def conflicting : FindingLedger := @operate bitDoubles committed (.applyEvaluation earlier hushing ⟨1⟩)

theorem distinguishes_conflicting : @Distinguishes bitDoubles disputedOutcome hushing ⟨2⟩ conflicting := by
  let := bitDoubles
  have hsha : (draftedIds earlier.targets).Nodup := by decide +kernel
  have hids : ((conflicting.identitiesAtHand disputedOutcome.targets).dedup.map FindingIdentity.computeId).Nodup := by
    decide +kernel
  have hfiled : ∀ f ∈ conflicting.findings.values, (conflicting.groups.find? f.group).all fun g =>
      g.target == f.identity.target := by decide +kernel
  have hformed : ∀ e ∈ disputedOutcome.targets, conflicting.accepts e = true →
      ∀ b ∈ (conflicting.settling disputedOutcome hushing ⟨2⟩ e).ledger.bucketGroups e.target,
        (conflicting.groups.find? b.id).all fun g => g.target == e.target := by decide +kernel
  refine ⟨@keyed_applied bitDoubles _ lawful_bitDoubles _ _ _ _ rfl (fun _ _ hf => by cases hf) (not_collides hsha),
    not_collision hids, fun id f g hf _ hg => ?_, fun e he haccepts b hb g hg => ?_⟩
  · have hall := hfiled f (OrdMap.mem_values.mpr ⟨id, hf⟩)
    rw [hg] at hall
    exact beq_iff_eq.mp hall
  · have hall := hformed e he haccepts b hb
    rw [hg] at hall
    exact beq_iff_eq.mp hall

end Sample

namespace FindingLedger

end FindingLedger

end DriftObservatory
