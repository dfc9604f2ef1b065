import DriftObservatory.Theorems.Lifetime
import DriftObservatory.Theorems.Staleness
import DriftObservatory.Theorems.Interference

/-! Suppressions through the life of a ledger. A live finding is suppressed exactly while a suppression is set on it,
    unless it was reopened under one; and the counter of active suppressions counts them, unless policy placed or
    ended one. -/

namespace DriftObservatory

open Json

/-! ### One finding -/

namespace Finding
variable {f g : Finding}

/-- While the finding is live, it is suppressed exactly if a suppression is set on it. -/
def Coherent (f : Finding) : Prop := f.isLive = true → (f.state = .suppressed ↔ f.suppression.isSome = true)

/-- A suppression that is set has a name. -/
def Named (f : Finding) : Prop := ∀ id, f.suppression = some id → id.empty = false

theorem Coherent.congr (h : Coherent f) (hstate : g.state = f.state) (hset : g.suppression = f.suppression) :
    Coherent g := by
  unfold Coherent isLive at h ⊢
  rw [hstate, hset]
  exact h

theorem Named.congr (h : Named f) (hset : g.suppression = f.suppression) : Named g := by
  unfold Named
  rw [hset]
  exact h

theorem coherent_of_not_live (h : f.isLive = false) : Coherent f := fun hlive => by
  rw [h] at hlive
  cases hlive

theorem state_clearSuppression_ne (f : Finding) : f.clearSuppression.state ≠ .suppressed := by
  simp only [clearSuppression]
  split_ifs with hs
  · exact fun h => (by cases h)
  · exact fun h => (by cases h)
  · exact hs

theorem coherent_clearSuppression (f : Finding) : Coherent f.clearSuppression := fun _ =>
  ⟨fun h => absurd h (state_clearSuppression_ne f), fun h => (by cases h)⟩

theorem named_clearSuppression (f : Finding) : Named f.clearSuppression := fun _ h => (by cases h)

@[simp] theorem state_recomputeSummary [DoubleChars] {limits : RuntimeLimits} :
    (f.recomputeSummary limits).state = f.state := by
  obtain ⟨timeline, summary, heq⟩ := f.recomputeSummary_eq limits
  rw [heq]

@[simp] theorem suppression_recomputeSummary [DoubleChars] {limits : RuntimeLimits} :
    (f.recomputeSummary limits).suppression = f.suppression := by
  obtain ⟨timeline, summary, heq⟩ := f.recomputeSummary_eq limits
  rw [heq]

end Finding

namespace FindingLedger

/-- A repeated draft ends the suppression that policy placed on the finding it names. -/
def Lapses (policy : ObservatoryPolicy) (now : NdoTime) (d : FindingDraft) (f : Finding) : Prop :=
  f.suppressionOrigin = .policy ∧
    policy.findSuppression f.identity.target f.identity.object f.identity.path d.klass d.severity now = none

section Moves
variable [DoubleChars] {limits : RuntimeLimits} {outcome : EvaluationOutcome} {policy : ObservatoryPolicy}
  {now : NdoTime} {freshness : FreshnessState} {id : FindingId} {d : FindingDraft} {f : Finding}

/-- A repeated draft clears the suppression, if it is set and lapses; otherwise it keeps it and opens the finding if
    it was not live. -/
theorem updateFinding_marks :
    (f.suppression.isSome = true ∧ Lapses policy now d f ∧
      (updateFinding limits outcome policy now freshness d f).1.suppression = none ∧
      (updateFinding limits outcome policy now freshness d f).1.suppressionOrigin = .none ∧
      (updateFinding limits outcome policy now freshness d f).1.state ≠ .suppressed) ∨
    ((f.suppression.isSome = true → ¬ Lapses policy now d f) ∧
      (updateFinding limits outcome policy now freshness d f).1.suppression = f.suppression ∧
      (updateFinding limits outcome policy now freshness d f).1.suppressionOrigin = f.suppressionOrigin ∧
      (updateFinding limits outcome policy now freshness d f).1.suppressionExpiresAt = f.suppressionExpiresAt ∧
      (updateFinding limits outcome policy now freshness d f).1.state = if f.isLive then f.state else .open) := by
  obtain ⟨g, hg⟩ : ∃ g, g = (reopenOrUpdate now f (absorbDraft outcome now freshness d f)).1 := ⟨_, rfl⟩
  have hmarks : g.suppression = f.suppression ∧ g.suppressionOrigin = f.suppressionOrigin ∧
      g.suppressionExpiresAt = f.suppressionExpiresAt ∧ g.identity = f.identity ∧ g.klass = d.klass ∧
      g.severity = d.severity ∧ g.state = if f.isLive then f.state else .open := by
    rw [hg]
    unfold reopenOrUpdate
    cases hlive : f.isLive with
    | false => exact ⟨rfl, rfl, rfl, rfl, rfl, rfl, rfl⟩
    | true =>
      simp only [Bool.not_true, Bool.false_eq_true, if_false, if_true]
      split_ifs <;> exact ⟨rfl, rfl, rfl, rfl, rfl, rfl, rfl⟩
  obtain ⟨hset, horigin, hexpiry, hidentity, hklass, hseverity, hstate⟩ := hmarks
  have hupdate : (updateFinding limits outcome policy now freshness d f).1 =
      ((lapsePolicySuppression policy now g).1).recomputeSummary limits := by
    rw [hg]
    rfl
  obtain ⟨timeline, summary, hsummary⟩ := (lapsePolicySuppression policy now g).1.recomputeSummary_eq limits
  rw [hupdate, hsummary]
  unfold lapsePolicySuppression Lapses
  rw [hset, horigin, hidentity, hklass, hseverity]
  by_cases hlapse : (f.suppression.isSome && f.suppressionOrigin == .policy && (policy.findSuppression
      f.identity.target f.identity.object f.identity.path d.klass d.severity now).isNone) = true
  · rw [if_pos hlapse]
    simp only [Bool.and_eq_true, beq_iff_eq, Option.isNone_iff_eq_none] at hlapse
    refine .inl ⟨hlapse.1.1, ⟨hlapse.1.2, hlapse.2⟩, rfl, rfl, ?_⟩
    exact Finding.state_clearSuppression_ne g
  · rw [if_neg hlapse]
    refine .inr ⟨fun hsome hl => hlapse ?_, hset, horigin, hexpiry, hstate⟩
    simp [hsome, hl.1, hl.2]

/-- A first draft is suppressed by the rule the policy has for it. -/
theorem createFinding_marks :
    (∃ rule, policy.findSuppression d.target d.object d.path d.klass d.severity now = some rule ∧
      (createFinding limits outcome policy now freshness id d).1.suppression = some rule.id ∧
      (createFinding limits outcome policy now freshness id d).1.suppressionOrigin = .policy ∧
      (createFinding limits outcome policy now freshness id d).1.suppressionExpiresAt = rule.expiresAt ∧
      (createFinding limits outcome policy now freshness id d).1.state = .suppressed) ∨
    policy.findSuppression d.target d.object d.path d.klass d.severity now = none ∧
      (createFinding limits outcome policy now freshness id d).1.suppression = none ∧
      (createFinding limits outcome policy now freshness id d).1.suppressionOrigin = .none ∧
      (createFinding limits outcome policy now freshness id d).1.state = .open := by
  unfold createFinding
  cases hrule : policy.findSuppression d.target d.object d.path d.klass d.severity now with
  | none => exact .inr ⟨rfl, rfl, rfl, rfl⟩
  | some rule => exact .inl ⟨rule, rfl, rfl, rfl, rfl, rfl⟩

theorem settledFinding_marks {D : FindingLedger} {drafts : OrdMap FindingId FindingDraft} {streak : Nat} :
    (D.settledFinding outcome now drafts streak f).suppression = f.suppression ∧
      ((D.settledFinding outcome now drafts streak f).isLive = false ∨
        (D.settledFinding outcome now drafts streak f).state = f.state) := by
  unfold settledFinding
  split_ifs
  · refine ⟨?_, .inl ?_⟩
    · unfold supersedeFinding
      dsimp only
      split_ifs <;> rfl
    · rw [Finding.isLive, (ended_supersedeFinding now f).state]
      rfl
  · refine ⟨?_, .inl ?_⟩
    · unfold resolveFinding
      dsimp only
      split_ifs <;> rfl
    · rw [Finding.isLive, (ended_resolveFinding D.limits now streak f).state]
      rfl
  · exact ⟨rfl, .inr rfl⟩

omit [DoubleChars] in
theorem assignGroup_marks {target : TargetId} {assignment : OrdMap FindingId GroupId} :
    (assignGroup target now assignment f).1.suppression = f.suppression ∧
      (assignGroup target now assignment f).1.state = f.state := by
  unfold assignGroup
  split_ifs
  · split
    · split_ifs <;> exact ⟨rfl, rfl⟩
    · exact ⟨rfl, rfl⟩
  · exact ⟨rfl, rfl⟩

/-- A rebased finding is not live any more. -/
theorem isLive_rebaseFinding {baseline : IntentBaseline} {target : TargetId} {generation : IntentGeneration}
    (h : rebases target generation f = true) :
    (rebaseFinding limits baseline target generation now f).1.isLive = false := by
  unfold rebaseFinding
  rw [if_pos h]
  dsimp only
  cases stillManaged baseline f.identity <;> split_ifs <;> rfl

theorem rebaseFinding_marks {baseline : IntentBaseline} {target : TargetId} {generation : IntentGeneration} :
    (rebaseFinding limits baseline target generation now f).1.suppression = f.suppression ∧
      ((rebaseFinding limits baseline target generation now f).1.isLive = false ∨
        (rebaseFinding limits baseline target generation now f).1.state = f.state) := by
  cases hr : rebases target generation f with
  | true =>
    refine ⟨?_, .inl (isLive_rebaseFinding hr)⟩
    unfold rebaseFinding
    rw [if_pos hr]
    dsimp only
    split_ifs <;> rfl
  | false =>
    unfold rebaseFinding
    rw [if_neg (by rw [hr]; exact Bool.false_ne_true)]
    exact ⟨rfl, .inr rfl⟩

end Moves

/-! ### Suppressed findings -/

/-- No target drafts a finding that is not live while a suppression on it goes on, and the rules of the policy have
    names. -/
def ReopensUnsuppressed : Rule := fun _ policy now L e =>
  (∀ rule ∈ policy.suppressions, rule.id.empty = false) ∧
    ∀ id d f, (draftMap e.drafts).find? id = some d → L.findings.find? id = some f → f.isLive = false →
      f.suppression.isSome = true → Lapses policy now d f

section Coherent
variable [DoubleChars] {L : FindingLedger} {op : Operation}

omit [DoubleChars] in
theorem names_ne_empty {f : Finding} {sid : SuppressionId} (h : f.names sid) : sid.empty = false := by
  unfold Finding.names StringId.tryParse at h
  split_ifs at h
  obtain rfl := Option.some.inj h
  rfl

theorem coherent_round {outcome : EvaluationOutcome} {policy : ObservatoryPolicy} {now : NdoTime} {e : TargetEvaluation}
    (hallowed : ReopensUnsuppressed outcome policy now L e)
    (h : Everywhere (fun _ f => f.Coherent ∧ f.Named) L) :
    Everywhere (fun _ f => f.Coherent ∧ f.Named) (L.round outcome policy now e) := by
  refine h.round (fun id d _ _ => ?_) (fun id d f hd hf hP => ?_) (fun id f _ _ _ _ _ hP => ?_)
    fun id f _ _ hP => ?_
  · rcases @createFinding_marks _ L.limits outcome policy now e.bestFreshness id d with
      ⟨rule, hrule, hset, -, -, hstate⟩ | ⟨-, hset, -, hstate⟩
    · refine ⟨fun _ => by rw [hset, hstate]; simp, fun sid hsid => ?_⟩
      rw [hset, Option.some.injEq] at hsid
      rw [← hsid]
      exact hallowed.1 rule (List.mem_of_find?_eq_some hrule)
    · refine ⟨fun _ => by rw [hset, hstate]; simp, fun sid hsid => ?_⟩
      rw [hset] at hsid
      cases hsid
  · rcases @updateFinding_marks _ L.limits outcome policy now e.bestFreshness d f with
      ⟨-, -, hset, -, hstate⟩ | ⟨hkept, hset, -, -, hstate⟩
    · refine ⟨fun _ => ⟨fun hs => absurd hs hstate, fun hs => ?_⟩, fun sid hsid => ?_⟩
      · rw [hset] at hs
        cases hs
      · rw [hset] at hsid
        cases hsid
    · refine ⟨fun _ => ?_, hP.2.congr hset⟩
      rw [hset, hstate]
      cases hlive : f.isLive with
      | true => exact hP.1 hlive
      | false =>
        refine ⟨fun hs => (by cases hs), fun hsome => ?_⟩
        exact absurd (hallowed.2 id d f hd hf hlive hsome) (hkept hsome)
  · obtain ⟨hset, hended | hstate⟩ := @settledFinding_marks _ outcome now f (L.drafted outcome policy now e)
      (draftMap e.drafts) (L.nextStreak id)
    · exact ⟨Finding.coherent_of_not_live hended, hP.2.congr hset⟩
    · exact ⟨hP.1.congr hstate hset, hP.2.congr hset⟩
  · obtain ⟨hset, hstate⟩ := @assignGroup_marks now f e.target
      (assignments ((L.settling outcome policy now e).ledger.bucketGroups e.target))
    exact ⟨hP.1.congr hstate hset, hP.2.congr hset⟩

theorem coherent_expireFinding {limits : RuntimeLimits} {now : NdoTime} {f : Finding} (h : f.Coherent ∧ f.Named) :
    (expireFinding limits now f).1.Coherent ∧ (expireFinding limits now f).1.Named := by
  unfold expireFinding
  split_ifs
  · exact ⟨(Finding.coherent_clearSuppression f).congr Finding.state_recomputeSummary
      Finding.suppression_recomputeSummary, (Finding.named_clearSuppression f).congr
      Finding.suppression_recomputeSummary⟩
  · exact h

theorem coherent_touched {limits : RuntimeLimits} {f f' : Finding} (ht : Touched limits op f f')
    (h : f.Coherent ∧ f.Named) : f'.Coherent ∧ f'.Named := by
  -- The summary and the history of a finding are apart from its suppression.
  have hpushed : ∀ {g : Finding} {event : TimelineEntry}, g.Coherent ∧ g.Named →
      ((g.push event).recomputeSummary limits).Coherent ∧ ((g.push event).recomputeSummary limits).Named :=
    fun hg => ⟨hg.1.congr Finding.state_recomputeSummary Finding.suppression_recomputeSummary,
      hg.2.congr Finding.suppression_recomputeSummary⟩
  cases ht with
  | kept => exact h
  | rebased document now f =>
    obtain ⟨hset, hended | hstate⟩ := @rebaseFinding_marks _ limits now f (baselineOf document now) document.target
      document.generation
    · exact ⟨Finding.coherent_of_not_live hended, h.2.congr hset⟩
    · exact ⟨h.1.congr hstate hset, h.2.congr hset⟩
  | suppressed id actor reason expiresAt now f sid hsid =>
    refine hpushed ⟨fun hlive => ?_, fun id' hid' => ?_⟩
    · have hbefore : f.isLive = true := by
        by_contra hended
        unfold Finding.isLive at hlive hended
        simp only [Finding.suppressedAs, Finding.isLive, hended] at hlive
        exact hended hlive
      simp [Finding.suppressedAs, hbefore]
    · obtain rfl := Option.some.inj hid'
      exact names_ne_empty hsid
  | unsuppressed id actor now f event hevent =>
    exact hpushed ⟨Finding.coherent_clearSuppression f, Finding.named_clearSuppression f⟩
  | acknowledged id actor reason now f =>
    refine hpushed ⟨fun hlive => ?_, h.2⟩
    have hbefore := h.1
    unfold Finding.Coherent Finding.isLive at hbefore
    revert hbefore hlive
    simp only [Finding.acknowledgedAs, Finding.isLive]
    cases f.state <;> simp [FindingState.isLive]
  | unacknowledged id actor now f event hevent =>
    refine hpushed ⟨fun hlive => ?_, h.2⟩
    have hbefore := h.1
    unfold Finding.Coherent Finding.isLive at hbefore
    revert hbefore hlive
    simp only [Finding.unacknowledged, Finding.isLive]
    cases f.state <;> simp [FindingState.isLive]
  | expired now f => exact coherent_expireFinding h

/-- In every life of a ledger in which no evaluation reopens a finding under a suppression that goes on, a live finding
    is suppressed exactly if a suppression is set on it. -/
theorem suppressed_iff_set [LawfulDoubleChars] (limits : RuntimeLimits) {steps : List LedgerStep}
    (h : Run.Permits advance (Permitted ReopensUnsuppressed) { limits := limits } steps) (id : FindingId)
    (f : Finding) (hf : (Run.exec advance { limits := limits } steps).findings.find? id = some f)
    (hlive : f.isLive = true) : f.state = .suppressed ↔ f.suppression.isSome = true := by
  have hall : Everywhere (fun _ f => f.Coherent ∧ f.Named) (Run.exec advance { limits := limits } steps) := by
    refine lifetime_invariant (fun _ _ hop => hop) (fun outcome policy now M e => coherent_round)
      (fun M now hM => hM.expired fun _ _ => coherent_expireFinding)
      (fun M op _ happly hM => hM.worked (worked_operate happly) fun _ _ _ ht => coherent_touched ht)
      (fun M limits _ _ _ _ _ hM => hM.restored fun _ _ n g hg _ => ?_) (fun _ _ hnone => by cases hnone) h
    have hset : (recoverFinding limits n (g.reread (ledgerPayloadLimits limits))).suppression = g.suppression := by
      show g.suppression.filter (fun id => !id.empty) = g.suppression
      cases hs : g.suppression with
      | none => rfl
      | some sid => simp [hg.2 sid hs]
    exact ⟨hg.1.congr rfl hset, hg.2.congr hset⟩
  exact (hall id f hf).1 hlive

end Coherent

/-! ### The counter of active suppressions -/

/-- Policy suppresses no new finding of the target, and ends no suppression of a drafted one. -/
def NoPolicySuppression : Rule := fun _ policy now L e => ∀ id d, (draftMap e.drafts).find? id = some d →
  (L.findings.find? id = none → policy.findSuppression d.target d.object d.path d.klass d.severity now = none) ∧
    ∀ f, L.findings.find? id = some f → f.suppression.isSome = true → ¬ Lapses policy now d f

/-- The findings on which a suppression is set. -/
def suppressionsSet (L : FindingLedger) : Nat := L.findings.values.countP fun f => f.suppression.isSome

section Counted
variable [DoubleChars] {L M : FindingLedger} {op : Operation} {outcome : EvaluationOutcome} {policy : ObservatoryPolicy}
  {now : NdoTime} {e : TargetEvaluation}

/-- Every finding is under its identity, and the counter counts the suppressions that are set. -/
structure Counted (L : FindingLedger) : Prop where
  keyed : Keyed L
  active : L.suppressionsActive = L.suppressionsSet

theorem counted_round (hallowed : NoPolicySuppression outcome policy now L e) (h : Counted L) :
    Counted (L.round outcome policy now e) := by
  refine ⟨h.keyed.round, ?_⟩
  have hactive : (L.round outcome policy now e).suppressionsActive = L.suppressionsActive := by
    obtain ⟨_, _, _, _, _, heq⟩ := @reapplied_applyTarget _ outcome policy now L e {}
    rw [round, heq]
  rw [hactive, h.active]
  refine OrdMap.countP_values_congr fun id => (any_round (fun id d hd hnone => ?_) (fun id d f hd hf => ?_)
    (fun D drafts streak f => ?_) (fun assignment f => ?_) id).symm
  · rw [createFinding, ((hallowed id d hd).1 hnone)]
    rfl
  · rcases @updateFinding_marks _ L.limits outcome policy now e.bestFreshness d f with ⟨hsome, hlapses, -, -⟩ | ⟨-, hset, -⟩
    · exact absurd hlapses ((hallowed id d hd).2 f hf hsome)
    · rw [hset]
  · rw [settledFinding_marks.1]
  · rw [assignGroup_marks.1]

/-- Expiry takes as many suppressions off the findings as off the counter. -/
theorem counted_expireSuppressions (h : Counted L) : Counted (L.expireSuppressions now) := by
  refine ⟨Everywhere.worked h.keyed worked_expireSuppressions fun _ _ _ ht hf => ht.kin.id.trans hf, ?_⟩
  have hmarks : ∀ f, (expireFinding L.limits now f).1.suppression.isSome =
      (f.suppression.isSome && !suppressionExpires now f) := by
    intro f
    unfold expireFinding
    split_ifs with hexpires
    · rw [Finding.suppression_recomputeSummary, hexpires, Bool.not_true, Bool.and_false]
      rfl
    · rw [Bool.not_eq_true] at hexpires
      rw [hexpires, Bool.not_false, Bool.and_true]
  have hcount : ∀ fs : List Finding, (fs.countP fun f => f.suppression.isSome) = fs.countP (suppressionExpires now) +
      fs.countP fun f => (expireFinding L.limits now f).1.suppression.isSome := by
    intro fs
    induction fs with
    | nil => rfl
    | cons f fs ih =>
      rw [List.countP_cons, List.countP_cons, List.countP_cons, ih, hmarks]
      have hset : suppressionExpires now f = true → f.suppression.isSome = true := fun hexpires =>
        (Bool.and_eq_true_iff.mp hexpires).1
      cases hexpires : suppressionExpires now f <;> cases hsome : f.suppression.isSome <;> simp_all <;> omega
  have hfindings : (L.expireSuppressions now).findings.values =
      L.findings.values.map fun f => (expireFinding L.limits now f).1 := by
    have hsweep : (L.sweep (expireFinding L.limits now)).findings =
        L.findings.mapValues fun _ f => (expireFinding L.limits now f).1 := by rw [sweep, findings_appendAll]
    rw [← OrdMap.values_mapValues, ← hsweep]
    unfold expireSuppressions
    dsimp only
    split_ifs <;> rfl
  have hactive : (L.expireSuppressions now).suppressionsActive =
      L.suppressionsActive - L.findings.values.countP (suppressionExpires now) := by
    unfold expireSuppressions
    dsimp only
    split_ifs <;> rfl
  rw [hactive, h.active, suppressionsSet, suppressionsSet, hfindings, List.countP_map, hcount]
  exact Nat.add_sub_cancel_left _ _

theorem counted_actOn {id : FindingId} {f f' : Finding} {event : TimelineEntry} {active : Nat} (h : Counted L)
    (hf : L.findings.find? id = some f) (hid : f'.id = f.id)
    (hactive : active + f.suppression.isSome.toNat = L.suppressionsActive + f'.suppression.isSome.toNat) :
    Counted ({ L with suppressionsActive := active }.actOn id f' event) := by
  obtain ⟨g, hg⟩ : ∃ g, g = (f'.push event).recomputeSummary L.limits := ⟨_, rfl⟩
  have hset : g.suppression = f'.suppression := by
    rw [hg, Finding.suppression_recomputeSummary]
    rfl
  have hkin : Kin f' g := by
    rw [hg]
    exact Kin.recomputeSummary ⟨rfl, rfl, rfl, rfl⟩
  have hfindings : ({ L with suppressionsActive := active }.actOn id f' event).findings = L.findings.insert id g := by
    rw [hg]
    rfl
  refine ⟨fun k v hv => ?_, ?_⟩
  · rw [hfindings, OrdMap.find?_insert] at hv
    split_ifs at hv with hk
    · rw [← Option.some.inj hv, hkin.id, hid, ← hk]
      exact h.keyed id f hf
    · exact h.keyed k v hv
  · have hcount := @OrdMap.countP_values_insert _ _ _ L.findings id g fun f => f.suppression.isSome
    have hnow := h.active
    rw [hf, Option.any_some, hset] at hcount
    rw [suppressionsSet, hfindings]
    unfold suppressionsSet at hnow
    show active = _
    omega

theorem counted_operator (hop : op.isOperator = true) (h : Counted L) : Counted (L.operate op) := by
  have hstep := @operator_step _ L op hop
  generalize L.operate op = M at hstep
  cases hstep with
  | refused => exact h
  | suppressed id actor reason expiresAt now f sid event hf hroom hsid hevent =>
    refine counted_actOn h hf rfl ?_
    cases f.suppression <;> simp [Finding.suppressedAs]
  | unsuppressed id actor now f event hf hset hevent =>
    refine counted_actOn h hf rfl ?_
    have hone := @OrdMap.countP_values_insert _ _ _ L.findings id f.clearSuppression fun f => f.suppression.isSome
    have hnow := h.active
    have hsome : f.suppression.isSome = true := Option.isSome_iff_ne_none.mpr hset
    have hnone : f.clearSuppression.suppression.isSome = false := rfl
    rw [hf, Option.any_some, hsome, hnone, Bool.toNat_true, Bool.toNat_false] at hone
    rw [hsome, hnone, Bool.toNat_true, Bool.toNat_false, hnow, suppressionsSet]
    omega
  | acknowledged id actor reason now f event hf hevent => exact counted_actOn h hf rfl rfl
  | unacknowledged id actor now f event hf hevent => exact counted_actOn h hf rfl rfl
  | expired now => exact counted_expireSuppressions h

theorem counted_operate (happly : L.applied op = none) (h : Counted L) : Counted (L.operate op) := by
  cases hop : op.isOperator with
  | true => exact counted_operator hop h
  | false =>
    refine ⟨h.keyed.operate happly, ?_⟩
    have hactive : (L.operate op).suppressionsActive = L.suppressionsActive := by
      cases op with
      | commitIntent document now =>
        have hstep := @commitIntent_step _ L document now
        rw [operate]
        generalize (L.commitIntent document now).2.1 = M at hstep
        cases hstep with
        | refused => rfl
        | first => rfl
        | advanced event existing hb hnew =>
          unfold sweep
          obtain ⟨log, heq⟩ := appendAll_eq _ _
          rw [heq]
          rfl
      | recordObservation snapshot verdict recovered =>
        simp only [operate, recordObservation]
        split
        · rfl
        · split <;> rfl
      | evaluate policy limits epoch incarnation now => rw [operate_evaluate_refused happly]
      | applyEvaluation => cases happly
      | invalidateRetainedEvidence reason now =>
        simp only [operate, invalidateRetainedEvidence]
        split_ifs <;> rfl
      | recordEvent entry => rfl
      | _ => cases hop
    rw [hactive, h.active]
    refine OrdMap.countP_values_congr fun id => ?_
    rcases (worked_operate happly).findings id with ⟨hnone, hnone'⟩ | ⟨f, f', hf, hf', ht⟩
    · rw [hnone, hnone']
    · rw [hf, hf', Option.any_some, Option.any_some]
      cases ht with
      | kept => rfl
      | rebased => rw [rebaseFinding_marks.1]
      | _ => cases hop

omit [DoubleChars] in
theorem counted_restored {limits : RuntimeLimits} (h : Keyed L) : Counted (L.restored limits) := by
  refine ⟨keyed_restored, ?_⟩
  have hcount : ∀ (fs : List Finding) (n : Nat), ((recoverAll limits n fs).countP fun f => f.suppression.isSome) =
      fs.countP fun f => f.suppression.isSome := by
    intro fs
    induction fs with
    | nil => exact fun _ => rfl
    | cons f fs ih =>
      intro n
      rw [recoverAll, List.countP_cons, List.countP_cons, ih]
      rfl
  rw [suppressionsSet, h.values_restored, hcount]
  rfl

/-- In every life of a ledger in which policy neither places nor ends a suppression, the counter of active suppressions
    counts the findings on which one is set. -/
theorem suppressionsActive_eq_set [LawfulDoubleChars] (limits : RuntimeLimits) {steps : List LedgerStep}
    (h : Run.Permits advance (Permitted NoPolicySuppression) { limits := limits } steps) :
    (Run.exec advance { limits := limits } steps).suppressionsActive =
      (Run.exec advance { limits := limits } steps).suppressionsSet := by
  have hcounted : Counted (Run.exec advance { limits := limits } steps) :=
    lifetime_invariant (fun _ _ hop => hop) (fun outcome policy now M e => counted_round)
      (fun M now hM => ⟨hM.keyed.expired, (counted_expireSuppressions hM).active⟩)
      (fun M op _ happly hM => counted_operate happly hM) (fun M limits _ _ _ _ _ hM => counted_restored hM.keyed)
      ⟨fun _ _ hnone => (by cases hnone), rfl⟩ h
  exact hcounted.active

end Counted

end FindingLedger

namespace Sample
open FindingLedger

/-- The target's intent has been published. -/
def published : FindingLedger := @advance bitDoubles { limits := {} } (.operate (.commitIntent document ⟨1⟩))

/-- Intent is published and evaluated; nobody has observed the target. -/
def unobserved : List LedgerStep :=
  [.operate (.commitIntent document ⟨1⟩), .operate (.evaluate requiring {} ⟨1⟩ ⟨1⟩ ⟨1⟩)]

/-- The finding about the missing evidence. -/
def unobservedId : FindingId :=
  (Run.exec (@advance bitDoubles) { limits := {} } unobserved).findings.keys.headD default

def hide : LedgerStep := .operate (.suppress unobservedId ⟨ascii "me"⟩ (ascii "known") none ⟨1⟩)

/-- The suppressed finding is resolved by an observation, and drafted again when that has aged. -/
def reopened : List LedgerStep :=
  unobserved ++ [hide, .operate (.recordObservation (empty 1) fresh false),
    .operate (.evaluate requiring {} ⟨1⟩ ⟨1⟩ ⟨2⟩), .operate (.evaluate requiring {} ⟨1⟩ ⟨1⟩ ⟨10 ^ 18⟩)]

/-- A policy that suppresses what it finds about the target. -/
def silencing : ObservatoryPolicy :=
  { requiring with
    suppressions := [{ id := ⟨ascii "s"⟩, selector := { target := target }, author := ⟨ascii "me"⟩
                       reason := ascii "known", createdAt := ⟨1⟩ }] }

theorem permits_hidden {allowed : Rule}
    (h : ∀ outcome e, (∀ id f, published.findings.find? id ≠ some f) → allowed outcome requiring ⟨1⟩ published e) :
    @Run.Permits _ _ (@advance bitDoubles) (@Permitted bitDoubles allowed) { limits := {} } (unobserved ++ [hide]) := by
  let := bitDoubles
  obtain ⟨L, hL⟩ : ∃ L, L = published := ⟨_, rfl⟩
  have hempty : L.findings.values = [] := by
    rw [hL]
    decide +kernel
  have hone : (L.evaluationsOf (.evaluate requiring {} ⟨1⟩ ⟨1⟩ ⟨1⟩)).length ≤ 1 := by
    rw [hL]
    decide +kernel
  rw [← hL] at h
  have hevaluate : L.Allows allowed (.evaluate requiring {} ⟨1⟩ ⟨1⟩ ⟨1⟩) := by
    refine allows_of_one hone fun outcome policy now e happly => ?_
    obtain ⟨rfl, rfl⟩ := applied_evaluate happly
    refine h outcome e fun id f hf => ?_
    have hmem := OrdMap.mem_values.mpr ⟨id, hf⟩
    rw [hempty] at hmem
    cases hmem
  rw [published] at hL
  simp only [unobserved, hide, List.cons_append, List.nil_append, Run.Permits, Permitted, ← hL]
  exact ⟨allows_of_applied_none rfl, hevaluate, allows_of_applied_none rfl, trivial⟩

theorem hidden_spec :
    (Run.exec (@advance bitDoubles) { limits := {} } (unobserved ++ [hide])).findings.values.map
        (fun f => (f.state, f.timeline.length)) = [(.suppressed, 2)] ∧
      (Run.exec (@advance bitDoubles) { limits := {} } (unobserved ++ [hide])).suppressionsSet = 1 := by decide +kernel

end Sample

theorem FindingLedger.reopened_unsuppressed :
    ¬ ∀ f ∈ (Run.exec (@advance Sample.bitDoubles) { limits := {} } Sample.reopened).findings.values,
      f.isLive = true → (f.state = .suppressed ↔ f.suppression.isSome = true) := by decide +kernel

theorem FindingLedger.suppressed_iff_set_hidden :
    (Run.exec (@advance Sample.bitDoubles) { limits := {} } (Sample.unobserved ++ [Sample.hide])).findings.values.map
        Finding.state = [.suppressed] ∧
      ∀ id f, (Run.exec (@advance Sample.bitDoubles) { limits := {} }
          (Sample.unobserved ++ [Sample.hide])).findings.find? id = some f → f.isLive = true →
        (f.state = .suppressed ↔ f.suppression.isSome = true) := by
  have hp := @Sample.permits_hidden ReopensUnsuppressed fun outcome e hempty =>
    ⟨fun rule hrule => absurd hrule List.not_mem_nil, fun id d f _ hf => absurd hf (hempty id f)⟩
  have hstates := congrArg (List.map Prod.fst) (Sample.hidden_spec).1
  rw [List.map_map] at hstates
  exact ⟨hstates, fun id f hf hlive =>
    @suppressed_iff_set Sample.bitDoubles Sample.lawful_bitDoubles {} _ hp id f hf hlive⟩

theorem FindingLedger.suppressions_uncounted :
    (@advance Sample.bitDoubles { limits := {} }
        (.operate (.evaluate Sample.silencing {} ⟨1⟩ ⟨1⟩ ⟨1⟩))).suppressionsActive ≠
      (@advance Sample.bitDoubles { limits := {} }
        (.operate (.evaluate Sample.silencing {} ⟨1⟩ ⟨1⟩ ⟨1⟩))).suppressionsSet := by decide +kernel

theorem FindingLedger.suppressionsActive_eq_set_hidden :
    (Run.exec (@advance Sample.bitDoubles) { limits := {} } (Sample.unobserved ++ [Sample.hide])).suppressionsSet = 1 ∧
      (Run.exec (@advance Sample.bitDoubles) { limits := {} }
          (Sample.unobserved ++ [Sample.hide])).suppressionsActive =
        (Run.exec (@advance Sample.bitDoubles) { limits := {} }
          (Sample.unobserved ++ [Sample.hide])).suppressionsSet := by
  have hp := @Sample.permits_hidden NoPolicySuppression fun outcome e hempty id d _ =>
    ⟨fun _ => rfl, fun f hf => absurd hf (hempty id f)⟩
  exact ⟨(Sample.hidden_spec).2, @suppressionsActive_eq_set Sample.bitDoubles Sample.lawful_bitDoubles {} _ hp⟩

end DriftObservatory
