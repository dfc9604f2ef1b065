import DriftObservatory.Apply

/-! The phases of applying an evaluation, one lemma for each: what a draft, a settled finding and a group
    refresh do to the ledger. No phase forgets a finding or turns a counter back. -/

namespace DriftObservatory

/-- Only the history and the explanation of a finding are recomputed. -/
theorem Finding.recomputeSummary_eq [DoubleChars] (f : Finding) (limits : RuntimeLimits) : ∃ timeline summary,
    f.recomputeSummary limits = { f with timeline := timeline, summary := summary } := ⟨_, _, rfl⟩

namespace FindingLedger

/-! ### The timeline -/

section Timeline
variable {L : FindingLedger} {entry : TimelineEntry} {entries : List TimelineEntry}

/-- A ledger that differs in its timeline only. -/
theorem appendAll_eq : ∀ (entries : List TimelineEntry) (L : FindingLedger), ∃ log,
    L.appendAll entries = { L with
      timelineSequence := L.timelineSequence + entries.length, globalTimeline := L.globalTimeline ++ log }
  | [], L => ⟨[], by simp [appendAll]⟩
  | entry :: rest, L => by
    obtain ⟨log, h⟩ := appendAll_eq rest (L.appendTimeline entry)
    refine ⟨{ entry with sequence := L.timelineSequence + 1 } :: log, ?_⟩
    show (L.appendTimeline entry).appendAll rest = _
    rw [h]
    simp [appendTimeline, Nat.add_comm, Nat.add_left_comm]

@[simp] theorem appendAll_nil : L.appendAll [] = L := rfl

@[simp] theorem limits_appendAll : (L.appendAll entries).limits = L.limits := by
  obtain ⟨log, h⟩ := appendAll_eq entries L
  rw [h]

@[simp] theorem findings_appendAll : (L.appendAll entries).findings = L.findings := by
  obtain ⟨log, h⟩ := appendAll_eq entries L
  rw [h]

@[simp] theorem groups_appendAll : (L.appendAll entries).groups = L.groups := by
  obtain ⟨log, h⟩ := appendAll_eq entries L
  rw [h]

@[simp] theorem baselines_appendAll : (L.appendAll entries).baselines = L.baselines := by
  obtain ⟨log, h⟩ := appendAll_eq entries L
  rw [h]

@[simp] theorem windows_appendAll : (L.appendAll entries).windows = L.windows := by
  obtain ⟨log, h⟩ := appendAll_eq entries L
  rw [h]

@[simp] theorem resolutionStreak_appendAll : (L.appendAll entries).resolutionStreak = L.resolutionStreak := by
  obtain ⟨log, h⟩ := appendAll_eq entries L
  rw [h]

@[simp] theorem timelineSequence_appendAll :
    (L.appendAll entries).timelineSequence = L.timelineSequence + entries.length := by
  obtain ⟨log, h⟩ := appendAll_eq entries L
  rw [h]

end Timeline

/-! ### Drafts -/

section Drafts
variable {limits : RuntimeLimits} {outcome : EvaluationOutcome} {policy : ObservatoryPolicy}
  {now : NdoTime} {freshness : FreshnessState}

theorem isLive_clearSuppression (f : Finding) : f.clearSuppression.isLive = f.isLive := by
  unfold Finding.clearSuppression Finding.isLive
  by_cases hs : f.state = .suppressed
  · cases f.acknowledgedBy.empty <;> simp [hs, FindingState.isLive]
  · simp [hs]

/-- What a repeated draft makes of the finding it names. -/
structure Absorbed (draft : FindingDraft) (before f : Finding) : Prop where
  id : f.id = before.id
  identity : f.identity = before.identity
  klass : f.klass = draft.klass
  generation : f.baselineGeneration = draft.baselineGeneration
  count : f.observationCount = before.observationCount.next
  group : f.group = before.group
  live : f.isLive = true

theorem absorbed_reopenOrUpdate (draft : FindingDraft) (before : Finding) :
    Absorbed draft before
      (reopenOrUpdate now before (absorbDraft outcome now freshness draft before)).1 := by
  unfold reopenOrUpdate
  split_ifs with hlive
  · exact ⟨rfl, rfl, rfl, rfl, rfl, rfl, rfl⟩
  · have hbefore : before.isLive = true := by simpa using hlive
    exact ⟨rfl, rfl, rfl, rfl, rfl, rfl, hbefore⟩
  · have hbefore : before.isLive = true := by simpa using hlive
    exact ⟨rfl, rfl, rfl, rfl, rfl, rfl, hbefore⟩

theorem Absorbed.lapse {draft : FindingDraft} {before f : Finding} (h : Absorbed draft before f) :
    Absorbed draft before (lapsePolicySuppression policy now f).1 := by
  unfold lapsePolicySuppression
  split_ifs
  · exact ⟨h.id, h.identity, h.klass, h.generation, h.count, h.group, (isLive_clearSuppression f).trans h.live⟩
  · exact h

variable [DoubleChars]

/-- What a new draft makes of a finding. -/
structure Created (id : FindingId) (draft : FindingDraft) (f : Finding) : Prop where
  id : f.id = id
  identity : f.identity = draft.identity
  klass : f.klass = draft.klass
  generation : f.baselineGeneration = draft.baselineGeneration
  group : f.group = default
  live : f.isLive = true

theorem created_createFinding (id : FindingId) (draft : FindingDraft) :
    Created id draft (createFinding limits outcome policy now freshness id draft).1 := by
  unfold createFinding
  split <;> exact ⟨rfl, rfl, rfl, rfl, rfl, rfl⟩

theorem Absorbed.recomputeSummary {draft : FindingDraft} {before f : Finding} (h : Absorbed draft before f) :
    Absorbed draft before (f.recomputeSummary limits) := by
  obtain ⟨timeline, summary, heq⟩ := f.recomputeSummary_eq limits
  rw [heq]
  exact ⟨h.id, h.identity, h.klass, h.generation, h.count, h.group, h.live⟩

theorem absorbed_updateFinding (draft : FindingDraft) (before : Finding) :
    Absorbed draft before (updateFinding limits outcome policy now freshness draft before).1 :=
  (absorbed_reopenOrUpdate draft before).lapse.recomputeSummary

/-- What one draft does to the ledger. -/
inductive DraftStep (outcome : EvaluationOutcome) (policy : ObservatoryPolicy) (now : NdoTime)
    (freshness : FreshnessState) (L : FindingLedger) (id : FindingId) (draft : FindingDraft) : FindingLedger → Prop
  | created (hf : L.findings.find? id = none) :
      DraftStep outcome policy now freshness L id draft
        ({ L with
            findings := L.findings.insert id (createFinding L.limits outcome policy now freshness id draft).1
          }.appendTimeline (createFinding L.limits outcome policy now freshness id draft).2.1)
  | updated (before : Finding) (hf : L.findings.find? id = some before) :
      DraftStep outcome policy now freshness L id draft
        ({ L with
            findings :=
              L.findings.insert id (updateFinding L.limits outcome policy now freshness draft before).1
            resolutionStreak := L.resolutionStreak.insert id 0 }.appendAll
          (updateFinding L.limits outcome policy now freshness draft before).2)

theorem DraftStep.unique {L M M' : FindingLedger} {id : FindingId} {draft : FindingDraft}
    (h : DraftStep outcome policy now freshness L id draft M)
    (h' : DraftStep outcome policy now freshness L id draft M') : M = M' := by
  cases h with
  | created hf =>
    cases h' with
    | created _ => rfl
    | updated before hf' => rw [hf] at hf'; cases hf'
  | updated before hf =>
    cases h' with
    | created hf' => rw [hf] at hf'; cases hf'
    | updated before' hf' =>
      obtain rfl := Option.some.inj (hf.symm.trans hf')
      rfl

theorem applyDraft_step (L : FindingLedger) (report : LedgerApplyReport) (entry : FindingId × FindingDraft) :
    DraftStep outcome policy now freshness L entry.1 entry.2
      (applyDraft outcome policy now freshness (L, report) entry).1 := by
  unfold applyDraft
  cases hf : L.findings.find? entry.1 with
  | none => simpa [hf] using DraftStep.created hf
  | some before => simpa [hf] using DraftStep.updated before hf

end Drafts

/-! ### The drafts of a target -/

section DraftMap
variable {drafts : List FindingDraft} {id : FindingId}

/-- The loop that collects the drafts. -/
def collectDraft (m : OrdMap FindingId FindingDraft) (d : FindingDraft) : OrdMap FindingId FindingDraft :=
  if m.contains d.identity.computeId then m else m.insert d.identity.computeId d

theorem contains_collectDrafts : ∀ (ds : List FindingDraft) (m : OrdMap FindingId FindingDraft),
    (ds.foldl collectDraft m).contains id = true ↔ m.contains id = true ∨ ∃ d ∈ ds, d.identity.computeId = id
  | [], m => by simp
  | d :: ds, m => by
    rw [List.foldl_cons, contains_collectDrafts ds]
    have hone : (collectDraft m d).contains id = true ↔ d.identity.computeId = id ∨ m.contains id = true := by
      unfold collectDraft
      split_ifs with hd
      · refine ⟨Or.inr, fun h => ?_⟩
        rcases h with rfl | h
        · exact hd
        · exact h
      · exact OrdMap.contains_insert
    rw [hone, List.exists_mem_cons_iff, or_assoc, or_left_comm]

theorem contains_draftMap : (draftMap drafts).contains id = true ↔ ∃ d ∈ drafts, d.identity.computeId = id := by
  rw [show draftMap drafts = drafts.foldl collectDraft ∅ from rfl, contains_collectDrafts]
  exact ⟨fun h => h.resolve_left (by simp [OrdMap.contains]), Or.inr⟩

theorem find?_collectDrafts : ∀ (ds : List FindingDraft) (m : OrdMap FindingId FindingDraft) {d : FindingDraft},
    (ds.foldl collectDraft m).find? id = some d → m.find? id = some d ∨ (d ∈ ds ∧ d.identity.computeId = id)
  | [], _, _, h => Or.inl h
  | d' :: ds, m, d, h => by
    rcases find?_collectDrafts ds (collectDraft m d') h with h | ⟨hmem, hid⟩
    · unfold collectDraft at h
      split_ifs at h
      · exact Or.inl h
      · rw [OrdMap.find?_insert] at h
        split_ifs at h with heq
        · obtain rfl := Option.some.inj h
          exact Or.inr ⟨List.mem_cons_self, heq⟩
        · exact Or.inl h
    · exact Or.inr ⟨List.mem_cons_of_mem _ hmem, hid⟩

/-- The draft collected under an identity is one of the drafts and has that identity. -/
theorem mem_of_find?_draftMap {d : FindingDraft} (h : (draftMap drafts).find? id = some d) :
    d ∈ drafts ∧ d.identity.computeId = id := by
  rcases find?_collectDrafts drafts ∅ h with h | h
  · cases h
  · exact h

end DraftMap

/-! ### Undrafted findings -/

section Live
variable {L : FindingLedger} {target : TargetId}

theorem mem_liveOf {f : Finding} : f ∈ L.liveOf target ↔
    ∃ id, L.findings.find? id = some f ∧ f.identity.target = target ∧ f.isLive = true := by
  rw [liveOf, List.mem_filter, OrdMap.mem_values, Bool.and_eq_true, beq_iff_eq, exists_and_right]

theorem mem_undrafted {drafts : OrdMap FindingId FindingDraft} {id : FindingId} : id ∈ L.undrafted target drafts ↔
    ∃ f, L.findings.find? id = some f ∧ f.identity.target = target ∧ f.isLive = true ∧ drafts.find? id = none := by
  simp only [undrafted, List.mem_map, List.mem_filter, Bool.and_eq_true, beq_iff_eq, Bool.not_eq_true',
    OrdMap.contains_eq_false_iff]
  constructor
  · rintro ⟨⟨id', f⟩, ⟨hmem, ⟨ht, hl⟩, hd⟩, rfl⟩
    exact ⟨f, OrdMap.mem_entries_iff.mp hmem, ht, hl, hd⟩
  · rintro ⟨f, hf, ht, hl, hd⟩
    exact ⟨(id, f), ⟨OrdMap.mem_entries_iff.mpr hf, ⟨ht, hl⟩, hd⟩, rfl⟩

end Live

section Settle
variable [DoubleChars]

/-- What settling makes of a finding: it is not live any more and belongs to no group. -/
structure Ended (state : FindingState) (before f : Finding) : Prop where
  id : f.id = before.id
  identity : f.identity = before.identity
  klass : f.klass = before.klass
  generation : f.baselineGeneration = before.baselineGeneration
  count : f.observationCount = before.observationCount
  state : f.state = state
  group : f.group.isSet = false

theorem Ended.recomputeSummary {state : FindingState} {before f : Finding} {limits : RuntimeLimits}
    (h : Ended state before f) : Ended state before (f.recomputeSummary limits) := by
  obtain ⟨timeline, summary, heq⟩ := f.recomputeSummary_eq limits
  rw [heq]
  exact ⟨h.id, h.identity, h.klass, h.generation, h.count, h.state, h.group⟩

omit [DoubleChars] in
theorem Ended.push {state : FindingState} {before f : Finding} {entry : TimelineEntry}
    (h : Ended state before f) : Ended state before (f.push entry) :=
  ⟨h.id, h.identity, h.klass, h.generation, h.count, h.state, h.group⟩

omit [DoubleChars] in
theorem ended_supersedeFinding (now : NdoTime) (f : Finding) : Ended .superseded f (supersedeFinding now f).1 := by
  unfold supersedeFinding
  dsimp only
  refine Ended.push ?_
  split_ifs with hg
  · exact ⟨rfl, rfl, rfl, rfl, rfl, rfl, rfl⟩
  · exact ⟨rfl, rfl, rfl, rfl, rfl, rfl, by simpa using hg⟩

theorem ended_resolveFinding (limits : RuntimeLimits) (now : NdoTime) (streak : Nat) (f : Finding) :
    Ended .resolved f (resolveFinding limits now streak f).1 := by
  unfold resolveFinding
  dsimp only
  refine Ended.push (Ended.recomputeSummary ?_)
  split_ifs with hg
  · exact ⟨rfl, rfl, rfl, rfl, rfl, rfl, rfl⟩
  · exact ⟨rfl, rfl, rfl, rfl, rfl, rfl, by simpa using hg⟩

/-- The consecutive agreements a finding has once this evaluation agrees too. -/
def nextStreak (L : FindingLedger) (id : FindingId) : Nat := (L.resolutionStreak.find? id).getD 0 + 1

/-- What the loop over the undrafted findings does to one of them, with the group it leaves. -/
inductive SettleStep (outcome : EvaluationOutcome) (now : NdoTime) (decidable : Bool)
    (drafts : OrdMap FindingId FindingDraft) (L : FindingLedger) (id : FindingId) : FindingLedger → List GroupId → Prop
  | skipped (h : L.findings.find? id = none ∨ decidable = false) : SettleStep outcome now decidable drafts L id L []
  | superseded (f : Finding) (hf : L.findings.find? id = some f) (hd : decidable = true)
      (hr : L.reclassified drafts f = true) :
      SettleStep outcome now decidable drafts L id
        ({ L with findings := L.findings.insert id (supersedeFinding now f).1 }.appendTimeline
          (supersedeFinding now f).2) (groupOf f)
  | resolved (f : Finding) (hf : L.findings.find? id = some f) (hd : decidable = true)
      (hr : L.reclassified drafts f = false) (hs : requiredConfirmations outcome ≤ L.nextStreak id) :
      SettleStep outcome now decidable drafts L id
        ({ L with
            resolutionStreak := L.resolutionStreak.insert id (L.nextStreak id)
            findings := L.findings.insert id (resolveFinding L.limits now (L.nextStreak id) f).1 }.appendTimeline
          (resolveFinding L.limits now (L.nextStreak id) f).2) (groupOf f)
  | waiting (f : Finding) (hf : L.findings.find? id = some f) (hd : decidable = true)
      (hr : L.reclassified drafts f = false) (hs : L.nextStreak id < requiredConfirmations outcome) :
      SettleStep outcome now decidable drafts L id
        { L with
          resolutionStreak := L.resolutionStreak.insert id (L.nextStreak id)
          findings := L.findings.insert id { f with resolutionConfirmations := L.nextStreak id } } []

variable {outcome : EvaluationOutcome} {now : NdoTime} {decidable : Bool} {drafts : OrdMap FindingId FindingDraft}

theorem settleFinding_step (pass : SettlePass) (id : FindingId) : ∃ drops,
    (settleFinding outcome now decidable drafts pass id).drops = pass.drops ++ drops ∧
      SettleStep outcome now decidable drafts pass.ledger id
        (settleFinding outcome now decidable drafts pass id).ledger drops := by
  cases hf : pass.ledger.findings.find? id with
  | none =>
    have heq : settleFinding outcome now decidable drafts pass id = pass := by simp only [settleFinding, hf]
    rw [heq]
    exact ⟨[], (List.append_nil _).symm, .skipped (Or.inl hf)⟩
  | some f =>
    unfold settleFinding
    simp only [hf]
    split_ifs with hd hr hs
    · exact ⟨[], (List.append_nil _).symm, .skipped (Or.inr (by simpa using hd))⟩
    · exact ⟨groupOf f, rfl, .superseded f hf (by simpa using hd) hr⟩
    · exact ⟨groupOf f, rfl, .resolved f hf (by simpa using hd) (by simpa using hr) hs⟩
    · exact ⟨[], (List.append_nil _).symm, .waiting f hf (by simpa using hd) (by simpa using hr) (not_le.mp hs)⟩

theorem SettleStep.unique {L M M' : FindingLedger} {id : FindingId} {drops drops' : List GroupId}
    (h : SettleStep outcome now decidable drafts L id M drops)
    (h' : SettleStep outcome now decidable drafts L id M' drops') : M = M' ∧ drops = drops' := by
  cases h with
  | skipped hs => cases h' <;> grind
  | superseded f hf hd hr => cases h' <;> grind
  | resolved f hf hd hr hs => cases h' <;> grind
  | waiting f hf hd hr hs => cases h' <;> grind

end Settle

/-! ### Root-cause groups -/

section Refresh
variable {limits : RuntimeLimits} {target : TargetId} {now : NdoTime}

/-- The groups once a bucket has recorded its own. -/
def touchGroup (target : TargetId) (now : NdoTime) (groups : OrdMap GroupId RootCauseGroup) (b : BucketGroup) :
    OrdMap GroupId RootCauseGroup :=
  groups.insert b.id (refreshedGroup target now b (groups.find? b.id))

def touchGroups (target : TargetId) (now : NdoTime) (groups : OrdMap GroupId RootCauseGroup) (bs : List BucketGroup) :
    OrdMap GroupId RootCauseGroup := bs.foldl (touchGroup target now) groups

/-- The group of each member after a bucket. -/
def assignMembers (assignment : OrdMap FindingId GroupId) (b : BucketGroup) : OrdMap FindingId GroupId :=
  b.members.foldl (fun m f => m.insert f.id b.id) assignment

def assignments (bs : List BucketGroup) : OrdMap FindingId GroupId := bs.foldl assignMembers ∅

/-- The loop over the buckets records the groups of the buckets it reaches, and stops early only at a new group when
    the envelope is full. -/
theorem refreshBuckets_spec : ∀ (bs : List BucketGroup) (pass : GroupPass), ∃ done rest, bs = done ++ rest ∧
    (refreshBuckets limits target now bs pass).2.groups = touchGroups target now pass.groups done ∧
    (refreshBuckets limits target now bs pass).2.produced = pass.produced ++ done.map BucketGroup.id ∧
    (refreshBuckets limits target now bs pass).2.assignment = done.foldl assignMembers pass.assignment ∧
    (((refreshBuckets limits target now bs pass).1 = true ∧ rest = []) ∨
      ((refreshBuckets limits target now bs pass).1 = false ∧ ∃ b later, rest = b :: later ∧
        (touchGroups target now pass.groups done).find? b.id = none ∧
        limits.maxGroups ≤ (touchGroups target now pass.groups done).size ∧
        ∀ first more, done = first :: more →
          pass.groups.find? first.id = none → pass.groups.size < limits.maxGroups))
  | [], pass => ⟨[], [], rfl, rfl, (List.append_nil _).symm, rfl, Or.inl ⟨rfl, rfl⟩⟩
  | b :: bs, pass => by
    by_cases hfull : ((pass.groups.find? b.id).isNone && limits.maxGroups ≤ pass.groups.size) = true
    · have hstop : refreshBuckets limits target now (b :: bs) pass = (false, pass) := by
        simp [refreshBuckets, refreshBucket, hfull]
      rw [hstop]
      simp only [Bool.and_eq_true, Option.isNone_iff_eq_none, decide_eq_true_eq] at hfull
      exact ⟨[], b :: bs, rfl, rfl, (List.append_nil _).symm, rfl, Or.inr ⟨rfl, b, bs, rfl, hfull.1, hfull.2,
        fun _ _ h => nomatch h⟩⟩
    · obtain ⟨next, hnext⟩ : ∃ next, refreshBucket limits target now pass b = some next := by
        simp [refreshBucket, hfull]
      have hgo : refreshBuckets limits target now (b :: bs) pass = refreshBuckets limits target now bs next := by
        rw [refreshBuckets, hnext]
      obtain rfl : _ = next := by
        simpa [refreshBucket, hfull] using hnext
      rw [hgo]
      obtain ⟨done, rest, hbs, hg, hp, ha, hend⟩ := refreshBuckets_spec bs _
      refine ⟨b :: done, rest, by rw [hbs]; rfl, hg, by rw [hp]; simp, ha, hend.imp_right ?_⟩
      rintro ⟨hstop, c, later, hrest, hnew, hfull', -⟩
      refine ⟨hstop, c, later, hrest, hnew, hfull', fun first more heq hfresh => ?_⟩
      obtain ⟨rfl, rfl⟩ := List.cons.inj heq
      simpa [hfresh] using hfull

/-- The ledger after a complete group refresh of a target. -/
def regrouped (L : FindingLedger) (target : TargetId) (now : NdoTime) : FindingLedger :=
  let bs := L.bucketGroups target
  let L := { L with groups := touchGroups target now L.groups bs }.sweep (assignGroup target now (assignments bs))
  { L with groups :=
      L.groups.filter fun id group => !(group.target == target && !(bs.map BucketGroup.id).contains id) }

theorem contains_touchGroups : ∀ {bs : List BucketGroup} {groups : OrdMap GroupId RootCauseGroup} {id : GroupId},
    (touchGroups target now groups bs).contains id = true ↔ id ∈ bs.map BucketGroup.id ∨ groups.contains id = true
  | [], groups, id => by simp [touchGroups]
  | b :: bs, groups, id => by
    rw [show touchGroups target now groups (b :: bs) = touchGroups target now (touchGroup target now groups b) bs
      from rfl, contains_touchGroups, touchGroup, OrdMap.contains_insert, List.map_cons, List.mem_cons,
      eq_comm (a := b.id)]
    tauto

theorem size_touchGroups (bs : List BucketGroup) (groups : OrdMap GroupId RootCauseGroup) :
    (touchGroups target now groups bs).size =
      groups.size + ((bs.map BucketGroup.id).toFinset \ groups.keys.toFinset).card := by
  have hkeys : (touchGroups target now groups bs).keys.toFinset =
      (bs.map BucketGroup.id).toFinset ∪ groups.keys.toFinset := by
    ext id
    rw [Finset.mem_union, List.mem_toFinset, List.mem_toFinset, List.mem_toFinset, OrdMap.mem_keys, OrdMap.mem_keys,
      contains_touchGroups]
  rw [OrdMap.size_eq_card, OrdMap.size_eq_card, hkeys, ← Finset.card_sdiff_add_card, Nat.add_comm]

/-- The groups the buckets of a target form that the ledger does not hold yet. -/
def newGroups (L : FindingLedger) (target : TargetId) : Finset GroupId :=
  ((L.bucketGroups target).map BucketGroup.id).toFinset \ L.groups.keys.toFinset

/-- The group envelope has room for the groups a refresh of the target forms. -/
def RoomForGroups (L : FindingLedger) (target : TargetId) : Prop :=
  L.newGroups target = ∅ ∨ L.groups.size + (L.newGroups target).card ≤ L.limits.maxGroups

/-- What a group refresh does to the ledger: it is complete, or the envelope stops it at a new group. -/
inductive RefreshStep (L : FindingLedger) (target : TargetId) (now : NdoTime) : Status → FindingLedger → Prop
  | refused (hroom : ¬ L.RoomForGroups target) (done : List BucketGroup) (b : BucketGroup) (later : List BucketGroup)
      (hbs : L.bucketGroups target = done ++ b :: later)
      (hnew : (touchGroups target now L.groups done).find? b.id = none)
      (hfull : L.limits.maxGroups ≤ (touchGroups target now L.groups done).size)
      (hfirst : ∀ first more, done = first :: more →
        L.groups.find? first.id = none → L.groups.size < L.limits.maxGroups) :
      RefreshStep L target now groupEnvelopeExceeded { L with groups := touchGroups target now L.groups done }
  | complete (hroom : L.RoomForGroups target) : RefreshStep L target now .okay (L.regrouped target now)

theorem not_roomForGroups {L : FindingLedger} {done later : List BucketGroup} {b : BucketGroup}
    (hbs : L.bucketGroups target = done ++ b :: later) (hnew : (touchGroups target now L.groups done).find? b.id = none)
    (hfull : L.limits.maxGroups ≤ (touchGroups target now L.groups done).size) : ¬ L.RoomForGroups target := by
  have hb : ¬ (b.id ∈ done.map BucketGroup.id ∨ L.groups.contains b.id = true) := fun h => by
    rw [← @contains_touchGroups target now, OrdMap.contains_iff, hnew] at h
    obtain ⟨_, h⟩ := h
    cases h
  have hmem : b.id ∈ L.newGroups target := by
    simp only [newGroups, Finset.mem_sdiff, List.mem_toFinset, OrdMap.mem_keys, hbs]
    exact ⟨by simp, fun h => hb (Or.inr h)⟩
  have hsub : (done.map BucketGroup.id).toFinset \ L.groups.keys.toFinset ⊂ L.newGroups target := by
    refine Finset.ssubset_iff_subset_ne.mpr ⟨?_, fun heq => ?_⟩
    · refine Finset.sdiff_subset_sdiff (fun id hid => ?_) (Finset.Subset.refl _)
      rw [List.mem_toFinset] at hid ⊢
      rw [hbs, List.map_append]
      exact List.mem_append_left _ hid
    · rw [← heq, Finset.mem_sdiff, List.mem_toFinset] at hmem
      exact hb (Or.inl hmem.1)
  have hcard := Finset.card_lt_card hsub
  rw [size_touchGroups] at hfull
  rintro (hnil | hroom)
  · rw [hnil] at hmem
    exact absurd hmem (Finset.notMem_empty _)
  · omega

/-- A complete pass records known groups only, or stays within the envelope. -/
theorem size_le_of_refreshBuckets : ∀ {bs : List BucketGroup} {pass : GroupPass},
    (refreshBuckets limits target now bs pass).1 = true →
      (∀ b ∈ bs, pass.groups.contains b.id = true) ∨
        (touchGroups target now pass.groups bs).size ≤ limits.maxGroups
  | [], pass, _ => Or.inl fun b hb => absurd hb List.not_mem_nil
  | b :: bs, pass, h => by
    rw [refreshBuckets] at h
    cases hnext : refreshBucket limits target now pass b with
    | none => simp [hnext] at h
    | some next =>
      simp only [hnext] at h
      have hgroups : next.groups = touchGroup target now pass.groups b ∧
          (pass.groups.contains b.id = false → pass.groups.size < limits.maxGroups) := by
        simp only [refreshBucket] at hnext
        split_ifs at hnext with hfull
        obtain rfl := Option.some.inj hnext
        refine ⟨rfl, fun hnew => ?_⟩
        simpa [OrdMap.contains_eq_false_iff.mp hnew] using hfull
      rcases size_le_of_refreshBuckets h with hknown | hsize
      · rw [hgroups.1] at hknown
        cases hb : pass.groups.contains b.id with
        | true =>
          refine Or.inl fun c hc => ?_
          rcases List.mem_cons.mp hc with rfl | hc
          · exact hb
          · rcases OrdMap.contains_insert.mp (hknown c hc) with heq | hc
            · exact heq ▸ hb
            · exact hc
        | false =>
          right
          have hnil : (bs.map BucketGroup.id).toFinset \ (touchGroup target now pass.groups b).keys.toFinset = ∅ := by
            rw [Finset.sdiff_eq_empty_iff_subset]
            intro id hid
            obtain ⟨c, hc, rfl⟩ := List.mem_map.mp (List.mem_toFinset.mp hid)
            rw [List.mem_toFinset, OrdMap.mem_keys]
            exact hknown c hc
          have hone := @size_touchGroups target now [b] pass.groups
          rw [show touchGroups target now pass.groups (b :: bs) =
            touchGroups target now (touchGroup target now pass.groups b) bs from rfl, size_touchGroups, hnil]
          have hcard : (([b].map BucketGroup.id).toFinset \ pass.groups.keys.toFinset).card ≤ 1 :=
            (Finset.card_le_card Finset.sdiff_subset).trans (by simp)
          have hlt := hgroups.2 hb
          rw [show touchGroups target now pass.groups [b] = touchGroup target now pass.groups b from rfl] at hone
          rw [Finset.card_empty]
          omega
      · rw [hgroups.1] at hsize
        exact Or.inr hsize

theorem roomForGroups_of_refreshBuckets {L : FindingLedger}
    (h : (refreshBuckets L.limits target now (L.bucketGroups target) { groups := L.groups }).1 = true) :
    L.RoomForGroups target := by
  rcases size_le_of_refreshBuckets h with hknown | hsize
  · refine Or.inl (Finset.sdiff_eq_empty_iff_subset.mpr fun id hid => ?_)
    obtain ⟨b, hb, rfl⟩ := List.mem_map.mp (List.mem_toFinset.mp hid)
    rw [List.mem_toFinset, OrdMap.mem_keys]
    exact hknown b hb
  · rw [size_touchGroups] at hsize
    exact Or.inr hsize

theorem refreshGroups_step (L : FindingLedger) (report : LedgerApplyReport) :
    RefreshStep L target now (L.refreshGroups target now report).1 (L.refreshGroups target now report).2.1 := by
  obtain ⟨done, rest, hbs, hg, hp, ha, ⟨hdone, rfl⟩ | ⟨hstop, b, later, rfl, hnew, hfull, hfirst⟩⟩ :=
    @refreshBuckets_spec L.limits target now (L.bucketGroups target) { groups := L.groups }
  · rw [List.append_nil] at hbs
    subst hbs
    have heq : (L.refreshGroups target now report).1 = .okay ∧
        (L.refreshGroups target now report).2.1 = L.regrouped target now := by
      unfold refreshGroups regrouped
      simp only [hdone, hg, hp, ha]
      exact ⟨rfl, rfl⟩
    rw [heq.1, heq.2]
    exact .complete (roomForGroups_of_refreshBuckets hdone)
  · unfold refreshGroups
    simp only [hstop, hg]
    exact .refused (not_roomForGroups hbs hnew hfull) done b later hbs hnew hfull hfirst

end Refresh

/-! ### One target -/

section Target
variable [DoubleChars] (outcome : EvaluationOutcome) (policy : ObservatoryPolicy) (now : NdoTime)

/-- The ledger once the drafts of a target are applied. -/
def drafted (L : FindingLedger) (e : TargetEvaluation) : FindingLedger :=
  (applyDrafts outcome policy now e.bestFreshness (draftMap e.drafts) L {}).1

/-- The loop over the undrafted findings of a target. -/
def settling (L : FindingLedger) (e : TargetEvaluation) : SettlePass :=
  settleUndrafted outcome now e.complianceDecidable e.target (draftMap e.drafts) (L.drafted outcome policy now e) {}

/-- The ledger a target leaves behind when the envelope has room for its groups. -/
def afterTarget (L : FindingLedger) (e : TargetEvaluation) : FindingLedger :=
  ((L.settling outcome policy now e).ledger.regrouped e.target now).dropGroups (L.settling outcome policy now e).drops

variable {outcome policy now}

/-- The report has no influence on the ledger. -/
theorem applyDrafts_report {freshness : FreshnessState} (entries : List (FindingId × FindingDraft)) :
    ∀ (L : FindingLedger) (r r' : LedgerApplyReport),
      (entries.foldl (applyDraft outcome policy now freshness) (L, r)).1 =
        (entries.foldl (applyDraft outcome policy now freshness) (L, r')).1 := by
  induction entries with
  | nil => exact fun _ _ _ => rfl
  | cons entry rest ih =>
    intro L r r'
    have hone : (applyDraft outcome policy now freshness (L, r) entry).1 =
        (applyDraft outcome policy now freshness (L, r') entry).1 :=
      (applyDraft_step L r entry).unique (applyDraft_step L r' entry)
    rw [List.foldl_cons, List.foldl_cons,
      show applyDraft outcome policy now freshness (L, r') entry =
        ((applyDraft outcome policy now freshness (L, r) entry).1,
          (applyDraft outcome policy now freshness (L, r') entry).2) from by rw [hone]]
    exact ih _ _ _

theorem settleUndrafted_report {decidable : Bool} {drafts : OrdMap FindingId FindingDraft} (ids : List FindingId) :
    ∀ (pass pass' : SettlePass), pass.ledger = pass'.ledger → pass.drops = pass'.drops →
      (ids.foldl (settleFinding outcome now decidable drafts) pass).ledger =
        (ids.foldl (settleFinding outcome now decidable drafts) pass').ledger ∧
      (ids.foldl (settleFinding outcome now decidable drafts) pass).drops =
        (ids.foldl (settleFinding outcome now decidable drafts) pass').drops := by
  induction ids with
  | nil => exact fun _ _ hl hd => ⟨hl, hd⟩
  | cons id rest ih =>
    intro pass pass' hl hd
    obtain ⟨drops, hdrops, hstep⟩ := @settleFinding_step _ outcome now decidable drafts pass id
    obtain ⟨drops', hdrops', hstep'⟩ := @settleFinding_step _ outcome now decidable drafts pass' id
    rw [hl] at hstep
    obtain ⟨hledger, rfl⟩ := hstep.unique hstep'
    exact ih _ _ hledger (by rw [hdrops, hdrops', hd])

/-- Phase two for one target is the group refresh after settling, and the drop of the groups that settling left. -/
theorem applyTarget_eq (L : FindingLedger) (report : LedgerApplyReport) (e : TargetEvaluation) :
    ∃ report', applyTarget outcome policy now L report e =
      let r := (L.settling outcome policy now e).ledger.refreshGroups e.target now report'
      if !r.1.ok then r else (.okay, r.2.1.dropGroups (L.settling outcome policy now e).drops, r.2.2) := by
  obtain ⟨pass, hpass⟩ : ∃ pass, pass = settleUndrafted outcome now e.complianceDecidable e.target
      (draftMap e.drafts) (applyDrafts outcome policy now e.bestFreshness (draftMap e.drafts) L report).1
      (applyDrafts outcome policy now e.bestFreshness (draftMap e.drafts) L report).2 := ⟨_, rfl⟩
  have hdraft : (applyDrafts outcome policy now e.bestFreshness (draftMap e.drafts) L report).1 =
      L.drafted outcome policy now e := applyDrafts_report _ _ _ _
  obtain ⟨hledger, hdrops⟩ : pass.ledger = (L.settling outcome policy now e).ledger ∧
      pass.drops = (L.settling outcome policy now e).drops := by
    rw [hpass, hdraft]
    exact settleUndrafted_report _ _ _ rfl rfl
  refine ⟨pass.report, ?_⟩
  rw [← hledger, ← hdrops]
  unfold applyTarget
  simp only [← hpass]

/-- Phase two for one target: it takes effect as a whole when the envelope has room for its groups, and stops inside
    the group refresh otherwise. -/
theorem applyTarget_spec (L : FindingLedger) (report : LedgerApplyReport) (e : TargetEvaluation) :
    ((L.settling outcome policy now e).ledger.RoomForGroups e.target ∧
      (applyTarget outcome policy now L report e).1 = .okay ∧
      (applyTarget outcome policy now L report e).2.1 = L.afterTarget outcome policy now e) ∨
    (¬ (L.settling outcome policy now e).ledger.RoomForGroups e.target ∧
      (applyTarget outcome policy now L report e).1 = groupEnvelopeExceeded ∧
      RefreshStep (L.settling outcome policy now e).ledger e.target now groupEnvelopeExceeded
        (applyTarget outcome policy now L report e).2.1) := by
  obtain ⟨report', happly⟩ := @applyTarget_eq _ outcome policy now L report e
  have hstep := @refreshGroups_step e.target now (L.settling outcome policy now e).ledger report'
  rw [happly]
  generalize (L.settling outcome policy now e).ledger.refreshGroups e.target now report' = result at hstep
  obtain ⟨status, M, report''⟩ := result
  cases hstep with
  | refused hroom done b later hbs hnew hfull hfirst =>
    exact Or.inr ⟨hroom, rfl, .refused hroom done b later hbs hnew hfull hfirst⟩
  | complete hroom => exact Or.inl ⟨hroom, rfl, rfl⟩

end Target

end FindingLedger

end DriftObservatory
