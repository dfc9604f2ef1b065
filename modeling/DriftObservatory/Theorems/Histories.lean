import DriftObservatory.Theorems.Timeline

/-! The histories of the findings through the life of a ledger: how long they get, and how the events on them are
    numbered. -/

namespace DriftObservatory

open Json

namespace FindingLedger

/-! ### The bound of a history -/

/-- The group refresh of the target puts the finding into another group. -/
def Joins (L : FindingLedger) (target : TargetId) (f : Finding) : Prop :=
  f.identity.target = target ∧ f.isLive = true ∧
    ∃ group, (assignments (L.bucketGroups target)).find? f.id = some group ∧ f.group ≠ group

/-- Whenever the target ends a finding or puts one into another group, the history of the finding has room. -/
def HistoryRoom [DoubleChars] : Rule := fun outcome policy now L e =>
  (∀ id f, L.findings.find? id = some f → (draftMap e.drafts).find? id = none → e.complianceDecidable = true →
    f.identity.target = e.target → f.isLive = true →
    (L.drafted outcome policy now e).ends outcome (draftMap e.drafts) (L.nextStreak id) f = true →
    f.timeline.length < L.limits.maxTimelineEntriesPerFinding) ∧
  ∀ id f, (L.settling outcome policy now e).ledger.findings.find? id = some f →
    (L.settling outcome policy now e).ledger.RoomForGroups e.target →
    (L.settling outcome policy now e).ledger.Joins e.target f →
    f.timeline.length < L.limits.maxTimelineEntriesPerFinding

section Bound
variable [DoubleChars] {L : FindingLedger} {outcome : EvaluationOutcome} {policy : ObservatoryPolicy} {now : NdoTime}
  {e : TargetEvaluation} {limits : RuntimeLimits} {f f' : Finding}

theorem timeline_recomputeSummary :
    (f.recomputeSummary limits).timeline = keepLast limits.maxTimelineEntriesPerFinding f.timeline := rfl

theorem length_recomputeSummary : (f.recomputeSummary limits).timeline.length ≤ limits.maxTimelineEntriesPerFinding := by
  rw [timeline_recomputeSummary]
  exact length_keepLast _ _

theorem length_createFinding {freshness : FreshnessState} {id : FindingId} {d : FindingDraft} :
    (createFinding limits outcome policy now freshness id d).1.timeline.length ≤ limits.maxTimelineEntriesPerFinding := by
  unfold createFinding
  cases policy.findSuppression d.target d.object d.path d.klass d.severity now with
  | none => exact length_recomputeSummary
  | some rule => exact length_recomputeSummary

theorem length_settledFinding {D : FindingLedger} {drafts : OrdMap FindingId FindingDraft} {streak limit : Nat}
    (h : f.timeline.length ≤ limit) (hroom : D.ends outcome drafts streak f = true → f.timeline.length < limit) :
    (D.settledFinding outcome now drafts streak f).timeline.length ≤ limit := by
  unfold settledFinding
  unfold ends at hroom
  split_ifs with hre hs
  · have hlength : (supersedeFinding now f).1.timeline.length = f.timeline.length + 1 := by
      unfold supersedeFinding
      dsimp only
      split_ifs <;> exact List.length_append
    rw [hlength]
    exact hroom (by rw [hre, Bool.true_or])
  · have hlength : (resolveFinding D.limits now streak f).1.timeline.length ≤ f.timeline.length + 1 := by
      unfold resolveFinding
      dsimp only
      rw [Finding.push, List.length_append, List.length_singleton, timeline_recomputeSummary, keepLast, List.length_drop]
      split_ifs
      · exact Nat.add_le_add_right (Nat.sub_le _ _) 1
      · exact Nat.add_le_add_right (Nat.sub_le _ _) 1
    exact hlength.trans (hroom (by rw [decide_eq_true hs, Bool.or_true]))
  · exact h

omit [DoubleChars] in
theorem length_assignGroup {target : TargetId} {limit : Nat} (h : f.timeline.length ≤ limit)
    (hroom : L.Joins target f → f.timeline.length < limit) :
    (assignGroup target now (assignments (L.bucketGroups target)) f).1.timeline.length ≤ limit := by
  unfold assignGroup
  split_ifs with hmember
  · split
    · rename_i group hgroup
      split_ifs with hsame
      · exact h
      · simp only [Bool.and_eq_true, beq_iff_eq] at hmember
        have hlength := hroom ⟨hmember.1, hmember.2, group, hgroup, hsame⟩
        show (f.timeline ++ [_]).length ≤ limit
        rw [List.length_append]
        exact hlength
    · exact h
  · exact h

theorem length_expireFinding (h : f.timeline.length ≤ limits.maxTimelineEntriesPerFinding) :
    (expireFinding limits now f).1.timeline.length ≤ limits.maxTimelineEntriesPerFinding := by
  unfold expireFinding
  split_ifs
  · exact length_recomputeSummary
  · exact h

theorem Touched.length {op : Operation} (ht : Touched limits op f f')
    (h : f.timeline.length ≤ limits.maxTimelineEntriesPerFinding) :
    f'.timeline.length ≤ limits.maxTimelineEntriesPerFinding := by
  cases ht with
  | kept => exact h
  | rebased document now f =>
    unfold rebaseFinding
    split_ifs
    · exact length_recomputeSummary
    · exact h
  | expired now f => exact length_expireFinding h
  | _ => exact length_recomputeSummary

/-- Every history is within its bound. -/
def HistoriesBounded (L : FindingLedger) : Prop :=
  Everywhere (fun _ f => f.timeline.length ≤ L.limits.maxTimelineEntriesPerFinding) L

theorem historiesBounded_round (hallowed : HistoryRoom outcome policy now L e) (h : L.HistoriesBounded) :
    (L.round outcome policy now e).HistoriesBounded := by
  rw [HistoriesBounded, round, ground_applyTarget.limits]
  refine Everywhere.round h (fun id d _ _ => length_createFinding) (fun id d f _ _ _ => length_recomputeSummary)
    (fun id f hf hd hdecidable htarget hlive hlength => ?_) fun id f hf hroom hlength => ?_
  · exact length_settledFinding hlength (hallowed.1 id f hf hd hdecidable htarget hlive)
  · exact length_assignGroup hlength (hallowed.2 id f hf hroom)

/-- In every life of a ledger in which each finding that an evaluation ends or regroups has room on its history, every
    history stays within its bound. -/
theorem histories_bounded [LawfulDoubleChars] (limits : RuntimeLimits) {steps : List LedgerStep}
    (h : Run.Permits advance (Permitted HistoryRoom) { limits := limits } steps) (id : FindingId) (f : Finding)
    (hf : (Run.exec advance { limits := limits } steps).findings.find? id = some f) :
    f.timeline.length ≤ (Run.exec advance { limits := limits } steps).limits.maxTimelineEntriesPerFinding := by
  have hall : (Run.exec advance { limits := limits } steps).HistoriesBounded := by
    refine lifetime_invariant (fun _ _ hop => hop) (fun outcome policy now M e => historiesBounded_round)
      (fun M now hM => ?_) (fun M op _ happly hM => ?_) (fun M limits _ _ _ _ _ _ => ?_)
      (fun _ _ hnone => by cases hnone) h
    · rw [HistoriesBounded, show ((M.expireSuppressions now).bumpRevision.trimTimelineIfNeeded).limits = M.limits from
        ground_expireSuppressions.limits]
      exact Everywhere.expired hM fun _ _ => length_expireFinding
    · rw [HistoriesBounded, limits_operate]
      exact Everywhere.worked hM (worked_operate happly) fun _ _ _ ht => ht.length
    · intro id f hf
      obtain ⟨-, n, k, g, -, rfl, -⟩ := find?_restored hf
      exact length_keepLast _ _
  exact hall id f hf

end Bound

/-! ### The numbers of a history -/

/-- The entry was copied to the history of a finding before it got its number. -/
def Unnumbered (entry : TimelineEntry) : Prop := entry.sequence = 0 ∧ entry.kind ≠ .evidenceRecovered

/-- The history goes on with entries that were not numbered, and may be trimmed. -/
def Extends (f f' : Finding) : Prop :=
  ∃ added, (∀ entry ∈ added, Unnumbered entry) ∧ f'.timeline.Sublist (f.timeline ++ added)

section Extends
variable {f f' f'' : Finding} {entry : TimelineEntry} {now : NdoTime}

theorem extends_of_same (h : f'.timeline = f.timeline) : Extends f f' :=
  ⟨[], fun _ hnone => absurd hnone List.not_mem_nil, by rw [h, List.append_nil]⟩

theorem Extends.trans (h : Extends f f') (h' : Extends f' f'') : Extends f f'' := by
  obtain ⟨added, hunnumbered, hsub⟩ := h
  obtain ⟨added', hunnumbered', hsub'⟩ := h'
  refine ⟨added ++ added', fun entry hentry => ?_, ?_⟩
  · rcases List.mem_append.mp hentry with hentry | hentry
    · exact hunnumbered entry hentry
    · exact hunnumbered' entry hentry
  · rw [← List.append_assoc]
    exact hsub'.trans (hsub.append_right added')

theorem Extends.push (h : Extends f f') (hentry : Unnumbered entry) : Extends f (f'.push entry) :=
  h.trans ⟨[entry], fun _ he => List.mem_singleton.mp he ▸ hentry, List.Sublist.refl _⟩

theorem extends_assignGroup {target : TargetId} {assignment : OrdMap FindingId GroupId} :
    Extends f (assignGroup target now assignment f).1 := by
  unfold assignGroup
  split_ifs
  · split
    · split_ifs
      · exact extends_of_same rfl
      · exact Extends.push (extends_of_same rfl) ⟨rfl, nofun⟩
    · exact extends_of_same rfl
  · exact extends_of_same rfl

variable [DoubleChars] {limits : RuntimeLimits} {outcome : EvaluationOutcome} {policy : ObservatoryPolicy}

theorem Extends.recomputeSummary (h : Extends f f') : Extends f (f'.recomputeSummary limits) :=
  h.trans ⟨[], fun _ hnone => absurd hnone List.not_mem_nil, by
    rw [List.append_nil]
    exact List.drop_sublist _ _⟩

theorem extends_updateFinding {freshness : FreshnessState} {d : FindingDraft} :
    Extends f (updateFinding limits outcome policy now freshness d f).1 := by
  have hopen : Extends f (reopenOrUpdate now f (absorbDraft outcome now freshness d f)).1 := by
    unfold reopenOrUpdate
    split_ifs
    · exact Extends.push (extends_of_same rfl) ⟨rfl, nofun⟩
    · exact Extends.push (extends_of_same rfl) ⟨rfl, nofun⟩
    · exact extends_of_same rfl
  have hlapse : ∀ g, Extends g (lapsePolicySuppression policy now g).1 := fun g => by
    unfold lapsePolicySuppression
    split_ifs
    · exact Extends.push (extends_of_same rfl) ⟨rfl, nofun⟩
    · exact extends_of_same rfl
  exact (hopen.trans (hlapse _)).recomputeSummary

theorem extends_settledFinding {D : FindingLedger} {drafts : OrdMap FindingId FindingDraft} {streak : Nat} :
    Extends f (D.settledFinding outcome now drafts streak f) := by
  unfold settledFinding
  split_ifs
  · unfold supersedeFinding
    dsimp only
    split_ifs <;> exact Extends.push (extends_of_same rfl) ⟨rfl, nofun⟩
  · unfold resolveFinding
    dsimp only
    split_ifs <;> exact Extends.push (Extends.recomputeSummary (extends_of_same rfl)) ⟨rfl, nofun⟩
  · exact extends_of_same rfl

theorem extends_expireFinding : Extends f (expireFinding limits now f).1 := by
  unfold expireFinding
  split_ifs
  · exact (Extends.push (extends_of_same rfl) ⟨rfl, fun h => (by cases h)⟩).recomputeSummary
  · exact extends_of_same rfl

theorem Touched.extends {op : Operation} (h : Touched limits op f f') : Extends f f' := by
  cases h with
  | kept => exact extends_of_same rfl
  | rebased document now f =>
    unfold rebaseFinding
    split_ifs
    · dsimp only
      refine (Extends.push (extends_of_same ?_) ⟨rfl, ?_⟩).recomputeSummary
      · split_ifs <;> rfl
      · cases stillManaged (baselineOf document now) f.identity <;> split_ifs <;> nofun
    · exact extends_of_same rfl
  | suppressed => exact (Extends.push (extends_of_same rfl) ⟨rfl, fun h => (by cases h)⟩).recomputeSummary
  | unsuppressed id actor now f event hevent =>
    subst hevent
    exact (Extends.push (extends_of_same rfl) ⟨rfl, fun h => (by cases h)⟩).recomputeSummary
  | acknowledged => exact (Extends.push (extends_of_same rfl) ⟨rfl, fun h => (by cases h)⟩).recomputeSummary
  | unacknowledged id actor now f event hevent =>
    subst hevent
    exact (Extends.push (extends_of_same rfl) ⟨rfl, fun h => (by cases h)⟩).recomputeSummary
  | expired => exact extends_expireFinding

end Extends

/-- What the histories of a ledger consist of: entries that were not numbered, and recovery events under ascending
    numbers of their own. -/
structure Copied (n : Nat) (log history : List TimelineEntry) : Prop where
  entries : ∀ entry ∈ history, Unnumbered entry ∨ entry.kind = .evidenceRecovered ∧ 0 < entry.sequence ∧
    entry.sequence ≤ n ∧ ∀ logged ∈ log, logged.sequence ≠ entry.sequence
  ascending : history.Pairwise fun a b =>
    a.kind = .evidenceRecovered → b.kind = .evidenceRecovered → a.sequence < b.sequence

section Copied
variable {n : Nat} {log history : List TimelineEntry} {L M : FindingLedger} {f f' : Finding}

theorem copied_of_unnumbered (h : ∀ entry ∈ history, Unnumbered entry) : Copied n log history := by
  refine ⟨fun entry hentry => .inl (h entry hentry), ?_⟩
  refine List.pairwise_iff_forall_sublist.mpr fun {a b} hab ha => ?_
  exact absurd ha (h a (hab.subset List.mem_cons_self)).2

theorem Copied.extends (h : Copied n log f.timeline) (hext : Extends f f') : Copied n log f'.timeline := by
  obtain ⟨added, hunnumbered, hsub⟩ := hext
  have hall : Copied n log (f.timeline ++ added) := by
    refine ⟨fun entry hentry => ?_, ?_⟩
    · rcases List.mem_append.mp hentry with hentry | hentry
      · exact h.entries entry hentry
      · exact .inl (hunnumbered entry hentry)
    · refine List.pairwise_append.mpr ⟨h.ascending, (@copied_of_unnumbered n log added hunnumbered).ascending, ?_⟩
      exact fun a _ b hb _ hkind => absurd hkind (hunnumbered b hb).2
  exact ⟨fun entry hentry => hall.entries entry (hsub.subset hentry), hall.ascending.sublist hsub⟩

/-- Entries logged later have later numbers. -/
theorem Copied.logs (h : Copied L.timelineSequence L.globalTimeline history) (hlogs : Logs L M) :
    Copied M.timelineSequence M.globalTimeline history := by
  obtain ⟨added, hnumbers, hsequence, hsuffix⟩ := hlogs
  refine ⟨fun entry hentry => (h.entries entry hentry).imp_right ?_, h.ascending⟩
  rintro ⟨hkind, hpos, hle, hother⟩
  refine ⟨hkind, hpos, by omega, fun logged hlogged => ?_⟩
  rcases List.mem_append.mp (hsuffix.subset hlogged) with hold | hnew
  · exact hother logged hold
  · have hmem := List.mem_map_of_mem (f := TimelineEntry.sequence) hnew
    rw [hnumbers, List.mem_range'_1] at hmem
    omega

/-- Every history is made of such entries. -/
def HistoriesCopied (L : FindingLedger) : Prop :=
  Everywhere (fun _ f => Copied L.timelineSequence L.globalTimeline f.timeline) L

variable [DoubleChars]

theorem unnumbered_createFinding {limits : RuntimeLimits} {outcome : EvaluationOutcome} {policy : ObservatoryPolicy}
    {now : NdoTime} {freshness : FreshnessState} {id : FindingId} {d : FindingDraft} :
    ∀ entry ∈ (createFinding limits outcome policy now freshness id d).1.timeline, Unnumbered entry := by
  unfold createFinding
  cases policy.findSuppression d.target d.object d.path d.klass d.severity now with
  | none =>
    intro entry hentry
    rw [List.mem_singleton.mp (List.mem_of_mem_drop hentry)]
    exact ⟨rfl, fun h => (by cases h)⟩
  | some rule =>
    intro entry hentry
    rw [List.mem_singleton.mp (List.mem_of_mem_drop hentry)]
    exact ⟨rfl, fun h => (by cases h)⟩

/-- What new entries without a number keep, every operation keeps. -/
theorem everywhere_operate {op : Operation} {P : FindingId → Finding → Prop} (h : Everywhere P L)
    (hcreate : ∀ id f, (∀ entry ∈ f.timeline, Unnumbered entry) → P id f)
    (hextends : ∀ id f f', Extends f f' → P id f → P id f') : Everywhere P (L.operate op) := by
  refine @operate_allowed _ L op (fun _ _ _ _ _ => True) (Everywhere P) (fun outcome policy now M e _ hM => ?_)
    (fun M now hM => ?_) (fun happly => ?_) (fun _ _ _ _ => Run.permits_of_mem fun _ _ _ => trivial) h
  · refine hM.round (fun id d _ _ => hcreate id _ unnumbered_createFinding)
      (fun id d f _ _ hf => hextends id f _ extends_updateFinding hf)
      (fun id f _ _ _ _ _ hf => hextends id f _ extends_settledFinding hf)
      fun id f _ _ hf => hextends id f _ extends_assignGroup hf
  · exact hM.expired fun id f hf => hextends id f _ extends_expireFinding hf
  · exact h.worked (worked_operate happly) fun id f f' ht hf => hextends id f f' ht.extends hf

theorem historiesCopied_operate {op : Operation} (h : L.HistoriesCopied) : (L.operate op).HistoriesCopied :=
  everywhere_operate (fun id f hf => (h id f hf).logs logs_operate) (fun _ _ hunnumbered => copied_of_unnumbered hunnumbered)
    fun _ _ _ hext hcopied => hcopied.extends hext

omit [DoubleChars] in
/-- A restart reads the histories back, and gives each recovery event a number of its own. -/
theorem historiesCopied_restored {limits : RuntimeLimits} (h : L.HistoriesCopied) (hordered : L.Ordered)
    (hbound : L.timelineSequence < 2 ^ 64) : (L.restored limits).HistoriesCopied := by
  intro id f hf
  obtain ⟨-, n, k, g, hg, rfl, hlow, hhigh⟩ := find?_restored hf
  rw [Nat.mod_eq_of_lt hbound] at hlow
  have hcopied := h k g hg
  have hsequence := @sequence_restored L limits hbound
  have hlogged : ∀ logged ∈ (L.restored limits).globalTimeline, ∃ old ∈ L.globalTimeline,
      old.sequence = logged.sequence := fun logged hmem => by
    have hmem := List.mem_map_of_mem (f := TimelineEntry.sequence) hmem
    rw [sequences_restored hordered hbound] at hmem
    exact List.mem_map.mp hmem
  have hkept : ∀ entry ∈ g.timeline, entry.reread.sequence = entry.sequence := fun entry hentry => by
    rcases hcopied.entries entry hentry with ⟨hzero, -⟩ | ⟨-, -, hle, -⟩
    · exact Nat.mod_eq_of_lt (by omega)
    · exact Nat.mod_eq_of_lt (by omega)
  have hread : Copied (L.restored limits).timelineSequence (L.restored limits).globalTimeline
      (g.timeline.map TimelineEntry.reread) := by
    refine ⟨fun entry hentry => ?_, List.pairwise_map.mpr (hcopied.ascending.imp_of_mem fun {a b} ha hb hab => ?_)⟩
    · obtain ⟨old, hold, rfl⟩ := List.mem_map.mp hentry
      rw [Unnumbered, hkept old hold]
      refine (hcopied.entries old hold).imp_right ?_
      rintro ⟨hkind, hpos, hle, hother⟩
      refine ⟨hkind, hpos, by omega, fun logged hmem => ?_⟩
      obtain ⟨old', hold', hnumber⟩ := hlogged logged hmem
      rw [← hnumber]
      exact hother old' hold'
    · rw [hkept a ha, hkept b hb]
      exact hab
  have hrecovered : Copied (L.restored limits).timelineSequence (L.restored limits).globalTimeline
      (g.timeline.map TimelineEntry.reread ++ if recoversNow (g.reread (ledgerPayloadLimits limits)) then
        [recoveryEvent (g.reread (ledgerPayloadLimits limits)) n] else []) := by
    split_ifs with hnow
    · have hevent : (recoveryEvent (g.reread (ledgerPayloadLimits limits)) n).sequence = n := rfl
      refine ⟨fun entry hentry => ?_, List.pairwise_append.mpr ⟨hread.ascending, List.pairwise_singleton _ _, ?_⟩⟩
      · rcases List.mem_append.mp hentry with hentry | hentry
        · exact hread.entries entry hentry
        · rw [List.mem_singleton.mp hentry, hevent]
          refine .inr ⟨rfl, by omega, hhigh hnow, fun logged hmem => ?_⟩
          obtain ⟨old, hold, hnumber⟩ := hlogged logged hmem
          have hle := hordered.bounded old hold
          omega
      · intro a ha b hb hkind _
        rw [List.mem_singleton.mp hb, hevent]
        obtain ⟨old, hold, rfl⟩ := List.mem_map.mp ha
        rcases hcopied.entries old hold with ⟨-, hother⟩ | ⟨-, -, hle, -⟩
        · exact absurd hkind hother
        · rw [hkept old hold]
          omega
    · rw [List.append_nil]
      exact hread
  exact ⟨fun entry hentry => hrecovered.entries entry (List.mem_of_mem_drop hentry),
    hrecovered.ascending.sublist (List.drop_sublist _ _)⟩

theorem historiesCopied_exec [LawfulDoubleChars] {steps : List LedgerStep} (h : L.HistoriesCopied) (hordered : L.Ordered)
    (hbound : L.timelineSequence + (L.issued steps).length < 2 ^ 64) :
    (Run.exec advance L steps).HistoriesCopied := by
  induction steps generalizing L with
  | nil => exact h
  | cons step rest ih =>
    have hlow : L.timelineSequence < 2 ^ 64 := by omega
    have hle := @sequence_advance _ L step _ hlow
    refine ih ?_ (numbered_advance hordered hlow).1 ?_
    · cases step with
      | operate op => exact historiesCopied_operate h
      | restart limits epoch incarnation liveEpoch =>
        rw [advance]
        rcases @recover_cases _ L _ limits epoch liveEpoch incarnation with hsame | ⟨-, hrestart⟩
        · rw [hsame]
          exact h
        · rw [hrestart]
          exact historiesCopied_restored h hordered hlow
    · simp only [issued, Log.takenIn, Log.taken, List.length_append, List.length_range'] at hbound ⊢
      omega

end Copied

/-- The numbers on every history ascend, from 1 on, and each entry is the one the global timeline holds under its
    number. -/
def HistoriesAgree (L : FindingLedger) : Prop := ∀ id f, L.findings.find? id = some f →
  (f.timeline.map TimelineEntry.sequence).Pairwise (· < ·) ∧ ∀ entry ∈ f.timeline, 0 < entry.sequence ∧
    ∀ logged ∈ L.globalTimeline, logged.sequence = entry.sequence → logged = entry

/-- In every life of a ledger, until a counter of 64 bits has been through all its values, the histories agree with
    the global timeline exactly if recovery events are all they hold: every other event is copied to the history of its
    finding before it gets its number. -/
theorem historiesAgree_iff [DoubleChars] [LawfulDoubleChars] (limits : RuntimeLimits) (steps : List LedgerStep) :
    2 ^ 64 ≤ (issued { limits := limits } steps).length ∨
      ((Run.exec advance { limits := limits } steps).HistoriesAgree ↔
        ∀ id f, (Run.exec advance { limits := limits } steps).findings.find? id = some f →
          ∀ entry ∈ f.timeline, entry.kind = .evidenceRecovered) := by
  rw [or_iff_not_imp_left, not_le]
  intro hbound
  have hcopied : (Run.exec advance { limits := limits } steps).HistoriesCopied :=
    historiesCopied_exec (fun _ _ hnone => by cases hnone) Log.ordered_nil (by rw [Nat.zero_add]; exact hbound)
  refine ⟨fun hagree id f hf entry hentry => ?_, fun hrecovered id f hf => ⟨?_, fun entry hentry => ?_⟩⟩
  · rcases (hcopied id f hf).entries entry hentry with ⟨hzero, -⟩ | ⟨hkind, -⟩
    · have hpos := ((hagree id f hf).2 entry hentry).1
      omega
    · exact hkind
  · refine List.pairwise_map.mpr ((hcopied id f hf).ascending.imp_of_mem fun ha hb hab => ?_)
    exact hab (hrecovered id f hf _ ha) (hrecovered id f hf _ hb)
  · rcases (hcopied id f hf).entries entry hentry with ⟨-, hkind⟩ | ⟨-, hpos, -, hother⟩
    · exact absurd (hrecovered id f hf entry hentry) hkind
    · exact ⟨hpos, fun logged hlogged hsame => absurd hsame (hother logged hlogged)⟩

end FindingLedger

namespace Sample
open FindingLedger

/-- The missing evidence is found, delivered and found no more, with the given limits. -/
def delivered (limits : RuntimeLimits) : List LedgerStep :=
  [.operate (.commitIntent document ⟨1⟩), .operate (.evaluate requiring limits ⟨1⟩ ⟨1⟩ ⟨1⟩),
    .operate (.recordObservation (empty 1) fresh false), .operate (.evaluate requiring limits ⟨1⟩ ⟨1⟩ ⟨2⟩)]

def brief : RuntimeLimits := { maxTimelineEntriesPerFinding := 1 }

end Sample

theorem FindingLedger.history_overgrown :
    ¬ ∀ f ∈ (Run.exec (@advance Sample.bitDoubles) { limits := Sample.brief }
        (Sample.delivered Sample.brief)).findings.values,
      f.timeline.length ≤ (Run.exec (@advance Sample.bitDoubles) { limits := Sample.brief }
        (Sample.delivered Sample.brief)).limits.maxTimelineEntriesPerFinding := by decide +kernel

/-- The first findings of a ledger have room for a second event. -/
theorem FindingLedger.historyRoom_of_empty [DoubleChars] {L : FindingLedger} {outcome : EvaluationOutcome}
    {policy : ObservatoryPolicy} {now : NdoTime} {e : TargetEvaluation} (hempty : ∀ id f, L.findings.find? id ≠ some f)
    (hroom : 1 < L.limits.maxTimelineEntriesPerFinding) : HistoryRoom outcome policy now L e := by
  refine ⟨fun id f hf => absurd hf (hempty id f), fun id f hf _ _ => lt_of_le_of_lt ?_ hroom⟩
  obtain ⟨hdrafted, hrest⟩ := @part_settling _ outcome policy now L e id
  have hpart : ((L.settling outcome policy now e).ledger.part id).1 = some f := hf
  cases hd : (draftMap e.drafts).find? id with
  | some d =>
    rw [hdrafted d hd] at hpart
    obtain rfl := Option.some.inj hpart
    rw [Option.eq_none_iff_forall_ne_some.mpr (hempty id), draftedFinding]
    unfold createFinding
    cases policy.findSuppression d.target d.object d.path d.klass d.severity now with
    | none => exact List.length_drop.trans_le (Nat.sub_le _ _)
    | some rule => exact List.length_drop.trans_le (Nat.sub_le _ _)
  | none =>
    rcases hrest hd with hsame | ⟨before, hbefore, -⟩
    · rw [hsame] at hpart
      exact absurd hpart (hempty id f)
    · exact absurd hbefore (hempty id before)

theorem FindingLedger.histories_bounded_hidden :
    (Run.exec (@advance Sample.bitDoubles) { limits := {} } (Sample.unobserved ++ [Sample.hide])).findings.values.map
        (fun f => f.timeline.length) = [2] ∧
      ∀ id f, (Run.exec (@advance Sample.bitDoubles) { limits := {} }
          (Sample.unobserved ++ [Sample.hide])).findings.find? id = some f →
        f.timeline.length ≤ (Run.exec (@advance Sample.bitDoubles) { limits := {} }
          (Sample.unobserved ++ [Sample.hide])).limits.maxTimelineEntriesPerFinding := by
  have hlimits : 1 < Sample.published.limits.maxTimelineEntriesPerFinding := by decide +kernel
  have hp := @Sample.permits_hidden (@HistoryRoom Sample.bitDoubles) fun outcome e hempty =>
    @historyRoom_of_empty Sample.bitDoubles _ _ _ _ _ hempty hlimits
  have hlengths := congrArg (List.map Prod.snd) (Sample.hidden_spec).1
  rw [List.map_map] at hlengths
  exact ⟨hlengths, @histories_bounded Sample.bitDoubles Sample.lawful_bitDoubles {} _ hp⟩

theorem FindingLedger.histories_disagree :
    ¬ (Run.exec (@advance Sample.bitDoubles) { limits := {} } Sample.unobserved).HistoriesAgree := by
  have hzero : ∃ f ∈ (Run.exec (@advance Sample.bitDoubles) { limits := {} } Sample.unobserved).findings.values,
      ∃ entry ∈ f.timeline, entry.sequence = 0 := by decide +kernel
  intro hagree
  obtain ⟨f, hf, entry, hentry, hsequence⟩ := hzero
  obtain ⟨id, hf⟩ := OrdMap.mem_values.mp hf
  have hpos := ((hagree id f hf).2 entry hentry).1
  omega

theorem FindingLedger.historiesAgree_iff_unobserved :
    (@issued Sample.bitDoubles { limits := {} } Sample.unobserved).length = 2 ∧
      ((Run.exec (@advance Sample.bitDoubles) { limits := {} } Sample.unobserved).HistoriesAgree ↔
        ∀ id f, (Run.exec (@advance Sample.bitDoubles) { limits := {} } Sample.unobserved).findings.find? id = some f →
          ∀ entry ∈ f.timeline, entry.kind = .evidenceRecovered) := by
  have hissued : (@issued Sample.bitDoubles { limits := {} } Sample.unobserved).length = 2 := by decide +kernel
  refine ⟨hissued, ?_⟩
  rcases @historiesAgree_iff Sample.bitDoubles Sample.lawful_bitDoubles {} Sample.unobserved with hmany | hiff
  · rw [hissued] at hmany
    exact absurd hmany (by decide)
  · exact hiff

end DriftObservatory
