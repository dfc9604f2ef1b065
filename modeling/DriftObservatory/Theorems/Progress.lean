import DriftObservatory.Theorems.Phases

/-! No step of phase two is undone by a later one. A step that records something moves a counter that never runs
    back; one that only rearranges groups leaves a trace that the later ones keep. So a ledger that phase two leaves
    as it was, was left alone by every step. -/

namespace DriftObservatory

/-! ### Counters -/

/-- All that a counter has counted. -/
def Counter.total (c : Counter) : Nat := 2 ^ 64 * c.laps + c.value.toNat

theorem Counter.total_next (c : Counter) : c.next.total = c.total + 1 := by
  have hlt := c.value.toNat_lt
  have hsucc : (c.value + 1).toNat = (c.value.toNat + 1) % 2 ^ 64 := UInt64.toNat_add c.value 1
  rw [total, total, next]
  by_cases hround : c.value + 1 = 0
  · rw [hround, UInt64.toNat_zero] at hsucc
    simp only [hround, if_true, UInt64.toNat_zero]
    omega
  · have hne : (c.value + 1).toNat ≠ 0 := fun h => hround (UInt64.toNat_inj.mp h)
    simp only [hround, if_false]
    omega

namespace FindingLedger

/-! ### Bucket identities -/

/-- A finding without what the group refresh and the confirmation count write. -/
def bare (f : Finding) : Finding := { f with group := default, groupCause := .none, resolutionConfirmations := 0 }

section Buckets
variable {L M : FindingLedger} {target : TargetId}

/-- The group identities that the buckets of the listed findings form. -/
def groupIdsOf (target : TargetId) (live : List Finding) : List GroupId :=
  ((live.map bucketKey).insertionSort (· ≤ ·)).dedup.filterMap fun key =>
    (bucketGroup target (live.filter fun f => bucketKey f == key)).map BucketGroup.id

theorem map_id_bucketGroups : (L.bucketGroups target).map BucketGroup.id = groupIdsOf target (L.liveOf target) := by
  simp only [bucketGroups, buckets, groupIdsOf, List.filterMap_map, List.map_filterMap, Function.comp_def]

theorem map_id_bucketGroup_bare (bucket : List Finding) :
    (bucketGroup target (bucket.map bare)).map BucketGroup.id = (bucketGroup target bucket).map BucketGroup.id := by
  have hsort : sortBy (fun a b : Finding => decide (a.id < b.id)) (bucket.map bare) =
      (sortBy (fun a b : Finding => decide (a.id < b.id)) bucket).map bare :=
    (sortBy.map bare (fun a b => rfl) bucket).symm
  unfold bucketGroup
  rw [hsort]
  cases sortBy (fun a b : Finding => decide (a.id < b.id)) bucket with
  | nil => rfl
  | cons first rest =>
    have hqual : ((first :: rest).map bare).map memberQualifier = (first :: rest).map memberQualifier := by
      rw [List.map_map]
      rfl
    have hdisc : groupDiscriminator ((first :: rest).map bare) = groupDiscriminator (first :: rest) := by
      unfold groupDiscriminator
      rw [hqual]
    rw [List.map_cons] at hdisc ⊢
    simp only [hdisc, List.length_cons, List.length_map]
    by_cases hc : (causeFor first.klass != .none && causeFormsGroup (causeFor first.klass) (rest.length + 1)) = true
    · rw [if_pos hc, if_pos (show (causeFor (bare first).klass != .none &&
        causeFormsGroup (causeFor (bare first).klass) (rest.length + 1)) = true from hc)]
      rfl
    · rw [if_neg hc, if_neg (show ¬ (causeFor (bare first).klass != .none &&
        causeFormsGroup (causeFor (bare first).klass) (rest.length + 1)) = true from hc)]

theorem groupIdsOf_bare (live : List Finding) : groupIdsOf target (live.map bare) = groupIdsOf target live := by
  unfold groupIdsOf
  rw [List.map_map, show bucketKey ∘ bare = bucketKey from rfl]
  congr 1
  funext key
  rw [List.filter_map, show ((fun f => bucketKey f == key) ∘ bare) = fun f => bucketKey f == key from rfl,
    map_id_bucketGroup_bare]

theorem map_bare_liveOf : (L.liveOf target).map bare =
    (L.findings.mapValues fun _ f => bare f).values.filter fun f => f.identity.target == target && f.isLive := by
  have hvalues : (L.findings.mapValues fun _ f => bare f).values = L.findings.values.map bare := by
    simp only [OrdMap.values, OrdMap.mapValues, List.map_map]
    rfl
  rw [hvalues, List.filter_map]
  rfl

/-- The group identities depend on the bare findings only. -/
theorem map_id_bucketGroups_congr
    (h : (M.findings.mapValues fun _ f => bare f) = L.findings.mapValues fun _ f => bare f) :
    (M.bucketGroups target).map BucketGroup.id = (L.bucketGroups target).map BucketGroup.id := by
  rw [map_id_bucketGroups, map_id_bucketGroups, ← groupIdsOf_bare (L.liveOf target),
    ← groupIdsOf_bare (M.liveOf target), map_bare_liveOf, map_bare_liveOf, h]

end Buckets

/-! ### Steps that cannot be undone -/

/-- Nothing is forgotten and no counter runs back. -/
structure Forward (M N : FindingLedger) : Prop where
  sequence : M.timelineSequence ≤ N.timelineSequence
  findings : ∀ id f, M.findings.find? id = some f →
    ∃ f', N.findings.find? id = some f' ∧ f.observationCount.total ≤ f'.observationCount.total

/-- An event or a sighting was recorded. -/
def Recorded (M N : FindingLedger) : Prop :=
  M.timelineSequence < N.timelineSequence ∨
    ∃ id f f', M.findings.find? id = some f ∧ N.findings.find? id = some f' ∧
      f.observationCount.total < f'.observationCount.total

/-- Without an event the findings are the same up to group and confirmations. -/
structure Same (M N : FindingLedger) : Prop where
  sequence : N.timelineSequence = M.timelineSequence
  findings : (N.findings.mapValues fun _ f => bare f) = M.findings.mapValues fun _ f => bare f

/-- How much of a finding's grouping the next refresh may still take away without an event. -/
def looseness (f : Finding) : Nat :=
  (if f.group = default then 0 else 1) + if f.groupCause = causeFor f.klass then 0 else 1

def Produces (M : FindingLedger) (target : TargetId) (id : GroupId) : Prop :=
  id ∈ (M.bucketGroups target).map BucketGroup.id

/-- A group record that a refresh has created, dropped or counted, seen from the record before. -/
def Diverged (M : FindingLedger) (id : GroupId) (before after : Option RootCauseGroup) : Prop :=
  (∃ g', after = some g' ∧ M.Produces g'.target id ∧ ∀ g, before = some g → g.target ≠ g'.target) ∨
  (after = none ∧ ∃ g, before = some g ∧ ¬ M.Produces g.target id) ∨
  ∃ g g', before = some g ∧ after = some g' ∧ g.target = g'.target ∧
    g.observationCount.total < g'.observationCount.total

/-- What a step without an event leaves behind when it changes anything. -/
def Traced (M N : FindingLedger) : Prop :=
  (∃ id, (M.resolutionStreak.find? id).getD 0 < (N.resolutionStreak.find? id).getD 0) ∨
  (∃ id f f', M.findings.find? id = some f ∧ N.findings.find? id = some f' ∧ looseness f' < looseness f) ∨
  ∃ id, Diverged M id (M.groups.find? id) (N.groups.find? id)

/-- What one silent step may do to a group record. -/
inductive GroupStep (M : FindingLedger) (id : GroupId) : Option RootCauseGroup → Option RootCauseGroup → Prop
  | kept (o : Option RootCauseGroup) : GroupStep M id o o
  | created (g : RootCauseGroup) (h : M.Produces g.target id) : GroupStep M id none (some g)
  | counted (g g' : RootCauseGroup) (ht : g'.target = g.target)
      (hc : g'.observationCount.total = g.observationCount.total + 1) :
      GroupStep M id (some g) (some g')
  | dropped (g : RootCauseGroup) (h : ¬ M.Produces g.target id) : GroupStep M id (some g) none

/-- A step without an event. -/
structure Silent (M N : FindingLedger) : Prop extends Same M N where
  streak : ∀ id, (M.resolutionStreak.find? id).getD 0 ≤ (N.resolutionStreak.find? id).getD 0
  loose : ∀ id f f', M.findings.find? id = some f → N.findings.find? id = some f' → looseness f' ≤ looseness f
  groups : ∀ id, GroupStep M id (M.groups.find? id) (N.groups.find? id)

/-- One step of phase two: it records something, or is silent and leaves a trace when it changes anything. -/
def Push (M N : FindingLedger) : Prop :=
  (Forward M N ∧ Recorded M N) ∨ (Silent M N ∧ (N = M ∨ Traced M N))

/-- The ledger has left `L` for good. -/
def Ahead (L M : FindingLedger) : Prop := Recorded L M ∨ (Same L M ∧ Traced L M)

section Order
variable {L M N : FindingLedger}

theorem Same.find? (h : Same M N) (id : FindingId) :
    (N.findings.find? id).map bare = (M.findings.find? id).map bare := by
  rw [← OrdMap.find?_mapValues (f := fun _ f => bare f), h.findings, OrdMap.find?_mapValues]

theorem Same.of_find? (h : Same M N) {id : FindingId} {f : Finding} (hf : M.findings.find? id = some f) :
    ∃ f', N.findings.find? id = some f' ∧ bare f' = bare f := by
  have := h.find? id
  rw [hf, Option.map_some, Option.map_eq_some_iff] at this
  exact this

theorem Same.trans (h : Same L M) (h' : Same M N) : Same L N :=
  ⟨h'.sequence.trans h.sequence, h'.findings.trans h.findings⟩

theorem Same.produces (h : Same M N) {target : TargetId} {id : GroupId} :
    N.Produces target id ↔ M.Produces target id := by
  rw [Produces, Produces, map_id_bucketGroups_congr h.findings]

theorem total_bare {f f' : Finding} (h : bare f' = bare f) : f'.observationCount.total = f.observationCount.total :=
  (congrArg (fun f : Finding => f.observationCount.total) h :)

theorem Same.forward (h : Same M N) : Forward M N := by
  refine ⟨h.sequence.ge, fun id f hf => ?_⟩
  obtain ⟨f', hf', hbare⟩ := h.of_find? hf
  exact ⟨f', hf', (total_bare hbare).ge⟩

theorem Push.forward (h : Push M N) : Forward M N := by
  rcases h with ⟨h, -⟩ | ⟨h, -⟩
  · exact h
  · exact h.toSame.forward

theorem Forward.refl (M : FindingLedger) : Forward M M := ⟨le_rfl, fun _ f hf => ⟨f, hf, le_rfl⟩⟩

theorem Forward.trans (h : Forward L M) (h' : Forward M N) : Forward L N := by
  refine ⟨h.sequence.trans h'.sequence, fun id f hf => ?_⟩
  obtain ⟨f', hf', hle⟩ := h.findings id f hf
  obtain ⟨f'', hf'', hle'⟩ := h'.findings id f' hf'
  exact ⟨f'', hf'', hle.trans hle'⟩

theorem Forward.dropGroups (h : Forward M N) (ids : List GroupId) : Forward M (N.dropGroups ids) :=
  ⟨h.sequence, h.findings⟩

theorem Recorded.trans_forward (h : Recorded L M) (h' : Forward M N) : Recorded L N := by
  rcases h with h | ⟨id, f, f', hf, hf', hlt⟩
  · exact Or.inl (h.trans_le h'.sequence)
  · obtain ⟨f'', hf'', hle⟩ := h'.findings id f' hf'
    exact Or.inr ⟨id, f, f'', hf, hf'', hlt.trans_le hle⟩

theorem Same.trans_recorded (h : Same L M) (h' : Recorded M N) : Recorded L N := by
  rcases h' with hlt | ⟨id, f, f', hf, hf', hlt⟩
  · exact Or.inl (h.sequence ▸ hlt)
  · have hback := h.find? id
    rw [hf, Option.map_some, eq_comm, Option.map_eq_some_iff] at hback
    obtain ⟨f₀, hf₀, hbare⟩ := hback
    exact Or.inr ⟨id, f₀, f', hf₀, hf', (total_bare hbare).trans_lt hlt⟩

theorem Diverged.step {id : GroupId} {o o' o'' : Option RootCauseGroup} (h : Diverged L id o o')
    (hs : GroupStep M id o' o'') (hp : ∀ target, M.Produces target id ↔ L.Produces target id) :
    Diverged L id o o'' := by
  cases hs with
  | kept => exact h
  | created g hg =>
    rcases h with ⟨g', h, -⟩ | ⟨-, g₀, ho, hno⟩ | ⟨g₀, g', -, h, -⟩
    · cases h
    · refine Or.inl ⟨g, rfl, (hp _).mp hg, fun g₁ ho' heq => hno ?_⟩
      obtain rfl := Option.some.inj (ho.symm.trans ho')
      rw [heq]
      exact (hp _).mp hg
    · cases h
  | counted g g' ht hc =>
    rcases h with ⟨g₁, h, hprod, hne⟩ | ⟨h, -⟩ | ⟨g₀, g₁, ho, h, htarget, hlt⟩
    · obtain rfl := Option.some.inj h
      exact Or.inl ⟨g', rfl, ht ▸ hprod, fun g₀ ho => ht ▸ hne g₀ ho⟩
    · cases h
    · obtain rfl := Option.some.inj h
      exact Or.inr (Or.inr ⟨g₀, g', ho, rfl, htarget.trans ht.symm, by omega⟩)
  | dropped g hg =>
    rcases h with ⟨g₁, h, hprod, -⟩ | ⟨h, -⟩ | ⟨g₀, g₁, ho, h, htarget, -⟩
    · obtain rfl := Option.some.inj h
      exact absurd ((hp _).mpr hprod) hg
    · cases h
    · obtain rfl := Option.some.inj h
      exact Or.inr (Or.inl ⟨rfl, g₀, ho, fun hprod => hg ((hp _).mpr (htarget ▸ hprod))⟩)

theorem Traced.silent (h : Traced L M) (hs : Same L M) (h' : Silent M N) : Traced L N := by
  rcases h with ⟨id, hlt⟩ | ⟨id, f, f', hf, hf', hlt⟩ | ⟨id, hdiv⟩
  · exact Or.inl ⟨id, hlt.trans_le (h'.streak id)⟩
  · obtain ⟨f'', hf'', -⟩ := h'.toSame.of_find? hf'
    exact Or.inr (Or.inl ⟨id, f, f'', hf, hf'', (h'.loose id f' f'' hf' hf'').trans_lt hlt⟩)
  · exact Or.inr (Or.inr ⟨id, hdiv.step (h'.groups id) fun _ => hs.produces⟩)

theorem Ahead.push (h : Ahead L M) (h' : Push M N) : Ahead L N := by
  rcases h with h | ⟨hs, ht⟩
  · exact Or.inl (h.trans_forward h'.forward)
  · rcases h' with ⟨-, hr⟩ | ⟨hsil, -⟩
    · exact Or.inl (hs.trans_recorded hr)
    · exact Or.inr ⟨hs.trans hsil.toSame, ht.silent hs hsil⟩

theorem Push.ahead (h : Push M N) : N = M ∨ Ahead M N := by
  rcases h with ⟨-, hr⟩ | ⟨hs, rfl | ht⟩
  · exact Or.inr (Or.inl hr)
  · exact Or.inl rfl
  · exact Or.inr (Or.inr ⟨hs.toSame, ht⟩)

theorem not_ahead_self : ¬ Ahead L L := by
  rintro ((hlt | ⟨id, f, f', hf, hf', hlt⟩) | ⟨-, ⟨id, hlt⟩ | ⟨id, f, f', hf, hf', hlt⟩ | ⟨id, hdiv⟩⟩)
  · exact lt_irrefl _ hlt
  · obtain rfl := Option.some.inj (hf.symm.trans hf')
    exact lt_irrefl _ hlt
  · exact lt_irrefl _ hlt
  · obtain rfl := Option.some.inj (hf.symm.trans hf')
    exact lt_irrefl _ hlt
  · rcases hdiv with ⟨g, hg, -, hne⟩ | ⟨hn, g, hg, -⟩ | ⟨g, g', hg, hg', -, hlt⟩
    · exact hne g hg rfl
    · rw [hn] at hg
      cases hg
    · obtain rfl := Option.some.inj (hg.symm.trans hg')
      exact lt_irrefl _ hlt

/-- The ledgers that steps of phase two lead to. -/
def Pushes : FindingLedger → FindingLedger → Prop := Relation.ReflTransGen Push

theorem Pushes.forward (h : Pushes M N) : Forward M N := by
  induction h with
  | refl => exact Forward.refl M
  | tail _ hpush ih => exact ih.trans hpush.forward

theorem Ahead.pushes (h : Ahead L M) (h' : Pushes M N) : Ahead L N := by
  induction h' with
  | refl => exact h
  | tail _ hpush ih => exact ih.push hpush

/-- A ledger that steps leave as it was, was left alone on the way. -/
theorem eq_of_pushes (h : Pushes L M) (h' : Pushes M L) : M = L := by
  have hlevel : M = L ∨ Ahead L M := by
    induction h with
    | refl => exact Or.inl rfl
    | tail hpre hpush ih =>
      rcases ih (.head hpush h') with rfl | hahead
      · exact hpush.ahead
      · exact Or.inr (hahead.push hpush)
  rcases hlevel with h | h
  · exact h
  · exact absurd (h.pushes h') not_ahead_self

end Order

/-! ### The phases push -/

section Phases
variable {outcome : EvaluationOutcome} {policy : ObservatoryPolicy} {now : NdoTime} {L M : FindingLedger}
  {id : FindingId}

theorem Forward.insert {f f' : Finding} (hf : L.findings.find? id = some f)
    (hle : f.observationCount.total ≤ f'.observationCount.total) (hfindings : M.findings = L.findings.insert id f')
    (hseq : L.timelineSequence ≤ M.timelineSequence) : Forward L M := by
  refine ⟨hseq, fun id' f₀ hf₀ => ?_⟩
  rw [hfindings, OrdMap.find?_insert]
  by_cases heq : id = id'
  · subst heq
    obtain rfl := Option.some.inj (hf.symm.trans hf₀)
    exact ⟨f', if_pos rfl, hle⟩
  · exact ⟨f₀, by rw [if_neg heq, hf₀], le_rfl⟩

theorem Silent.refl (L : FindingLedger) : Silent L L where
  sequence := rfl
  findings := rfl
  streak _ := le_rfl
  loose _ _ _ hf hf' := by rw [Option.some.inj (hf.symm.trans hf')]
  groups _ := .kept _

/-- A finding that waits for confirmations only counts them. -/
theorem Silent.waiting {f : Finding} {n : Nat} (hf : L.findings.find? id = some f)
    (hn : (L.resolutionStreak.find? id).getD 0 ≤ n) :
    Silent L { L with
      resolutionStreak := L.resolutionStreak.insert id n
      findings := L.findings.insert id { f with resolutionConfirmations := n } } where
  sequence := rfl
  findings := by
    refine OrdMap.ext_find? fun id' => ?_
    rw [OrdMap.find?_mapValues, OrdMap.find?_mapValues, OrdMap.find?_insert]
    by_cases heq : id = id'
    · subst heq
      rw [if_pos rfl, hf]
      rfl
    · rw [if_neg heq]
  streak id' := by
    rw [OrdMap.find?_insert]
    by_cases heq : id = id'
    · subst heq
      rw [if_pos rfl]
      exact hn
    · rw [if_neg heq]
  loose id' f₀ f' hf₀ hf' := by
    rw [OrdMap.find?_insert] at hf'
    by_cases heq : id = id'
    · subst heq
      rw [if_pos rfl] at hf'
      obtain rfl := Option.some.inj (hf.symm.trans hf₀)
      obtain rfl := Option.some.inj hf'
      exact le_rfl
    · rw [if_neg heq, hf₀] at hf'
      rw [Option.some.inj hf']
  groups _ := .kept _

variable [DoubleChars]

theorem DraftStep.recorded {freshness : FreshnessState} {draft : FindingDraft}
    (h : DraftStep outcome policy now freshness L id draft M) : Forward L M ∧ Recorded L M := by
  cases h with
  | created hf =>
    refine ⟨⟨Nat.le_succ _, fun id' f hf' => ⟨f, ?_, le_rfl⟩⟩, Or.inl (Nat.lt_succ_self _)⟩
    have hne : id ≠ id' := fun heq => by
      rw [← heq, hf] at hf'
      cases hf'
    exact (OrdMap.find?_insert_of_ne hne).trans hf'
  | updated before hf =>
    have habs := @absorbed_updateFinding L.limits outcome policy now freshness _ draft before
    generalize updateFinding L.limits outcome policy now freshness draft before = result at habs ⊢
    obtain ⟨f, events⟩ := result
    have hcount : f.observationCount.total = before.observationCount.total + 1 := by rw [habs.count, Counter.total_next]
    refine ⟨Forward.insert hf (hcount ▸ Nat.le_succ _) findings_appendAll ?_, Or.inr ⟨id, before, f, hf, ?_, ?_⟩⟩
    · rw [timelineSequence_appendAll]
      exact Nat.le_add_right _ _
    · rw [findings_appendAll]
      exact OrdMap.find?_insert_self
    · rw [hcount]
      exact Nat.lt_succ_self _

theorem pushes_applyDrafts {freshness : FreshnessState} : ∀ (entries : List (FindingId × FindingDraft))
    (acc : FindingLedger × LedgerApplyReport),
    Pushes acc.1 (entries.foldl (applyDraft outcome policy now freshness) acc).1
  | [], _ => .refl
  | entry :: rest, acc => .head (Or.inl (applyDraft_step acc.1 acc.2 entry).recorded) (pushes_applyDrafts rest _)

variable {decidable : Bool} {drafts : OrdMap FindingId FindingDraft} {drops : List GroupId}

/-- A settled finding leaves a group only together with an event, and is left alone only when it is skipped. -/
theorem SettleStep.push (h : SettleStep outcome now decidable drafts L id M drops) :
    Push L M ∧ (drops ≠ [] → L.timelineSequence < M.timelineSequence) ∧
      (M = L → L.findings.find? id = none ∨ decidable = false) := by
  cases h with
  | skipped hs => exact ⟨Or.inr ⟨Silent.refl L, Or.inl rfl⟩, fun h => absurd rfl h, fun _ => hs⟩
  | superseded f hf hd hr =>
    have hlt : L.timelineSequence < L.timelineSequence + 1 := Nat.lt_succ_self _
    have hcount := congrArg Counter.total (ended_supersedeFinding now f).count
    refine ⟨Or.inl ⟨Forward.insert hf hcount.ge rfl hlt.le, Or.inl hlt⟩, fun _ => hlt, fun heq => ?_⟩
    have := congrArg timelineSequence heq
    exact absurd this hlt.ne'
  | resolved f hf hd hr hs =>
    have hlt : L.timelineSequence < L.timelineSequence + 1 := Nat.lt_succ_self _
    have hcount := congrArg Counter.total (ended_resolveFinding L.limits now (L.nextStreak id) f).count
    refine ⟨Or.inl ⟨Forward.insert hf hcount.ge rfl hlt.le, Or.inl hlt⟩, fun _ => hlt, fun heq => ?_⟩
    have := congrArg timelineSequence heq
    exact absurd this hlt.ne'
  | waiting f hf hd hr hs =>
    have hlt : (L.resolutionStreak.find? id).getD 0 < L.nextStreak id := Nat.lt_succ_self _
    have hnew : ((L.resolutionStreak.insert id (L.nextStreak id)).find? id).getD 0 = L.nextStreak id := by
      rw [OrdMap.find?_insert_self, Option.getD_some]
    refine ⟨Or.inr ⟨Silent.waiting hf hlt.le, Or.inr (Or.inl ⟨id, hnew.symm ▸ hlt⟩)⟩,
      fun h => absurd rfl h, fun heq => ?_⟩
    have := congrArg (fun L : FindingLedger => (L.resolutionStreak.find? id).getD 0) heq
    exact absurd (hnew.symm.trans this) hlt.ne'

end Phases

section Groups
variable {M N : FindingLedger} {target : TargetId} {now : NdoTime} {b : BucketGroup}

/-- A bucket that records its group leaves a trace. -/
theorem push_touchGroup (hb : M.Produces target b.id) :
    Silent M { M with groups := touchGroup target now M.groups b } ∧
      Traced M { M with groups := touchGroup target now M.groups b } := by
  have hself : (touchGroup target now M.groups b).find? b.id =
      some (refreshedGroup target now b (M.groups.find? b.id)) := OrdMap.find?_insert_self
  refine ⟨{ Silent.refl M with groups := fun id => ?_ }, Or.inr (Or.inr ⟨b.id, ?_⟩)⟩
  · by_cases heq : b.id = id
    · subst heq
      show GroupStep _ _ _ ((touchGroup target now M.groups b).find? b.id)
      rw [hself]
      cases hg : M.groups.find? b.id with
      | none => exact .created _ hb
      | some g => exact .counted g _ rfl (Counter.total_next _)
    · show GroupStep _ _ _ ((touchGroup target now M.groups b).find? id)
      rw [touchGroup, OrdMap.find?_insert_of_ne heq]
      exact .kept _
  · show Diverged _ _ _ ((touchGroup target now M.groups b).find? b.id)
    rw [hself]
    cases hg : M.groups.find? b.id with
    | none => exact Or.inl ⟨_, rfl, hb, fun g h => absurd h (Option.some_ne_none g).symm⟩
    | some g => exact Or.inr (Or.inr ⟨g, _, rfl, rfl, rfl, (Nat.lt_succ_self _).trans_eq (Counter.total_next _).symm⟩)

theorem pushes_touchGroups : ∀ (bs : List BucketGroup) (M : FindingLedger), (∀ b ∈ bs, M.Produces target b.id) →
    Pushes M { M with groups := touchGroups target now M.groups bs } ∧
      (bs ≠ [] → Ahead M { M with groups := touchGroups target now M.groups bs })
  | [], _, _ => ⟨.refl, fun h => absurd rfl h⟩
  | b :: bs, M, h => by
    obtain ⟨hsilent, htraced⟩ := push_touchGroup (h b List.mem_cons_self)
    have hrest := (pushes_touchGroups bs { M with groups := touchGroup target now M.groups b } fun c hc =>
      h c (List.mem_cons_of_mem _ hc)).1
    exact ⟨.head (Or.inr ⟨hsilent, Or.inr htraced⟩) hrest,
      fun _ => Ahead.pushes (Or.inr ⟨hsilent.toSame, htraced⟩) hrest⟩

/-- Without an event a finding keeps its group or loses it. -/
theorem assignGroup_silent {a : OrdMap FindingId GroupId} {f : Finding} (h : (assignGroup target now a f).2 = []) :
    bare (assignGroup target now a f).1 = bare f ∧
      ((assignGroup target now a f).1 = f ∨ looseness (assignGroup target now a f).1 < looseness f) := by
  unfold assignGroup at h ⊢
  split_ifs at h ⊢ with hlive
  · cases ha : a.find? f.id with
    | some g =>
      simp only [ha] at h ⊢
      split_ifs at h ⊢
      · exact ⟨rfl, Or.inl rfl⟩
    | none =>
      simp only
      refine ⟨rfl, ?_⟩
      have hzero : looseness { f with group := default, groupCause := causeFor f.klass } = 0 := by
        unfold looseness
        rw [if_pos rfl, if_pos rfl]
      by_cases hg : f.group = default
      · by_cases hc : f.groupCause = causeFor f.klass
        · left
          rw [← hg, ← hc]
        · right
          rw [hzero, looseness, if_neg hc]
          exact Nat.succ_pos _
      · right
        rw [hzero, looseness, if_neg hg, Nat.add_comm]
        exact Nat.succ_pos _
  · exact ⟨rfl, Or.inl rfl⟩

theorem total_assignGroup {a : OrdMap FindingId GroupId} {f : Finding} :
    (assignGroup target now a f).1.observationCount.total = f.observationCount.total := by
  unfold assignGroup
  split_ifs
  · split
    · split_ifs <;> rfl
    · rfl
  · rfl

/-- The end of a group refresh: the findings of the target get their groups, and its other groups go. -/
def assignAll (M : FindingLedger) (target : TargetId) (now : NdoTime) (a : OrdMap FindingId GroupId)
    (ids : List GroupId) : FindingLedger :=
  { M.sweep (assignGroup target now a) with
    groups := M.groups.filter fun id group => !(group.target == target && !ids.contains id) }

theorem find?_assignAll {a : OrdMap FindingId GroupId} {ids : List GroupId} {id : FindingId} :
    (M.assignAll target now a ids).findings.find? id =
      (M.findings.find? id).map fun f => (assignGroup target now a f).1 := by
  show (M.sweep (assignGroup target now a)).findings.find? id = _
  rw [sweep, findings_appendAll, OrdMap.find?_mapValues]

theorem timelineSequence_assignAll {a : OrdMap FindingId GroupId} {ids : List GroupId} :
    (M.assignAll target now a ids).timelineSequence =
      M.timelineSequence + (M.findings.values.flatMap fun f => (assignGroup target now a f).2).length := by
  show (M.sweep (assignGroup target now a)).timelineSequence = _
  rw [sweep, timelineSequence_appendAll]

theorem resolutionStreak_assignAll {a : OrdMap FindingId GroupId} {ids : List GroupId} :
    (M.assignAll target now a ids).resolutionStreak = M.resolutionStreak := by
  show (M.sweep (assignGroup target now a)).resolutionStreak = _
  rw [sweep, resolutionStreak_appendAll]

theorem forward_assignAll (a : OrdMap FindingId GroupId) (ids : List GroupId) :
    Forward M (M.assignAll target now a ids) := by
  refine ⟨timelineSequence_assignAll ▸ Nat.le_add_right _ _, fun id f hf => ?_⟩
  rw [find?_assignAll, hf]
  exact ⟨_, rfl, total_assignGroup.ge⟩

/-- A group the filter removes belongs to the target and is formed by none of its buckets. -/
theorem groupStep_assignAll {a : OrdMap FindingId GroupId} {ids : List GroupId}
    (hids : ∀ id, id ∈ ids ↔ M.Produces target id) (id : GroupId) :
    GroupStep M id (M.groups.find? id) ((M.assignAll target now a ids).groups.find? id) ∧
      ((M.assignAll target now a ids).groups.find? id = M.groups.find? id ∨
        Diverged M id (M.groups.find? id) ((M.assignAll target now a ids).groups.find? id)) := by
  have hfind : (M.assignAll target now a ids).groups.find? id =
      (M.groups.find? id).filter fun group => !(group.target == target && !ids.contains id) := OrdMap.find?_filter
  rw [hfind]
  cases hg : M.groups.find? id with
  | none => exact ⟨.kept _, Or.inl rfl⟩
  | some g =>
    by_cases hdrop : g.target = target ∧ id ∉ ids
    · have hnone : (some g).filter (fun group : RootCauseGroup => !(group.target == target && !ids.contains id)) = none := by
        simp [hdrop]
      have hno : ¬ M.Produces g.target id := by
        rw [hdrop.1, ← hids]
        exact hdrop.2
      rw [hnone]
      exact ⟨.dropped g hno, Or.inr (Or.inr (Or.inl ⟨rfl, g, rfl, hno⟩))⟩
    · have hsome : (some g).filter (fun group : RootCauseGroup => !(group.target == target && !ids.contains id)) = some g := by
        rw [Option.filter_eq_some_iff]
        refine ⟨rfl, ?_⟩
        by_contra hc
        exact hdrop (by simpa using hc)
      rw [hsome]
      exact ⟨.kept _, Or.inl rfl⟩

theorem push_assignAll {a : OrdMap FindingId GroupId} {ids : List GroupId}
    (hids : ∀ id, id ∈ ids ↔ M.Produces target id) : Push M (M.assignAll target now a ids) := by
  by_cases hevents : (M.findings.values.flatMap fun f => (assignGroup target now a f).2) = []
  · have hquiet : ∀ id f, M.findings.find? id = some f → (assignGroup target now a f).2 = [] := fun id f hf =>
      List.flatMap_eq_nil_iff.mp hevents f (OrdMap.mem_values.mpr ⟨id, hf⟩)
    have hsilent : Silent M (M.assignAll target now a ids) := {
      sequence := by rw [timelineSequence_assignAll, hevents]; rfl
      findings := by
        refine OrdMap.ext_find? fun id => ?_
        rw [OrdMap.find?_mapValues, OrdMap.find?_mapValues, find?_assignAll]
        cases hf : M.findings.find? id with
        | none => rfl
        | some f => exact congrArg some (assignGroup_silent (hquiet id f hf)).1
      streak := fun id => by rw [resolutionStreak_assignAll]
      loose := fun id f f' hf hf' => by
        rw [find?_assignAll, hf] at hf'
        obtain rfl := Option.some.inj hf'
        rcases (assignGroup_silent (hquiet id f hf)).2 with heq | hlt
        · exact (congrArg looseness heq).le
        · exact hlt.le
      groups := fun id => (groupStep_assignAll hids id).1 }
    refine Or.inr ⟨hsilent, ?_⟩
    by_cases hloose : ∃ id f, M.findings.find? id = some f ∧ (assignGroup target now a f).1 ≠ f
    · obtain ⟨id, f, hf, hne⟩ := hloose
      refine Or.inr (Or.inr (Or.inl ⟨id, f, _, hf, by rw [find?_assignAll, hf]; rfl, ?_⟩))
      exact (assignGroup_silent (hquiet id f hf)).2.resolve_left hne
    · by_cases hdiv : ∃ id, (M.assignAll target now a ids).groups.find? id ≠ M.groups.find? id
      · obtain ⟨id, hne⟩ := hdiv
        exact Or.inr (Or.inr (Or.inr ⟨id, (groupStep_assignAll hids id).2.resolve_left hne⟩))
      · left
        push Not at hloose hdiv
        have hgroups : (M.assignAll target now a ids).groups = M.groups := OrdMap.ext_find? hdiv
        have hfindings : (M.findings.mapValues fun _ f => (assignGroup target now a f).1) = M.findings := by
          refine OrdMap.ext_find? fun id => ?_
          rw [OrdMap.find?_mapValues]
          cases hf : M.findings.find? id with
          | none => rfl
          | some f => exact congrArg some (hloose id f hf)
        have hsweep : M.sweep (assignGroup target now a) = M := by
          rw [sweep, hevents, appendAll_nil, hfindings]
        replace hgroups : (M.groups.filter fun id group => !(group.target == target && !ids.contains id)) = M.groups :=
          hgroups
        unfold assignAll
        rw [hgroups, hsweep]
  · have hlt : M.timelineSequence < (M.assignAll target now a ids).timelineSequence := by
      rw [timelineSequence_assignAll]
      have := List.length_pos_iff.mpr hevents
      omega
    exact Or.inl ⟨forward_assignAll a ids, Or.inl hlt⟩

end Groups

end FindingLedger

end DriftObservatory
