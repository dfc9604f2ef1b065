import DriftObservatory.Theorems.Progress
import DriftObservatory.Theorems.Soundness

/-! Whether a refused evaluation leaves the ledger as it was. The finding envelope is checked before anything is
    written; the group envelope is checked in the middle of phase two, when earlier targets, drafts and settled
    findings are already in the ledger. -/

namespace DriftObservatory

namespace FindingLedger

section Target
variable [DoubleChars] {outcome : EvaluationOutcome} {policy : ObservatoryPolicy} {now : NdoTime}
  {L : FindingLedger} {e : TargetEvaluation} {target : TargetId}

/-! ### Phase two pushes -/

omit [DoubleChars] in
theorem regrouped_eq : L.regrouped target now =
    { L with groups := touchGroups target now L.groups (L.bucketGroups target) }.assignAll target now
      (assignments (L.bucketGroups target)) ((L.bucketGroups target).map BucketGroup.id) := by
  unfold regrouped assignAll
  simp only [sweep, groups_appendAll]

omit [DoubleChars] in
theorem pushes_regrouped : Pushes L (L.regrouped target now) ∧
    (L.bucketGroups target ≠ [] → Ahead L (L.regrouped target now)) := by
  obtain ⟨htouch, hahead⟩ := @pushes_touchGroups target now (L.bucketGroups target) L fun b hb =>
    List.mem_map.mpr ⟨b, hb, rfl⟩
  have hassign := @push_assignAll { L with groups := touchGroups target now L.groups (L.bucketGroups target) } target now
    (assignments (L.bucketGroups target)) ((L.bucketGroups target).map BucketGroup.id) fun _ => Iff.rfl
  rw [regrouped_eq]
  exact ⟨htouch.tail hassign, fun h => (hahead h).push hassign⟩

theorem pushes_settle {decidable : Bool} {drafts : OrdMap FindingId FindingDraft} : ∀ (ids : List FindingId)
    (pass : SettlePass),
    Pushes pass.ledger (ids.foldl (settleFinding outcome now decidable drafts) pass).ledger ∧
      ((ids.foldl (settleFinding outcome now decidable drafts) pass).drops ≠ pass.drops →
        pass.ledger.timelineSequence <
          (ids.foldl (settleFinding outcome now decidable drafts) pass).ledger.timelineSequence)
  | [], _ => ⟨.refl, fun h => absurd rfl h⟩
  | id :: ids, pass => by
    obtain ⟨drops, hdrops, hstep⟩ := @settleFinding_step _ outcome now decidable drafts pass id
    obtain ⟨hpush, hevent, -⟩ := hstep.push
    obtain ⟨hrest, hlater⟩ := pushes_settle ids (settleFinding outcome now decidable drafts pass id)
    refine ⟨.head hpush hrest, fun hne => ?_⟩
    by_cases hd : drops = []
    · rw [hd, List.append_nil] at hdrops
      exact lt_of_le_of_lt hpush.forward.sequence (hlater (hdrops ▸ hne))
    · exact lt_of_lt_of_le (hevent hd) hrest.forward.sequence

theorem pushes_drafted : Pushes L (L.drafted outcome policy now e) := pushes_applyDrafts _ (L, {})

theorem pushes_settling : Pushes (L.drafted outcome policy now e) (L.settling outcome policy now e).ledger :=
  (pushes_settle ((L.drafted outcome policy now e).undrafted e.target (draftMap e.drafts))
    { ledger := L.drafted outcome policy now e, report := {} }).1

theorem sequence_lt_of_drops (h : (L.settling outcome policy now e).drops ≠ []) :
    (L.drafted outcome policy now e).timelineSequence <
      (L.settling outcome policy now e).ledger.timelineSequence :=
  (pushes_settle ((L.drafted outcome policy now e).undrafted e.target (draftMap e.drafts))
    { ledger := L.drafted outcome policy now e, report := {} }).2 h

/-- A group is dropped only after an event, so the drop is part of a step that records something. -/
theorem settling_afterTarget :
    Pushes (L.settling outcome policy now e).ledger (L.afterTarget outcome policy now e) ∨
      (Forward (L.drafted outcome policy now e) (L.afterTarget outcome policy now e) ∧
        Recorded (L.drafted outcome policy now e) (L.afterTarget outcome policy now e)) := by
  have hsettle := @pushes_settling _ outcome policy now L e
  have hevent := @sequence_lt_of_drops _ outcome policy now L e
  unfold afterTarget
  generalize L.settling outcome policy now e = pass at hsettle hevent
  have hregroup := (@pushes_regrouped now pass.ledger e.target).1
  by_cases hd : pass.drops = []
  · rw [hd]
    exact Or.inl hregroup
  · exact Or.inr ⟨(hsettle.forward.trans hregroup.forward).dropGroups pass.drops,
      Or.inl (lt_of_lt_of_le (hevent hd) hregroup.forward.sequence)⟩

theorem pushes_afterTarget : Pushes L (L.afterTarget outcome policy now e) := by
  rcases @settling_afterTarget _ outcome policy now L e with h | h
  · exact pushes_drafted.trans (pushes_settling.trans h)
  · exact pushes_drafted.tail (Or.inl h)

omit [DoubleChars] in
theorem RefreshStep.pushes {M : FindingLedger} (h : RefreshStep L target now groupEnvelopeExceeded M) : Pushes L M := by
  cases h with
  | refused _ done b later hbs _ _ _ =>
    refine (pushes_touchGroups done L fun c hc => ?_).1
    rw [Produces, hbs, List.map_append]
    exact List.mem_append_left _ (List.mem_map.mpr ⟨c, hc, rfl⟩)

/-! ### Targets that change nothing -/

/-- The evaluation has nothing to draft and nothing to settle. -/
def Inert (L : FindingLedger) (e : TargetEvaluation) : Prop :=
  e.drafts = [] ∧ (e.complianceDecidable = false ∨ L.liveOf e.target = [])

/-- The evaluation leaves nothing to regroup either. -/
structure Idle (L : FindingLedger) (e : TargetEvaluation) : Prop where
  inert : L.Inert e
  buckets : L.bucketGroups e.target = []
  findings : ∀ f ∈ L.liveOf e.target, f.group = default ∧ f.groupCause = causeFor f.klass
  groups : ∀ id g, L.groups.find? id = some g → g.target ≠ e.target

theorem settle_skips {decidable : Bool} {drafts : OrdMap FindingId FindingDraft} (hd : decidable = false) :
    ∀ (ids : List FindingId) (pass : SettlePass),
      (ids.foldl (settleFinding outcome now decidable drafts) pass).ledger = pass.ledger ∧
      (ids.foldl (settleFinding outcome now decidable drafts) pass).drops = pass.drops
  | [], _ => ⟨rfl, rfl⟩
  | id :: ids, pass => by
    obtain ⟨hl, hdrops⟩ := settle_skips hd ids (settleFinding outcome now decidable drafts pass id)
    obtain ⟨drops, happ, hstep⟩ := @settleFinding_step _ outcome now decidable drafts pass id
    obtain ⟨hl', rfl⟩ := hstep.unique (.skipped (Or.inr hd))
    exact ⟨hl.trans hl', hdrops.trans (happ.trans (List.append_nil _))⟩

theorem drafted_of_nil (h : e.drafts = []) : L.drafted outcome policy now e = L := by
  unfold drafted
  rw [h]
  rfl

omit [DoubleChars] in
theorem undrafted_eq_nil {drafts : OrdMap FindingId FindingDraft} (h : L.liveOf target = []) :
    L.undrafted target drafts = [] := by
  refine List.eq_nil_iff_forall_not_mem.mpr fun id hid => ?_
  obtain ⟨f, hf, ht, hl, -⟩ := mem_undrafted.mp hid
  have hmem := mem_liveOf.mpr ⟨id, hf, ht, hl⟩
  rw [h] at hmem
  exact absurd hmem List.not_mem_nil

theorem Inert.settling (h : L.Inert e) :
    (L.settling outcome policy now e).ledger = L ∧ (L.settling outcome policy now e).drops = [] := by
  obtain ⟨hdrafts, hrest⟩ := h
  unfold FindingLedger.settling
  rw [drafted_of_nil hdrafts]
  rcases hrest with hdec | hlive
  · exact settle_skips hdec _ _
  · unfold settleUndrafted
    rw [undrafted_eq_nil hlive]
    exact ⟨rfl, rfl⟩

omit [DoubleChars] in
theorem draftMap_entries_ne_nil {drafts : List FindingDraft} (h : drafts ≠ []) : (draftMap drafts).entries ≠ [] := by
  obtain ⟨d, hd⟩ := List.exists_mem_of_ne_nil _ h
  have hmem := contains_draftMap.mpr ⟨d, hd, rfl⟩
  intro hnil
  rw [OrdMap.contains, OrdMap.find?, hnil] at hmem
  cases hmem

/-- An evaluation that leaves the ledger as it was up to its group refresh has nothing to draft or to settle. -/
theorem inert_of_pushes (h : Pushes (L.settling outcome policy now e).ledger L) : L.Inert e := by
  have hdrafted : L.drafted outcome policy now e = L := eq_of_pushes pushes_drafted (pushes_settling.trans h)
  have hdrafts : e.drafts = [] := by
    by_contra hne
    obtain ⟨entry, rest, hentries⟩ := List.exists_cons_of_ne_nil (draftMap_entries_ne_nil hne)
    have hstep := (@applyDraft_step outcome policy now e.bestFreshness _ L {} entry).recorded
    have hrest : Pushes (applyDraft outcome policy now e.bestFreshness (L, {}) entry).1
        (L.drafted outcome policy now e) := by
      have heq : L.drafted outcome policy now e = (rest.foldl (applyDraft outcome policy now e.bestFreshness)
          (applyDraft outcome policy now e.bestFreshness (L, {}) entry)).1 := by
        unfold drafted applyDrafts
        rw [hentries, List.foldl_cons]
      rw [heq]
      exact pushes_applyDrafts rest _
    rw [hdrafted] at hrest
    have heq := eq_of_pushes (.single (Or.inl hstep)) hrest
    exact not_ahead_self (Or.inl (heq ▸ hstep.2))
  refine ⟨hdrafts, ?_⟩
  by_contra hne
  push Not at hne
  obtain ⟨f, hf⟩ := List.exists_mem_of_ne_nil _ hne.2
  obtain ⟨id, hfind, ht, hl⟩ := mem_liveOf.mp hf
  have hundrafted : id ∈ L.undrafted e.target (draftMap e.drafts) := by
    rw [hdrafts]
    exact mem_undrafted.mpr ⟨f, hfind, ht, hl, rfl⟩
  obtain ⟨first, rest, hids⟩ := List.exists_cons_of_ne_nil (List.ne_nil_of_mem hundrafted)
  obtain ⟨drops, -, hstep⟩ := @settleFinding_step _ outcome now e.complianceDecidable (draftMap e.drafts)
    { ledger := L, report := {} } first
  obtain ⟨hpush, -, hskip⟩ := hstep.push
  have hrest := (@pushes_settle _ outcome now e.complianceDecidable (draftMap e.drafts) rest
    (settleFinding outcome now e.complianceDecidable (draftMap e.drafts) { ledger := L, report := {} } first)).1
  have hlast : (rest.foldl (settleFinding outcome now e.complianceDecidable (draftMap e.drafts))
      (settleFinding outcome now e.complianceDecidable (draftMap e.drafts) { ledger := L, report := {} } first)).ledger =
        (L.settling outcome policy now e).ledger := by
    unfold settling settleUndrafted
    rw [hdrafted, hids, List.foldl_cons]
  rw [hlast] at hrest
  obtain ⟨g, hg, -⟩ := mem_undrafted.mp (hids ▸ List.mem_cons_self : first ∈ L.undrafted e.target (draftMap e.drafts))
  rcases hskip (eq_of_pushes (.single hpush) (hrest.trans h)) with hnone | hdec
  · rw [show ({ ledger := L, report := {} } : SettlePass).ledger.findings.find? first = some g from hg] at hnone
    cases hnone
  · exact hne.1 hdec

omit [DoubleChars] in
theorem assignGroup_nil {f : Finding} (ht : f.identity.target = target) (hl : f.isLive = true) :
    (assignGroup target now ∅ f).1 = { f with group := default, groupCause := causeFor f.klass } := by
  simp [assignGroup, ht, hl]

/-- An evaluation that leaves the ledger as it was is idle. -/
theorem idle_of_pushes (h : Pushes (L.afterTarget outcome policy now e) L) : L.Idle e := by
  have hinert : L.Inert e := by
    rcases @settling_afterTarget _ outcome policy now L e with hpush | hrec
    · exact inert_of_pushes (hpush.trans h)
    · have heq : L.drafted outcome policy now e = L := eq_of_pushes pushes_drafted (.head (Or.inl hrec) h)
      rw [heq] at hrec
      exact absurd (Ahead.pushes (Or.inl hrec.2) h) not_ahead_self
  obtain ⟨hledger, hdrops⟩ := @Inert.settling _ outcome policy now L e hinert
  have hafter : L.afterTarget outcome policy now e = L.regrouped e.target now := by
    rw [afterTarget, hledger, hdrops]
    rfl
  rw [hafter] at h
  have hregroup := @pushes_regrouped now L e.target
  have heq : L.regrouped e.target now = L := eq_of_pushes hregroup.1 h
  have hbuckets : L.bucketGroups e.target = [] := by
    by_contra hne
    exact not_ahead_self ((hregroup.2 hne).pushes h)
  rw [regrouped_eq, hbuckets] at heq
  refine ⟨hinert, hbuckets, fun f hf => ?_, fun id g hg ht => ?_⟩
  · obtain ⟨id, hfind, ht, hl⟩ := mem_liveOf.mp hf
    have hsame := congrArg (fun M : FindingLedger => M.findings.find? id) heq
    simp only [find?_assignAll, hfind, Option.map_some, Option.some.injEq] at hsame
    rw [show assignments [] = ∅ from rfl, assignGroup_nil ht hl] at hsame
    rw [← hsame]
    exact ⟨rfl, rfl⟩
  · have hsame := congrArg (fun M : FindingLedger => M.groups.find? id) heq
    simp only [assignAll, OrdMap.find?_filter, touchGroups, List.foldl_nil, hg] at hsame
    simp [ht] at hsame

omit [DoubleChars] in
theorem Idle.roomForGroups (h : L.Idle e) : L.RoomForGroups e.target := by
  left
  rw [newGroups, h.buckets]
  exact Finset.empty_sdiff _

theorem Idle.afterTarget (h : L.Idle e) : L.afterTarget outcome policy now e = L := by
  obtain ⟨hledger, hdrops⟩ := @Inert.settling _ outcome policy now L e h.inert
  have hfindings : ∀ id f, L.findings.find? id = some f → assignGroup e.target now ∅ f = (f, []) := by
    intro id f hf
    by_cases hlive : f.identity.target = e.target ∧ f.isLive = true
    · obtain ⟨hg, hc⟩ := h.findings f (mem_liveOf.mpr ⟨id, hf, hlive⟩)
      simp [assignGroup, hlive, ← hg, ← hc]
    · simp [assignGroup, hlive]
  have hevents : (L.findings.values.flatMap fun f => (assignGroup e.target now ∅ f).2) = [] := by
    refine List.flatMap_eq_nil_iff.mpr fun f hf => ?_
    obtain ⟨id, hf⟩ := OrdMap.mem_values.mp hf
    rw [hfindings id f hf]
  have hmap : (L.findings.mapValues fun _ f => (assignGroup e.target now ∅ f).1) = L.findings := by
    refine OrdMap.ext_find? fun id => ?_
    rw [OrdMap.find?_mapValues]
    cases hf : L.findings.find? id with
    | none => rfl
    | some f => rw [Option.map_some, hfindings id f hf]
  have hgroups : (L.groups.filter fun id group => !(group.target == e.target && !([] : List GroupId).contains id)) =
      L.groups := by
    refine OrdMap.ext_find? fun id => ?_
    rw [OrdMap.find?_filter]
    cases hg : L.groups.find? id with
    | none => rfl
    | some g => simp [h.groups id g hg]
  have hsweep : L.sweep (assignGroup e.target now ∅) = L := by
    rw [sweep, hevents, appendAll_nil, hmap]
  rw [FindingLedger.afterTarget, hledger, hdrops, regrouped_eq, h.buckets]
  show { L.sweep (assignGroup e.target now ∅) with
    groups := L.groups.filter fun id group => !(group.target == e.target && !([] : List GroupId).contains id) } = L
  rw [hsweep, hgroups]

/-! ### The whole outcome -/

/-- Each target in turn finds room for the groups its findings form. -/
def GroupsFit (outcome : EvaluationOutcome) (policy : ObservatoryPolicy) (now : NdoTime) :
    List TargetEvaluation → FindingLedger → Prop
  | [], _ => True
  | e :: rest, L => (L.settling outcome policy now e).ledger.RoomForGroups e.target ∧
      GroupsFit outcome policy now rest (L.afterTarget outcome policy now e)

/-- The targets up to the one that does not fit have nothing to write: those before it are idle, and the first group
    of that one is already beyond a full envelope. -/
def RefusedAtRest (L : FindingLedger) (targets : List TargetEvaluation) : Prop :=
  ∃ before e after, targets = before ++ e :: after ∧ (∀ d ∈ before, L.Idle d) ∧ L.Inert e ∧
    ∃ b bs, L.bucketGroups e.target = b :: bs ∧ L.groups.find? b.id = none ∧ L.limits.maxGroups ≤ L.groups.size

omit [DoubleChars] in
theorem not_room_of_first {b : BucketGroup} {bs : List BucketGroup} (hbs : L.bucketGroups target = b :: bs)
    (hnew : L.groups.find? b.id = none) (hfull : L.limits.maxGroups ≤ L.groups.size) : ¬ L.RoomForGroups target :=
  @not_roomForGroups target default L [] bs b hbs hnew hfull

theorem applyTargets_cons_ok {rest : List TargetEvaluation} {report : LedgerApplyReport}
    (h : (applyTarget outcome policy now L report e).1.ok = true) :
    applyTargets outcome policy now (e :: rest) L report =
      applyTargets outcome policy now rest (applyTarget outcome policy now L report e).2.1
        (applyTarget outcome policy now L report e).2.2 := by
  rw [applyTargets]
  simp only [h, Bool.not_true, Bool.false_eq_true, if_false]

theorem applyTargets_cons_refused {rest : List TargetEvaluation} {report : LedgerApplyReport}
    (h : (applyTarget outcome policy now L report e).1.ok = false) :
    applyTargets outcome policy now (e :: rest) L report = applyTarget outcome policy now L report e := by
  rw [applyTargets]
  simp only [h, Bool.not_false, if_true]

omit [DoubleChars] in
theorem RefusedAtRest.cons_iff {rest : List TargetEvaluation} :
    L.RefusedAtRest (e :: rest) ↔ (L.Idle e ∧ L.RefusedAtRest rest) ∨
      (L.Inert e ∧ ∃ b bs, L.bucketGroups e.target = b :: bs ∧ L.groups.find? b.id = none ∧
        L.limits.maxGroups ≤ L.groups.size) := by
  constructor
  · rintro ⟨before, d, after, heq, hidle, hlast⟩
    cases before with
    | nil =>
      obtain ⟨rfl, rfl⟩ := List.cons.inj heq
      exact Or.inr hlast
    | cons first before =>
      obtain ⟨rfl, rfl⟩ := List.cons.inj heq
      exact Or.inl ⟨hidle e List.mem_cons_self,
        before, d, after, rfl, fun x hx => hidle x (List.mem_cons_of_mem _ hx), hlast⟩
  · rintro (⟨hidle, before, d, after, rfl, hbefore, hlast⟩ | hlast)
    · refine ⟨e :: before, d, after, rfl, fun x hx => ?_, hlast⟩
      rcases List.mem_cons.mp hx with rfl | hx
      · exact hidle
      · exact hbefore x hx
    · exact ⟨[], e, rest, rfl, fun x hx => absurd hx List.not_mem_nil, hlast⟩

omit [DoubleChars] in
theorem RefreshStep.first_of_eq {M : FindingLedger} (h : RefreshStep L target now groupEnvelopeExceeded M)
    (heq : M = L) : ∃ b bs, L.bucketGroups target = b :: bs ∧ L.groups.find? b.id = none ∧
      L.limits.maxGroups ≤ L.groups.size := by
  cases h with
  | refused _ done b later hbs hnew hfull _ =>
    have hdone : done = [] := by
      by_contra hne
      have hahead := (@pushes_touchGroups target now done L fun c hc => by
        rw [Produces, hbs, List.map_append]
        exact List.mem_append_left _ (List.mem_map.mpr ⟨c, hc, rfl⟩)).2 hne
      rw [heq] at hahead
      exact not_ahead_self hahead
    subst hdone
    exact ⟨b, later, hbs, hnew, hfull⟩

/-- A refusal inside the group refresh of the first target leaves the ledger as it was exactly when that target has
    nothing to write. -/
theorem refused_eq_self_iff {M : FindingLedger}
    (h : RefreshStep (L.settling outcome policy now e).ledger e.target now groupEnvelopeExceeded M) :
    M = L ↔ L.Inert e ∧ ∃ b bs, L.bucketGroups e.target = b :: bs ∧ L.groups.find? b.id = none ∧
      L.limits.maxGroups ≤ L.groups.size := by
  constructor
  · intro heq
    have hinert : L.Inert e := inert_of_pushes (heq ▸ h.pushes)
    rw [hinert.settling.1] at h
    exact ⟨hinert, h.first_of_eq heq⟩
  · rintro ⟨hinert, b, bs, hbs, hnew, hfull⟩
    rw [hinert.settling.1] at h
    cases h with
    | refused hroom done c later hbs' hnew' hfull' hfirst =>
      cases done with
      | nil => rfl
      | cons first more =>
        obtain ⟨rfl, -⟩ := List.cons.inj (hbs.symm.trans hbs')
        exact absurd (hfirst b more rfl hnew) (not_lt.mpr hfull)

theorem applyTargets_spec : ∀ (targets : List TargetEvaluation) (L : FindingLedger) (report : LedgerApplyReport),
    (GroupsFit outcome policy now targets L ∧ (applyTargets outcome policy now targets L report).1.ok = true) ∨
    (¬ GroupsFit outcome policy now targets L ∧ (applyTargets outcome policy now targets L report).1.ok = false ∧
      Pushes L (applyTargets outcome policy now targets L report).2.1 ∧
      ((applyTargets outcome policy now targets L report).2.1 = L ↔ L.RefusedAtRest targets))
  | [], _, _ => Or.inl ⟨trivial, rfl⟩
  | e :: rest, L, report => by
    rcases @applyTarget_spec _ outcome policy now L report e with ⟨hroom, hok, hafter⟩ | ⟨hroom, hstop, hstep⟩
    · rw [applyTargets_cons_ok (by rw [hok]; rfl), hafter]
      have hpush := @pushes_afterTarget _ outcome policy now L e
      rcases applyTargets_spec rest (L.afterTarget outcome policy now e) (applyTarget outcome policy now L report e).2.2 with
        ⟨hfit, hok'⟩ | ⟨hfit, hok', hrest, hiff⟩
      · exact Or.inl ⟨⟨hroom, hfit⟩, hok'⟩
      · refine Or.inr ⟨fun h => hfit h.2, hok', hpush.trans hrest, ?_⟩
        rw [RefusedAtRest.cons_iff]
        constructor
        · intro hsame
          rw [hsame] at hrest hiff
          have hidle := idle_of_pushes hrest
          rw [hidle.afterTarget] at hiff
          exact Or.inl ⟨hidle, hiff.mp rfl⟩
        · rintro (⟨hidle, hatrest⟩ | ⟨hinert, b, bs, hbs, hnew, hfull⟩)
          · rw [hidle.afterTarget] at hiff ⊢
            exact hiff.mpr hatrest
          · rw [hinert.settling.1] at hroom
            exact absurd hroom (not_room_of_first hbs hnew hfull)
    · have hok : (applyTarget outcome policy now L report e).1.ok = false := by rw [hstop]; rfl
      rw [applyTargets_cons_refused hok, RefusedAtRest.cons_iff]
      refine Or.inr ⟨fun h => hroom h.1, hok, pushes_drafted.trans (pushes_settling.trans hstep.pushes), ?_⟩
      rw [refused_eq_self_iff hstep]
      refine ⟨Or.inr, fun h => h.resolve_left fun hidle => hroom ?_⟩
      rw [hidle.1.inert.settling.1]
      exact hidle.1.roomForGroups

/-- A refused evaluation leaves the ledger as it was exactly when the finding envelope refuses it, every accepted
    target finds room for its groups, or the accepted targets up to the refusal have nothing to write. -/
theorem applyEvaluation_unchanged_iff (L : FindingLedger) (outcome : EvaluationOutcome) (policy : ObservatoryPolicy)
    (now : NdoTime) :
    ((L.applyEvaluation outcome policy now).1.ok = false → (L.applyEvaluation outcome policy now).2.1 = L) ↔
      L.limits.maxFindings < L.findings.size + L.newFindings outcome.targets ∨
      GroupsFit outcome policy now (outcome.targets.filter L.accepts) L ∨
      L.RefusedAtRest (outcome.targets.filter L.accepts) := by
  unfold applyEvaluation
  by_cases hlimit : L.limits.maxFindings < L.findings.size + L.newFindings outcome.targets
  · simp only [hlimit, if_true, implies_true, true_or]
  · simp only [hlimit, if_false, false_or]
    rcases @applyTargets_spec _ outcome policy now (outcome.targets.filter L.accepts) L
      { fencedTargets := outcome.targets.length - (outcome.targets.filter L.accepts).length } with
      ⟨hfit, hok⟩ | ⟨hfit, hok, -, hiff⟩
    · simp only [hok, Bool.not_true, Bool.false_eq_true, if_false, hfit, true_or, iff_true]
      exact fun h => nomatch h
    · simp only [hok, Bool.not_false, if_true, hfit, false_or, true_implies]
      exact hiff

end Target

end FindingLedger

/-! ### A refusal that is half applied -/

namespace Sample

/-- Any conversion will do where no double occurs. -/
@[reducible] def noDoubles : DoubleChars := ⟨fun _ => [], fun _ => none⟩

def other : TargetId := ⟨ascii "u"⟩

/-- Two targets with committed intent and room for one group. -/
def crowded : FindingLedger where
  limits := { maxGroups := 1 }
  baselines := OrdMap.ofList
    [(target, baseline { id := object, fields := ∅ }), (other, { baseline { id := object, fields := ∅ } with target := other })]

/-- An evaluation that finds the committed generation not applied. -/
def unapplied (target : TargetId) : TargetEvaluation where
  target := target
  hasBaseline := true
  baselineGeneration := ⟨1⟩
  drafts := [makeDraft {} target (baseline { id := object, fields := ∅ }) object path .generationMismatch]

def unappliedEverywhere : EvaluationOutcome where
  now := ⟨1⟩
  epoch := ⟨1⟩
  incarnation := ⟨1⟩
  policy := ⟨ascii "p"⟩
  policyDigest := default
  targets := [unapplied target, unapplied other]

end Sample

theorem applyEvaluation_crowded_changed :
    (@FindingLedger.applyEvaluation Sample.noDoubles Sample.crowded Sample.unappliedEverywhere {} ⟨1⟩).1.ok = false ∧
      (@FindingLedger.applyEvaluation Sample.noDoubles Sample.crowded Sample.unappliedEverywhere {} ⟨1⟩).2.1 ≠
        Sample.crowded := by
  have hrun : (@FindingLedger.applyEvaluation Sample.noDoubles Sample.crowded Sample.unappliedEverywhere {} ⟨1⟩).1.ok =
      false ∧ (@FindingLedger.applyEvaluation Sample.noDoubles Sample.crowded Sample.unappliedEverywhere {}
        ⟨1⟩).2.1.findings.size = 2 := by decide +kernel
  refine ⟨hrun.1, fun heq => ?_⟩
  have hsize := hrun.2
  rw [heq] at hsize
  revert hsize
  decide +kernel

end DriftObservatory
