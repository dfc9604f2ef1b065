import DriftObservatory.Theorems.Views
import DriftObservatory.Theorems.Relation

/-! The drafts of the conflict scan: one for each object and path at which two usable views contradict each other. -/

namespace DriftObservatory

/-! ### Contradictions -/

/-- Two reports of an object contradict each other: about its presence, which is drafted at the empty path, or about a
    field that both have. -/
def ObservedObject.Contradicts (policy : ObservatoryPolicy) (reported other : ObservedObject) (path : FieldPath) : Prop :=
  (reported.presence ≠ other.presence ∧ reported.presence ≠ .unknown ∧ other.presence ≠ .unknown ∧ path = []) ∨
    (reported.presence = other.presence ∧ ∃ v w, reported.fields.find? path = some v ∧ other.fields.find? path = some w ∧
      relateValues v w policy.numericEquivalence = .different)

/-- Two views contradict each other at an object and path; the qualifier names the two sources. -/
def EvidenceView.Contradicts (policy : ObservatoryPolicy) (lhs rhs : EvidenceView)
    (spot : ObjectId × FieldPath × Digest) : Prop :=
  spot.2.2 = conflictQualifier lhs.snapshot.source rhs.snapshot.source ∧
    ∃ reported other, lhs.snapshot.findObject spot.1 = some reported ∧ rhs.snapshot.findObject spot.1 = some other ∧
      reported.Contradicts policy other spot.2.1

/-- What tells the conflicts of a target apart. -/
def FindingDraft.spot (d : FindingDraft) : ObjectId × FieldPath × Digest := (d.object, d.path, d.qualifier)

theorem conflictQualifier_comm (a b : SourceId) : conflictQualifier a b = conflictQualifier b a := by
  unfold conflictQualifier
  rcases lt_trichotomy a b with hlt | rfl | hlt
  · simp only [if_pos hlt, if_neg hlt.not_gt]
  · rfl
  · simp only [if_pos hlt, if_neg hlt.not_gt]

theorem EvidenceView.Contradicts.symm {policy : ObservatoryPolicy} {lhs rhs : EvidenceView}
    {spot : ObjectId × FieldPath × Digest} (h : EvidenceView.Contradicts policy lhs rhs spot) :
    EvidenceView.Contradicts policy rhs lhs spot := by
  obtain ⟨hqualifier, reported, other, hreported, hother, hpath⟩ := h
  refine ⟨hqualifier.trans (conflictQualifier_comm _ _), other, reported, hother, hreported, ?_⟩
  rcases hpath with ⟨hne, hknown, hknown', hpath⟩ | ⟨heq, v, w, hv, hw, hdifferent⟩
  · exact .inl ⟨hne.symm, hknown', hknown, hpath⟩
  · exact .inr ⟨heq.symm, w, v, hw, hv, by rw [relateValues_comm, hdifferent]⟩

section Conflicts
variable {policy : ObservatoryPolicy} {limits : RuntimeLimits} {target : TargetId} {baseline : IntentBaseline}
  {views : List EvidenceView} {spot : ObjectId × FieldPath × Digest} {d : FindingDraft}

@[simp] theorem klass_attachEvidence (view : EvidenceView) : (attachEvidence limits d view).klass = d.klass := by
  unfold attachEvidence
  split_ifs <;> rfl

@[simp] theorem spot_attachEvidence (view : EvidenceView) :
    (attachEvidence limits d view).spot = d.spot := by
  unfold attachEvidence
  split_ifs <;> rfl

theorem spot_conflictDraft {lhs rhs : EvidenceView} {object : ObjectId} {path : FieldPath} {observed intended : Value}
    {what : Text} : (conflictDraft policy limits target baseline lhs rhs object path observed intended what).spot =
      (object, path, conflictQualifier lhs.snapshot.source rhs.snapshot.source) := by
  rw [conflictDraft, spot_attachEvidence, spot_attachEvidence]
  rfl

theorem exists_mem_fieldConflicts {lhs rhs : EvidenceView} {id : ObjectId} {reported other : ObservedObject} :
    (∃ d ∈ fieldConflicts policy limits target baseline lhs rhs id reported other, d.spot = spot) ↔
      spot.1 = id ∧ spot.2.2 = conflictQualifier lhs.snapshot.source rhs.snapshot.source ∧
        ∃ v w, reported.fields.find? spot.2.1 = some v ∧ other.fields.find? spot.2.1 = some w ∧
          relateValues v w policy.numericEquivalence = .different := by
  simp only [fieldConflicts, List.mem_flatMap]
  constructor
  · rintro ⟨d, ⟨⟨path, v⟩, hentry, hd⟩, rfl⟩
    cases hw : other.fields.find? path with
    | none => simp [hw] at hd
    | some w =>
      simp only [hw] at hd
      split_ifs at hd with hdifferent
      · rw [List.mem_singleton.mp hd, spot_conflictDraft]
        exact ⟨rfl, rfl, v, w, OrdMap.mem_entries_iff.mp hentry, hw, hdifferent⟩
      · cases hd
  · rintro ⟨rfl, hqualifier, v, w, hv, hw, hdifferent⟩
    refine ⟨conflictDraft policy limits target baseline lhs rhs spot.1 spot.2.1 v w (ascii " disagree about this field"),
      ⟨(spot.2.1, v), OrdMap.mem_entries_iff.mpr hv, ?_⟩, ?_⟩
    · simp only [hw, hdifferent, if_true, List.mem_singleton]
    · rw [spot_conflictDraft, ← hqualifier]

/-- The drafts of a pair of views are where they contradict each other. -/
theorem exists_mem_pairConflicts {lhs rhs : EvidenceView} :
    (∃ d ∈ pairConflicts policy limits target baseline lhs rhs, d.spot = spot) ↔
      EvidenceView.Contradicts policy lhs rhs spot := by
  have hobject : ∀ {id reported other}, rhs.snapshot.findObject id = some other →
      ((∃ d ∈ objectConflicts policy limits target baseline lhs rhs id reported, d.spot = spot) ↔
        spot.1 = id ∧ spot.2.2 = conflictQualifier lhs.snapshot.source rhs.snapshot.source ∧
          reported.Contradicts policy other spot.2.1) := by
    intro id reported other hother
    simp only [objectConflicts, hother]
    by_cases hsame : reported.presence = other.presence
    · simp only [ObservedObject.Contradicts, hsame, ne_eq, not_true_eq_false, if_false, false_and, false_or, true_and]
      exact exists_mem_fieldConflicts
    · by_cases hunknown : reported.presence = .unknown ∨ other.presence = .unknown
      · have hnot : ¬ (reported.presence ≠ .unknown ∧ other.presence ≠ .unknown) := by simpa [imp_iff_not_or] using hunknown
        simp only [ObservedObject.Contradicts, hsame, ne_eq, not_false_eq_true, if_true, hunknown, List.not_mem_nil,
          false_and, exists_false, or_false, true_and, false_iff]
        rintro ⟨-, -, hr, ho, -⟩
        exact hnot ⟨hr, ho⟩
      · have hknown := not_or.mp hunknown
        simp only [ObservedObject.Contradicts, hsame, ne_eq, not_false_eq_true, if_true, if_false,
          List.mem_singleton, exists_eq_left, spot_conflictDraft, false_and, or_false, true_and, hknown.1, hknown.2]
        constructor
        · rintro rfl
          exact ⟨rfl, rfl, rfl⟩
        · rintro ⟨rfl, hqualifier, hpath⟩
          rw [← hqualifier, ← hpath]
  simp only [pairConflicts, List.mem_flatMap]
  constructor
  · rintro ⟨d, ⟨⟨id, reported⟩, hentry, hd⟩, hspot⟩
    cases hother : rhs.snapshot.findObject id with
    | none => simp [objectConflicts, hother] at hd
    | some other =>
      obtain ⟨rfl, hqualifier, hcontradicts⟩ := (hobject hother).mp ⟨d, hd, hspot⟩
      exact ⟨hqualifier, reported, other, OrdMap.mem_entries_iff.mp hentry, hother, hcontradicts⟩
  · rintro ⟨hqualifier, reported, other, hreported, hother, hcontradicts⟩
    obtain ⟨d, hd, hspot⟩ := (hobject hother).mpr ⟨rfl, hqualifier, hcontradicts⟩
    exact ⟨d, ⟨(spot.1, reported), OrdMap.mem_entries_iff.mpr hreported, hd⟩, hspot⟩

/-- The conflict scan drafts conflicts of two sources. -/
theorem shape_of_mem_conflictScan : ∀ {views : List EvidenceView},
    d ∈ conflictScan policy limits target baseline views → ∃ lhs rhs object path observed intended what,
      d = conflictDraft policy limits target baseline lhs rhs object path observed intended what
  | [], h => by cases h
  | lhs :: rest, h => by
    rw [conflictScan, List.mem_append] at h
    rcases h with h | h
    · split_ifs at h
      · obtain ⟨rhs, -, h⟩ := List.mem_flatMap.mp h
        split_ifs at h
        · obtain ⟨entry, -, h⟩ := List.mem_flatMap.mp h
          unfold objectConflicts at h
          split at h
          · cases h
          · split_ifs at h
            · cases h
            · exact ⟨lhs, rhs, _, _, _, _, _, List.mem_singleton.mp h⟩
            · obtain ⟨field, -, h⟩ := List.mem_flatMap.mp h
              split at h
              · cases h
              · split_ifs at h
                · exact ⟨lhs, rhs, _, _, _, _, _, List.mem_singleton.mp h⟩
                · cases h
        · cases h
      · cases h
    · exact shape_of_mem_conflictScan h

theorem klass_of_mem_conflictScan {views : List EvidenceView} (h : d ∈ conflictScan policy limits target baseline views) :
    d.klass = .sourceConflict := by
  obtain ⟨lhs, rhs, object, path, observed, intended, what, rfl⟩ := shape_of_mem_conflictScan h
  simp [conflictDraft, makeDraft]

/-- A scan has no draft at a spot exactly when no usable view contradicts a later one there. -/
theorem forall_mem_conflictScan : ∀ {views : List EvidenceView},
    (∀ d ∈ conflictScan policy limits target baseline views, d.spot ≠ spot) ↔
      views.Pairwise fun lhs rhs => lhs.usable = true → rhs.usable = true → ¬ EvidenceView.Contradicts policy lhs rhs spot
  | [] => by simp [conflictScan]
  | lhs :: rest => by
    rw [conflictScan, List.forall_mem_append, forall_mem_conflictScan, List.pairwise_cons]
    refine and_congr_left fun _ => ?_
    cases hl : lhs.usable with
    | false => simp
    | true =>
      simp only [if_true, List.forall_mem_flatMap, true_implies]
      refine forall_congr' fun rhs => forall_congr' fun _ => ?_
      cases hr : rhs.usable with
      | false => simp
      | true =>
        rw [if_pos rfl, ← @exists_mem_pairConflicts policy limits target baseline spot lhs rhs]
        simp only [true_implies, not_exists, not_and, ne_eq]

end Conflicts

end DriftObservatory
