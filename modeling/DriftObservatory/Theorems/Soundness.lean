import DriftObservatory.Theorems.Compliance
import DriftObservatory.Theorems.Relation

/-! What a compliant verdict promises, and the two kinds of evidence that break the promise: a forbidden
    object the primary knows nothing about, and two sources whose values cannot be compared. -/

namespace DriftObservatory

/-! ### A small input -/

namespace Sample

def target : TargetId := ⟨ascii "t"⟩
def object : ObjectId := ⟨ascii "o"⟩
def path : FieldPath := [.key (ascii "f")]

/-- A target whose only intent is the given object, at generation 1. -/
def baseline (declared : IntentObject) : IntentBaseline where
  target := target
  generation := ⟨1⟩
  epoch := ⟨1⟩
  authority := .localPolicy
  policy := ⟨ascii "p"⟩
  committedAt := ⟨1⟩
  contentDigest := default
  evidence := .synthetic
  objects := OrdMap.ofList [(object, declared)]

/-- A complete observation of the target by a source that may assert absence. -/
def snapshot (source : String) (reported : ObservedObject) : ObservationSnapshot :=
  let s : ObservationSnapshot := {
    snapshotId := default
    source := ⟨ascii source⟩
    epoch := ⟨1⟩
    incarnation := ⟨1⟩
    sequence := ⟨1⟩
    target := target
    collectedAt := ⟨1⟩
    receivedAt := ⟨1⟩
    ttlNanos := 0
    coverage := .complete
    unobserved := []
    objects := OrdMap.ofList [(object, reported)]
    capabilities := { assertsAbsence := true, completeCoverage := true, reportsNestedPaths := true }
    evidence := .synthetic }
  { s with snapshotId := s.computeSnapshotId }

/-- The verdict on evidence that is in time. -/
def fresh : FreshnessVerdict := { state := .fresh, reason := .none, maySupportCompliance := true }

end Sample

/-! ### The promise of a compliant verdict -/

/-- What a compliant verdict promises about the input it was computed from. -/
structure ComplianceSound (policy : ObservatoryPolicy) (limits : RuntimeLimits) (input : TargetComparisonInput)
    (baseline : IntentBaseline) (primary : EvidenceView) : Prop extends Compared policy input baseline primary,
    MatchesIntent policy input.target baseline primary where
  forbidden : ∀ id declared, baseline.findObject id = some declared → declared.existence = .forbidden →
    primary.EstablishesAbsence id
  noConflict : ∀ d ∈ (compareTarget input policy limits).drafts, d.klass ≠ .sourceConflict

section Promise
variable {policy : ObservatoryPolicy} {limits : RuntimeLimits} {input : TargetComparisonInput}
  {baseline : IntentBaseline} {primary : EvidenceView}

/-- An unblocked comparison leaves no draft. -/
theorem drafts_of_unblocked (h : Unblocked policy input baseline primary) :
    (compareTarget input policy limits).drafts = [] := by
  have hpref := h.preferred
  obtain ⟨rest, hv⟩ : ∃ rest, orderedViews policy input = primary :: rest := by
    cases hv : orderedViews policy input with
    | nil => rw [hv] at hpref; cases hpref
    | cons v rest =>
      rw [hv] at hpref
      obtain rfl : v = primary := Option.some.inj hpref
      exact ⟨rest, rfl⟩
  have hany : (primary :: rest).any EvidenceView.usable = true :=
    List.any_eq_true.mpr ⟨primary, List.mem_cons_self, h.usable⟩
  have hconf : conflictDrafts policy limits input.target baseline (primary :: rest) = [] := by
    have hagree := h.agreement
    rw [hv] at hagree
    exact conflictScan_eq_nil.mpr hagree
  have hprim : primaryDrafts policy limits input.target baseline primary = [] :=
    primaryDrafts_eq_nil.mpr ⟨h.toMatchesIntent, h.comparable, h.forbidden⟩
  simp only [compareTarget, compareTargetWith, h.counts, ne_eq, not_true_eq_false, if_false, h.committed, hv, hany, if_true,
    compareWithPrimary, decideCompliance, TargetEvaluation.drafts_appendTrace, TargetEvaluation.drafts_appendTraceIf]
  exact regroupDrafts_eq_nil.mpr (by rw [hconf, hprim]; rfl)

/-- The parameters of an unblocked comparison are read off the input. -/
theorem Compared.unique {baseline' : IntentBaseline} {primary' : EvidenceView}
    (h : Compared policy input baseline primary) (h' : Compared policy input baseline' primary') :
    baseline = baseline' ∧ primary = primary' :=
  ⟨Option.some.inj (h.committed.symm.trans h'.committed), Option.some.inj (h.preferred.symm.trans h'.preferred)⟩

theorem Compared.complete (h : Compared policy input baseline primary) :
    primary.complete = primary.snapshot.declaresCompleteCoverage :=
  complete_of_mem_orderedViews (List.mem_of_head? h.preferred)

/-- A compliant verdict keeps its promise exactly when, nothing else blocking the comparison, the primary knows
    about every forbidden object. -/
theorem compliant_sound_iff (input : TargetComparisonInput) (policy : ObservatoryPolicy) (limits : RuntimeLimits) :
    ((compareTarget input policy limits).compliant = true →
      ∃ baseline primary, ComplianceSound policy limits input baseline primary) ↔
    ∀ baseline primary, Unblocked policy input baseline primary →
      ∀ id declared, baseline.findObject id = some declared → declared.existence = .forbidden →
        primary.presenceOf id ≠ .unknown := by
  constructor
  · intro h baseline primary hu id declared hd he hunknown
    obtain ⟨baseline', primary', hs⟩ := h (compliant_iff_unblocked.mpr ⟨baseline, primary, hu⟩)
    obtain ⟨rfl, rfl⟩ := hu.toCompared.unique hs.toCompared
    have habs := (EvidenceView.presenceOf_eq_absent hu.toCompared.complete).mpr (hs.forbidden id declared hd he)
    rw [habs] at hunknown
    cases hunknown
  · intro h hc
    obtain ⟨baseline, primary, hu⟩ := compliant_iff_unblocked.mp hc
    refine ⟨baseline, primary, ⟨hu.toCompared, hu.toMatchesIntent, fun id declared hd he => ?_, fun d hd => ?_⟩⟩
    · rw [← EvidenceView.presenceOf_eq_absent hu.toCompared.complete]
      have hnp : primary.presenceOf id ≠ .present := fun hp =>
        hu.forbidden id declared hd he (EvidenceView.presenceOf_eq_present.mp hp)
      have hnu := h baseline primary hu id declared hd he
      cases hp : primary.presenceOf id with
      | absent => rfl
      | present => exact absurd hp hnp
      | unknown => exact absurd hp hnu
    · rw [drafts_of_unblocked hu] at hd
      cases hd

end Promise

namespace Sample

/-- Intent forbids the object, and the only source reports that it cannot tell. -/
def unknownForbidden : TargetComparisonInput where
  target := target
  baseline := some (baseline { id := object, existence := .forbidden, fields := ∅ })
  snapshots := [some (snapshot "a" { id := object, presence := .unknown, fields := ∅ })]
  freshness := [fresh]

end Sample

theorem compliant_unknownForbidden_unsound :
    (compareTarget Sample.unknownForbidden {} {}).compliant = true ∧
      ¬ ∃ baseline primary, ComplianceSound {} {} Sample.unknownForbidden baseline primary := by
  refine ⟨by decide +kernel, ?_⟩
  rintro ⟨baseline, primary, hs⟩
  obtain rfl := Option.some.inj hs.committed
  obtain rfl := Option.some.inj hs.preferred
  have habs := (EvidenceView.presenceOf_eq_absent hs.toCompared.complete).mpr
    (hs.forbidden Sample.object { id := Sample.object, existence := .forbidden, fields := ∅ } (by rfl) rfl)
  revert habs
  decide +kernel

/-! ### Disagreeing sources -/

namespace EvidenceView

/-- Both views report the object present, with values for one field that stand in `relation`. -/
def FieldRelation (policy : ObservatoryPolicy) (lhs rhs : EvidenceView) (relation : ValueRelation) : Prop :=
  ∃ id reported other path v w, lhs.snapshot.findObject id = some reported ∧
    rhs.snapshot.findObject id = some other ∧ reported.presence = .present ∧ other.presence = .present ∧
    reported.fields.find? path = some v ∧ other.fields.find? path = some w ∧
    relateValues v w policy.numericEquivalence = relation

/-- The views report one object with different known presences. -/
def PresenceConflict (lhs rhs : EvidenceView) : Prop :=
  ∃ id reported other, lhs.snapshot.findObject id = some reported ∧ rhs.snapshot.findObject id = some other ∧
    reported.presence ≠ other.presence ∧ reported.presence ≠ .unknown ∧ other.presence ≠ .unknown

end EvidenceView

/-- Two different usable views among those the conflict scan reads are related by `R`. -/
def SomePair (policy : ObservatoryPolicy) (input : TargetComparisonInput)
    (R : EvidenceView → EvidenceView → Prop) : Prop :=
  ∃ (i j : Nat) (lhs rhs : EvidenceView), i ≠ j ∧ ((orderedViews policy input).take kMaxConflictSources)[i]? = some lhs ∧
    ((orderedViews policy input).take kMaxConflictSources)[j]? = some rhs ∧
    lhs.usable = true ∧ rhs.usable = true ∧ R lhs rhs

/-- Two usable sources disagree: they report a field of a present object with values that are not equal, or an
    object with different known presences. -/
def SourcesDisagree (policy : ObservatoryPolicy) (input : TargetComparisonInput) : Prop :=
  SomePair policy input fun lhs rhs =>
    (∃ relation, relation ≠ .equal ∧ EvidenceView.FieldRelation policy lhs rhs relation) ∨
      EvidenceView.PresenceConflict lhs rhs

section Disagreement
variable {policy : ObservatoryPolicy} {input : TargetComparisonInput} {lhs rhs : EvidenceView}

theorem EvidenceView.Agree.symm (h : EvidenceView.Agree policy lhs rhs) : EvidenceView.Agree policy rhs lhs := by
  intro id reported other hr ho
  obtain ⟨hdiff, hsame⟩ := h id other reported ho hr
  refine ⟨fun hne => (hdiff hne.symm).symm, fun he path v w hv hw => ?_⟩
  rw [relateValues_comm]
  exact hsame he.symm path w v hw hv

/-- Views that agree can differ in incomparable values only. -/
theorem EvidenceView.Agree.incomparable (h : EvidenceView.Agree policy lhs rhs)
    (hd : (∃ relation, relation ≠ .equal ∧ EvidenceView.FieldRelation policy lhs rhs relation) ∨
      EvidenceView.PresenceConflict lhs rhs) :
    EvidenceView.FieldRelation policy lhs rhs .incomparable := by
  rcases hd with ⟨relation, hne, id, reported, other, path, v, w, hr, ho, hp, hp', hv, hw, hrel⟩ |
    ⟨id, reported, other, hr, ho, hne, hu, hu'⟩
  · have hnd := (h id reported other hr ho).2 (hp.trans hp'.symm) path v w hv hw
    refine ⟨id, reported, other, path, v, w, hr, ho, hp, hp', hv, hw, ?_⟩
    cases relation with
    | equal => exact absurd rfl hne
    | different => exact absurd hrel hnd
    | incomparable => exact hrel
  · rcases (h id reported other hr ho).1 hne with h | h
    · exact absurd h hu
    · exact absurd h hu'

theorem Agreement.agree (h : Agreement policy (orderedViews policy input)) {i j : Nat} (hij : i ≠ j)
    (hi : ((orderedViews policy input).take kMaxConflictSources)[i]? = some lhs)
    (hj : ((orderedViews policy input).take kMaxConflictSources)[j]? = some rhs)
    (hl : lhs.usable = true) (hr : rhs.usable = true) : EvidenceView.Agree policy lhs rhs := by
  obtain ⟨hi', rfl⟩ := List.getElem?_eq_some_iff.mp hi
  obtain ⟨hj', rfl⟩ := List.getElem?_eq_some_iff.mp hj
  rcases lt_or_gt_of_ne hij with hlt | hlt
  · exact List.pairwise_iff_getElem.mp h i j hi' hj' hlt hl hr
  · exact (List.pairwise_iff_getElem.mp h j i hj' hi' hlt hr hl).symm

/-- Disagreeing sources keep a target from being compliant exactly when, nothing else blocking the comparison, no
    two usable sources report incomparable values for a field of an object both call present. -/
theorem disagreeing_not_compliant_iff (input : TargetComparisonInput) (policy : ObservatoryPolicy)
    (limits : RuntimeLimits) :
    (SourcesDisagree policy input → (compareTarget input policy limits).compliant ≠ true) ↔
    ∀ baseline primary, Unblocked policy input baseline primary →
      ¬ SomePair policy input fun lhs rhs => EvidenceView.FieldRelation policy lhs rhs .incomparable := by
  constructor
  · rintro h baseline primary hu ⟨i, j, lhs, rhs, hij, hi, hj, hl, hr, hinc⟩
    refine h ⟨i, j, lhs, rhs, hij, hi, hj, hl, hr, Or.inl ⟨.incomparable, by decide, hinc⟩⟩ ?_
    exact compliant_iff_unblocked.mpr ⟨baseline, primary, hu⟩
  · rintro h ⟨i, j, lhs, rhs, hij, hi, hj, hl, hr, hd⟩ hc
    obtain ⟨baseline, primary, hu⟩ := compliant_iff_unblocked.mp hc
    have hagree := hu.agreement.agree hij hi hj hl hr
    exact h baseline primary hu ⟨i, j, lhs, rhs, hij, hi, hj, hl, hr, hagree.incomparable hd⟩

end Disagreement

namespace Sample

/-- A field reported as an integer, as intended, by one source and as text by another. -/
def incomparableSources : TargetComparisonInput where
  target := target
  baseline := some (baseline { id := object, fields := OrdMap.ofList [(path, { path := path, intended := .makeInt 1 })] })
  snapshots :=
    [some (snapshot "a" { id := object, presence := .present, fields := OrdMap.ofList [(path, .makeInt 1)] }),
      some (snapshot "b" { id := object, presence := .present, fields := OrdMap.ofList [(path, .makeString [])] })]
  freshness := [fresh, fresh]

end Sample

theorem compliant_incomparableSources :
    SourcesDisagree {} Sample.incomparableSources ∧
      (compareTarget Sample.incomparableSources {} {}).compliant = true := by
  refine ⟨⟨0, 1, _, _, by decide, rfl, rfl, rfl, rfl, Or.inl ⟨.incomparable, by decide, ?_⟩⟩, by decide +kernel⟩
  exact ⟨Sample.object, _, _, Sample.path, _, _, rfl, rfl, rfl, rfl, rfl, rfl, by decide +kernel⟩

end DriftObservatory
