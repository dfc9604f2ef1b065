import DriftObservatory.Theorems.Sources

/-! Two runs of the comparator on inputs whose views are the images of one another. -/

namespace DriftObservatory

/-! ### The views -/

section Views
variable {policy policy' : ObservatoryPolicy} {input input' : TargetComparisonInput} {g : EvidenceView → EvidenceView}

/-- The image of a view stands where the view stands. -/
structure EvidenceView.KeepsOrder (g : EvidenceView → EvidenceView) : Prop where
  source : ∀ v, (g v).snapshot.source = v.snapshot.source
  sourceLess : ∀ a b, (g a).sourceLess (g b) = a.sourceLess b
  viewLess : ∀ a b, (g a).viewLess (g b) = a.viewLess b

theorem newestViews_map (hg : EvidenceView.KeepsOrder g)
    (hcollect : collectViews policy' input' = (collectViews policy input).map g) :
    newestViews policy' input' = (newestViews policy input).map g := by
  rw [newestViews, newestViews, hcollect, ← sortBy.map g hg.sourceLess, keepNewest_map hg.source]

theorem orderedViews_map (hg : EvidenceView.KeepsOrder g)
    (hcollect : collectViews policy' input' = (collectViews policy input).map g) :
    orderedViews policy' input' = (orderedViews policy input).map g := by
  rw [orderedViews, orderedViews, newestViews_map hg hcollect, ← sortBy.map g hg.viewLess]

theorem considered_map (hg : EvidenceView.KeepsOrder g)
    (hcollect : collectViews policy input' = (collectViews policy input).map g) (husable : ∀ v, (g v).usable = v.usable)
    (hstate : ∀ v, (g v).verdict.state = v.verdict.state) (hopen : openEvaluation input' = openEvaluation input) :
    considered policy input' = considered policy input := by
  unfold considered
  rw [newestViews_map hg hcollect, orderedViews_map hg hcollect, hcollect, hopen, List.length_map, List.length_map,
    List.length_map, List.countP_map, List.head?_map, Option.map_map]
  simp only [Function.comp_def, husable, hstate]

end Views

/-! ### The branches -/

/-- A branch whose conditions hold is the one that is taken. -/
theorem Branch.eq_compareTarget {policy : ObservatoryPolicy} {limits : RuntimeLimits} {input : TargetComparisonInput}
    {e : TargetEvaluation} (h : Branch policy limits input e) : compareTarget input policy limits = e := by
  cases h with
  | mismatched hcounts =>
    unfold compareTarget compareTargetWith
    rw [if_pos hcounts]
  | noIntent hcounts hnone =>
    unfold compareTarget compareTargetWith considered
    simp only [hcounts, ne_eq, not_true_eq_false, if_false, hnone]
  | @noEvidence baseline hcounts hsome hunusable =>
    unfold compareTarget compareTargetWith considered
    simp only [hcounts, ne_eq, not_true_eq_false, if_false, hsome]
    cases hviews : orderedViews policy input with
    | nil => rfl
    | cons primary rest =>
      have hany : (primary :: rest).any EvidenceView.usable = false := by
        rw [← hviews]
        exact List.any_eq_false.mpr fun v hv => by rw [hunusable v hv]; exact Bool.false_ne_true
      simp only [hany, Bool.false_eq_true, if_false]
  | compared hreaches => exact hreaches.compareTarget_eq

/-! ### The conflict scan -/

section Conflicts
variable {policy : ObservatoryPolicy} {limits : RuntimeLimits} {target : TargetId} {baseline : IntentBaseline}
  {g : EvidenceView → EvidenceView} {β : Type*} {φ : FindingDraft → β}

/-- The scan compares the images where it compares the views. -/
theorem map_conflictScan (husable : ∀ v, (g v).usable = v.usable) {views : List EvidenceView}
    (h : views.Pairwise fun lhs rhs => lhs.usable = true → rhs.usable = true →
      (pairConflicts policy limits target baseline (g lhs) (g rhs)).map φ =
        (pairConflicts policy limits target baseline lhs rhs).map φ) :
    (conflictScan policy limits target baseline (views.map g)).map φ =
      (conflictScan policy limits target baseline views).map φ := by
  induction views with
  | nil => rfl
  | cons lhs rest ih =>
    obtain ⟨hhead, htail⟩ := List.pairwise_cons.mp h
    rw [List.map_cons, conflictScan, conflictScan, husable, List.map_append, List.map_append, ih htail]
    refine congrArg (fun front => front ++ (conflictScan policy limits target baseline rest).map φ) ?_
    cases hl : lhs.usable with
    | false => simp only [Bool.false_eq_true, if_false]
    | true =>
      simp only [if_true, List.flatMap_map, List.map_flatMap, husable]
      refine List.flatMap_congr fun rhs hrhs => ?_
      cases hr : rhs.usable with
      | false => simp only [Bool.false_eq_true, if_false]
      | true =>
        simp only [if_true]
        exact hhead rhs hrhs hl hr

end Conflicts

/-! ### Other objects in the snapshots -/

/-- The snapshot with other reports of its objects, under no identity. -/
def ObservationSnapshot.redress (S : SourceId → ObjectId → ObservedObject → ObservedObject) (s : ObservationSnapshot) :
    ObservationSnapshot :=
  { s with snapshotId := default, objects := s.objects.mapValues (S s.source) }

def EvidenceView.redress (S : SourceId → ObjectId → ObservedObject → ObservedObject) (v : EvidenceView) : EvidenceView :=
  { v with snapshot := v.snapshot.redress S, contentDigest := (v.snapshot.redress S).computeContentDigest }

def TargetComparisonInput.redress (S : SourceId → ObjectId → ObservedObject → ObservedObject)
    (input : TargetComparisonInput) : TargetComparisonInput :=
  { input with snapshots := input.snapshots.map (Option.map (ObservationSnapshot.redress S)) }

/-- A reference to evidence without the identity and the digest of the snapshot. -/
def EvidenceRef.blind (r : EvidenceRef) : EvidenceRef := { r with snapshot := default, contentDigest := default }

def FindingDraft.blind (d : FindingDraft) : FindingDraft := { d with evidence := d.evidence.map EvidenceRef.blind }

section Redress
variable {policy : ObservatoryPolicy} {limits : RuntimeLimits} {target : TargetId} {baseline : IntentBaseline}
  {S : SourceId → ObjectId → ObservedObject → ObservedObject} {input : TargetComparisonInput} {views : List EvidenceView}
  {primary : EvidenceView} {e e' : TargetEvaluation} {d d' : FindingDraft} {v : EvidenceView}

theorem keepsOrder_redress : EvidenceView.KeepsOrder (EvidenceView.redress S) :=
  ⟨fun _ => rfl, fun _ _ => rfl, fun _ _ => rfl⟩

theorem collectViews_redress : collectViews policy (input.redress S) =
    (collectViews policy input).map (EvidenceView.redress S) := by
  simp only [collectViews, TargetComparisonInput.redress, List.zip_map_left, List.filterMap_map, List.map_filterMap]
  refine List.filterMap_congr fun p _ => ?_
  cases hp : p.1 with
  | none => simp [hp]
  | some snapshot =>
    simp only [Function.comp_apply, Prod.map, id, hp, Option.map_some]
    rfl

theorem redress_redress {S' S'' : SourceId → ObjectId → ObservedObject → ObservedObject}
    (h : ∀ source id o, S' source id (S source id o) = S'' source id o) :
    (input.redress S).redress S' = input.redress S'' := by
  have hsnapshot : ∀ s : ObservationSnapshot, (s.redress S).redress S' = s.redress S'' := by
    intro s
    have hobjects : (s.objects.mapValues (S s.source)).mapValues (S' s.source) = s.objects.mapValues (S'' s.source) := by
      refine OrdMap.ext_find? fun id => ?_
      simp only [OrdMap.find?_mapValues, Option.map_map, Function.comp_def, h]
    exact congrArg (fun objects => { s with snapshotId := default, objects := objects }) hobjects
  simp only [TargetComparisonInput.redress, List.map_map, Function.comp_def, Option.map_map, hsnapshot]

theorem orderedViews_redress : orderedViews policy (input.redress S) =
    (orderedViews policy input).map (EvidenceView.redress S) :=
  orderedViews_map keepsOrder_redress collectViews_redress

theorem Reaches.redress {rest : List EvidenceView} (h : Reaches policy input baseline primary rest) :
    Reaches policy (input.redress S) baseline (primary.redress S) (rest.map (EvidenceView.redress S)) :=
  ⟨(List.length_map _).trans h.counts, h.committed, by rw [orderedViews_redress, h.views]; rfl, h.usable⟩

theorem reaches_redress {view : EvidenceView} {rest : List EvidenceView}
    (h : Reaches policy (input.redress S) baseline view rest) : ∃ primary rest', Reaches policy input baseline primary rest' ∧
      view :: rest = (primary :: rest').map (EvidenceView.redress S) := by
  have hviews := h.views
  rw [orderedViews_redress] at hviews
  obtain ⟨primary, rest', horiginal, rfl, rfl⟩ := List.map_eq_cons_iff.mp hviews
  exact ⟨primary, rest', ⟨(List.length_map _).symm.trans h.counts, h.committed, horiginal, h.usable⟩, rfl⟩

/-- Evidence is the same to the blind, whatever the objects. -/
theorem blind_attachEvidence (h : d.blind = d'.blind) :
    (attachEvidence limits d (v.redress S)).blind = (attachEvidence limits d' v).blind := by
  have hattach : ∀ (d : FindingDraft) (v : EvidenceView), (attachEvidence limits d v).blind =
      if limits.maxEvidenceRefsPerFinding ≤ d.blind.evidence.length then d.blind
      else { d.blind with evidence := d.blind.evidence ++ [v.makeRef.blind] } := by
    intro d v
    simp only [attachEvidence, FindingDraft.blind, List.length_map]
    split_ifs <;> simp
  rw [hattach, hattach, h]
  rfl

theorem blind_foldl_attachEvidence (h : d.blind = d'.blind) :
    ((views.map (EvidenceView.redress S)).foldl (attachEvidence limits) d).blind =
      (views.foldl (attachEvidence limits) d').blind := by
  induction views generalizing d d' with
  | nil => exact h
  | cons v rest ih => exact ih (blind_attachEvidence h)

/-- What a comparison says but for the snapshots and digests that its evidence names. -/
structure TargetEvaluation.Unmoved (e e' : TargetEvaluation) : Prop where
  decidable : e'.complianceDecidable = e.complianceDecidable
  compliant : e'.compliant = e.compliant
  reason : e'.decisionReason = e.decisionReason
  drafts : e'.drafts.map FindingDraft.blind = e.drafts.map FindingDraft.blind

theorem TargetEvaluation.Unmoved.symm (h : e.Unmoved e') : e'.Unmoved e :=
  ⟨h.decidable.symm, h.compliant.symm, h.reason.symm, h.drafts.symm⟩

theorem TargetEvaluation.Unmoved.trans {e'' : TargetEvaluation} (h : e.Unmoved e') (h' : e'.Unmoved e'') : e.Unmoved e'' :=
  ⟨h'.decidable.trans h.decidable, h'.compliant.trans h.compliant, h'.reason.trans h.reason, h'.drafts.trans h.drafts⟩

@[simp] theorem decisionReason_appendTrace {text : Text} : (e.appendTrace text).decisionReason = e.decisionReason := by
  unfold TargetEvaluation.appendTrace
  split_ifs <;> rfl

@[simp] theorem decisionReason_appendTraceIf {condition : Bool} {text : Text} :
    (e.appendTraceIf condition text).decisionReason = e.decisionReason := by
  cases condition <;> simp [TargetEvaluation.appendTraceIf]

theorem any_blind {p : FindingDraft → Bool} (hp : ∀ d : FindingDraft, p d.blind = p d) {ds ds' : List FindingDraft}
    (h : ds'.map FindingDraft.blind = ds.map FindingDraft.blind) : ds'.any p = ds.any p := by
  have hany : ∀ ds : List FindingDraft, (ds.map FindingDraft.blind).any p = ds.any p := fun ds => by
    rw [List.any_map]
    exact congrArg ds.any (funext hp)
  rw [← hany, h, hany]

theorem firstActionable_blind {ds ds' : List FindingDraft}
    (h : ds'.map FindingDraft.blind = ds.map FindingDraft.blind) : firstActionable ds' = firstActionable ds := by
  have hsame : ∀ ds : List FindingDraft, firstActionable (ds.map FindingDraft.blind) = firstActionable ds := fun ds => by
    simp only [firstActionable, List.filter_map, List.map_map]
    rfl
  rw [← hsame, h, hsame]

/-- The decision reads the drafts as the blind see them. -/
theorem unmoved_decideCompliance {coverageOk : Bool} (h : e'.drafts.map FindingDraft.blind = e.drafts.map FindingDraft.blind) :
    (decideCompliance e coverageOk).Unmoved (decideCompliance e' coverageOk) := by
  have hdecision := any_blind (p := FindingDraft.blocksDecision) (fun _ => rfl) h
  have hcompliance := any_blind (p := FindingDraft.blocksCompliance) (fun _ => rfl) h
  have hfirst := firstActionable_blind h
  constructor <;>
    simp only [decideCompliance, TargetEvaluation.complianceDecidable_appendTrace, TargetEvaluation.compliant_appendTrace,
      TargetEvaluation.complianceDecidable_appendTraceIf, TargetEvaluation.compliant_appendTraceIf,
      decisionReason_appendTrace, decisionReason_appendTraceIf, TargetEvaluation.drafts_appendTrace,
      TargetEvaluation.drafts_appendTraceIf, hdecision, hcompliance, hfirst, h]

theorem Reaches.unmoved_redress {rest : List EvidenceView} (h : Reaches policy input baseline primary rest)
    (hdrafts : (comparedDrafts policy limits input.target baseline ((primary :: rest).map (EvidenceView.redress S))
      (primary.redress S)).map FindingDraft.blind =
        (comparedDrafts policy limits input.target baseline (primary :: rest) primary).map FindingDraft.blind) :
    (compareTarget input policy limits).Unmoved (compareTarget (input.redress S) policy limits) := by
  rw [h.compareTarget_eq, h.redress.compareTarget_eq]
  exact unmoved_decideCompliance hdrafts

theorem unmoved_noIntentEvaluation (h : e.drafts = []) :
    (noIntentEvaluation policy limits target views e).Unmoved
      (noIntentEvaluation policy limits target (views.map (EvidenceView.redress S)) e) := by
  refine ⟨rfl, rfl, rfl, ?_⟩
  unfold noIntentEvaluation
  dsimp only
  split_ifs
  · simp only [TargetEvaluation.drafts_appendTrace, List.map_cons, List.map_nil]
    cases views with
    | nil => rfl
    | cons v rest =>
      have hblind := @blind_attachEvidence limits S _ _ v (@rfl _ (FindingDraft.blind
        { makeDraft policy target .unset kTargetScopeObjectId [] .intentMissing with
          reason := .classifiedNoIntent
          rationale := [ascii "policy requires this target to be managed",
            ascii "no intent generation is committed for this target"] }))
      exact congrArg (fun d : FindingDraft => [{ d with complianceRelevant := v.usable }]) hblind
  · rw [TargetEvaluation.drafts_appendTrace, h]

theorem unmoved_noEvidenceEvaluation :
    (noEvidenceEvaluation policy limits target baseline views e).Unmoved
      (noEvidenceEvaluation policy limits target baseline (views.map (EvidenceView.redress S)) e) := by
  have hdraft := fun d => @blind_foldl_attachEvidence limits S views d d rfl
  cases views with
  | nil => exact ⟨rfl, rfl, rfl, rfl⟩
  | cons v rest =>
    constructor <;>
      simp only [noEvidenceEvaluation, TargetEvaluation.complianceDecidable_appendTrace,
        TargetEvaluation.compliant_appendTrace, decisionReason_appendTrace, TargetEvaluation.drafts_appendTrace,
        List.map_cons, List.map_nil]
    · rfl
    · exact congrArg (fun d => [d]) (hdraft _)

/-- Short of the primary view, the objects of the snapshots are not read. -/
theorem unmoved_redress_of_not_reaches (h : ∀ baseline primary rest, ¬ Reaches policy input baseline primary rest) :
    (compareTarget input policy limits).Unmoved (compareTarget (input.redress S) policy limits) := by
  have hviews := @orderedViews_redress policy S input
  have hcounts : (input.redress S).snapshots.length = input.snapshots.length := List.length_map _
  have hconsidered : considered policy (input.redress S) = considered policy input :=
    considered_map keepsOrder_redress collectViews_redress (fun _ => rfl) (fun _ => rfl) rfl
  have hbranch := @branch_compareTarget policy limits input
  generalize compareTarget input policy limits = evaluation at hbranch ⊢
  cases hbranch with
  | mismatched hmismatched =>
    rw [(Branch.mismatched (hcounts ▸ hmismatched)).eq_compareTarget]
    exact ⟨rfl, rfl, rfl, rfl⟩
  | noIntent hequal hnone =>
    rw [(Branch.noIntent (hcounts.trans hequal) hnone).eq_compareTarget, hconsidered, hviews]
    exact unmoved_noIntentEvaluation drafts_considered
  | noEvidence hequal hsome hunusable =>
    rw [(Branch.noEvidence (hcounts.trans hequal) hsome ?_).eq_compareTarget, hconsidered, hviews]
    · exact unmoved_noEvidenceEvaluation
    · rw [hviews]
      exact List.forall_mem_map.mpr hunusable
  | compared hreaches => exact absurd hreaches (h _ _ _)

end Redress

/-! ### What is seen of the drafts -/

/-- What is seen of a draft tells its class, and the regrouping step does not tell apart what looks alike. -/
structure FindingDraft.Seen {β : Type*} (φ : FindingDraft → β) : Prop where
  klass : ∀ d d' : FindingDraft, φ d = φ d' → d.klass = d'.klass
  regroupDraft : ∀ policy isPartial qualifier (d d' : FindingDraft), φ d = φ d' →
    φ (regroupDraft policy isPartial qualifier d) = φ (regroupDraft policy isPartial qualifier d')

section Seen
variable {β : Type*} {φ : FindingDraft → β} {policy : ObservatoryPolicy} {limits : RuntimeLimits} {target : TargetId}
  {baseline : IntentBaseline} {S : SourceId → ObjectId → ObservedObject → ObservedObject} {views : List EvidenceView}
  {primary lhs rhs v : EvidenceView} {id : ObjectId}

theorem findObject_redress : (v.redress S).snapshot.findObject id =
    (v.snapshot.findObject id).map (S v.snapshot.source id) :=
  OrdMap.find?_mapValues

theorem presenceOf_redress (hS : ∀ source id o, (S source id o).presence = o.presence) :
    (v.redress S).presenceOf id = v.presenceOf id := by
  unfold EvidenceView.presenceOf
  rw [findObject_redress]
  cases v.snapshot.findObject id with
  | none => rfl
  | some o => exact hS _ _ _

theorem entries_redress : (v.redress S).snapshot.objects.entries =
    v.snapshot.objects.entries.map fun entry => (entry.1, S v.snapshot.source entry.1 entry.2) := rfl

/-- Two views look alike to the conflict scan when they do so about the fields of each object. -/
theorem map_pairConflicts (hS : ∀ source id o, (S source id o).presence = o.presence)
    (hdraft : ∀ object path observed intended what,
      φ (conflictDraft policy limits target baseline (lhs.redress S) (rhs.redress S) object path observed intended what) =
        φ (conflictDraft policy limits target baseline lhs rhs object path observed intended what))
    (hfields : ∀ id reported other, lhs.snapshot.findObject id = some reported → rhs.snapshot.findObject id = some other →
      reported.presence = other.presence →
      (fieldConflicts policy limits target baseline (lhs.redress S) (rhs.redress S) id
        (S lhs.snapshot.source id reported) (S rhs.snapshot.source id other)).map φ =
          (fieldConflicts policy limits target baseline lhs rhs id reported other).map φ) :
    (pairConflicts policy limits target baseline (lhs.redress S) (rhs.redress S)).map φ =
      (pairConflicts policy limits target baseline lhs rhs).map φ := by
  rw [pairConflicts, pairConflicts, entries_redress, List.flatMap_map, List.map_flatMap, List.map_flatMap]
  refine List.flatMap_congr fun entry hentry => ?_
  have hreported := OrdMap.mem_entries_iff.mp hentry
  unfold objectConflicts
  rw [findObject_redress]
  cases hother : rhs.snapshot.findObject entry.1 with
  | none => rfl
  | some other =>
    simp only [Option.map_some, hS]
    by_cases hsame : entry.2.presence = other.presence
    · rw [if_neg (not_not.mpr hsame), if_neg (not_not.mpr hsame)]
      exact hfields entry.1 entry.2 other hreported hother hsame
    · rw [if_pos hsame, if_pos hsame]
      split_ifs
      · rfl
      · simp only [List.map_cons, List.map_nil, hdraft]

theorem map_conflictDrafts (h : (views.take kMaxConflictSources).Pairwise fun lhs rhs =>
      lhs.usable = true → rhs.usable = true →
        (pairConflicts policy limits target baseline (lhs.redress S) (rhs.redress S)).map φ =
          (pairConflicts policy limits target baseline lhs rhs).map φ) :
    (conflictDrafts policy limits target baseline (views.map (EvidenceView.redress S))).map φ =
      (conflictDrafts policy limits target baseline views).map φ := by
  rw [conflictDrafts, conflictDrafts, ← List.map_take]
  exact @map_conflictScan policy limits target baseline (EvidenceView.redress S) _ φ (fun _ => rfl) _ h

/-- Two primary views look alike when they do so about the fields of each declared object. -/
theorem map_primaryDrafts (hS : ∀ source id o, (S source id o).presence = o.presence)
    (hdraft : ∀ object path klass reason intended observed rationale,
      φ (primaryDraft policy limits target baseline (primary.redress S) object path klass reason intended observed rationale) =
        φ (primaryDraft policy limits target baseline primary object path klass reason intended observed rationale))
    (hfields : ∀ id declared observed, baseline.objects.find? id = some declared →
      (objectFieldDrafts policy limits target baseline (primary.redress S) id declared
        (S primary.snapshot.source id observed)).map φ =
          (objectFieldDrafts policy limits target baseline primary id declared observed).map φ) :
    (primaryDrafts policy limits target baseline (primary.redress S)).map φ =
      (primaryDrafts policy limits target baseline primary).map φ := by
  unfold primaryDrafts
  rw [List.map_append, List.map_append, List.map_flatMap, List.map_flatMap, List.map_flatMap, List.map_flatMap]
  congr 1
  · refine List.flatMap_congr fun entry hentry => ?_
    have hdeclared := OrdMap.mem_entries_iff.mp hentry
    unfold declaredObjectDrafts
    rw [presenceOf_redress hS]
    dsimp only
    cases entry.2.existence <;> cases hpresence : primary.presenceOf entry.1
    case required.present =>
      obtain ⟨observed, hfound, -⟩ := EvidenceView.presenceOf_eq_present.mp hpresence
      simp only [findObject_redress, hfound, Option.map_some]
      exact hfields entry.1 entry.2 observed hdeclared
    case required.absent =>
      have hauthority : (primary.redress S).absenceAuthority = primary.absenceAuthority := rfl
      simp only [hauthority]
      split_ifs
      · simp only [List.map_cons, List.map_nil, hdraft]
      · simp only [List.map_cons, List.map_nil, hdraft]
    case required.unknown =>
      have hunobserved : (primary.redress S).snapshot.declaresUnobserved entry.1 =
        primary.snapshot.declaresUnobserved entry.1 := rfl
      simp only [List.map_cons, List.map_nil, hdraft, hunobserved]
    case forbidden.present => simp only [List.map_cons, List.map_nil, hdraft]
    case forbidden.absent => rfl
    case forbidden.unknown => rfl
  · rw [entries_redress, List.flatMap_map]
    refine List.flatMap_congr fun entry _ => ?_
    unfold undeclaredObjectDrafts
    rw [hS]
    split_ifs
    · rfl
    · simp only [List.map_cons, List.map_nil, hdraft]

theorem map_declaredFieldDrafts {observed observed' : ObservedObject} {path : FieldPath} {field : IntentField}
    (hdraft : ∀ klass reason intended found rationale,
      φ (primaryDraft policy limits target baseline (primary.redress S) id path klass reason intended found rationale) =
        φ (primaryDraft policy limits target baseline primary id path klass reason intended found rationale))
    (hfind : isReservedPath path = false → observed'.fields.find? path = observed.fields.find? path) :
    (declaredFieldDrafts policy limits target baseline (primary.redress S) id observed' path field).map φ =
      (declaredFieldDrafts policy limits target baseline primary id observed path field).map φ := by
  have hvisible : (primary.redress S).fieldVisible id path = primary.fieldVisible id path := rfl
  unfold declaredFieldDrafts
  dsimp only
  cases hreserved : isReservedPath path with
  | true => simp only [if_true]
  | false =>
    simp only [Bool.false_eq_true, if_false]
    cases policy.classifyField target id path field.comparability with
    | managed =>
      dsimp only
      rw [hfind hreserved]
      cases observed.fields.find? path with
      | none =>
        dsimp only
        rw [hvisible]
        split_ifs
        · simp only [List.map_cons, List.map_nil, hdraft]
        · simp only [List.map_cons, List.map_nil, hdraft]
      | some value =>
        dsimp only
        cases relateValues field.intended value policy.numericEquivalence with
        | equal => rfl
        | incomparable => simp only [List.map_cons, List.map_nil, hdraft]
        | different => simp only [List.map_cons, List.map_nil, hdraft]
    | observeOnly => rfl
    | unmanaged => rfl
    | unobservable => simp only [List.map_cons, List.map_nil, hdraft]
    | unsupported => simp only [List.map_cons, List.map_nil, hdraft]

/-- Drafts that look alike are regrouped alike. -/
theorem map_regroupDrafts (hφ : FindingDraft.Seen φ) {scan : GenerationScan} {generation : IntentGeneration}
    {ds ds' : List FindingDraft} (h : ds'.map φ = ds.map φ) :
    (regroupDrafts policy scan generation ds').map φ = (regroupDrafts policy scan generation ds).map φ := by
  have hall : List.Forall₂ (fun d' d => φ d' = φ d) ds' ds := by
    rw [← List.forall₂_eq_eq_eq, List.forall₂_map_left_iff, List.forall₂_map_right_iff] at h
    exact h
  have hany : ds'.any (fun d => isDeviation d.klass) = ds.any fun d => isDeviation d.klass := by
    clear h
    induction hall with
    | nil => rfl
    | cons hd _ ih => rw [List.any_cons, List.any_cons, ih, hφ.klass _ _ hd]
  have hregrouping : regrouping scan generation ds' = regrouping scan generation ds := by
    rw [regrouping, regrouping, hany]
  unfold regroupDrafts
  rw [hregrouping]
  cases regrouping scan generation ds with
  | none => exact h
  | some isPartial =>
    dsimp only
    rw [← List.forall₂_eq_eq_eq, List.forall₂_map_left_iff, List.forall₂_map_left_iff, List.forall₂_map_right_iff,
      List.forall₂_map_right_iff]
    exact hall.imp fun d d' hd => hφ.regroupDraft _ _ _ _ _ hd

end Seen

/-! ### The conflicts that are seen -/

section Contradictions
variable {policy : ObservatoryPolicy} {limits : RuntimeLimits} {input : TargetComparisonInput} {baseline : IntentBaseline}
  {primary : EvidenceView} {rest : List EvidenceView}

theorem Reaches.exists_conflict {spot : ObjectId × FieldPath × Digest} (h : Reaches policy input baseline primary rest) :
    (∃ d ∈ (compareTarget input policy limits).drafts, d.klass = .sourceConflict ∧ d.spot = spot) ↔
      ¬ ((primary :: rest).take kMaxConflictSources).Pairwise fun lhs rhs => lhs.usable = true → rhs.usable = true →
        ¬ EvidenceView.Contradicts policy lhs rhs spot := by
  rw [h.compareTarget_eq, drafts_compareWithPrimary, exists_mem_comparedDrafts,
    ← @forall_mem_conflictScan policy limits input.target baseline spot]
  simp only [ne_eq, not_forall, not_not, exists_prop]
  rfl

/-- Where one dress of the snapshots draws no contradiction at a spot, neither does another that draws no more conflicts. -/
theorem Reaches.pairwise_not_contradicts {S S' : SourceId → ObjectId → ObservedObject → ObservedObject}
    {spot : ObjectId × FieldPath × Digest} (h : Reaches policy input baseline primary rest)
    (hconflicts : (∃ d ∈ (compareTarget (input.redress S') policy limits).drafts, d.klass = .sourceConflict ∧ d.spot = spot) →
      ∃ d ∈ (compareTarget (input.redress S) policy limits).drafts, d.klass = .sourceConflict ∧ d.spot = spot)
    (hnone : ∀ lhs rhs : EvidenceView, ¬ EvidenceView.Contradicts policy (lhs.redress S) (rhs.redress S) spot) :
    ((primary :: rest).take kMaxConflictSources).Pairwise fun lhs rhs => lhs.usable = true → rhs.usable = true →
      ¬ EvidenceView.Contradicts policy (lhs.redress S') (rhs.redress S') spot := by
  by_contra hcontradicts
  refine (h.redress.exists_conflict).mp (hconflicts ((h.redress.exists_conflict).mpr ?_)) ?_
  · rw [← List.map_cons, ← List.map_take, List.pairwise_map]
    exact hcontradicts
  · rw [← List.map_cons, ← List.map_take]
    exact List.pairwise_map.mpr (List.pairwise_of_forall fun lhs rhs _ _ => hnone lhs rhs)

end Contradictions

end DriftObservatory
