import DriftObservatory.Policy
import DriftObservatory.Lib.Lists

/-! The comparator: the newest claim of each source is compared with the committed intent, and every
    difference, gap or disagreement becomes a finding draft. A target complies only when a decidable
    comparison leaves no draft. -/

namespace DriftObservatory

def kTargetScopeObjectId : ObjectId := ⟨ascii "@target"⟩

/-- The reserved marker with which a source reports the generation an object has applied. -/
def kAppliedGenerationPath : FieldPath := [.key (ascii "@applied-generation")]

/-- Sources considered for cross-source conflict detection. -/
def kMaxConflictSources : Nat := 8

def kMaxTraceEntries : Nat := 64

namespace DriftClass

def isActionable : DriftClass → Bool
  | missing | unexpected | valueMismatch | fieldMissing | fieldUnexpected | generationMismatch
  | partialApplication | sourceConflict => true
  | _ => false

def isIndeterminate : DriftClass → Bool
  | staleObservation | unknown | evidenceInvalid => true
  | _ => false

end DriftClass

/-! ### Drafts and evaluations -/

structure EvidenceRef where
  source : SourceId
  snapshot : SnapshotId
  epoch : FabricEpoch
  incarnation : Incarnation
  sequence : SourceSequence
  collectedAt : NdoTime
  receivedAt : NdoTime
  freshness : FreshnessState
  contentDigest : Digest
  coverage : ObservationCoverage
  evidence : EvidenceClass
deriving DecidableEq

/-- One difference before it becomes a finding. `intended` and `observed` are set when the source's
    `has_intended` and `has_observed` flags are. -/
structure FindingDraft where
  target : TargetId
  object : ObjectId
  path : FieldPath
  klass : DriftClass
  rawClass : DriftClass
  severity : Severity
  reason : ReasonCode := .none
  baselineGeneration : IntentGeneration
  baselineEpoch : FabricEpoch
  baselineAuthority : IntentAuthority
  intended : Option Value := none
  observed : Option Value := none
  evidence : List EvidenceRef := []
  qualifier : Digest := Digest.zero
  complianceRelevant : Bool := true
  rationale : List Text := []

/-- The result of comparing one target. -/
structure TargetEvaluation where
  target : TargetId := default
  hasBaseline : Bool := false
  baselineGeneration : IntentGeneration := default
  baselineEpoch : FabricEpoch := default
  baselineAuthority : IntentAuthority := .unknown
  bestFreshness : FreshnessState := .unknown
  sourcesConsidered : Nat := 0
  freshSources : Nat := 0
  complianceDecidable : Bool := false
  compliant : Bool := false
  decisionReason : ReasonCode := .noFreshEvidence
  drafts : List FindingDraft := []
  trace : List Text := []

namespace TargetEvaluation

def appendTrace (e : TargetEvaluation) (text : Text) : TargetEvaluation :=
  if kMaxTraceEntries ≤ e.trace.length then e else { e with trace := e.trace ++ [text] }

def appendTraceIf (e : TargetEvaluation) (condition : Bool) (text : Text) : TargetEvaluation :=
  if condition then e.appendTrace text else e

end TargetEvaluation

structure EvaluationOutcome where
  now : NdoTime
  epoch : FabricEpoch
  incarnation : Incarnation
  policy : PolicyId
  policyDigest : Digest
  resolutionConfirmations : UInt32 := 1
  sequence : Nat := 0
  targets : List TargetEvaluation := []

/-- What one comparison reads; a null snapshot pointer is `none`. -/
structure TargetComparisonInput where
  target : TargetId
  baseline : Option IntentBaseline
  snapshots : List (Option ObservationSnapshot)
  freshness : List FreshnessVerdict

/-! ### Evidence views -/

structure EvidenceView where
  snapshot : ObservationSnapshot
  verdict : FreshnessVerdict
  usable : Bool
  complete : Bool
  absenceAuthority : Bool
  priority : Nat
  contentDigest : Digest

def priorityOf (policy : ObservatoryPolicy) (source : SourceId) : Nat := policy.sourcePriority.idxOf source

namespace EvidenceView

def make (policy : ObservatoryPolicy) (snapshot : ObservationSnapshot) (verdict : FreshnessVerdict) : EvidenceView where
  snapshot := snapshot
  verdict := verdict
  usable := verdict.maySupportCompliance
  complete := snapshot.declaresCompleteCoverage
  absenceAuthority := snapshot.capabilities.assertsAbsence
  priority := priorityOf policy snapshot.source
  contentDigest := snapshot.computeContentDigest

/-- Newer first: greater epoch, then incarnation, then sequence. -/
def newerThan (lhs rhs : EvidenceView) : Bool :=
  if lhs.snapshot.epoch ≠ rhs.snapshot.epoch then rhs.snapshot.epoch < lhs.snapshot.epoch
  else if lhs.snapshot.incarnation ≠ rhs.snapshot.incarnation then
    rhs.snapshot.incarnation < lhs.snapshot.incarnation
  else rhs.snapshot.sequence < lhs.snapshot.sequence

/-- The order of the first sort: by source, newest first. -/
def sourceLess (lhs rhs : EvidenceView) : Bool :=
  if lhs.snapshot.source ≠ rhs.snapshot.source then lhs.snapshot.source < rhs.snapshot.source
  else lhs.newerThan rhs

/-- Usable evidence first, then authority order, coverage, recency and source identity. -/
def viewLess (lhs rhs : EvidenceView) : Bool :=
  if lhs.usable ≠ rhs.usable then lhs.usable
  else if lhs.priority ≠ rhs.priority then lhs.priority < rhs.priority
  else if lhs.complete ≠ rhs.complete then lhs.complete
  else if lhs.snapshot.epoch ≠ rhs.snapshot.epoch then rhs.snapshot.epoch < lhs.snapshot.epoch
  else if lhs.snapshot.incarnation ≠ rhs.snapshot.incarnation then
    rhs.snapshot.incarnation < lhs.snapshot.incarnation
  else if lhs.snapshot.sequence ≠ rhs.snapshot.sequence then rhs.snapshot.sequence < lhs.snapshot.sequence
  else lhs.snapshot.source < rhs.snapshot.source

def makeRef (view : EvidenceView) : EvidenceRef where
  source := view.snapshot.source
  snapshot := view.snapshot.snapshotId
  epoch := view.snapshot.epoch
  incarnation := view.snapshot.incarnation
  sequence := view.snapshot.sequence
  collectedAt := view.snapshot.collectedAt
  receivedAt := view.snapshot.receivedAt
  freshness := view.verdict.state
  contentDigest := view.contentDigest
  coverage := view.snapshot.coverage
  evidence := view.snapshot.evidence

def objectFullyVisible (view : EvidenceView) (id : ObjectId) : Bool :=
  !view.snapshot.declaresUnobserved id && view.complete

/-- A flat reporter cannot prove the absence of a nested member. -/
def fieldVisible (view : EvidenceView) (id : ObjectId) (path : FieldPath) : Bool :=
  view.objectFullyVisible id && !(1 < path.length && !view.snapshot.capabilities.reportsNestedPaths)

/-- What the view says about an object: its report, or absence under full visibility. -/
def presenceOf (view : EvidenceView) (id : ObjectId) : ObjectPresence :=
  match view.snapshot.findObject id with
  | some observed => observed.presence
  | none =>
    if view.snapshot.declaresUnobserved id then .unknown
    else if view.objectFullyVisible id then .absent
    else .unknown

end EvidenceView

/-- The loop that keeps one view for each source; `last` is the source of the view kept last. -/
def keepNewest : Option SourceId → List EvidenceView → List EvidenceView
  | _, [] => []
  | last, view :: rest =>
    if last = some view.snapshot.source then keepNewest last rest
    else view :: keepNewest (some view.snapshot.source) rest

def collectViews (policy : ObservatoryPolicy) (input : TargetComparisonInput) : List EvidenceView :=
  (input.snapshots.zip input.freshness).filterMap fun p => p.1.map fun snapshot => .make policy snapshot p.2

def newestViews (policy : ObservatoryPolicy) (input : TargetComparisonInput) : List EvidenceView :=
  keepNewest none (sortBy EvidenceView.sourceLess (collectViews policy input))

/-- The views in the order in which the comparator consults them; the first is the primary. -/
def orderedViews (policy : ObservatoryPolicy) (input : TargetComparisonInput) : List EvidenceView :=
  sortBy EvidenceView.viewLess (newestViews policy input)

/-! ### Building drafts -/

def isReservedObjectId (id : ObjectId) : Bool := id.str.head? == some 0x40

def isReservedPath (path : FieldPath) : Bool :=
  match path with
  | .key text :: _ => text.head? == some 0x40
  | _ => false

def conflictQualifier (first second : SourceId) : Digest :=
  let low := if first < second then first else second
  let high := if first < second then second else first
  hashBytes (lengthPrefixed (ascii "ndo/source-conflict/v1") ++ lengthPrefixed low.str ++ lengthPrefixed high.str)

def generationQualifier (kind : Text) (intended : IntentGeneration) (applied : List UInt64) : Digest :=
  hashBytes (lengthPrefixed (ascii "ndo/generation-divergence/v1") ++ lengthPrefixed kind ++
    bigEndian64 intended.value ++ bigEndian64 (UInt64.ofNat applied.length) ++ applied.flatMap bigEndian64)

/-- A default-constructed baseline, for a target without committed intent. -/
def IntentBaseline.unset : IntentBaseline where
  target := default
  generation := default
  epoch := default
  authority := .unknown
  policy := default
  committedAt := default
  contentDigest := default
  evidence := .unknown
  objects := ∅

section Drafting
variable (policy : ObservatoryPolicy) (limits : RuntimeLimits) (target : TargetId) (baseline : IntentBaseline)

def makeDraft (object : ObjectId) (path : FieldPath) (klass : DriftClass) : FindingDraft where
  target := target
  object := object
  path := path
  klass := klass
  rawClass := klass
  baselineGeneration := baseline.generation
  baselineEpoch := baseline.epoch
  baselineAuthority := baseline.authority
  severity := policy.severityFor target object path klass

def attachEvidence (draft : FindingDraft) (view : EvidenceView) : FindingDraft :=
  if limits.maxEvidenceRefsPerFinding ≤ draft.evidence.length then draft
  else { draft with evidence := draft.evidence ++ [view.makeRef] }

/-! ### Cross-source conflicts -/

def conflictDraft (lhs rhs : EvidenceView) (object : ObjectId) (path : FieldPath) (observed intended : Value)
    (what : Text) : FindingDraft :=
  attachEvidence limits (attachEvidence limits
    { makeDraft policy target baseline object path .sourceConflict with
      reason := .observationSourcesDisagree
      qualifier := conflictQualifier lhs.snapshot.source rhs.snapshot.source
      observed := some observed
      intended := some intended
      rationale := [ascii "sources " ++ lhs.snapshot.source.str ++ ascii " and " ++ rhs.snapshot.source.str ++ what] }
    lhs) rhs

/-- The fields both views report for an object and definitely disagree about. -/
def fieldConflicts (lhs rhs : EvidenceView) (id : ObjectId) (reported other : ObservedObject) : List FindingDraft :=
  reported.fields.entries.flatMap fun field =>
    match other.fields.find? field.1 with
    | none => []
    | some value =>
      if relateValues field.2 value policy.numericEquivalence = .different then
        [conflictDraft policy limits target baseline lhs rhs id field.1 field.2 value
          (ascii " disagree about this field")]
      else []

def objectConflicts (lhs rhs : EvidenceView) (id : ObjectId) (reported : ObservedObject) : List FindingDraft :=
  match rhs.snapshot.findObject id with
  | none => []
  | some other =>
    if reported.presence ≠ other.presence then
      if reported.presence = .unknown ∨ other.presence = .unknown then []
      else [conflictDraft policy limits target baseline lhs rhs id [] (.makeString reported.presence.toText)
        (.makeString other.presence.toText) (ascii " disagree about object presence")]
    else fieldConflicts policy limits target baseline lhs rhs id reported other

def pairConflicts (lhs rhs : EvidenceView) : List FindingDraft :=
  lhs.snapshot.objects.entries.flatMap fun entry => objectConflicts policy limits target baseline lhs rhs entry.1 entry.2

/-- The two nested loops over the views: each usable view against every later usable one. -/
def conflictScan : List EvidenceView → List FindingDraft
  | [] => []
  | lhs :: rest =>
    (if lhs.usable then
      rest.flatMap fun rhs => if rhs.usable then pairConflicts policy limits target baseline lhs rhs else []
    else []) ++ conflictScan rest

def conflictDrafts (views : List EvidenceView) : List FindingDraft :=
  conflictScan policy limits target baseline (views.take kMaxConflictSources)

/-! ### Comparison with the primary view -/

section Primary
variable (primary : EvidenceView)

/-- A draft that rests on the primary view alone. -/
def primaryDraft (object : ObjectId) (path : FieldPath) (klass : DriftClass) (reason : ReasonCode)
    (intended observed : Option Value) (rationale : List Text) : FindingDraft :=
  attachEvidence limits
    { makeDraft policy target baseline object path klass with
      reason := reason, intended := intended, observed := observed, rationale := rationale } primary

/-- The draft of one declared field of a present object. -/
def declaredFieldDrafts (id : ObjectId) (observed : ObservedObject) (path : FieldPath) (intended : IntentField) :
    List FindingDraft :=
  let draft := primaryDraft policy limits target baseline primary id path
  if isReservedPath path then []
  else match policy.classifyField target id path intended.comparability with
  | .unmanaged | .observeOnly => []
  | .unobservable =>
    [draft .unknown .classifiedNotObservable none none [ascii "intent declares this field unobservable"]]
  | .unsupported =>
    [draft .unsupported .classifiedUnsupportedField none none
      [ascii "intent declares this field outside the supported class"]]
  | .managed =>
    match observed.fields.find? path with
    | none =>
      if primary.fieldVisible id path then
        [draft .fieldMissing .classifiedFieldMissing (some intended.intended) none
          [ascii "a complete fresh observation does not report this managed field"]]
      else
        [draft .unknown .observationCoveragePartial none none
          [ascii "the primary source cannot prove the absence of this field"]]
    | some value =>
      match relateValues intended.intended value policy.numericEquivalence with
      | .equal => []
      | .incomparable =>
        [draft .unsupported .classifiedFieldNotComparable (some intended.intended) (some value)
          [ascii "intended and observed values are not in the same comparison class"]]
      | .different =>
        [draft .valueMismatch .classifiedValueMismatch (some intended.intended) (some value)
          [ascii "intended and observed values differ"]]

/-- The draft of one reported field of a declared object. -/
def undeclaredFieldDrafts (id : ObjectId) (declared : IntentObject) (path : FieldPath) (value : Value) :
    List FindingDraft :=
  if isReservedPath path || declared.fields.contains path then []
  else [primaryDraft policy limits target baseline primary id path .fieldUnexpected .classifiedFieldUnexpected
    none (some value) [ascii "the observation reports a field the intent does not declare"]]

def objectFieldDrafts (id : ObjectId) (declared : IntentObject) (observed : ObservedObject) : List FindingDraft :=
  (declared.fields.entries.flatMap fun field =>
    declaredFieldDrafts policy limits target baseline primary id observed field.1 field.2) ++
  observed.fields.entries.flatMap fun field =>
    undeclaredFieldDrafts policy limits target baseline primary id declared field.1 field.2

/-- The drafts of one declared object. -/
def declaredObjectDrafts (id : ObjectId) (declared : IntentObject) : List FindingDraft :=
  let draft := primaryDraft policy limits target baseline primary id []
  match declared.existence, primary.presenceOf id with
  | .required, .absent =>
    if policy.requireAbsenceAuthority && !primary.absenceAuthority then
      [draft .unknown .observationSourceCannotAssertAbsence none none
        [ascii "the primary source cannot assert absence"]]
    else
      [draft .missing .classifiedObjectMissing (some (.makeString (ascii "required")))
        (some (.makeString (ascii "absent")))
        [ascii "intent requires this object to exist", ascii "fresh evidence reports it absent"]]
  | .required, .unknown =>
    [draft .unknown
      (if primary.snapshot.declaresUnobserved id then .observationCoveragePartial else .observationCoverageUnknown)
      none none [ascii "the primary source did not observe this object and cannot assert its absence"]]
  | .required, .present =>
    match primary.snapshot.findObject id with
    | none => []
    | some observed => objectFieldDrafts policy limits target baseline primary id declared observed
  | .forbidden, .present =>
    [draft .unexpected .classifiedObjectUnexpected (some (.makeString (ascii "forbidden")))
      (some (.makeString (ascii "present")))
      [ascii "intent forbids this object", ascii "fresh evidence reports it present"]]
  | .forbidden, _ => []

/-- The draft of one reported object the intent does not declare. -/
def undeclaredObjectDrafts (id : ObjectId) (observed : ObservedObject) : List FindingDraft :=
  if isReservedObjectId id || baseline.objects.contains id || observed.presence != .present then []
  else [primaryDraft policy limits target baseline primary id [] .unexpected .classifiedObjectUnexpected none
    (some (.makeString (ascii "present")))
    [ascii "fresh evidence reports an object the committed intent does not declare"]]

def primaryDrafts : List FindingDraft :=
  (baseline.objects.entries.flatMap fun entry =>
    declaredObjectDrafts policy limits target baseline primary entry.1 entry.2) ++
  primary.snapshot.objects.entries.flatMap fun entry =>
    undeclaredObjectDrafts policy limits target baseline primary entry.1 entry.2

end Primary

end Drafting

/-! ### Generation divergence -/

/-- The generation a reported object says it has applied. -/
def tryReadAppliedGeneration (object : ObservedObject) : Option IntentGeneration :=
  match object.fields.find? kAppliedGenerationPath with
  | none => none
  | some value => match value.tree with
    | .int v => if 0 ≤ v then some ⟨v.toUInt64⟩ else none
    | .uint v => some ⟨v⟩
    | _ => none

structure GenerationScan where
  anyApplied : Bool
  anyMatchesBaseline : Bool
  applied : List UInt64

/-- The generations reported by the declared objects that the view reports present. -/
def appliedGenerations (view : EvidenceView) (objects : OrdMap ObjectId IntentObject) : List IntentGeneration :=
  objects.keys.filterMap fun id =>
    match view.snapshot.findObject id with
    | none => none
    | some observed => if observed.presence = .present then tryReadAppliedGeneration observed else none

def scanAppliedGenerations (view : EvidenceView) (objects : OrdMap ObjectId IntentObject)
    (baseline : IntentGeneration) : GenerationScan :=
  let applied := appliedGenerations view objects
  { anyApplied := !applied.isEmpty
    anyMatchesBaseline := applied.any fun g => baseline.isSet && g == baseline
    applied := ((applied.map StrongUint.value).insertionSort (· ≤ ·)).dedup }

/-- A leaf class that a diverging generation explains. -/
def isDeviation (klass : DriftClass) : Bool :=
  klass == .valueMismatch || klass == .fieldMissing || klass == .missing

def regroupDraft (policy : ObservatoryPolicy) (isPartial : Bool) (qualifier : Digest) (draft : FindingDraft) :
    FindingDraft :=
  if isDeviation draft.klass then
    let klass : DriftClass := if isPartial then .partialApplication else .generationMismatch
    { draft with
      klass := klass
      reason := if isPartial then .classifiedPartialApplication else .classifiedGenerationMismatch
      qualifier := qualifier
      severity := policy.severityFor draft.target draft.object draft.path klass
      rationale := draft.rationale ++
        [if isPartial then ascii "some objects report the intended generation and others do not"
          else ascii "the target reports a generation older than the committed baseline"] }
  else draft

/-- Whether and how the deviations are regrouped: `some true` for a partial application, `some false` for a
    generation that was not applied. -/
def regrouping (scan : GenerationScan) (generation : IntentGeneration) (drafts : List FindingDraft) : Option Bool :=
  if scan.anyApplied && drafts.any (fun d => isDeviation d.klass) then
    if scan.anyMatchesBaseline then some true
    else if scan.applied.getLast?.any (· != generation.value) then some false
    else none
  else none

def regroupDrafts (policy : ObservatoryPolicy) (scan : GenerationScan) (generation : IntentGeneration)
    (drafts : List FindingDraft) : List FindingDraft :=
  match regrouping scan generation drafts with
  | none => drafts
  | some isPartial =>
    drafts.map (regroupDraft policy isPartial
      (generationQualifier (if isPartial then ascii "partial" else ascii "not-applied") generation scan.applied))

/-! ### The decision -/

/-- A draft that leaves the comparison undecided. -/
def FindingDraft.blocksDecision (d : FindingDraft) : Bool := d.klass.isIndeterminate || d.klass == .unsupported

/-- A draft that makes a decided target non-compliant. -/
def FindingDraft.blocksCompliance (d : FindingDraft) : Bool :=
  !d.blocksDecision && (d.klass.isActionable || d.klass == .intentMissing)

/-- The reason of the first blocking draft that has one. -/
def firstActionable (drafts : List FindingDraft) : ReasonCode :=
  (((drafts.filter fun d => d.blocksDecision || d.blocksCompliance).map FindingDraft.reason).find?
    (· != ReasonCode.none)).getD .none

def decideCompliance (e : TargetEvaluation) (coverageOk : Bool) : TargetEvaluation :=
  let decidable := !e.drafts.any FindingDraft.blocksDecision && coverageOk
  let compliant := decidable && !e.drafts.any FindingDraft.blocksCompliance
  let e := { e with
    complianceDecidable := decidable
    compliant := compliant
    decisionReason :=
      if compliant then .classifiedConverged
      else if firstActionable e.drafts ≠ ReasonCode.none then firstActionable e.drafts
      else .observationCoveragePartial }
  (e.appendTraceIf (!coverageOk)
    (ascii "evidence does not cover the whole target; compliance is not decidable")).appendTrace
    (if compliant then ascii "target complies with the committed intent"
      else ascii "target does not comply with the committed intent")

/-! ### The comparator -/

/-- The identity of the evaluation before any evidence is read. -/
def openEvaluation (input : TargetComparisonInput) : TargetEvaluation :=
  match input.baseline with
  | none => { target := input.target }
  | some baseline =>
    { target := input.target, hasBaseline := true, baselineGeneration := baseline.generation,
      baselineEpoch := baseline.epoch, baselineAuthority := baseline.authority }

def noIntentEvaluation (policy : ObservatoryPolicy) (limits : RuntimeLimits) (target : TargetId)
    (views : List EvidenceView) (e : TargetEvaluation) : TargetEvaluation :=
  let draft := { makeDraft policy target .unset kTargetScopeObjectId [] .intentMissing with
    reason := .classifiedNoIntent
    rationale := [ascii "policy requires this target to be managed",
      ascii "no intent generation is committed for this target"] }
  let draft := match views with
    | [] => draft
    | view :: _ => { attachEvidence limits draft view with complianceRelevant := view.usable }
  let required := policy.requiredTargets.contains target
  { (if required then
        { e with drafts := [draft] }.appendTrace (ascii "target is required by policy and has no committed intent")
      else e.appendTrace (ascii "no intent is committed and policy does not require one")) with
    complianceDecidable := false, compliant := false, decisionReason := .classifiedNoIntent }

def noEvidenceEvaluation (policy : ObservatoryPolicy) (limits : RuntimeLimits) (target : TargetId)
    (baseline : IntentBaseline) (views : List EvidenceView) (e : TargetEvaluation) : TargetEvaluation :=
  let reason := match views with
    | [] => .noFreshEvidence
    | view :: _ => view.verdict.reason
  let draft := { makeDraft policy target baseline kTargetScopeObjectId [] .staleObservation with
    reason := reason
    rationale := [ascii "no fresh evidence is available for this target",
      ascii "best available evidence state: " ++ e.bestFreshness.toText] }
  { e with
    drafts := [views.foldl (attachEvidence limits) draft]
    complianceDecidable := false, compliant := false, decisionReason := reason }.appendTrace
    (ascii "freshness policy refused every available observation")

/-- The comparison against committed intent with `primary` as the preferred evidence. -/
def compareWithPrimary (policy : ObservatoryPolicy) (limits : RuntimeLimits) (target : TargetId)
    (baseline : IntentBaseline) (views : List EvidenceView) (primary : EvidenceView) (e : TargetEvaluation) :
    TargetEvaluation :=
  let e := e.appendTrace (ascii "primary source: " ++ primary.snapshot.source.str)
  let e := e.appendTrace (ascii "baseline generation: " ++ decimal baseline.generation.value.toNat)
  let e := e.appendTraceIf (kMaxConflictSources < views.countP EvidenceView.usable)
    (ascii "cross-source scan bounded; further sources not compared")
  let drafts := conflictDrafts policy limits target baseline views ++
    primaryDrafts policy limits target baseline primary
  let scan := scanAppliedGenerations primary baseline.objects baseline.generation
  let e := match regrouping scan baseline.generation drafts with
    | none => e
    | some isPartial => e.appendTrace
        (if isPartial then ascii "divergence regrouped as a partial application"
          else ascii "divergence regrouped as an unapplied generation")
  decideCompliance { e with drafts := regroupDrafts policy scan baseline.generation drafts }
    (!policy.requireCompleteCoverageForCompliance || primary.complete)

/-- The branches of `CompareTarget`; `compare` makes the comparison against committed intent. -/
def compareTargetWith
    (compare : IntentBaseline → List EvidenceView → EvidenceView → TargetEvaluation → TargetEvaluation)
    (input : TargetComparisonInput) (policy : ObservatoryPolicy) (limits : RuntimeLimits) : TargetEvaluation :=
  let e := openEvaluation input
  if input.snapshots.length ≠ input.freshness.length then
    { e with complianceDecidable := false, compliant := false,
             decisionReason := .comparisonBaselineUnavailable }.appendTrace
      (ascii "evidence and verdict counts disagree; no comparison performed")
  else
    let newest := newestViews policy input
    let views := orderedViews policy input
    let e := e.appendTraceIf (newest.length ≠ (collectViews policy input).length)
      (ascii "older snapshots from the same source were superseded by newer ones")
    let e := { e with
      sourcesConsidered := views.length
      freshSources := views.countP EvidenceView.usable
      bestFreshness := (views.head?.map fun v => v.verdict.state).getD .unknown }
    match input.baseline with
    | none => noIntentEvaluation policy limits input.target views e
    | some baseline =>
      match views with
      | [] => noEvidenceEvaluation policy limits input.target baseline [] e
      | primary :: rest =>
        if (primary :: rest).any EvidenceView.usable then compare baseline (primary :: rest) primary e
        else noEvidenceEvaluation policy limits input.target baseline (primary :: rest) e

def compareTarget (input : TargetComparisonInput) (policy : ObservatoryPolicy) (limits : RuntimeLimits) :
    TargetEvaluation :=
  compareTargetWith (compareWithPrimary policy limits input.target) input policy limits

end DriftObservatory
