import DriftObservatory.Finding
import Mathlib.Data.Prod.Lex

/-! The finding ledger: committed baselines, observation windows, findings, root-cause groups and the global
    timeline, with the operations that change them. An operation returns its status, the ledger it leaves
    behind (also when it refuses) and its report. -/

namespace DriftObservatory

/-! ### State -/

structure SourceWindowKey where
  target : TargetId
  source : SourceId
deriving DecidableEq

namespace SourceWindowKey

def toPair (key : SourceWindowKey) : TargetId ×ₗ SourceId := toLex (key.target, key.source)

theorem toPair_injective : Function.Injective toPair := fun a b h => by
  cases a
  cases b
  simpa [toPair] using h

instance : LinearOrder SourceWindowKey := LinearOrder.lift' toPair toPair_injective

end SourceWindowKey

/-- A retained snapshot with its verdict; `recovered` evidence is never fresh. -/
structure RetainedObservation where
  snapshot : ObservationSnapshot
  freshness : FreshnessVerdict
  recovered : Bool

structure FindingLedger where
  limits : RuntimeLimits
  revision : Nat := 0
  timelineSequence : Nat := 0
  baselines : OrdMap TargetId IntentBaseline := ∅
  windows : OrdMap SourceWindowKey (List RetainedObservation) := ∅
  findings : OrdMap FindingId Finding := ∅
  groups : OrdMap GroupId RootCauseGroup := ∅
  globalTimeline : List TimelineEntry := []
  resolutionStreak : OrdMap FindingId Nat := ∅
  suppressionsActive : Nat := 0
  suppressionsExpired : Nat := 0

structure IntentCommitReport where
  target : TargetId := default
  previousGeneration : IntentGeneration := default
  committedGeneration : IntentGeneration := default
  epoch : FabricEpoch := default
  findingsRebased : Nat := 0
  findingsRetired : Nat := 0
  duplicateIdentical : Bool := false

structure ObservationAdmission where
  snapshot : SnapshotId := default
  source : SourceId := default
  target : TargetId := default
  sequence : SourceSequence := default
  freshness : FreshnessState := .unknown
  duplicateIdentical : Bool := false
  supersededOlder : Bool := false

structure LedgerApplyReport where
  created : Nat := 0
  updated : Nat := 0
  reopened : Nat := 0
  resolved : Nat := 0
  suppressed : Nat := 0
  superseded : Nat := 0
  unchanged : Nat := 0
  fencedTargets : Nat := 0
  groupsTouched : Nat := 0
  createdIds : List FindingId := []
  resolvedIds : List FindingId := []

namespace FindingLedger

/-! ### Timeline -/

/-- Appends to the global timeline under the next sequence number. -/
def appendTimeline (L : FindingLedger) (entry : TimelineEntry) : FindingLedger :=
  { L with
    timelineSequence := L.timelineSequence + 1
    globalTimeline := L.globalTimeline ++ [{ entry with sequence := L.timelineSequence + 1 }] }

def appendAll (L : FindingLedger) (entries : List TimelineEntry) : FindingLedger := entries.foldl appendTimeline L

def trimTimelineIfNeeded (L : FindingLedger) : FindingLedger :=
  { L with globalTimeline := keepLast L.limits.maxGlobalTimelineEntries L.globalTimeline }

def bumpRevision (L : FindingLedger) : FindingLedger := { L with revision := L.revision + 1 }

/-- A loop over all findings in identity order that updates each in place and records its events. -/
def sweep (L : FindingLedger) (step : Finding → Finding × List TimelineEntry) : FindingLedger :=
  { L with findings := L.findings.mapValues fun _ f => (step f).1 }.appendAll
    (L.findings.values.flatMap fun f => (step f).2)

def dropGroups (L : FindingLedger) (ids : List GroupId) : FindingLedger :=
  { L with groups := ids.foldl OrdMap.erase L.groups }

def recordEvent (L : FindingLedger) (entry : TimelineEntry) : FindingLedger :=
  (L.appendTimeline entry).trimTimelineIfNeeded.bumpRevision

/-! ### Intent -/

def findBaseline (L : FindingLedger) (target : TargetId) : Option IntentBaseline := L.baselines.find? target

/-- The targets with a baseline or a window, in order. -/
def targets (L : FindingLedger) : List TargetId :=
  ((L.baselines.keys ++ L.windows.keys.map SourceWindowKey.target).insertionSort (· ≤ ·)).dedup

/-- Whether the new baseline still declares the location of a finding. -/
def stillManaged (baseline : IntentBaseline) (identity : FindingIdentity) : Bool :=
  identity.object == kTargetScopeObjectId ||
    match baseline.findObject identity.object with
    | none => false
    | some declared => identity.path.isEmpty || declared.fields.contains identity.path

/-- A live finding of the target that was derived from another generation. -/
def rebases (target : TargetId) (generation : IntentGeneration) (f : Finding) : Bool :=
  f.identity.target == target && f.isLive && f.baselineGeneration != generation

section Rebase
variable [DoubleChars]

def rebaseFinding (limits : RuntimeLimits) (baseline : IntentBaseline) (target : TargetId)
    (generation : IntentGeneration) (now : NdoTime) (f : Finding) : Finding × List TimelineEntry :=
  if rebases target generation f then
    let managed := stillManaged baseline f.identity
    let f : Finding := { f with
      state := if managed then .superseded else .retired
      reason := if managed then .findingRebasedToNewGeneration else .findingRetired
      lastEvaluated := now }
    let f := if f.group.isSet then f.clearGroup else f
    let event := { f.event (if managed then .rebased else .retired) now f.reason (boundedDetail <|
        if managed then ascii "baseline advanced to generation " ++ decimal generation.value.toNat ++
            ascii "; finding is superseded until the next evaluation"
          else ascii "the new baseline no longer manages this location; the finding is retired") with
      baselineGeneration := generation
      evidenceDigest := f.policyDigest }
    ((f.push event).recomputeSummary limits, [event])
  else (f, [])

def rebaseFindingsForTarget (L : FindingLedger) (baseline : IntentBaseline) (target : TargetId)
    (generation : IntentGeneration) (now : NdoTime) (report : IntentCommitReport) :
    FindingLedger × IntentCommitReport :=
  let moved := L.findings.values.filter (rebases target generation)
  let managed := moved.countP fun f => stillManaged baseline f.identity
  let drops := (moved.filter fun f => f.group.isSet).map Finding.group
  ((L.sweep (rebaseFinding L.limits baseline target generation now)).dropGroups drops,
    { report with
      findingsRebased := report.findingsRebased + managed
      findingsRetired := report.findingsRetired + (moved.length - managed) })

/-- A target-level event about an intent commit. -/
def intentEvent (document : IntentGenerationDocument) (kind : TimelineEventKind) (now : NdoTime) (reason : ReasonCode)
    (detail : Text) : TimelineEntry where
  kind := kind
  target := document.target
  object := kTargetScopeObjectId
  at_ := now
  stateAfter := .open
  klass := .none
  severity := .info
  reason := reason
  baselineGeneration := document.generation
  baselineEpoch := document.epoch
  detail := boundedDetail detail

/-- The baseline a document establishes. -/
def baselineOf (document : IntentGenerationDocument) (now : NdoTime) : IntentBaseline where
  target := document.target
  generation := document.generation
  epoch := document.epoch
  authority := document.authority
  policy := document.policy
  committedAt := now
  contentDigest := document.computeContentDigest
  evidence := document.evidence
  objects := document.objects

def commitIntent (L : FindingLedger) (document : IntentGenerationDocument) (now : NdoTime) :
    Status × FindingLedger × IntentCommitReport :=
  let status := document.validate L.limits
  if !status.ok then (status, L, {})
  else
    let report : IntentCommitReport := { target := document.target, epoch := document.epoch }
    let baseline := baselineOf document now
    match L.findBaseline document.target with
    | none =>
      if L.limits.maxTargets ≤ L.baselines.size then
        (.limit .limitObjectsExceeded (ascii "committed intent target count exceeds the envelope"), L, report)
      else
        let L := { L with baselines := L.baselines.insert document.target baseline }
        (.okay,
          (L.appendTimeline (intentEvent document .created now .none
            (ascii "intent generation " ++ decimal document.generation.value.toNat ++ ascii " committed from " ++
              document.authority.toText))).bumpRevision,
          { report with committedGeneration := document.generation })
    | some existing =>
      if document.epoch < existing.epoch then
        (.stale .fencedStaleEpoch (ascii "intent epoch is older than the committed baseline epoch"), L, report)
      else if document.generation < existing.generation then
        (.conflict .intentGenerationRegressed (ascii "intent generation is older than the committed baseline"), L,
          report)
      else if document.generation = existing.generation then
        if baseline.contentDigest = existing.contentDigest then
          (.okay, L, { report with duplicateIdentical := true, committedGeneration := existing.generation })
        else
          (.conflict .intentGenerationConflicting
            (ascii "divergent re-publication of the committed intent generation"), L, report)
      else
        let L := { L with baselines := L.baselines.insert document.target { baseline with target := existing.target } }
        let (L, report) := L.rebaseFindingsForTarget baseline document.target document.generation now
          { report with previousGeneration := existing.generation, committedGeneration := document.generation }
        (.okay,
          (L.appendTimeline (intentEvent document .rebased now .findingRebasedToNewGeneration
            (ascii "intent generation advanced to " ++ decimal document.generation.value.toNat ++ ascii " from " ++
              document.authority.toText))).bumpRevision,
          report)

end Rebase

/-! ### Observations -/

/-- The window order: epoch, then incarnation, then sequence. -/
def olderThan (lhs rhs : RetainedObservation) : Bool :=
  if lhs.snapshot.epoch ≠ rhs.snapshot.epoch then lhs.snapshot.epoch < rhs.snapshot.epoch
  else if lhs.snapshot.incarnation ≠ rhs.snapshot.incarnation then
    lhs.snapshot.incarnation < rhs.snapshot.incarnation
  else lhs.snapshot.sequence < rhs.snapshot.sequence

/-- Insertion at `std::lower_bound`. -/
def insertObservation (record : RetainedObservation) (window : List RetainedObservation) : List RetainedObservation :=
  (window.takeWhile fun o => olderThan o record) ++ record :: window.dropWhile fun o => olderThan o record

/-- The record to evict: the first recovered one before the newest, else the oldest. -/
def victim (window : List RetainedObservation) : Nat :=
  (window.dropLast.findIdx? RetainedObservation.recovered).getD 0

def boundWindow (limit : Nat) (window : List RetainedObservation) : List RetainedObservation :=
  if limit < window.length then window.eraseIdx (victim window) else window

/-- What the newest retained observation says about a new one: a final answer, or whether it is out of order. -/
def fenceObservation (newest : ObservationSnapshot) (snapshot : ObservationSnapshot) (report : ObservationAdmission) :
    (Status × ObservationAdmission) ⊕ ObservationAdmission :=
  if snapshot.incarnation < newest.incarnation then
    .inl (.stale .fencedStaleIncarnation
      (ascii "observation incarnation predates the newest retained observation"), report)
  else if snapshot.epoch < newest.epoch then
    .inl (.stale .fencedStaleEpoch (ascii "observation epoch predates the newest retained observation"), report)
  else if snapshot.incarnation = newest.incarnation ∧ snapshot.sequence = newest.sequence then
    if snapshot.computeContentDigest = newest.computeContentDigest then
      .inl (.okay, { report with duplicateIdentical := true })
    else
      .inl (.conflict .observationDuplicateConflicting
        (ascii "two observations claim the same source sequence with different content"), report)
  else .inr { report with supersededOlder := snapshot.sequence < newest.sequence }

def recordObservation (L : FindingLedger) (snapshot : ObservationSnapshot) (verdict : FreshnessVerdict)
    (recovered : Bool) : Status × FindingLedger × ObservationAdmission :=
  let status := snapshot.validate L.limits
  if !status.ok then (status, L, {})
  else
    let report : ObservationAdmission := {
      snapshot := snapshot.snapshotId, source := snapshot.source, target := snapshot.target
      sequence := snapshot.sequence, freshness := verdict.state }
    let key : SourceWindowKey := ⟨snapshot.target, snapshot.source⟩
    let window := (L.windows.find? key).getD []
    let decision : (Status × ObservationAdmission) ⊕ ObservationAdmission := match window.getLast? with
      | none => .inr report
      | some newest => fenceObservation newest.snapshot snapshot report
    match decision with
    | .inl (status, report) => (status, L, report)
    | .inr report =>
      let record : RetainedObservation := ⟨snapshot, verdict, recovered⟩
      let window := boundWindow L.limits.maxRetainedSnapshotsPerSource (insertObservation record window)
      (.okay, { L with windows := L.windows.insert key window }.bumpRevision, report)

def observationsFor (L : FindingLedger) (target : TargetId) : List RetainedObservation :=
  L.windows.entries.flatMap fun entry => if entry.1.target = target then entry.2 else []

/-- A retained observation that no longer counts as current. -/
def invalidate (reason : ReasonCode) (now : NdoTime) (o : RetainedObservation) : RetainedObservation :=
  { o with
    recovered := true
    freshness := { state := .recoveredNotFresh, reason := reason
                   ageNanos := (tryDifference now o.snapshot.collectedAt).getD 0 } }

def invalidateRetainedEvidence (L : FindingLedger) (reason : ReasonCode) (now : NdoTime) : FindingLedger :=
  let L' := { L with windows := L.windows.mapValues fun _ window => window.map (invalidate reason now) }
  if L.windows.values.any (fun window => !window.isEmpty) then L'.bumpRevision else L'

end FindingLedger

end DriftObservatory
