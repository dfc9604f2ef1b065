import DriftObservatory.Codec
import DriftObservatory.Engine
import DriftObservatory.Query

/-! Reports: what one collects under the lock, and the tallies it prints. -/

namespace DriftObservatory

/-! ### Statistics -/

structure LedgerStats where
  targets : Nat
  baselines : Nat
  observations : Nat
  sources : Nat
  findings : Nat
  liveFindings : Nat
  resolvedFindings : Nat
  supersededFindings : Nat
  suppressedFindings : Nat
  acknowledgedFindings : Nat
  groups : Nat
  timelineEntries : Nat
  suppressionsActive : Nat
  suppressionsExpired : Nat

namespace FindingLedger

def stats (L : FindingLedger) : LedgerStats :=
  let inState := fun state => L.findings.values.countP fun f => f.state == state
  { targets := L.targets.length
    baselines := L.baselines.size
    observations := (L.windows.values.map List.length).sum
    sources := ((L.windows.keys.map SourceWindowKey.source).insertionSort (· ≤ ·)).dedup.length
    findings := L.findings.size
    liveFindings := L.findings.values.countP Finding.isLive
    resolvedFindings := inState .resolved
    supersededFindings := inState .superseded
    suppressedFindings := inState .suppressed
    acknowledgedFindings := inState .acknowledged
    groups := L.groups.size
    timelineEntries := L.globalTimeline.length
    suppressionsActive := L.suppressionsActive
    suppressionsExpired := L.suppressionsExpired }

end FindingLedger

/-- The position in the declaration order. -/
def FreshnessState.toByte : FreshnessState → UInt8
  | .unknown => 0
  | .fresh => 1
  | .aging => 2
  | .stale => 3
  | .expired => 4
  | .future => 5
  | .recoveredNotFresh => 6

namespace FindingLedger

def kContentTag : Text := ascii "ndo/ledger-content/v1"

/-- What the digest of a ledger covers. -/
def contentPreimage (L : FindingLedger) : Text :=
  lengthPrefixed kContentTag ++ bigEndian64 (UInt64.ofNat L.revision) ++
    (bigEndian64 (UInt64.ofNat L.baselines.size) ++ L.baselines.entries.flatMap fun (target, baseline) =>
      lengthPrefixed target.str ++ bigEndian64 baseline.generation.value ++ bigEndian64 baseline.epoch.value ++
        baseline.contentDigest.bytes ++ bigEndian64 (UInt64.ofNat baseline.objects.size) ++
        baseline.objects.entries.flatMap fun (id, object) =>
          lengthPrefixed id.str ++ bigEndian64 (UInt64.ofNat object.fields.size) ++
            object.fields.entries.flatMap fun (path, field) =>
              lengthPrefixed (FieldPath.toText path) ++ field.intended.hashInto) ++
    (bigEndian64 (UInt64.ofNat L.windows.size) ++ L.windows.entries.flatMap fun (key, window) =>
      lengthPrefixed key.target.str ++ lengthPrefixed key.source.str ++ bigEndian64 (UInt64.ofNat window.length) ++
        window.flatMap fun o =>
          lengthPrefixed o.snapshot.snapshotId.str ++ [if o.recovered then 1 else 0, o.freshness.state.toByte]) ++
    (bigEndian64 (UInt64.ofNat L.findings.size) ++ L.findings.entries.flatMap fun (id, f) =>
      id.digest.bytes ++ [f.state.toByte, UInt8.ofNat f.klass.rank, UInt8.ofNat f.severity.rank] ++
        bigEndian64 f.baselineGeneration.value ++ bigEndian64 f.observationCount.value ++
        bigEndian64 f.reopenCount ++ bigEndian64 f.firstSeen.unixNanos.toUInt64 ++
        bigEndian64 f.lastSeen.unixNanos.toUInt64 ++ lengthPrefixed (FieldPath.toText f.identity.path) ++
        if f.group.isSet then f.group.digest.bytes else []) ++
    (bigEndian64 (UInt64.ofNat L.groups.size) ++ L.groups.entries.flatMap fun (id, group) =>
      id.digest.bytes ++ lengthPrefixed group.target.str ++ bigEndian64 (UInt64.ofNat group.members.length) ++
        group.members.flatMap fun member => member.digest.bytes) ++
    bigEndian64 (UInt64.ofNat L.globalTimeline.length)

def contentDigest (L : FindingLedger) : Digest := hashBytes L.contentPreimage

end FindingLedger

/-! ### What a report collects -/

structure ReportSpec where
  target : Option TargetId := none
  includeResolved : Bool := false
  includeSuperseded : Bool := false
  includeSuppressed : Bool := true
  includeTimeline : Bool := true
  includeGroups : Bool := true
  maxFindings : Nat := 100000

structure ReportInputs where
  generatedAt : NdoTime
  policy : PolicyId
  policyDigest : Digest
  epoch : FabricEpoch
  incarnation : Incarnation
  revision : Nat
  stats : LedgerStats
  counters : ObservatoryCounters
  findings : List Finding
  groups : List RootCauseGroup
  timeline : List TimelineEntry
  matchingFindings : Nat
  timelineEntries : Nat
  truncated : Bool
  started : Bool
  stateDigest : Digest

namespace ReportSpec

/-- The filters of the report. -/
def passes (spec : ReportSpec) (f : Finding) : Bool :=
  spec.target.all (f.identity.target == ·) && (spec.includeResolved || f.state != .resolved) &&
    (spec.includeSuperseded || f.state != .superseded) && (spec.includeSuppressed || f.state != .suppressed)

/-- The loop over the findings, which ends at the first one beyond the budget; it counts what it keeps. -/
def collectFindings (spec : ReportSpec) (budget : Nat) : List Finding → List Finding → Nat → List Finding × Nat × Bool
  | [], kept, matching => (kept, matching, false)
  | f :: rest, kept, matching =>
    if !spec.passes f then spec.collectFindings budget rest kept matching
    else if budget ≤ kept.length then (kept, matching, true)
    else spec.collectFindings budget rest (kept ++ [f]) (matching + 1)

end ReportSpec

/-- `CollectReportInputs` at the time `stamp` the clock reads. -/
def Observatory.collectReportInputs (o : Observatory) (spec : ReportSpec) (stamp : NdoTime) : ReportInputs :=
  let budget := min spec.maxFindings o.config.limits.maxReportFindings
  let (findings, matching, truncated) := spec.collectFindings budget o.ledger.findings.values [] 0
  let timeline := if spec.includeTimeline then
      o.ledger.globalTimeline.filter fun entry =>
        spec.target.all fun target => entry.target.empty || entry.target == target
    else []
  { generatedAt := stamp
    policy := o.config.policy.id
    policyDigest := o.config.policy.computeDigest
    epoch := o.config.epoch
    incarnation := o.config.incarnation
    revision := o.ledger.revision
    stats := o.ledger.stats
    counters := o.counters
    findings := findings
    groups := if spec.includeGroups then
        o.ledger.groups.values.filter fun group => spec.target.all (group.target == ·)
      else []
    timeline := timeline
    matchingFindings := matching
    timelineEntries := timeline.length
    truncated := truncated
    started := o.started
    stateDigest := o.ledger.contentDigest }

/-! ### The tallies -/

/-- One more finding under a key. -/
def countOne (counts : OrdMap Text Value) (key : Text) : OrdMap Text Value :=
  match counts.find? key with
  | none => counts.insert key (.makeUint 1)
  | some found => counts.insert key (.makeUint (match found.asUint with
    | none => 1
    | some current => current + 1))

def countBy (key : Finding → Text) (findings : List Finding) : OrdMap Text Value :=
  findings.foldl (fun counts f => countOne counts (key f)) ∅

def countByDriftClass (findings : List Finding) : OrdMap Text Value := countBy (fun f => f.klass.toText) findings

def countBySeverity (findings : List Finding) : OrdMap Text Value := countBy (fun f => f.severity.toText) findings

def countByState (findings : List Finding) : OrdMap Text Value := countBy (fun f => f.state.toText) findings

end DriftObservatory
