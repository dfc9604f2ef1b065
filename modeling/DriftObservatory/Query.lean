import DriftObservatory.Finding
import DriftObservatory.Lib.Lists

/-! Queries over the findings of a ledger: a filter, a total order and one page of the result. -/

namespace DriftObservatory

inductive QueryOrder
  | severityDescending | firstSeenAscending | lastSeenDescending | targetAscending | identityAscending
deriving DecidableEq, Repr

def QueryOrder.toText (value : QueryOrder) : Text := ascii <| match value with
  | .severityDescending => "severity-descending"
  | .firstSeenAscending => "first-seen-ascending"
  | .lastSeenDescending => "last-seen-descending"
  | .targetAscending => "target-ascending"
  | .identityAscending => "identity-ascending"

structure QuerySpec where
  target : Option TargetId := none
  object : Option ObjectId := none
  pathPrefix : Option FieldPath := none
  generation : Option IntentGeneration := none
  epoch : Option FabricEpoch := none
  klass : Option DriftClass := none
  minSeverity : Option Severity := none
  exactSeverity : Option Severity := none
  state : Option FindingState := none
  group : Option GroupId := none
  source : Option SourceId := none
  rootCause : Option RootCauseKind := none
  minFreshness : Option FreshnessState := none
  minAgeNanos : Option Int64 := none
  maxAgeNanos : Option Int64 := none
  includeResolved : Bool := false
  includeSuperseded : Bool := false
  includeRetired : Bool := false
  includeSuppressed : Bool := true
  order : QueryOrder := .severityDescending
  limit : Nat := 1000
  offset : Nat := 0

structure QueryResult where
  findings : List Finding
  totalMatched : Nat
  truncated : Bool
  evaluatedAt : NdoTime
  spec : QuerySpec
  pageDigest : Digest

/-! ### The filter -/

def FreshnessState.rank : FreshnessState → Nat
  | .fresh => 4
  | .aging => 3
  | .stale => 2
  | .future | .expired => 1
  | .unknown | .recoveredNotFresh => 0

/-- The position in the declaration order. -/
def FindingState.toByte : FindingState → UInt8
  | .open => 0
  | .acknowledged => 1
  | .suppressed => 2
  | .resolved => 3
  | .superseded => 4
  | .retired => 5

namespace QuerySpec
variable (spec : QuerySpec) (now : NdoTime) (f : Finding)

/-- The evidence is at least as fresh as the query asks. -/
def freshnessMatches : Bool := spec.minFreshness.all fun least => least.rank ≤ f.evidenceFreshness.rank

def ageMatches : Bool :=
  let age := (tryDifference now f.firstSeen).getD 0
  spec.minAgeNanos.all (fun least => least ≤ age) && spec.maxAgeNanos.all fun most => age ≤ most

def stateMatches : Bool := match f.state with
  | .resolved => spec.includeResolved
  | .superseded => spec.includeSuperseded
  | .retired => spec.includeRetired
  | .suppressed => spec.includeSuppressed
  | _ => true

def matchesFinding : Bool :=
  spec.target.all (f.identity.target == ·) && spec.object.all (f.identity.object == ·) &&
    spec.pathPrefix.all (fun front => FieldPath.isPrefixOf front f.identity.path) &&
    spec.generation.all (f.baselineGeneration == ·) && spec.epoch.all (f.baselineEpoch == ·) &&
    spec.klass.all (f.klass == ·) && spec.minSeverity.all (fun least => least.rank ≤ f.severity.rank) &&
    spec.exactSeverity.all (f.severity == ·) && spec.state.all (f.state == ·) && spec.group.all (f.group == ·) &&
    spec.rootCause.all (f.groupCause == ·) &&
    spec.source.all (fun source => f.evidence.any fun reference => reference.source == source) &&
    spec.freshnessMatches f && spec.ageMatches now f && spec.stateMatches f

end QuerySpec

/-! ### The page -/

/-- The order of the results; the identity breaks the ties. -/
def orderBefore (order : QueryOrder) (lhs rhs : Finding) : Bool :=
  match order with
  | .severityDescending =>
    if lhs.severity ≠ rhs.severity then rhs.severity.rank < lhs.severity.rank
    else if lhs.lastSeen ≠ rhs.lastSeen then rhs.lastSeen < lhs.lastSeen
    else lhs.id < rhs.id
  | .firstSeenAscending => if lhs.firstSeen ≠ rhs.firstSeen then lhs.firstSeen < rhs.firstSeen else lhs.id < rhs.id
  | .lastSeenDescending => if lhs.lastSeen ≠ rhs.lastSeen then rhs.lastSeen < lhs.lastSeen else lhs.id < rhs.id
  | .targetAscending =>
    if lhs.identity.target ≠ rhs.identity.target then lhs.identity.target < rhs.identity.target
    else if lhs.identity.object ≠ rhs.identity.object then lhs.identity.object < rhs.identity.object
    else if lhs.identity.path ≠ rhs.identity.path then lhs.identity.path < rhs.identity.path
    else lhs.id < rhs.id
  | .identityAscending => lhs.id < rhs.id

/-- What the digest of a page covers. -/
def pagePreimage (order : QueryOrder) (totalMatched first : Nat) (page : List Finding) : Text :=
  lengthPrefixed (ascii "ndo/query-page/v1") ++ lengthPrefixed order.toText ++ bigEndian64 (UInt64.ofNat totalMatched) ++
    bigEndian64 (UInt64.ofNat first) ++ bigEndian64 (UInt64.ofNat page.length) ++
    page.flatMap fun f => f.id.digest.bytes ++ f.state.toByte :: bigEndian64 f.observationCount.value

def executeQuery (findings : List Finding) (spec : QuerySpec) (now : NdoTime) : Except Status QueryResult :=
  if spec.limit = 0 then
    .error (.rejected .limitFindingsExceeded (ascii "a query limit of zero would hide every finding"))
  else
    let matched := sortBy (orderBefore spec.order) (findings.filter (spec.matchesFinding now))
    let first := min spec.offset matched.length
    -- the sum is one of `size_t`
    let last := min ((first + spec.limit) % 2 ^ 64) matched.length
    let page := (matched.drop first).take (last - first)
    .ok {
      findings := page
      totalMatched := matched.length
      truncated := last < matched.length || 0 < first
      evaluatedAt := now
      spec := spec
      pageDigest := hashBytes (pagePreimage spec.order matched.length first page) }

/-! ### The timeline -/

/-- One window of the global timeline. -/
structure TimelineSpec where
  finding : Option FindingId := none
  target : Option TargetId := none
  kind : Option TimelineEventKind := none
  since : Option NdoTime := none
  until_ : Option NdoTime := none
  limit : Nat := 1000
  offset : Nat := 0

structure TimelinePage where
  entries : List TimelineEntry
  totalMatched : Nat
  truncated : Bool

namespace TimelineSpec

def matchesEntry (spec : TimelineSpec) (entry : TimelineEntry) : Bool :=
  spec.finding.all (entry.finding == ·) && spec.target.all (entry.target == ·) && spec.kind.all (entry.kind == ·) &&
    spec.since.all (fun since => !decide (entry.at_ < since)) && spec.until_.all fun until_ => !decide (until_ < entry.at_)

end TimelineSpec

/-- The order of the timeline. -/
def entryBefore (lhs rhs : TimelineEntry) : Bool :=
  if lhs.sequence ≠ rhs.sequence then lhs.sequence < rhs.sequence else lhs.at_ < rhs.at_

def executeTimelineQuery (entries : List TimelineEntry) (spec : TimelineSpec) : Except Status TimelinePage :=
  if spec.limit = 0 then
    .error (.rejected .limitTimelineExceeded (ascii "a timeline limit of zero would hide every entry"))
  else
    let matched := sortBy entryBefore (entries.filter spec.matchesEntry)
    let first := min spec.offset matched.length
    let last := min ((first + spec.limit) % 2 ^ 64) matched.length
    .ok {
      entries := (matched.drop first).take (last - first)
      totalMatched := matched.length
      truncated := last < matched.length || 0 < first }

end DriftObservatory
