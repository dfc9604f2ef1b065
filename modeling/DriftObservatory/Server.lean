import DriftObservatory.Engine
import DriftObservatory.Lib.Run
import DriftObservatory.Wire

/-! The observation server: one thread for each session, the source fences behind one mutex and the observatory
    behind another. A frame is handled in several steps between which other sessions run: a greeting moves the fence
    and then registers the source; a snapshot passes the fence and then reaches the observatory. -/

namespace DriftObservatory

/-! ### Payloads -/

structure HelloPayload where
  source : SourceId
  epoch : FabricEpoch
  incarnation : Incarnation
  startSequence : SourceSequence := default
  capabilities : SourceCapabilities := {}
  provenance : Text := []

structure HelloAckPayload where
  accepted : Bool := false
  reason : ReasonCode := .none
  protocolVersion : UInt16 := 0
  serverEpoch : FabricEpoch := default
  serverIncarnation : Incarnation := default
  sessionId : Nat := 0
  maxPayloadBytes : UInt32 := 0
  detail : Text := []

structure AckPayload where
  accepted : Bool := false
  reason : ReasonCode := .none
  sequence : SourceSequence := default
  snapshot : SnapshotId := default
  generation : IntentGeneration := default
  detail : Text := []

/-- What the server answers. -/
inductive Reply
  | helloAck (ack : HelloAckPayload)
  | snapshotAck (ack : AckPayload)
  | intentAck (ack : AckPayload)
  | error (reason : ReasonCode) (detail : Text)

/-- The last checks of `DecodeHello`; a document that does not have the shape of a greeting is an error already. -/
def decodeHello (document : Except Status HelloPayload) : Except Status HelloPayload :=
  match document with
  | .error status => .error status
  | .ok hello =>
    if !isValidIdentityText hello.source.str then
      .error (.rejected .encodingMalformed (ascii "hello: source: is not a valid identity"))
    else if !hello.epoch.isSet || !hello.incarnation.isSet then
      .error (.rejected .fencedStaleIncarnation (ascii "hello must declare a positive epoch and incarnation"))
    else .ok hello

/-- The last checks of `DecodeObservationDocument`. -/
def checkObservationDocument (limits : RuntimeLimits) (document : Except Status ObservationSnapshot) :
    Except Status ObservationSnapshot :=
  match document with
  | .error status => .error status
  | .ok snapshot =>
    let snapshot := { snapshot with snapshotId := snapshot.computeSnapshotId }
    let status := snapshot.validate limits
    if !status.ok then .error status else .ok snapshot

/-! ### State -/

/-- The high-water mark of a source. -/
structure SourceFence where
  source : SourceId := default
  epoch : FabricEpoch := default
  incarnation : Incarnation := default
  sequence : SourceSequence := default
  contentDigest : Digest := Digest.zero

structure SessionContext where
  source : SourceId := default
  epoch : FabricEpoch := default
  incarnation : Incarnation := default
  sequence : SourceSequence := default
  sessionId : Nat := 0
  handshaken : Bool := false

/-- Where the thread of a session is: waiting for a frame, between the fence and the registration of a greeting,
    between the fence and the ingestion of a snapshot, or gone. -/
inductive SessionPhase
  | reading
  | greeted (hello : HelloPayload) (ack : HelloAckPayload)
  | fenced (snapshot : ObservationSnapshot) (ack : AckPayload)
  | closed

structure Session where
  context : SessionContext
  phase : SessionPhase := .reading
  replies : List Reply := []

structure ServerStats where
  sessionsAccepted : Nat := 0
  sessionsRefused : Nat := 0
  sessionsClosed : Nat := 0
  snapshotsAdmitted : Nat := 0
  snapshotsRefused : Nat := 0
  intentsAdmitted : Nat := 0
  staleFenced : Nat := 0

structure ObservationServer where
  limits : RuntimeLimits := {}
  observatory : Observatory
  fences : OrdMap SourceId SourceFence := ∅
  sessions : List Session := []
  stats : ServerStats := {}

namespace Session

def reply (session : Session) (reply : Reply) : Session := { session with replies := session.replies ++ [reply] }

def close (session : Session) : Session := { session with phase := .closed }

end Session

/-! ### Fences -/

inductive GreetingVerdict
  | accepted (fence : SourceFence)
  | refused (reason : ReasonCode) (detail : Text) (counted : Bool)

def staleIncarnationDetail : Text := ascii "the source incarnation precedes the fenced incarnation"

/-- The critical section of `HandleHello` on the fence of the greeted source. -/
def fenceHello (found : Option SourceFence) (hello : HelloPayload) : GreetingVerdict :=
  let fence := found.getD {}
  if found.isSome && hello.epoch < fence.epoch then
    .refused .fencedStaleEpoch (ascii "the source epoch precedes the fenced epoch") true
  else if found.isSome && (hello.epoch == fence.epoch && hello.incarnation < fence.incarnation) then
    .refused .fencedStaleIncarnation staleIncarnationDetail true
  else if !fence.source.empty && hello.incarnation < fence.incarnation then
    .refused .fencedStaleIncarnation staleIncarnationDetail false
  else
    let newIncarnation := !fence.source.empty && fence.incarnation < hello.incarnation
    .accepted {
      source := hello.source
      epoch := hello.epoch
      incarnation := hello.incarnation
      sequence := if newIncarnation then default else fence.sequence
      contentDigest := if newIncarnation then Digest.zero else fence.contentDigest }

/-- `FenceSnapshot` on the fence of the source: the fence it leaves, or the reason for the refusal. -/
def fenceSnapshot (found : Option SourceFence) (source : SourceId) (epoch : FabricEpoch) (incarnation : Incarnation)
    (sequence : SourceSequence) (digest : Digest) : Except ReasonCode SourceFence :=
  let fence := found.getD {}
  let taken : SourceFence := { fence with
    epoch := epoch, incarnation := incarnation, sequence := sequence, contentDigest := digest }
  if fence.source.empty then .ok { taken with source := source }
  else if epoch ≠ fence.epoch ∨ incarnation ≠ fence.incarnation then
    if epoch < fence.epoch then .error .fencedStaleEpoch
    else if epoch = fence.epoch ∧ incarnation < fence.incarnation then .error .fencedStaleIncarnation
    else .ok taken
  else if !fence.sequence.isSet && !fence.contentDigest.isSet then
    .ok { fence with sequence := sequence, contentDigest := digest }
  else if sequence < fence.sequence then .error .fencedStaleSequence
  else if sequence = fence.sequence ∧ digest ≠ fence.contentDigest then .error .observationDuplicateConflicting
  else if fence.sequence < sequence then .ok { fence with sequence := sequence, contentDigest := digest }
  else .ok fence

/-! ### Handlers -/

namespace ObservationServer

/-- Puts a session in its place. -/
def update (server : ObservationServer) (index : Nat) (session : Session) : ObservationServer :=
  { server with sessions := server.sessions.set index session }

def refuseSession (server : ObservationServer) (index : Nat) (session : Session) : ObservationServer :=
  { server.update index session.close with
    stats := { server.stats with sessionsRefused := server.stats.sessionsRefused + 1 } }

/-- `HandleHello` up to the end of its fence section. -/
def handleHello (server : ObservationServer) (index : Nat) (session : Session) (document : Except Status HelloPayload) :
    ObservationServer :=
  match decodeHello document with
  | .error status => server.update index ((session.reply (.error status.reason status.detail)).close)
  | .ok hello =>
    let ack : HelloAckPayload := {
      protocolVersion := kWireProtocolVersion
      serverEpoch := server.observatory.config.epoch
      serverIncarnation := server.observatory.config.incarnation
      sessionId := session.context.sessionId
      maxPayloadBytes := UInt32.ofNat server.limits.maxWirePayloadBytes }
    match fenceHello (server.fences.find? hello.source) hello with
    | .accepted fence =>
      { server.update index { session with phase := .greeted hello { ack with accepted := true } } with
        fences := server.fences.insert hello.source fence }
    | .refused reason detail counted =>
      let server := { server with
        stats := { server.stats with
          staleFenced := if counted then server.stats.staleFenced + 1 else server.stats.staleFenced } }
      server.refuseSession index (session.reply (.helloAck { ack with reason := reason, detail := detail }))

/-- The rest of `HandleHello`: the registration of the source and the answer; `sent` tells whether the answer reaches
    the peer. -/
def registerGreeted (server : ObservationServer) (index : Nat) (session : Session) (hello : HelloPayload)
    (ack : HelloAckPayload) (now : NdoTime) (sent : Bool) : ObservationServer :=
  let (registration, observatory) := server.observatory.registerSource {
    id := hello.source, capabilities := hello.capabilities, registeredAt := now, epoch := hello.epoch
    incarnation := hello.incarnation, provenance := hello.provenance, evidence := hello.capabilities.evidence }
  let server := { server with observatory := observatory }
  let ack := if registration.ok then ack
    else { ack with accepted := false, reason := registration.reason, detail := registration.detail }
  if !sent then server.update index session.close
  else
    let session := session.reply (.helloAck ack)
    if !ack.accepted then server.refuseSession index session
    else server.update index { session with
      phase := .reading
      context := { session.context with
        source := hello.source, epoch := hello.epoch, incarnation := hello.incarnation
        sequence := hello.startSequence, handshaken := true } }

/-- A refused snapshot: the session goes on. -/
def refuseSnapshot (server : ObservationServer) (index : Nat) (session : Session) (ack : AckPayload) (stale : Bool) :
    ObservationServer :=
  { server.update index (session.reply (.snapshotAck ack)) with
    stats := { server.stats with
      snapshotsRefused := server.stats.snapshotsRefused + 1
      staleFenced := if stale then server.stats.staleFenced + 1 else server.stats.staleFenced } }

/-- `HandleSnapshot` up to and including `FenceSnapshot`. -/
def handleSnapshot (server : ObservationServer) (index : Nat) (session : Session)
    (document : Except Status ObservationSnapshot) : ObservationServer :=
  match checkObservationDocument server.limits document with
  | .error status => server.refuseSnapshot index session { reason := status.reason, detail := status.detail } false
  | .ok snapshot =>
    let ack : AckPayload := { sequence := snapshot.sequence, snapshot := snapshot.snapshotId }
    if snapshot.source ≠ session.context.source then
      server.refuseSnapshot index session { ack with
        reason := .authorityMismatch, detail := ascii "the snapshot source differs from the handshaken source" } false
    else if snapshot.incarnation ≠ session.context.incarnation ∨ snapshot.epoch ≠ session.context.epoch then
      server.refuseSnapshot index session { ack with
        reason := .fencedStaleIncarnation
        detail := ascii "the snapshot authority differs from the handshaken authority" } true
    else
      match fenceSnapshot (server.fences.find? snapshot.source) snapshot.source snapshot.epoch snapshot.incarnation
          snapshot.sequence snapshot.computeContentDigest with
      | .error reason =>
        server.refuseSnapshot index session { ack with
          reason := reason, detail := ascii "the snapshot was fenced by the transport authority" } true
      | .ok fence =>
        { server.update index { session with phase := .fenced snapshot ack } with
          fences := server.fences.insert snapshot.source fence }

/-- The rest of `HandleSnapshot`: the ingestion and the answer. -/
def ingestFenced (server : ObservationServer) (index : Nat) (session : Session) (snapshot : ObservationSnapshot)
    (ack : AckPayload) (now : NdoTime) (sent : Bool) : ObservationServer :=
  let (ingest, observatory, admission) := server.observatory.ingestObservation snapshot now
  let ack := { ack with
    accepted := ingest.ok, reason := if ingest.ok then .none else ingest.reason, detail := ingest.detail
    snapshot := admission.snapshot }
  let server := { server with
    observatory := observatory
    stats := if ingest.ok then { server.stats with snapshotsAdmitted := server.stats.snapshotsAdmitted + 1 }
      else { server.stats with snapshotsRefused := server.stats.snapshotsRefused + 1 } }
  if sent then server.update index { session.reply (.snapshotAck ack) with phase := .reading }
  else server.update index session.close

def handleIntent [DoubleChars] (server : ObservationServer) (index : Nat) (session : Session)
    (document : Except Status IntentGenerationDocument) (now : NdoTime) : ObservationServer :=
  match document with
  | .error status =>
    server.update index (session.reply (.intentAck { reason := status.reason, detail := status.detail }))
  | .ok intent =>
    let (committed, observatory, _) := server.observatory.publishIntent intent now
    let ack : AckPayload := {
      generation := intent.generation, accepted := committed.ok
      reason := if committed.ok then .none else committed.reason, detail := committed.detail }
    let server := { server with
      observatory := observatory
      stats := if committed.ok then { server.stats with intentsAdmitted := server.stats.intentsAdmitted + 1 }
        else server.stats }
    server.update index (session.reply (.intentAck ack))

/-- A new connection, refused at the session limit. -/
def connect (server : ObservationServer) : ObservationServer :=
  let active := server.sessions.countP fun session => match session.phase with
    | .closed => false
    | _ => true
  if server.limits.maxSessions ≤ active then
    { server with stats := { server.stats with sessionsRefused := server.stats.sessionsRefused + 1 } }
  else
    { server with
      sessions := server.sessions ++ [{ context := { sessionId := server.sessions.length + 1 } }]
      stats := { server.stats with sessionsAccepted := server.stats.sessionsAccepted + 1 } }

/-! ### Steps -/

/-- A step of one session: the arrival of a frame, or the next section of the handler it is in. -/
inductive Event
  | connect
  | hello (session : Nat) (document : Except Status HelloPayload)
  | register (session : Nat) (now : NdoTime) (sent : Bool)
  | snapshot (session : Nat) (document : Except Status ObservationSnapshot)
  | ingest (session : Nat) (now : NdoTime) (sent : Bool)
  | intent (session : Nat) (document : Except Status IntentGenerationDocument) (now : NdoTime)
  | bye (session : Nat)

/-- A frame other than a greeting on a session that has not completed its handshake ends the session. -/
def requireHandshake (server : ObservationServer) (index : Nat) (session : Session) (handled : ObservationServer) :
    ObservationServer :=
  if session.context.handshaken then handled
  else server.update index (session.reply
    (.error .wireHandshakeRequired (ascii "the session has not completed a handshake"))).close

def step [DoubleChars] (server : ObservationServer) : Event → ObservationServer
  | .connect => server.connect
  | .hello index document => match server.sessions[index]? with
    | some session => match session.phase with
      | .reading => server.handleHello index session document
      | _ => server
    | none => server
  | .register index now sent => match server.sessions[index]? with
    | some session => match session.phase with
      | .greeted hello ack => server.registerGreeted index session hello ack now sent
      | _ => server
    | none => server
  | .snapshot index document => match server.sessions[index]? with
    | some session => match session.phase with
      | .reading => server.requireHandshake index session (server.handleSnapshot index session document)
      | _ => server
    | none => server
  | .ingest index now sent => match server.sessions[index]? with
    | some session => match session.phase with
      | .fenced snapshot ack => server.ingestFenced index session snapshot ack now sent
      | _ => server
    | none => server
  | .intent index document now => match server.sessions[index]? with
    | some session => match session.phase with
      | .reading => server.requireHandshake index session (server.handleIntent index session document now)
      | _ => server
    | none => server
  | .bye index => match server.sessions[index]? with
    | some session => match session.phase with
      | .reading => server.update index session.close
      | _ => server
    | none => server

end ObservationServer

end DriftObservatory
