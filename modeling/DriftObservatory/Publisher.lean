import DriftObservatory.Documents
import DriftObservatory.Payloads
import DriftObservatory.Transport

/-! The publishing side of a session. A call writes one frame and waits for one; what it does up to the write and what
    it does behind the read are functions of their own. -/

namespace DriftObservatory
open Pieces Json

def kVersionString : Text := ascii "1.0.0"

namespace FrameFlags

/-- The sender expects exactly one response frame. -/
def expectResponse : UInt16 := 1

/-- The session ends after this frame. -/
def final : UInt16 := 2

end FrameFlags

structure ClientConfig where
  port : UInt16 := 0
  source : SourceId
  epoch : FabricEpoch
  incarnation : Incarnation
  startSequence : SourceSequence := ⟨1⟩
  capabilities : SourceCapabilities := {}
  provenance : Text := []
  limits : RuntimeLimits := {}

/-- The call whose answer the publisher waits for; a connection keeps the status of its write. -/
inductive Call
  | idle
  | connecting (written : Status)
  | publishing (snapshot : ObservationSnapshot)
  | publishingIntent (document : IntentGenerationDocument)

/-- `valid` tells whether the socket is open. -/
structure ObservationPublisher where
  config : ClientConfig
  valid : Bool := false
  handshaken : Bool := false
  nextSequence : SourceSequence := default
  frameSequence : UInt64 := 0
  handshake : HelloAckPayload := {}
  call : Call := .idle

namespace ObservationPublisher

def connected (p : ObservationPublisher) : Bool := p.valid && p.handshaken

def closeSocket (p : ObservationPublisher) : ObservationPublisher := { p with valid := false }

section Calls
variable [DoubleChars]

/-- The frame `SendFrame` hands to the socket; its number is used up also when it does not fit. -/
def sendFrame (p : ObservationPublisher) (type : FrameType) (flags : UInt16) (payload : Value) :
    Except Status Text × ObservationPublisher :=
  (encodeFrame type flags (p.frameSequence + 1) (writeCanonicalJson payload) p.config.limits,
    { p with frameSequence := p.frameSequence + 1 })

/-! ### Connecting -/

/-- What `Connect` refuses before it opens the socket. -/
def checkConnect (config : ClientConfig) : Status :=
  if config.source.empty || !isValidIdentityText config.source.str then
    .rejected .encodingMalformed (ascii "the source identity is invalid")
  else if !config.epoch.isSet || !config.incarnation.isSet then
    .rejected .fencedStaleIncarnation (ascii "the publisher requires an explicit epoch and incarnation")
  else if config.port = 0 then .rejected .encodingMalformed (ascii "the publisher requires a port")
  else .okay

def greeting (config : ClientConfig) : HelloDocument where
  source := config.source
  epoch := config.epoch
  incarnation := config.incarnation
  startSequence := config.startSequence
  capabilities := config.capabilities
  provenance := config.provenance
  productVersion := kVersionString

def startConnect (p : ObservationPublisher) : Except Status Text × ObservationPublisher :=
  { p with valid := true }.sendFrame .hello 0 (encodeHello (greeting p.config))

/-- What `ReadFrame` leaves in its three results. `Connect` goes on with a payload of a frame that was refused: the
    buffer has the declared length, and zeros where nothing arrived. -/
def readInto (limits : RuntimeLimits) (socket : Socket) : Status × FrameHeader × Text :=
  match socket.receiveExact kFrameHeaderBytes with
  | (.error status, _) => (status, {}, [])
  | (.ok rawHeader, rest) => match decodeFrameHeader rawHeader limits with
    | .error status => (status, {}, [])
    | .ok header =>
      let size := header.payloadBytes.toNat
      match rest.receiveExact size with
      | (.error status, _) =>
        let got := front (flatten rest)
        (status, header, got.take size ++ List.replicate (size - got.length) 0)
      | (.ok payload, _) => (verifyFramePayload header payload, header, payload)

/-- `Connect` behind its write, that ended with `written`, and its read. -/
def finishConnect (p : ObservationPublisher) (written read : Status) (header : FrameHeader) (payload : Text) :
    Status × ObservationPublisher :=
  let status := if written.ok then read else written
  if !written.ok && !read.ok then (written, p.closeSocket)
  else if !status.ok && payload.isEmpty then (status, p.closeSocket)
  else match parseJson p.config.limits payload with
    | .error status => (status, p.closeSocket)
    | .ok document =>
      if header.type = .errorFrame then
        let reason := (document.asMap.bind fun map => optionalString map "reason").bind ReasonCode.tryParse
        let detail := document.asMap.bind fun map => optionalString map "detail"
        (.rejected (reason.getD .wireHandshakeRejected) (detail.getD (ascii "the server refused the greeting")),
          p.closeSocket)
      else if header.type ≠ .helloAck then
        (.rejected .wireHandshakeRejected (ascii "the server did not answer the greeting"), p.closeSocket)
      else match decodeHelloAck document with
        | .error status => (status, p.closeSocket)
        | .ok handshake =>
          let p := { p with handshake := handshake }
          if !handshake.accepted then
            (.rejected (if handshake.reason = .none then .wireHandshakeRejected else handshake.reason)
              (if handshake.detail.isEmpty then ascii "the handshake was refused" else handshake.detail), p.closeSocket)
          else (.okay, { p with nextSequence := p.config.startSequence, handshaken := true })

/-! ### Publishing -/

def notConnected : Status := .rejected .wireHandshakeRequired (ascii "the publisher is not connected")

/-- `Publish` up to its write: the frame, and the snapshot under the identity it is given. -/
def startPublish (p : ObservationPublisher) (snapshot : ObservationSnapshot) :
    Except Status (Text × ObservationSnapshot) × ObservationPublisher :=
  if !p.connected then (.error notConnected, p)
  else
    let snapshot := { snapshot with snapshotId := snapshot.computeSnapshotId }
    let status := snapshot.validate p.config.limits
    if !status.ok then (.error status, p)
    else
      let (frame, p) := p.sendFrame .snapshot FrameFlags.expectResponse (encodeObservationDocument snapshot)
      (frame.map fun bytes => (bytes, snapshot), p)

/-- The part of a call behind its read that `Publish` and `PublishIntent` share. -/
def readAck (limits : RuntimeLimits) (expected : FrameType) (missing : String) (read : Except Status (FrameHeader × Text)) :
    Except Status AckPayload :=
  match read with
  | .error status => .error status
  | .ok (header, payload) => match parseJson limits payload with
    | .error status => .error status
    | .ok document =>
      if header.type ≠ expected then .error (.rejected .wireFrameTypeUnsupported (ascii missing))
      else decodeAck document

def finishPublish (p : ObservationPublisher) (snapshot : ObservationSnapshot) (read : Except Status (FrameHeader × Text)) :
    Except Status AckPayload × ObservationPublisher :=
  match readAck p.config.limits .snapshotAck "the server did not acknowledge the snapshot" read with
  | .error status => (.error status, p)
  | .ok ack => (.ok ack, if ack.accepted then { p with nextSequence := ⟨snapshot.sequence.value + 1⟩ } else p)

def startPublishIntent (p : ObservationPublisher) (document : IntentGenerationDocument) :
    Except Status Text × ObservationPublisher :=
  if !p.connected then (.error notConnected, p)
  else
    let status := document.validate p.config.limits
    if !status.ok then (.error status, p)
    else p.sendFrame .intent FrameFlags.expectResponse (encodeIntentDocument document)

def finishPublishIntent (p : ObservationPublisher) (read : Except Status (FrameHeader × Text)) :
    Except Status AckPayload :=
  readAck p.config.limits .intentAck "the server did not acknowledge the intent document" read

/-! ### Closing -/

def bye : Value :=
  object [("schema", .makeString (ascii "ndo/bye/1")), ("session_closed", .makeBool true)]

/-- `Close`: a publisher that completed its handshake says so before it closes the socket. -/
def startClose (p : ObservationPublisher) : Except Status Text × ObservationPublisher :=
  if p.handshaken then p.sendFrame .bye FrameFlags.final bye else (.ok [], p)

def finishClose (p : ObservationPublisher) : ObservationPublisher :=
  { p with valid := false, handshaken := false, call := .idle }

end Calls

end ObservationPublisher

end DriftObservatory
