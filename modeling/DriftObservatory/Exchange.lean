import DriftObservatory.Publisher

/-! Publishers and the observation server over the network. A link is one connection: its publisher, the bytes under
    way in both directions and the session that serves it. The threads of the sessions and the publishers run in any
    order; the network delivers bytes late, in pieces or not at all, and a write may fail half way. -/

namespace DriftObservatory
open Pieces Json

/-! ### Links -/

/-- What a publisher hands over. -/
inductive Document
  | snapshot (snapshot : ObservationSnapshot)
  | intent (document : IntentGenerationDocument)

/-- How a write ends: complete, or with an error after some of its bytes. -/
inductive Sending
  | whole
  | cut (bytes : Nat) (error : Text)

/-- One connection. `accepted` lists the documents whose call returned an accepting acknowledgement, `admitted` those
    the observatory took from the session; `intact` holds as long as every call that wrote a frame returned OK. -/
structure Link where
  publisher : ObservationPublisher
  upstream : Text := []
  downstream : Text := []
  broken : Bool := false
  final : Bool := false
  intact : Bool := true
  accepted : List Document := []
  admitted : List Document := []

structure FrameStats where
  framesReceived : Nat := 0
  framesSent : Nat := 0
  framesRefused : Nat := 0
  idleExpired : Nat := 0

structure Exchange where
  server : ObservationServer
  links : List Link := []
  stats : FrameStats := {}

namespace Link

/-- A write of the publisher. -/
def write (link : Link) (bytes : Text) : Sending → Status × Link
  | .whole => (.okay, { link with upstream := link.upstream ++ bytes })
  | .cut count error =>
    (.rejected .wireSessionClosed (ascii "send failed: " ++ error),
      { link with upstream := link.upstream ++ bytes.dropLast.take count })

/-- A write of the session's thread. Behind a write that failed nothing gets through. -/
def transmit (link : Link) (frame : Except Status Text) (sending : Sending) : Bool × Link :=
  match frame with
  | .error _ => (false, link)
  | .ok bytes =>
    if link.broken then (false, link)
    else match sending with
      | .whole => (true, { link with downstream := link.downstream ++ bytes })
      | .cut count _ => (false, { link with downstream := link.downstream ++ bytes.dropLast.take count, broken := true })

end Link

section Sessions
variable [DoubleChars]

/-! ### The server's side -/

/-- The frame of an answer. -/
def Reply.frame (limits : RuntimeLimits) : Reply → Except Status Text
  | .helloAck ack => encodeFrame .helloAck 0 0 (writeCanonicalJson (encodeHelloAck ack)) limits
  | .snapshotAck ack => encodeFrame .snapshotAck 0 0 (writeCanonicalJson (encodeAck ack)) limits
  | .intentAck ack => encodeFrame .intentAck 0 0 (writeCanonicalJson (encodeAck ack)) limits
  | .error reason detail => encodeFrame .errorFrame 0 0 (writeCanonicalJson (encodeError reason detail)) limits

def heartbeat (sessionId : Nat) : Value :=
  object [("schema", .makeString (ascii "ndo/heartbeat/1")), ("session_id", .makeUint (UInt64.ofNat sessionId))]

/-- What `HandleFrame` makes of a frame: sections of a handler, with or without its answer getting through, a frame
    that is echoed, a refusal that ends the session, or its end. -/
inductive Handling
  | sections (events : Bool → List ObservationServer.Event)
  | echo (frame : Except Status Text)
  | refuse (reason : ReasonCode) (detail : Text)
  | hangUp

def handleFrame (limits : RuntimeLimits) (context : SessionContext) (index : Nat) (header : FrameHeader)
    (payload : Text) (now : NdoTime) : Handling :=
  if !context.handshaken && header.type ≠ .hello then
    .refuse .wireHandshakeRequired (ascii "the session has not completed a handshake")
  else match header.type with
    | .hello =>
      let document := do
        let document ← parseJson limits payload
        decodeHelloDocument limits document
      .sections fun _ => [.hello index (document.map (·.toHelloPayload))]
    | .snapshot =>
      let document := do
        let document ← parseJson limits payload
        decodeObservationDocument limits document
      .sections fun _ => [.snapshot index document]
    | .intent =>
      let document := do
        let document ← parseJson limits payload
        decodeIntentDocument limits document
      -- without its answer the session ends
      .sections fun sent => .intent index document now :: if sent then [] else [.bye index]
    | .heartbeat =>
      .echo (encodeFrame .heartbeat 0 header.sequence (writeCanonicalJson (heartbeat context.sessionId)) limits)
    | .bye => .hangUp
    | _ => .refuse .wireFrameTypeUnsupported (ascii "the frame type is not accepted here")

namespace ObservationServer

/-- The answer a step of a session adds. -/
def newestReply (before after : ObservationServer) (index : Nat) : Option Reply :=
  match before.sessions[index]?, after.sessions[index]? with
  | some old, some new => new.replies[old.replies.length]?
  | _, _ => none

/-- The document a step takes into the observatory. -/
def takes (server : ObservationServer) : Event → Option Document
  | .ingest index now _ => match server.sessions[index]? with
    | some { phase := .fenced snapshot _, .. } =>
      if (server.observatory.ingestObservation snapshot now).1.ok then some (.snapshot snapshot) else none
    | _ => none
  | .intent index (.ok document) now => match server.sessions[index]? with
    | some { phase := .reading, context := { handshaken := true, .. }, .. } =>
      if (server.observatory.publishIntent document now).1.ok then some (.intent document) else none
    | _ => none
  | _ => none

/-- Steps one after the other, and the documents they take. -/
def perform (server : ObservationServer) : List Event → ObservationServer × List Document
  | [] => (server, [])
  | event :: events =>
    let (after, taken) := (server.step event).perform events
    (after, (server.takes event).toList ++ taken)

end ObservationServer

namespace Exchange

def put (x : Exchange) (index : Nat) (link : Link) (server : ObservationServer) : Exchange :=
  { x with server := server, links := x.links.set index link }

/-- A session in which the thread waits for a frame ends after one that is marked as the last. -/
def settle (index : Nat) (link : Link) (server : ObservationServer) : ObservationServer :=
  if link.final then server.step (.bye index) else server

/-- Runs a section of a handler and writes its answer. -/
def answer (x : Exchange) (index : Nat) (link : Link) (events : Bool → List ObservationServer.Event)
    (sending : Sending) : Exchange :=
  let finish (sent : Bool) (link : Link) : Exchange :=
    let (server, taken) := x.server.perform (events sent)
    x.put index { link with admitted := link.admitted ++ taken } (settle index link server)
  match x.server.newestReply (x.server.perform (events true)).1 index with
  | none => finish true link
  | some reply => match link.transmit (reply.frame x.server.limits) sending with
    | (true, link) =>
      let y := finish true link
      { y with stats := { y.stats with framesSent := y.stats.framesSent + 1 } }
    | (false, link) => finish false link

/-- `SendError`, then the end of the session. -/
def refuse (x : Exchange) (index : Nat) (link : Link) (reason : ReasonCode) (detail : Text) (sending : Sending) :
    Exchange :=
  let (sent, link) := link.transmit ((Reply.error reason detail).frame x.server.limits) sending
  let y := x.put index link (x.server.step (.bye index))
  if sent then { y with stats := { y.stats with framesSent := y.stats.framesSent + 1 } } else y

/-- The thread of a session reads a frame and runs its handler up to the next section; `late` are the bytes that do
    not arrive during the read. -/
def read (x : Exchange) (index : Nat) (link : Link) (session : Session) (socket : Socket) (late : Text) (now : NdoTime)
    (sending : Sending) : Exchange :=
  match ObservationServer.readFrame x.server.limits socket with
  | (.error status, rest) =>
    let link := { link with upstream := front (flatten rest) ++ late }
    if status.reason = .wireSessionClosed then x.put index link (x.server.step (.bye index))
    else
      let expired := status.reason = .wireSessionIdleExpired ∨ status.reason = .wireFrameTruncated
      let x := { x with stats := { x.stats with
        idleExpired := if expired then x.stats.idleExpired + 1 else x.stats.idleExpired
        framesRefused := x.stats.framesRefused + 1 } }
      x.refuse index link status.reason status.detail sending
  | (.ok (header, payload), rest) =>
    let link := { link with
      upstream := front (flatten rest) ++ late
      final := header.flags &&& FrameFlags.final ≠ 0 }
    let x := { x with stats := { x.stats with framesReceived := x.stats.framesReceived + 1 } }
    match handleFrame x.server.limits session.context index header payload now with
    | .sections events => x.answer index link events sending
    | .echo frame => match link.transmit frame sending with
      | (true, link) =>
        let y := x.put index link (settle index link x.server)
        { y with stats := { y.stats with framesSent := y.stats.framesSent + 1 } }
      | (false, link) => x.put index link (x.server.step (.bye index))
    | .refuse reason detail => x.refuse index link reason detail sending
    | .hangUp => x.put index link (x.server.step (.bye index))

/-! ### The publisher's side -/

/-- A connection that the accept loop takes, and the greeting on it. At the session limit the publisher gets an error
    frame on a connection of its own. -/
def connect (x : Exchange) (publisher : ObservationPublisher) (sending : Sending) : Exchange :=
  if !(ObservationPublisher.checkConnect publisher.config).ok then x
  else
    let server := x.server.step .connect
    if server.sessions.length = x.server.sessions.length then { x with server := server }
    else
      let (frame, publisher) := publisher.startConnect
      let link : Link := { publisher := publisher }
      let (written, link) := match frame with
        | .error status => (status, link)
        | .ok bytes => link.write bytes sending
      let publisher := { link.publisher with call := .connecting written }
      { x with server := server, links := x.links ++ [{ link with publisher := publisher, intact := written.ok }] }

/-- A call that has its frame: it waits for the answer if the write succeeds and returns otherwise. -/
def request (x : Exchange) (index : Nat) (link : Link) (bytes : Text) (call : Call) (sending : Sending) : Exchange :=
  match link.write bytes sending with
  | (written, link) =>
    let publisher := { link.publisher with call := if written.ok then call else .idle }
    { x with links := x.links.set index { link with publisher := publisher, intact := link.intact && written.ok } }

def publish (x : Exchange) (index : Nat) (link : Link) (snapshot : ObservationSnapshot) (sending : Sending) :
    Exchange :=
  match link.publisher.startPublish snapshot with
  | (.error _, publisher) => { x with links := x.links.set index { link with publisher := publisher } }
  | (.ok (bytes, snapshot), publisher) =>
    x.request index { link with publisher := publisher } bytes (.publishing snapshot) sending

def publishIntent (x : Exchange) (index : Nat) (link : Link) (document : IntentGenerationDocument) (sending : Sending) :
    Exchange :=
  match link.publisher.startPublishIntent document with
  | (.error _, publisher) => { x with links := x.links.set index { link with publisher := publisher } }
  | (.ok bytes, publisher) =>
    x.request index { link with publisher := publisher } bytes (.publishingIntent document) sending

/-- The rest of a call behind its read: an acknowledgement is recorded, every other end leaves the link in doubt. -/
def acknowledge (link : Link) (document : Document) (publisher : ObservationPublisher) (ack : Except Status AckPayload) :
    Link :=
  let publisher := { publisher with call := .idle }
  match ack with
  | .error _ => { link with publisher := publisher, intact := false }
  | .ok ack =>
    { link with
      publisher := publisher
      accepted := if ack.accepted then link.accepted ++ [document] else link.accepted }

/-- The publisher reads the answer to its call. -/
def receive (x : Exchange) (index : Nat) (link : Link) (socket : Socket) (late : Text) : Exchange :=
  let limits := link.publisher.config.limits
  let (read, rest) := ObservationPublisher.readFrame limits socket
  let link := { link with downstream := front (flatten rest) ++ late }
  let link := match link.publisher.call with
    | .idle => link
    | .connecting written =>
      let (status, header, payload) := ObservationPublisher.readInto limits socket
      let (_, publisher) := link.publisher.finishConnect written status header payload
      -- `Connect` returns OK if and only if the publisher is now handshaken
      { link with
        publisher := { publisher with call := .idle }
        intact := link.intact && status.ok && publisher.handshaken }
    | .publishing snapshot =>
      let (ack, publisher) := link.publisher.finishPublish snapshot read
      acknowledge link (.snapshot snapshot) publisher ack
    | .publishingIntent document =>
      acknowledge link (.intent document) link.publisher (link.publisher.finishPublishIntent read)
  { x with links := x.links.set index link }

def close (x : Exchange) (index : Nat) (link : Link) (sending : Sending) : Exchange :=
  if !link.publisher.valid then x
  else
    let (frame, publisher) := link.publisher.startClose
    let link := { link with publisher := publisher }
    let link := match frame with
      | .error _ => link
      | .ok bytes => (link.write bytes sending).2
    { x with links := x.links.set index { link with publisher := link.publisher.finishClose } }

/-! ### Steps -/

inductive Event
  | connect (publisher : ObservationPublisher) (sending : Sending)
  | read (link : Nat) (socket : Socket) (late : Text) (now : NdoTime) (sending : Sending)
  | register (link : Nat) (now : NdoTime) (sending : Sending)
  | ingest (link : Nat) (now : NdoTime) (sending : Sending)
  | publish (link : Nat) (snapshot : ObservationSnapshot) (sending : Sending)
  | publishIntent (link : Nat) (document : IntentGenerationDocument) (sending : Sending)
  | receive (link : Nat) (socket : Socket) (late : Text)
  | close (link : Nat) (sending : Sending)

/-- Of the bytes under way some arrive before the reader is interrupted, or all of them before the other side's close. -/
def Arriving (underWay : Text) (closed : Prop) (socket : Socket) (late : Text) : Prop :=
  ∃ arrived, underWay = arrived ++ late ∧
    ((∃ cause, flatten socket = arrived.map .inl ++ [.inr cause]) ∨ closed ∧ late = [] ∧ flatten socket = arrived.map .inl)

/-- A thread reads what is under way to it, and a publisher makes one call at a time. -/
def Enabled (x : Exchange) : Event → Prop
  | .connect publisher _ => publisher.valid = false ∧ publisher.handshaken = false
  | .read index socket late _ _ => ∃ link session, x.links[index]? = some link ∧ x.server.sessions[index]? = some session ∧
      (session.phase matches .reading) ∧ Arriving link.upstream (link.publisher.valid = false) socket late
  | .register .. | .ingest .. => True
  | .publish index _ _ | .publishIntent index _ _ | .close index _ =>
    ∃ link, x.links[index]? = some link ∧ (link.publisher.call matches .idle)
  | .receive index socket late => ∃ link session, x.links[index]? = some link ∧ x.server.sessions[index]? = some session ∧
      ¬ (link.publisher.call matches .idle) ∧
        Arriving link.downstream (session.phase matches .closed) socket late

def step (x : Exchange) : Event → Exchange
  | .connect publisher sending => x.connect publisher sending
  | .read index socket late now sending => match x.links[index]?, x.server.sessions[index]? with
    | some link, some session => x.read index link session socket late now sending
    | _, _ => x
  | .register index now sending => match x.links[index]? with
    | some link => x.answer index link (fun sent => [.register index now sent]) sending
    | none => x
  | .ingest index now sending => match x.links[index]? with
    | some link => x.answer index link (fun sent => [.ingest index now sent]) sending
    | none => x
  | .publish index snapshot sending => match x.links[index]? with
    | some link => x.publish index link snapshot sending
    | none => x
  | .publishIntent index document sending => match x.links[index]? with
    | some link => x.publishIntent index link document sending
    | none => x
  | .receive index socket late => match x.links[index]? with
    | some link => x.receive index link socket late
    | none => x
  | .close index sending => match x.links[index]? with
    | some link => x.close index link sending
    | none => x

end Exchange

end Sessions

end DriftObservatory
