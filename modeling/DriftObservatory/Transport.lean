import DriftObservatory.Lib.Pieces
import DriftObservatory.Wire

/-! Sockets and the frames read from them. A socket is seen from the side that reads: the bytes that arrive in the
    pieces the network makes of them, a deadline that expires or an error in between, the close of the peer at the
    end. -/

namespace DriftObservatory
open Pieces

/-- Why `recv` fails: its deadline, or another error under the text of `LastSocketError`. -/
inductive Interruption
  | deadline
  | broken (error : Text)

def Interruption.status : Interruption → Status
  | deadline => .rejected .wireSessionIdleExpired (ascii "the session idle deadline expired")
  | broken error => .rejected .wireSessionClosed (ascii "receive failed: " ++ error)

/-- What an open socket is going to receive. -/
abbrev Socket := List (Arrival UInt8 Interruption)

namespace Socket

/-- `recv` takes an `int`. -/
def kMaxChunk : Nat := 0x7FFFFFFF

/-- No byte and no error is an orderly close. -/
def receiveSome (size : Nat) (socket : Socket) : Except Status Text × Socket :=
  match readSome (min size kMaxChunk) socket with
  | (.ok got, rest) => (.ok got, rest)
  | (.error cause, rest) => (.error cause.status, rest)

/-- Calls of `ReceiveSome` until `size` more bytes stand behind those that are filled in; `truncated` says what an
    early close means. -/
def receiveLoop (truncated : Status) (size : Nat) (filled : Text) (socket : Socket) : Except Status Text × Socket :=
  match readLoop (kMaxChunk - 1) size filled socket with
  | (.ok data, rest) => (.ok data, rest)
  | (.error none, rest) => (.error truncated, rest)
  | (.error (some cause), rest) => (.error cause.status, rest)

def payloadTruncated : Status := .rejected .wireFrameTruncated (ascii "the peer closed before the frame was complete")

def receiveExact (size : Nat) (socket : Socket) : Except Status Text × Socket :=
  receiveLoop payloadTruncated size [] socket

end Socket

/-! ### Frames -/

/-- The part of `ReadFrame` both sides share: the header, then the payload it declares. -/
def readDeclared (limits : RuntimeLimits) (rawHeader : Text) (socket : Socket) :
    Except Status (FrameHeader × Text) × Socket :=
  match decodeFrameHeader rawHeader limits with
  | .error status => (.error status, socket)
  | .ok header =>
    match socket.receiveExact header.payloadBytes.toNat with
    | (.error status, rest) => (.error status, rest)
    | (.ok payload, rest) =>
      let status := verifyFramePayload header payload
      (if status.ok then .ok (header, payload) else .error status, rest)

def sessionClosed : Status := .rejected .wireSessionClosed (ascii "the peer closed the session")

def headerTruncated : Status := .rejected .wireFrameTruncated (ascii "the frame header is truncated")

namespace ObservationServer

/-- `ReadFrame` of the server: a close before the first byte ends the session, a later one truncates the frame. -/
def readFrame (limits : RuntimeLimits) (socket : Socket) : Except Status (FrameHeader × Text) × Socket :=
  match socket.receiveSome kFrameHeaderBytes with
  | (.error status, rest) => (.error status, rest)
  | (.ok [], rest) => (.error sessionClosed, rest)
  | (.ok (first :: received), rest) =>
    match Socket.receiveLoop headerTruncated (kFrameHeaderBytes - (received.length + 1)) (first :: received) rest with
    | (.error status, rest) => (.error status, rest)
    | (.ok rawHeader, rest) => readDeclared limits rawHeader rest

end ObservationServer

namespace ObservationPublisher

/-- `ReadFrame` of the client. -/
def readFrame (limits : RuntimeLimits) (socket : Socket) : Except Status (FrameHeader × Text) × Socket :=
  match socket.receiveExact kFrameHeaderBytes with
  | (.error status, rest) => (.error status, rest)
  | (.ok rawHeader, rest) => readDeclared limits rawHeader rest

end ObservationPublisher

end DriftObservatory
