import DriftObservatory.Hash
import DriftObservatory.Vocabulary

/-! Framed transport: a fixed header of little-endian fields, then the payload whose length and checksum the header
    declares. -/

namespace DriftObservatory

def kWireProtocolVersion : UInt16 := 1

def kFrameMagic : Text := ascii "NDO1"

/-- magic(4) + version(2) + type(2) + flags(2) + reserved(2) + payload(4) + checksum(4) + sequence(8). -/
def kFrameHeaderBytes : Nat := 28

inductive FrameType
  | hello | helloAck | snapshot | snapshotAck | intent | intentAck | errorFrame | bye | heartbeat
deriving DecidableEq

namespace FrameType

/-- The enumerator's value. -/
def raw : FrameType → UInt16
  | hello => 1
  | helloAck => 2
  | snapshot => 3
  | snapshotAck => 4
  | intent => 5
  | intentAck => 6
  | errorFrame => 7
  | bye => 8
  | heartbeat => 9

end FrameType

def kFrameTypeNames : List (FrameType × Text) := [
  (.hello, ascii "hello"), (.helloAck, ascii "hello-ack"), (.snapshot, ascii "snapshot"),
  (.snapshotAck, ascii "snapshot-ack"), (.intent, ascii "intent"), (.intentAck, ascii "intent-ack"),
  (.errorFrame, ascii "error"), (.bye, ascii "bye"), (.heartbeat, ascii "heartbeat")]

def tryParseFrameType (raw : UInt16) : Option FrameType :=
  (kFrameTypeNames.find? fun entry => entry.1.raw == raw).map (·.1)

/-! ### Little-endian fields -/

/-- The lowest `bytes` bytes of a value, the lowest first. -/
def appendLowBytes {w : Nat} (bytes : Nat) (value : BitVec w) : Text :=
  (List.range bytes).map fun index => UInt8.ofBitVec ((value >>> (8 * index)).setWidth 8)

def appendU16 (value : UInt16) : Text := appendLowBytes 2 value.toBitVec
def appendU32 (value : UInt32) : Text := appendLowBytes 4 value.toBitVec
def appendU64 (value : UInt64) : Text := appendLowBytes 8 value.toBitVec

/-- The value of the first `bytes` bytes, each at its own place. -/
def readLowBytes (w bytes : Nat) (data : Text) : BitVec w :=
  (List.range bytes).foldl
    (fun value index => value ||| ((data.getD index 0).toBitVec.setWidth w <<< (8 * index))) 0

def readU16 (data : Text) : UInt16 := UInt16.ofBitVec (readLowBytes 16 2 data)
def readU32 (data : Text) : UInt32 := UInt32.ofBitVec (readLowBytes 32 4 data)
def readU64 (data : Text) : UInt64 := UInt64.ofBitVec (readLowBytes 64 8 data)

/-! ### Frames -/

structure FrameHeader where
  version : UInt16 := 0
  type : FrameType := .errorFrame
  flags : UInt16 := 0
  payloadBytes : UInt32 := 0
  checksum : UInt32 := 0
  sequence : UInt64 := 0
deriving DecidableEq

/-- The header of `EncodeFrame`, up to the payload. -/
def frameHeaderBytes (type : FrameType) (flags : UInt16) (sequence : UInt64) (payload : Text) : Text :=
  kFrameMagic ++ appendU16 kWireProtocolVersion ++ appendU16 type.raw ++ appendU16 flags ++ appendU16 0 ++
    appendU32 (UInt32.ofNat payload.length) ++ appendU32 (crc32 payload) ++ appendU64 sequence

def encodeFrame (type : FrameType) (flags : UInt16) (sequence : UInt64) (payload : Text) (limits : RuntimeLimits) :
    Except Status Text :=
  if payload.length > limits.maxWirePayloadBytes then
    .error (.limit .wireFrameOversize (ascii "frame payload exceeds the envelope"))
  else .ok (frameHeaderBytes type flags sequence payload ++ payload)

/-- A null header is an empty one. -/
def decodeFrameHeader (header : Text) (limits : RuntimeLimits) : Except Status FrameHeader :=
  if header.length < kFrameHeaderBytes then
    .error (.rejected .wireFrameTruncated (ascii "the frame header is incomplete"))
  else if header.take kFrameMagic.length ≠ kFrameMagic then
    .error (.rejected .wireFrameMagicMismatch (ascii "the frame magic does not match"))
  else
    let version := readU16 (header.drop 4)
    if version ≠ kWireProtocolVersion then
      .error (.rejected .wireProtocolVersionUnsupported (ascii "the frame protocol version is not supported"))
    else
      match tryParseFrameType (readU16 (header.drop 6)) with
      | none => .error (.rejected .wireFrameTypeUnsupported (ascii "the frame type is not recognized"))
      | some type =>
        let payloadBytes := readU32 (header.drop 12)
        if payloadBytes.toNat > limits.maxWirePayloadBytes then
          .error (.limit .wireFrameOversize (ascii "the declared payload exceeds the envelope"))
        else
          .ok { version, type, payloadBytes,
                flags := readU16 (header.drop 8),
                checksum := readU32 (header.drop 16),
                sequence := readU64 (header.drop 20) }

def verifyFramePayload (header : FrameHeader) (payload : Text) : Status :=
  if payload.length ≠ header.payloadBytes.toNat then
    .rejected .wireFrameTruncated (ascii "the payload length does not match the header")
  else if crc32 payload ≠ header.checksum then
    .rejected .wireFrameChecksumMismatch (ascii "the payload checksum does not match the header")
  else .okay

end DriftObservatory
