import DriftObservatory.Exchange
import DriftObservatory.Theorems.Streams

/-! What a read makes of the bytes under way, of which some may not have arrived: a whole frame at the front is read as
    it was sent, and a frame that is not whole is never read as another. -/

namespace DriftObservatory
open Pieces

/-! ### The bytes of a frame -/

/-- The header declares its payload; the checksum may be any. -/
structure Declared (frame : FrameHeader × Text) : Prop where
  version : frame.1.version = kWireProtocolVersion
  length : frame.1.payloadBytes.toNat = frame.2.length

/-- The bytes of a frame with the given reserved field. -/
def wire (frame : FrameHeader × Text) (reserved : UInt16) : Text := headerBytes frame.1 reserved ++ frame.2

section Frames
variable {frame other : FrameHeader × Text} {reserved reserved' : UInt16} {left left' bytes : Text} {limits : RuntimeLimits}

theorem Sound.declared (h : Sound limits frame) : Declared frame := ⟨h.version, h.length⟩

theorem wire_ne_nil : wire frame reserved ≠ [] := List.cons_ne_nil _ _

theorem headerBytes_injective {header header' : FrameHeader} (h : headerBytes header reserved = headerBytes header' reserved')
    (hversion : header.version = kWireProtocolVersion) (hversion' : header'.version = kWireProtocolVersion) :
    header = header' := by
  have hdecode : ∀ {header : FrameHeader} {reserved : UInt16}, header.version = kWireProtocolVersion →
      decodeFrameHeader (headerBytes header reserved) { maxWirePayloadBytes := 2 ^ 32 } = .ok header :=
    fun {header reserved} hversion => (decodeFrameHeader_eq_ok (length_headerBytes reserved)).mpr
      ⟨hversion, Nat.le_of_lt header.payloadBytes.toNat_lt, reserved, rfl⟩
  exact Except.ok.inj ((hdecode hversion).symm.trans (h ▸ hdecode hversion'))

/-- **The frame at the front of some bytes is the only one there.** -/
theorem wire_unique (hframe : Declared frame) (hother : Declared other)
    (h : wire frame reserved ++ left = wire other reserved' ++ left') : frame = other ∧ left = left' := by
  obtain ⟨header, payload⟩ := frame
  obtain ⟨header', payload'⟩ := other
  rw [wire, wire, List.append_assoc, List.append_assoc] at h
  obtain ⟨hheader, hrest⟩ := List.append_inj h (by rw [length_headerBytes, length_headerBytes])
  obtain rfl := headerBytes_injective hheader hframe.version hother.version
  obtain ⟨rfl, rfl⟩ := List.append_inj hrest (hframe.length.symm.trans hother.length)
  exact ⟨rfl, rfl⟩

/-- Nothing, or a frame of the type up to some byte. -/
def Begins (type : FrameType) (bytes : Text) : Prop :=
  bytes = [] ∨ ∃ frame, Declared frame ∧ frame.1.type = type ∧ bytes <+: wire frame 0

/-- A frame that stops short. -/
def Partial (bytes : Text) : Prop := ∃ frame, Declared frame ∧ bytes <+: wire frame 0 ∧ bytes ≠ wire frame 0

theorem partial_dropLast (h : Declared frame) (count : Nat) : Partial ((wire frame 0).dropLast.take count) := by
  refine ⟨frame, h, (List.take_prefix _ _).trans (List.dropLast_prefix _), fun heq => ?_⟩
  have hlength := congrArg List.length heq
  have hpos : 0 < (wire frame 0).length := List.length_pos_iff.mpr wire_ne_nil
  rw [List.length_take, List.length_dropLast] at hlength
  omega

theorem begins_dropLast (h : Declared frame) (count : Nat) : Begins frame.1.type ((wire frame 0).dropLast.take count) :=
  .inr ⟨frame, h, rfl, (List.take_prefix _ _).trans (List.dropLast_prefix _)⟩

theorem Begins.type (h : Begins other.1.type bytes) (hframe : Declared frame) (hbytes : bytes = wire frame reserved ++ left) :
    frame.1.type = other.1.type := by
  rcases h with rfl | ⟨begun, hbegun, htype, extra, hextra⟩
  · exact absurd (List.append_eq_nil_iff.mp hbytes.symm).1 wire_ne_nil
  · rw [hbytes, List.append_assoc] at hextra
    have hsame := wire_unique hframe hbegun (hextra.trans (List.append_nil _).symm)
    rw [hsame.1, htype]

theorem Partial.no_frame (h : Partial bytes) (hframe : Declared frame) : bytes ≠ wire frame reserved ++ left := by
  rintro rfl
  obtain ⟨begun, hbegun, ⟨extra, hextra⟩, hne⟩ := h
  rw [List.append_assoc] at hextra
  obtain ⟨-, hnil⟩ := wire_unique hframe hbegun (hextra.trans (List.append_nil _).symm)
  obtain ⟨rfl, rfl⟩ := List.append_eq_nil_iff.mp hnil
  rw [List.append_nil, List.append_nil] at hextra
  exact hne ((List.append_nil _).trans hextra)

end Frames

/-! ### Reads -/

section Reads
variable {limits : RuntimeLimits} {closed : Prop} {onClose truncated : Status} {socket rest : Socket} {late underWay : Text}
  {frame sent : FrameHeader × Text} {readFrame : Socket → Except Status (FrameHeader × Text) × Socket}

/-- **What is read stands at the front of what is under way**, and the rest of it stays under way. -/
theorem Exchange.Arriving.read_ok (harriving : Exchange.Arriving underWay closed socket late)
    (hreads : ReadsTape limits onClose truncated readFrame) (h : readFrame socket = (.ok frame, rest)) :
    Sound limits frame ∧ ∃ reserved, underWay = wire frame reserved ++ (front (flatten rest) ++ late) := by
  obtain ⟨arrived, rfl, htape⟩ := harriving
  have hread := hreads socket
  rw [h] at hread
  obtain ⟨sound, reserved, hsocket⟩ := readTape_eq_ok.mp hread.symm
  refine ⟨sound, reserved, ?_⟩
  have hfront : front (flatten socket) = arrived := by
    rcases htape with ⟨cause, htape⟩ | ⟨-, -, htape⟩
    · rw [htape, front_append]
      exact List.append_nil _
    · rw [htape, ← List.append_nil (arrived.map _), front_append]
      exact List.append_nil _
  rw [hsocket, front_append] at hfront
  rw [← hfront, wire, List.append_assoc]

/-- A frame that was sent whole is read as it was sent, if it is read at all. -/
theorem Exchange.Arriving.read_sent {tail : Text} (harriving : Exchange.Arriving (wire sent 0 ++ tail) closed socket late)
    (hreads : ReadsTape limits onClose truncated readFrame) (hsent : Declared sent)
    (h : readFrame socket = (.ok frame, rest)) : frame = sent ∧ front (flatten rest) ++ late = tail := by
  obtain ⟨sound, reserved, hbytes⟩ := harriving.read_ok hreads h
  obtain ⟨rfl, rfl⟩ := wire_unique hsent sound.declared hbytes
  exact ⟨rfl, rfl⟩

theorem Exchange.Arriving.read_nil (harriving : Exchange.Arriving [] closed socket late)
    (hreads : ReadsTape limits onClose truncated readFrame) : readFrame socket ≠ (.ok frame, rest) := by
  intro h
  obtain ⟨-, reserved, hbytes⟩ := harriving.read_ok hreads h
  exact wire_ne_nil (List.append_eq_nil_iff.mp hbytes.symm).1

theorem Exchange.Arriving.read_unfinished (harriving : Exchange.Arriving underWay closed socket late)
    (hreads : ReadsTape limits onClose truncated readFrame) (hunfinished : Partial underWay) :
    readFrame socket ≠ (.ok frame, rest) := by
  intro h
  obtain ⟨sound, reserved, hbytes⟩ := harriving.read_ok hreads h
  exact hunfinished.no_frame sound.declared hbytes

theorem Exchange.Arriving.read_begins {type : FrameType} (harriving : Exchange.Arriving underWay closed socket late)
    (hreads : ReadsTape limits onClose truncated readFrame) (hbegins : Begins type underWay)
    (h : readFrame socket = (.ok frame, rest)) : frame.1.type = type := by
  obtain ⟨sound, reserved, hbytes⟩ := harriving.read_ok hreads h
  have hbegins : Begins (({ type := type }, []) : FrameHeader × Text).1.type underWay := hbegins
  exact hbegins.type sound.declared hbytes

end Reads

end DriftObservatory
