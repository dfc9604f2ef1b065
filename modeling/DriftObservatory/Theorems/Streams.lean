import DriftObservatory.Transport
import DriftObservatory.Theorems.Frames

/-! What is read from a socket is what was sent over it: the frames one by one, however the network cuts the bytes,
    and behind them how the stream ends. -/

namespace DriftObservatory
open Pieces

/-- What a socket delivers without the cuts. -/
abbrev ByteTape := Tape UInt8 Interruption

/-! ### Reading from a tape -/

/-- `ReadFrame` on the bytes one by one: `closed` is the answer to a stream that has ended, `truncated` the one to a
    header that stops short. -/
def readTape (limits : RuntimeLimits) (closed truncated : Status) (tape : ByteTape) :
    Except Status (FrameHeader × Text) × ByteTape :=
  if tape = [] then (.error closed, [])
  else match takeExact kFrameHeaderBytes tape with
    | (.error none, rest) => (.error truncated, rest)
    | (.error (some cause), rest) => (.error cause.status, rest)
    | (.ok rawHeader, rest) => match decodeFrameHeader rawHeader limits with
      | .error status => (.error status, rest)
      | .ok header => match takeExact header.payloadBytes.toNat rest with
        | (.error none, rest) => (.error Socket.payloadTruncated, rest)
        | (.error (some cause), rest) => (.error cause.status, rest)
        | (.ok payload, rest) =>
          let status := verifyFramePayload header payload
          (if status.ok then .ok (header, payload) else .error status, rest)

section Reading
variable {limits : RuntimeLimits} {socket : Socket} {truncated : Status} {size : Nat} {filled : Text}

/-- What `receiveLoop` makes of the elements taken. -/
def received (truncated : Status) (filled : Text) : Except (Option Interruption) Text → Except Status Text
  | .ok data => .ok (filled ++ data)
  | .error none => .error truncated
  | .error (some cause) => .error cause.status

theorem receiveLoop_flatten :
    (socket.receiveLoop truncated size filled).1 = received truncated filled (takeExact size (flatten socket)).1 ∧
      flatten (socket.receiveLoop truncated size filled).2 = (takeExact size (flatten socket)).2 := by
  obtain ⟨hresult, hrest⟩ := @readLoop_flatten _ _ (Socket.kMaxChunk - 1) size filled socket
  rw [Socket.receiveLoop]
  rcases hread : readLoop (Socket.kMaxChunk - 1) size filled socket with ⟨result, rest⟩
  rw [hread] at hresult hrest
  rw [← hrest]
  rcases htake : (takeExact size (flatten socket)).1 with cause | data
  · rw [htake] at hresult
    cases hresult
    cases cause <;> exact ⟨rfl, rfl⟩
  · rw [htake] at hresult
    cases hresult
    exact ⟨rfl, rfl⟩

theorem readDeclared_flatten {rawHeader : Text} :
    ((readDeclared limits rawHeader socket).1, flatten (readDeclared limits rawHeader socket).2) =
      match decodeFrameHeader rawHeader limits with
      | .error status => (.error status, flatten socket)
      | .ok header => match takeExact header.payloadBytes.toNat (flatten socket) with
        | (.error none, rest) => (.error Socket.payloadTruncated, rest)
        | (.error (some cause), rest) => (.error cause.status, rest)
        | (.ok payload, rest) =>
          let status := verifyFramePayload header payload
          (if status.ok then .ok (header, payload) else .error status, rest) := by
  rw [readDeclared]
  rcases hdecode : decodeFrameHeader rawHeader limits with status | header
  · rfl
  · obtain ⟨hresult, hrest⟩ := @receiveLoop_flatten socket Socket.payloadTruncated header.payloadBytes.toNat []
    dsimp only
    rw [Socket.receiveExact]
    rcases hreceive : socket.receiveLoop Socket.payloadTruncated header.payloadBytes.toNat [] with ⟨result, rest⟩
    rcases htake : takeExact header.payloadBytes.toNat (flatten socket) with ⟨taken, left⟩
    rw [hreceive, htake] at hresult hrest
    dsimp only at hresult hrest
    subst hresult hrest
    match taken with
    | .ok data => rfl
    | .error none => rfl
    | .error (some cause) => rfl

/-- The shape both readers have once the stream goes on. -/
theorem readLoop_header (hne : flatten socket ≠ []) (closed : Status) :
    readTape limits closed truncated (flatten socket) =
      match socket.receiveLoop truncated kFrameHeaderBytes [] with
      | (.error status, rest) => (.error status, flatten rest)
      | (.ok rawHeader, rest) =>
        ((readDeclared limits rawHeader rest).1, flatten (readDeclared limits rawHeader rest).2) := by
  obtain ⟨hresult, hrest⟩ := @receiveLoop_flatten socket truncated kFrameHeaderBytes []
  rw [readTape, if_neg hne]
  rcases hreceive : socket.receiveLoop truncated kFrameHeaderBytes [] with ⟨result, rest⟩
  rcases htake : takeExact kFrameHeaderBytes (flatten socket) with ⟨taken, left⟩
  rw [hreceive, htake] at hresult hrest
  dsimp only at hresult hrest
  subst hresult hrest
  match taken with
  | .ok data => exact readDeclared_flatten.symm
  | .error none => rfl
  | .error (some cause) => rfl

/-- **The server does not see how its bytes were cut.** -/
theorem ObservationServer.readFrame_flatten :
    ((ObservationServer.readFrame limits socket).1, flatten (ObservationServer.readFrame limits socket).2) =
      readTape limits sessionClosed headerTruncated (flatten socket) := by
  rcases readSome_cases 27 socket with ⟨rfl, hread⟩ | ⟨cause, rest, rfl, hread⟩ | ⟨a, got, rest, hread, hgot, hflat⟩
  · rfl
  · rfl
  · have hne : flatten socket ≠ [] := by
      rw [hflat]
      exact List.cons_ne_nil _ _
    have hsome : socket.receiveSome kFrameHeaderBytes = (.ok (a :: got), rest) := by
      rw [Socket.receiveSome]
      exact hread ▸ rfl
    have hloop : socket.receiveLoop headerTruncated kFrameHeaderBytes [] =
        Socket.receiveLoop headerTruncated (kFrameHeaderBytes - (got.length + 1)) (a :: got) rest := by
      rw [Socket.receiveLoop, Socket.receiveLoop, kFrameHeaderBytes, readLoop_of_some hread, List.nil_append]
    rw [readLoop_header hne, hloop, ObservationServer.readFrame, hsome]
    dsimp only
    rcases Socket.receiveLoop headerTruncated (kFrameHeaderBytes - (got.length + 1)) (a :: got) rest with ⟨result, left⟩
    cases result <;> rfl

/-- **Nor does the client.** -/
theorem ObservationPublisher.readFrame_flatten :
    ((ObservationPublisher.readFrame limits socket).1, flatten (ObservationPublisher.readFrame limits socket).2) =
      readTape limits Socket.payloadTruncated Socket.payloadTruncated (flatten socket) := by
  by_cases hnil : socket = []
  · subst hnil
    rw [ObservationPublisher.readFrame, Socket.receiveExact, Socket.receiveLoop, kFrameHeaderBytes, readLoop]
    rfl
  · rw [readLoop_header (mt flatten_eq_nil.mp hnil), ObservationPublisher.readFrame, Socket.receiveExact]
    rcases Socket.receiveLoop Socket.payloadTruncated kFrameHeaderBytes [] socket with ⟨result, left⟩
    cases result <;> rfl

end Reading

/-! ### Headers -/

/-- The bytes of a header; the reserved field is not looked at. -/
def headerBytes (header : FrameHeader) (reserved : UInt16) : Text :=
  kFrameMagic ++ (appendU16 header.version ++ (appendU16 header.type.raw ++ (appendU16 header.flags ++
    (appendU16 reserved ++ (appendU32 header.payloadBytes ++ (appendU32 header.checksum ++
      appendU64 header.sequence))))))

section Headers
variable {limits : RuntimeLimits} {header : FrameHeader} {payload data : Text} {w bytes : Nat}

/-- **The bytes of a field are those it is read from.** -/
theorem appendLowBytes_readLowBytes (hw : w = 8 * bytes) (h : bytes ≤ data.length) :
    appendLowBytes bytes (readLowBytes w bytes data) = data.take bytes := by
  apply List.ext_getElem
  · rw [length_appendLowBytes, List.length_take, Nat.min_eq_left h]
  · intro i hi _
    rw [length_appendLowBytes] at hi
    simp only [appendLowBytes, List.getElem_map, List.getElem_range, List.getElem_take]
    apply UInt8.toBitVec_inj.mp
    apply BitVec.eq_of_getLsbD_eq
    intro k hk
    have hplace : (8 * i + k) / 8 = i := by omega
    have hbit : (8 * i + k) % 8 = k := by omega
    rw [UInt8.toBitVec_ofBitVec, BitVec.getLsbD_setWidth, BitVec.getLsbD_ushiftRight,
      getLsbD_readLowBytes data (8 * i + k) (by omega), hplace, hbit, decide_eq_true hk, decide_eq_true hi,
      Bool.true_and, Bool.true_and, List.getD_eq_getElem?_getD, List.getElem?_eq_getElem (Nat.lt_of_lt_of_le hi h)]
    rfl

/-- A field at its place in the header. -/
theorem drop_field (hw : w = 8 * bytes) (place : Nat) (h : place + bytes ≤ data.length) :
    appendLowBytes bytes (readLowBytes w bytes (data.drop place)) ++ data.drop (place + bytes) = data.drop place := by
  rw [appendLowBytes_readLowBytes hw (by rw [List.length_drop]; omega), ← List.drop_drop, List.take_append_drop]

theorem raw_of_tryParseFrameType {raw : UInt16} {type : FrameType} (h : tryParseFrameType raw = some type) :
    type.raw = raw := by
  obtain ⟨entry, hentry, rfl⟩ := Option.map_eq_some_iff.mp h
  have hraw : (entry.1.raw == raw) = true := by simpa using List.find?_some hentry
  exact beq_iff_eq.mp hraw

theorem length_headerBytes (reserved : UInt16) : (headerBytes header reserved).length = kFrameHeaderBytes := by
  simp only [headerBytes, List.length_append, length_appendU16, length_appendU32, length_appendU64, length_kFrameMagic,
    kFrameHeaderBytes]

/-- **A header is accepted if and only if it is the layout of its fields**, under the protocol's version and within
    the payload limit. -/
theorem decodeFrameHeader_eq_ok (hdata : data.length = kFrameHeaderBytes) :
    decodeFrameHeader data limits = .ok header ↔
      header.version = kWireProtocolVersion ∧ header.payloadBytes.toNat ≤ limits.maxWirePayloadBytes ∧
        ∃ reserved, data = headerBytes header reserved := by
  have hlen : ¬ data.length < kFrameHeaderBytes := Nat.not_lt.mpr (Nat.le_of_eq hdata.symm)
  constructor
  · intro h
    rw [decodeFrameHeader, if_neg hlen] at h
    dsimp only at h
    by_cases hmagic : data.take kFrameMagic.length = kFrameMagic
    swap
    · rw [if_pos hmagic] at h
      cases h
    by_cases hversion : readU16 (data.drop 4) = kWireProtocolVersion
    swap
    · rw [if_neg (not_not.mpr hmagic), if_pos hversion] at h
      cases h
    rw [if_neg (not_not.mpr hmagic), if_neg (not_not.mpr hversion)] at h
    rcases htype : tryParseFrameType (readU16 (data.drop 6)) with _ | type
    · rw [htype] at h
      cases h
    rw [htype] at h
    dsimp only at h
    split_ifs at h with hbytes
    cases h
    refine ⟨hversion, Nat.not_lt.mp hbytes, readU16 (data.drop 10), ?_⟩
    rw [kFrameHeaderBytes] at hdata
    have h4 : appendU16 (readU16 (data.drop 4)) ++ data.drop 6 = data.drop 4 := drop_field rfl 4 (by omega)
    have h6 : appendU16 (readU16 (data.drop 6)) ++ data.drop 8 = data.drop 6 := drop_field rfl 6 (by omega)
    have h8 : appendU16 (readU16 (data.drop 8)) ++ data.drop 10 = data.drop 8 := drop_field rfl 8 (by omega)
    have h10 : appendU16 (readU16 (data.drop 10)) ++ data.drop 12 = data.drop 10 := drop_field rfl 10 (by omega)
    have h12 : appendU32 (readU32 (data.drop 12)) ++ data.drop 16 = data.drop 12 := drop_field rfl 12 (by omega)
    have h16 : appendU32 (readU32 (data.drop 16)) ++ data.drop 20 = data.drop 16 := drop_field rfl 16 (by omega)
    have h20 : appendU64 (readU64 (data.drop 20)) ++ data.drop 28 = data.drop 20 := drop_field rfl 20 (by omega)
    rw [List.drop_eq_nil_of_le (Nat.le_of_eq hdata), List.append_nil] at h20
    rw [headerBytes, raw_of_tryParseFrameType htype, h20, h16, h12, h10, h8, h6, h4]
    calc data = data.take 4 ++ data.drop 4 := (List.take_append_drop 4 data).symm
      _ = kFrameMagic ++ data.drop 4 := congrArg (· ++ data.drop 4) hmagic
  · rintro ⟨hversion, hfits, reserved, rfl⟩
    let H := headerBytes header reserved
    have hsplit : H.drop 0 = kFrameMagic ++ _ := rfl
    have hmagic : H.take kFrameMagic.length = kFrameMagic := List.take_left
    have h4 : H.drop 4 = _ := drop_next hsplit length_kFrameMagic
    have h6 : H.drop 6 = _ := drop_next h4 (length_appendU16 _)
    have h8 : H.drop 8 = _ := drop_next h6 (length_appendU16 _)
    have h10 : H.drop 10 = _ := drop_next h8 (length_appendU16 _)
    have h12 : H.drop 12 = _ := drop_next h10 (length_appendU16 _)
    have h16 : H.drop 16 = _ := drop_next h12 (length_appendU32 _)
    have h20 : H.drop 20 = appendU64 header.sequence ++ [] :=
      (drop_next h16 (length_appendU32 _)).trans (List.append_nil _).symm
    have hlen : ¬ H.length < kFrameHeaderBytes := hlen
    change decodeFrameHeader H limits = _
    simp only [decodeFrameHeader, if_neg hlen, hmagic, h4, h6, h8, h12, h16, h20, readU16_appendU16,
      readU32_appendU32, readU64_appendU64, tryParseFrameType_raw, if_neg (Nat.not_lt.mpr hfits), hversion, ne_eq,
      not_true_eq_false, if_false, gt_iff_lt]
    exact congrArg Except.ok (by rw [← hversion])

end Headers

/-! ### Frames -/

/-- What a frame says of its payload is so. -/
structure Sound (limits : RuntimeLimits) (frame : FrameHeader × Text) : Prop where
  version : frame.1.version = kWireProtocolVersion
  length : frame.1.payloadBytes.toNat = frame.2.length
  fits : frame.2.length ≤ limits.maxWirePayloadBytes
  checksum : frame.1.checksum = crc32 frame.2

/-- The bytes are those of the frames one after the other. -/
def LaidOut : List (FrameHeader × Text) → Text → Prop
  | [], bytes => bytes = []
  | frame :: frames, bytes => ∃ reserved rest, bytes = headerBytes frame.1 reserved ++ frame.2 ++ rest ∧ LaidOut frames rest

/-- The frames of `ReadFrame` called `n` times, with what is left of the socket or the status of the call that failed. -/
def readFrames (readFrame : Socket → Except Status (FrameHeader × Text) × Socket) :
    Nat → Socket → List (FrameHeader × Text) × Except Status Socket
  | 0, socket => ([], .ok socket)
  | n + 1, socket => match readFrame socket with
    | (.error status, _) => ([], .error status)
    | (.ok frame, rest) => (frame :: (readFrames readFrame n rest).1, (readFrames readFrame n rest).2)

section Frames
variable {limits : RuntimeLimits} {closed truncated status : Status} {tape rest : ByteTape} {frame : FrameHeader × Text}

theorem verifyFramePayload_ok {header : FrameHeader} {payload : Text} :
    (verifyFramePayload header payload).ok = true ↔
      payload.length = header.payloadBytes.toNat ∧ crc32 payload = header.checksum := by
  rw [verifyFramePayload]
  split_ifs with hlength hchecksum
  · exact ⟨fun h => (by cases h), fun h => absurd h.1 hlength⟩
  · exact ⟨fun h => (by cases h), fun h => absurd h.2 hchecksum⟩
  · exact ⟨fun _ => ⟨not_not.mp hlength, not_not.mp hchecksum⟩, fun _ => rfl⟩

/-- The tape behind an accepted header. -/
theorem readTape_header {header : FrameHeader} {reserved : UInt16} (hversion : header.version = kWireProtocolVersion)
    (hfits : header.payloadBytes.toNat ≤ limits.maxWirePayloadBytes) :
    readTape limits closed truncated ((headerBytes header reserved).map .inl ++ tape) =
      match takeExact header.payloadBytes.toNat tape with
      | (.error none, rest) => (.error Socket.payloadTruncated, rest)
      | (.error (some cause), rest) => (.error cause.status, rest)
      | (.ok payload, rest) =>
        let status := verifyFramePayload header payload
        (if status.ok then .ok (header, payload) else .error status, rest) := by
  have hne : (headerBytes header reserved).map Sum.inl ++ tape ≠ [] := List.cons_ne_nil _ _
  have htake := @takeExact_append _ Interruption tape (headerBytes header reserved)
  rw [length_headerBytes] at htake
  rw [readTape, if_neg hne, htake]
  dsimp only
  rw [(decodeFrameHeader_eq_ok (length_headerBytes reserved)).mpr ⟨hversion, hfits, reserved, rfl⟩]

/-- **A frame is accepted if and only if it stands at the front of the tape** and says of its payload what is so. -/
theorem readTape_eq_ok : readTape limits closed truncated tape = (.ok frame, rest) ↔
    Sound limits frame ∧ ∃ reserved, tape = (headerBytes frame.1 reserved ++ frame.2).map .inl ++ rest := by
  constructor
  · intro h
    by_cases hnil : tape = []
    · rw [readTape, if_pos hnil] at h
      cases h
    · rw [readTape, if_neg hnil] at h
      rcases hheader : takeExact kFrameHeaderBytes tape with ⟨cause | rawHeader, behind⟩
      · rw [hheader] at h
        cases cause <;> cases h
      rw [hheader] at h
      obtain ⟨hlength, htape⟩ := takeExact_eq_ok.mp hheader
      dsimp only at h
      rcases hdecode : decodeFrameHeader rawHeader limits with status | header
      · rw [hdecode] at h
        cases h
      rw [hdecode] at h
      obtain ⟨hversion, hfits, reserved, rfl⟩ := (decodeFrameHeader_eq_ok hlength).mp hdecode
      dsimp only at h
      rcases hpayload : takeExact header.payloadBytes.toNat behind with ⟨cause | payload, left⟩
      · rw [hpayload] at h
        cases cause <;> cases h
      rw [hpayload] at h
      obtain ⟨hsize, hbehind⟩ := takeExact_eq_ok.mp hpayload
      dsimp only at h
      split_ifs at h with hok
      · cases h
        refine ⟨⟨hversion, hsize.symm, hsize ▸ hfits, (verifyFramePayload_ok.mp hok).2.symm⟩, reserved, ?_⟩
        rw [htape, hbehind, List.map_append, List.append_assoc]
      · cases h
  · rintro ⟨sound, reserved, rfl⟩
    have hfits : frame.1.payloadBytes.toNat ≤ limits.maxWirePayloadBytes := sound.length ▸ sound.fits
    rw [List.map_append, List.append_assoc, readTape_header sound.version hfits, sound.length, takeExact_append]
    dsimp only
    rw [if_pos (verifyFramePayload_ok.mpr ⟨sound.length.symm, sound.checksum.symm⟩)]

/-- A frame that stops short is truncated. -/
theorem readTape_cut {reserved : UInt16} {n : Nat} (sound : Sound limits frame) (hpos : 0 < n)
    (hcut : n < (headerBytes frame.1 reserved ++ frame.2).length) :
    ∃ status ∈ [truncated, Socket.payloadTruncated],
      (readTape limits closed truncated (((headerBytes frame.1 reserved ++ frame.2).take n).map .inl)).1 =
        .error status := by
  have hlength := @length_headerBytes frame.1 reserved
  rcases Nat.lt_or_ge n kFrameHeaderBytes with hheader | hheader
  · refine ⟨truncated, List.mem_cons_self .., ?_⟩
    have hne : ((headerBytes frame.1 reserved ++ frame.2).take n).map Sum.inl ≠ ([] : ByteTape) := by
      rw [ne_eq, List.map_eq_nil_iff, List.take_eq_nil_iff, not_or]
      exact ⟨Nat.ne_of_gt hpos, List.cons_ne_nil _ _⟩
    rw [readTape, if_neg hne, takeExact_short]
    rw [List.length_take]
    exact Nat.lt_of_le_of_lt (Nat.min_le_left _ _) hheader
  · refine ⟨Socket.payloadTruncated, by simp, ?_⟩
    rw [List.length_append, hlength] at hcut
    rw [List.take_append, hlength, List.take_of_length_le (hlength ▸ hheader), List.map_append,
      readTape_header sound.version (sound.length ▸ sound.fits), takeExact_short]
    rw [List.length_take, sound.length]
    omega

end Frames

/-! ### Streams -/

section Streams
variable {limits : RuntimeLimits} {closed truncated : Status} {tape : ByteTape}
  {readFrame : Socket → Except Status (FrameHeader × Text) × Socket}

/-- A reader that does not see how its bytes were cut. -/
def ReadsTape (limits : RuntimeLimits) (closed truncated : Status)
    (readFrame : Socket → Except Status (FrameHeader × Text) × Socket) : Prop :=
  ∀ socket, ((readFrame socket).1, flatten (readFrame socket).2) = readTape limits closed truncated (flatten socket)

theorem ReadsTape.of_ok (hreads : ReadsTape limits closed truncated readFrame) {socket : Socket}
    {frame : FrameHeader × Text} (h : readTape limits closed truncated (flatten socket) = (.ok frame, tape)) :
    ∃ rest, readFrame socket = (.ok frame, rest) ∧ flatten rest = tape := by
  have hread := hreads socket
  rw [h, Prod.mk.injEq] at hread
  exact ⟨(readFrame socket).2, Prod.ext hread.1 rfl, hread.2⟩

theorem ReadsTape.of_error (hreads : ReadsTape limits closed truncated readFrame) {socket : Socket} {status : Status}
    (h : (readTape limits closed truncated (flatten socket)).1 = .error status) :
    (readFrame socket).1 = .error status := by
  have hread := hreads socket
  rw [← h, ← hread]

/-- **The frames read are those that stand at the front**, one after the other. -/
theorem ReadsTape.readFrames_iff (hreads : ReadsTape limits closed truncated readFrame) :
    ∀ {frames : List (FrameHeader × Text)} {socket : Socket},
      (∃ rest, readFrames readFrame frames.length socket = (frames, .ok rest) ∧ flatten rest = tape) ↔
        (∀ frame ∈ frames, Sound limits frame) ∧
          ∃ bytes, LaidOut frames bytes ∧ flatten socket = bytes.map .inl ++ tape := by
  intro frames
  induction frames with
  | nil =>
    intro socket
    constructor
    · rintro ⟨rest, hread, rfl⟩
      cases hread
      exact ⟨fun frame h => absurd h List.not_mem_nil, [], rfl, rfl⟩
    · rintro ⟨-, bytes, rfl, hsocket⟩
      exact ⟨socket, rfl, hsocket⟩
  | cons frame frames ih =>
    intro socket
    constructor
    · rintro ⟨rest, hread, hrest⟩
      rw [List.length_cons, readFrames] at hread
      rcases hfirst : readFrame socket with ⟨status | first, behind⟩
      · rw [hfirst] at hread
        cases hread
      rw [hfirst] at hread
      dsimp only at hread
      rw [Prod.mk.injEq, List.cons.injEq] at hread
      obtain ⟨⟨rfl, hframes⟩, hlast⟩ := hread
      obtain ⟨hsound, bytes, hlaid, hbehind⟩ := ih.mp ⟨rest, Prod.ext hframes hlast, hrest⟩
      have htape := hreads socket
      rw [hfirst] at htape
      obtain ⟨sound, reserved, hsocket⟩ := readTape_eq_ok.mp htape.symm
      refine ⟨List.forall_mem_cons.mpr ⟨sound, hsound⟩, _, ⟨reserved, bytes, rfl, hlaid⟩, ?_⟩
      simp only [hsocket, hbehind, List.map_append, List.append_assoc]
    · rintro ⟨hsound, _, ⟨reserved, bytes, rfl, hlaid⟩, hsocket⟩
      rw [List.map_append, List.append_assoc] at hsocket
      obtain ⟨sound, hsound⟩ := List.forall_mem_cons.mp hsound
      obtain ⟨behind, hfirst, hbehind⟩ := hreads.of_ok (readTape_eq_ok.mpr ⟨sound, reserved, hsocket⟩)
      obtain ⟨rest, hread, hrest⟩ := ih.mpr ⟨hsound, bytes, hlaid, hbehind⟩
      refine ⟨rest, ?_, hrest⟩
      rw [List.length_cons, readFrames, hfirst]
      dsimp only
      rw [hread]

theorem ObservationServer.readsTape :
    ReadsTape limits sessionClosed headerTruncated (ObservationServer.readFrame limits) := fun _ => readFrame_flatten

theorem ObservationPublisher.readsTape :
    ReadsTape limits Socket.payloadTruncated Socket.payloadTruncated (ObservationPublisher.readFrame limits) :=
  fun _ => readFrame_flatten

/-- **What is read from a socket is what stands at the front of its bytes**: the server and the client read some frames
    one after the other, and leave a stream, exactly if the bytes are those of the frames, however they are cut, and
    each frame declares the length and the checksum of its payload. The reserved field of a header is free. -/
theorem streams_exact (limits : RuntimeLimits) (frames : List (FrameHeader × Text)) (socket : Socket) (tape : ByteTape) :
    ((∃ rest, readFrames (ObservationServer.readFrame limits) frames.length socket = (frames, .ok rest) ∧
        flatten rest = tape) ↔
      (∀ frame ∈ frames, Sound limits frame) ∧ ∃ bytes, LaidOut frames bytes ∧ flatten socket = bytes.map .inl ++ tape) ∧
    ((∃ rest, readFrames (ObservationPublisher.readFrame limits) frames.length socket = (frames, .ok rest) ∧
        flatten rest = tape) ↔
      (∀ frame ∈ frames, Sound limits frame) ∧
        ∃ bytes, LaidOut frames bytes ∧ flatten socket = bytes.map .inl ++ tape) :=
  ⟨ObservationServer.readsTape.readFrames_iff, ObservationPublisher.readsTape.readFrames_iff⟩

end Streams

/-! ### Sent frames -/

/-- A frame as its sender makes it. -/
structure SentFrame where
  type : FrameType
  flags : UInt16
  sequence : UInt64
  payload : Text

namespace SentFrame

def encode (limits : RuntimeLimits) (frame : SentFrame) : Except Status Text :=
  encodeFrame frame.type frame.flags frame.sequence frame.payload limits

/-- What is to be read of it. -/
def read (frame : SentFrame) : FrameHeader × Text :=
  (headerOf frame.type frame.flags frame.sequence frame.payload, frame.payload)

variable {sender receiver : RuntimeLimits} {frame : SentFrame} {bytes : Text}

theorem frameHeaderBytes_eq (frame : SentFrame) :
    frameHeaderBytes frame.type frame.flags frame.sequence frame.payload = headerBytes frame.read.1 0 := by
  simp only [frameHeaderBytes, headerBytes, List.append_assoc]
  rfl

theorem encode_eq_ok (h : frame.encode sender = .ok bytes) : bytes = headerBytes frame.read.1 0 ++ frame.read.2 := by
  rw [encode, encodeFrame] at h
  split_ifs at h
  cases h
  rw [frameHeaderBytes_eq]
  rfl

theorem sound (hsize : frame.payload.length < 2 ^ 32) (hfits : frame.payload.length ≤ receiver.maxWirePayloadBytes) :
    Sound receiver frame.read where
  version := rfl
  length := UInt32.toNat_ofNat_of_lt' hsize
  fits := hfits
  checksum := rfl

end SentFrame

section Delivery
variable {sender receiver : RuntimeLimits}

/-- **Frames arrive in order and whole or not at all**: of the frames sent, of which the first `n` bytes arrive in any
    pieces before the close, the server reads those that are wholly there. Then it sees the close, or, if it falls
    into a frame, a truncated frame. -/
theorem frames_delivered (frames : List SentFrame) (encoded : List Text) (n : Nat) (socket : Socket)
    (hsent : List.Forall₂ (fun frame bytes => frame.encode sender = .ok bytes) frames encoded)
    (hsize : ∀ frame ∈ frames, frame.payload.length < 2 ^ 32 ∧ frame.payload.length ≤ receiver.maxWirePayloadBytes)
    (hsocket : flatten socket = (encoded.flatten.take n).map .inl) :
    ∃ k ≤ frames.length, (encoded.take k).flatten.length ≤ n ∧
      (k < frames.length → n < (encoded.take (k + 1)).flatten.length) ∧
      ∃ status, readFrames (ObservationServer.readFrame receiver) (frames.length + 1) socket =
          ((frames.take k).map SentFrame.read, .error status) ∧
        status.reason = if (encoded.take k).flatten.length < min n encoded.flatten.length then .wireFrameTruncated
          else .wireSessionClosed := by
  induction hsent generalizing n socket with
  | nil =>
    have hnil : socket = [] := flatten_eq_nil.mp (by rw [hsocket, List.flatten_nil, List.take_nil, List.map_nil])
    subst hnil
    refine ⟨0, Nat.le_refl 0, Nat.zero_le n, fun h => absurd h (Nat.lt_irrefl 0), sessionClosed, rfl, ?_⟩
    rw [if_neg (by rw [List.flatten_nil, List.length_nil]; omega)]
    rfl
  | @cons frame bytes frames encoded hencode _ ih =>
    obtain ⟨⟨hbytes, hfits⟩, hsize⟩ := List.forall_mem_cons.mp hsize
    have hsound : Sound receiver frame.read := SentFrame.sound hbytes hfits
    have hlaid := SentFrame.encode_eq_ok hencode
    rw [List.flatten_cons] at hsocket
    rcases Nat.lt_or_ge n bytes.length with hcut | hwhole
    · -- The close falls into this frame or before it.
      have htape : flatten socket = (bytes.take n).map .inl := by
        rw [hsocket, List.take_append_of_le_length (Nat.le_of_lt hcut)]
      refine ⟨0, Nat.zero_le _, Nat.zero_le n, fun _ => by simpa using hcut, ?_⟩
      have hmin : min n (bytes :: encoded).flatten.length = n := by
        rw [List.flatten_cons, List.length_append]
        omega
      rw [hmin, List.take_zero, List.take_zero, List.flatten_nil, List.length_nil, List.map_nil]
      rcases Nat.eq_zero_or_pos n with rfl | hpos
      · have hnil : socket = [] := flatten_eq_nil.mp htape
        subst hnil
        exact ⟨sessionClosed, rfl, rfl⟩
      · obtain ⟨status, hstatus, hread⟩ := @readTape_cut receiver sessionClosed headerTruncated _ 0 n hsound hpos
          (hlaid ▸ hcut)
        rw [← hlaid, ← htape] at hread
        refine ⟨status, ?_, ?_⟩
        · rw [readFrames]
          rcases hfirst : ObservationServer.readFrame receiver socket with ⟨result, behind⟩
          have herror := ObservationServer.readsTape.of_error hread
          rw [hfirst] at herror
          dsimp only at herror
          subst herror
          rfl
        · rw [if_pos hpos]
          rcases List.mem_pair.mp hstatus with rfl | rfl <;> rfl
    · have htape : flatten socket =
          (headerBytes frame.read.1 0 ++ frame.read.2).map .inl ++ (encoded.flatten.take (n - bytes.length)).map .inl := by
        rw [hsocket, ← hlaid, List.take_append, List.take_of_length_le hwhole, List.map_append]
      obtain ⟨behind, hfirst, hbehind⟩ := ObservationServer.readsTape.of_ok (readTape_eq_ok.mpr ⟨hsound, 0, htape⟩)
      obtain ⟨k, hk, hbelow, hnext, status, hread, hreason⟩ := ih (n - bytes.length) behind hsize hbehind
      refine ⟨k + 1, Nat.succ_le_succ hk, ?_, ?_, status, ?_, ?_⟩
      · rw [List.take_succ_cons, List.flatten_cons, List.length_append]
        omega
      · intro h
        have hlast := hnext (Nat.lt_of_succ_lt_succ h)
        rw [List.take_succ_cons, List.flatten_cons, List.length_append]
        omega
      · rw [List.length_cons, readFrames, hfirst, List.take_succ_cons, List.map_cons]
        dsimp only
        rw [hread]
      · rw [hreason, List.take_succ_cons, List.flatten_cons, List.length_append, List.flatten_cons, List.length_append]
        refine if_congr ?_ rfl rfl
        omega

/-- A heartbeat with an empty object, and the header of a closing frame. -/
def heartbeatBytes : Text :=
  [0x4E, 0x44, 0x4F, 0x31, 1, 0, 9, 0, 1, 0, 0, 0, 2, 0, 0, 0, 0x43, 0xBF, 0xA6, 0xA3, 6, 0, 0, 0, 0, 0, 0, 0, 0x7B, 0x7D]

def byeBytes : Text :=
  [0x4E, 0x44, 0x4F, 0x31, 1, 0, 8, 0, 1, 0, 0, 0, 0, 0, 0, 0, 0, 0, 0, 0, 7, 0, 0, 0, 0, 0, 0, 0]

/-- The close falls into the header of the second frame. -/
def cutTape : Socket :=
  [.piece (heartbeatBytes.take 7) (by decide), .piece (heartbeatBytes.drop 7 ++ byeBytes.take 5) (by decide)]

theorem frames_delivered_cut :
    ∃ status, readFrames (ObservationServer.readFrame {}) 3 cutTape =
        ([SentFrame.read ⟨.heartbeat, 1, 6, [0x7B, 0x7D]⟩], .error status) ∧ status.reason = .wireFrameTruncated := by
  have hchecksum : crc32 [0x7B, 0x7D] = 0xA3A6BF43 := by decide +kernel
  have hheartbeat : SentFrame.encode {} ⟨.heartbeat, 1, 6, [0x7B, 0x7D]⟩ = .ok heartbeatBytes := by
    rw [SentFrame.encode, encodeFrame, frameHeaderBytes, hchecksum]
    rfl
  obtain ⟨k, hk, hbelow, hnext, status, hread, hreason⟩ := @frames_delivered {} {}
    [⟨.heartbeat, 1, 6, [0x7B, 0x7D]⟩, ⟨.bye, 1, 7, []⟩] [heartbeatBytes, byeBytes] 35 cutTape
    (.cons hheartbeat (.cons rfl .nil)) (by decide) rfl
  obtain rfl : k = 1 := by
    rcases k with _ | _ | k
    · exact absurd (hnext (by decide)) (by decide)
    · rfl
    · obtain rfl : k = 0 := by
        simp only [List.length_cons, List.length_nil] at hk
        omega
      exact absurd hbelow (by decide)
  exact ⟨status, hread, hreason⟩

end Delivery

end DriftObservatory
