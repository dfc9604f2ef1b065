import DriftObservatory.Theorems.Links

/-! The calls of the publishers keep every intact link in step: a call that returns OK has read the answer to its own
    frame, and an acknowledgement it returns is the one that was sent. -/

namespace DriftObservatory
open Pieces Json Outcome

section Protocol
variable [DoubleChars]

/-! ### Frames of the publisher -/

section Writes
variable {p : ObservationPublisher} {limits : RuntimeLimits} {link : Link} {bytes : Text} {sending : Sending}

omit [DoubleChars] in
theorem encodeFrame_error {type : FrameType} {flags : UInt16} {sequence : UInt64} {payload : Text} {status : Status}
    (h : encodeFrame type flags sequence payload limits = .error status) : status.ok = false := by
  rw [encodeFrame] at h
  split_ifs at h
  cases h
  rfl

omit [DoubleChars] in
/-- A write goes through, or it returns an error. -/
theorem write_cases (link : Link) (bytes : Text) (sending : Sending) :
    (link.write bytes sending = (.okay, { link with upstream := link.upstream ++ bytes })) ∨
      ∃ status count, status.ok = false ∧ link.write bytes sending =
        (status, { link with upstream := link.upstream ++ bytes.dropLast.take count }) := by
  cases sending with
  | whole => exact .inl rfl
  | cut count error => exact .inr ⟨_, count, rfl, rfl⟩

/-- The publisher a call leaves before its write. -/
structure Kept (p p' : ObservationPublisher) : Prop where
  config : p'.config = p.config
  valid : p'.valid = p.valid
  call : p'.call = p.call

omit [DoubleChars] in
theorem valid_of_connected (h : p.connected = true) : p.valid = true := by
  rw [ObservationPublisher.connected, Bool.and_eq_true] at h
  exact h.1

/-- What a call that has its frame writes. -/
structure Writes (p : ObservationPublisher) (call : Call) (bytes : Text) : Prop where
  valid : p.valid = true
  busy : call ≠ .idle
  settled : ∀ written, call ≠ .connecting written
  frame : p.config.limits.maxWirePayloadBytes < 2 ^ 32 →
    ∃ frame, Requests call frame ∧ Declared frame ∧ bytes = wire frame 0

theorem startPublish_cases (p : ObservationPublisher) (snapshot : ObservationSnapshot) :
    ∃ p', Kept p p' ∧ ((∃ status, p.startPublish snapshot = (.error status, p')) ∨
      ∃ bytes named, p.startPublish snapshot = (.ok (bytes, named), p') ∧ Writes p (.publishing named) bytes) := by
  rw [ObservationPublisher.startPublish]
  by_cases hconnected : p.connected = true
  · simp only [hconnected, Bool.not_true, Bool.false_eq_true, if_false]
    split_ifs
    · exact ⟨p, ⟨rfl, rfl, rfl⟩, .inl ⟨_, rfl⟩⟩
    · refine ⟨{ p with frameSequence := p.frameSequence + 1 }, ⟨rfl, rfl, rfl⟩, ?_⟩
      dsimp only [ObservationPublisher.sendFrame]
      rcases hframe : encodeFrame .snapshot FrameFlags.expectResponse _ _ p.config.limits with status | bytes
      · exact .inl ⟨status, rfl⟩
      · exact .inr ⟨bytes, _, rfl, valid_of_connected hconnected, Call.noConfusion, fun _ => Call.noConfusion,
          fun hmodest => ⟨_, .publishing rfl rfl, encodeFrame_declared hmodest hframe⟩⟩
  · rw [Bool.not_eq_true] at hconnected
    exact ⟨p, ⟨rfl, rfl, rfl⟩, .inl ⟨_, by rw [hconnected]; rfl⟩⟩

theorem startPublishIntent_cases (p : ObservationPublisher) (document : IntentGenerationDocument) :
    ∃ p', Kept p p' ∧ ((∃ status, p.startPublishIntent document = (.error status, p')) ∨
      ∃ bytes, p.startPublishIntent document = (.ok bytes, p') ∧ Writes p (.publishingIntent document) bytes) := by
  rw [ObservationPublisher.startPublishIntent]
  by_cases hconnected : p.connected = true
  · simp only [hconnected, Bool.not_true, Bool.false_eq_true, if_false]
    split_ifs
    · exact ⟨p, ⟨rfl, rfl, rfl⟩, .inl ⟨_, rfl⟩⟩
    · refine ⟨{ p with frameSequence := p.frameSequence + 1 }, ⟨rfl, rfl, rfl⟩, ?_⟩
      dsimp only [ObservationPublisher.sendFrame]
      rcases hframe : encodeFrame .intent FrameFlags.expectResponse _ _ p.config.limits with status | bytes
      · exact .inl ⟨status, rfl⟩
      · exact .inr ⟨bytes, rfl, valid_of_connected hconnected, Call.noConfusion, fun _ => Call.noConfusion,
          fun hmodest => ⟨_, .publishingIntent rfl rfl, encodeFrame_declared hmodest hframe⟩⟩
  · rw [Bool.not_eq_true] at hconnected
    exact ⟨p, ⟨rfl, rfl, rfl⟩, .inl ⟨_, by rw [hconnected]; rfl⟩⟩

end Writes

/-! ### Calls -/

section Calls
variable {x : Exchange} {index : Nat} {link : Link} {session : Session} {p' : ObservationPublisher} {call : Call}
  {bytes : Text} {sending : Sending}

theorem InStep.serves (h : InStep x.server x.links) (hlink : x.links[index]? = some link) :
    ∃ session, x.server.sessions[index]? = some session := by
  obtain ⟨hlt, -⟩ := List.getElem?_eq_some_iff.mp hlink
  exact ⟨_, List.getElem?_eq_getElem (h.paired ▸ hlt)⟩

/-- A call that writes nothing. -/
theorem InStep.keep (h : InStep x.server x.links) (hlink : x.links[index]? = some link)
    (hidle : link.publisher.call = .idle) (hkept : Kept link.publisher p') :
    InStep x.server (x.links.set index { link with publisher := p' }) := by
  obtain ⟨session, hs⟩ := h.serves hlink
  obtain ⟨hsane, hsynced⟩ := h.synced index link session hlink hs
  refine h.put hlink hs (.refl hs) ⟨hkept.config ▸ hsane.modest, fun written hcall => ?_⟩ fun hintact => ?_
  · rw [hkept.call, hidle] at hcall
    cases hcall
  · have hrests := (synced_idle hidle).mp (hsynced hintact)
    exact (synced_idle (hkept.call.trans hidle)).mpr ⟨hrests.agrees.congr rfl rfl, hrests.quiet, fun hreading =>
      (hrests.upstream hreading).imp id fun ⟨hclosed, hbegins⟩ => ⟨hkept.valid.trans hclosed, hbegins⟩⟩

/-- A call that writes its frame. -/
theorem InStep.request (h : InStep x.server x.links) (hlink : x.links[index]? = some link)
    (hidle : link.publisher.call = .idle) (hkept : Kept link.publisher p') (hwrites : Writes link.publisher call bytes) :
    InStep (x.request index { link with publisher := p' } bytes call sending).server
      (x.request index { link with publisher := p' } bytes call sending).links := by
  obtain ⟨session, hs⟩ := h.serves hlink
  obtain ⟨hsane, hsynced⟩ := h.synced index link session hlink hs
  rw [Exchange.request]
  rcases write_cases { link with publisher := p' } bytes sending with hwrite | ⟨status, count, hfailed, hwrite⟩
  · rw [hwrite]
    refine h.put hlink hs (.refl hs) ⟨hkept.config ▸ hsane.modest, fun written hcall => absurd hcall (hwrites.settled _)⟩
      fun hintact => ?_
    have hintact : link.intact = true := (Bool.and_eq_true_iff.mp hintact).1
    have hrests := (synced_idle hidle).mp (hsynced hintact)
    refine Waits.synced ?_ rfl hwrites.busy
    rcases hrests.quiet with ⟨hreading, hdown, hopen⟩ | ⟨hclosed, hbegins⟩
    · obtain ⟨frame, hrequest, hdeclared, rfl⟩ := hwrites.frame hsane.modest
      have hup : link.upstream = [] := (hrests.upstream hreading).resolve_right fun ⟨hgone, _⟩ =>
        absurd (hwrites.valid.symm.trans hgone) (by decide)
      exact .sent hrequest hdeclared (by rw [hup, List.nil_append]) hdown hreading hopen (hrests.agrees.congr rfl rfl)
    · exact .doomed (.inl hbegins) (.inl hclosed) (.inl (hrests.agrees.congr rfl rfl))
  · rw [hwrite]
    dsimp only
    rw [hfailed, if_neg (by decide)]
    refine h.put hlink hs (.refl hs) ⟨hkept.config ▸ hsane.modest, fun written hcall => by cases hcall⟩ fun hintact => ?_
    rw [Bool.and_false] at hintact
    cases hintact

theorem InStep.publish (h : InStep x.server x.links) (hlink : x.links[index]? = some link)
    (hidle : link.publisher.call = .idle) (snapshot : ObservationSnapshot) :
    InStep (x.publish index link snapshot sending).server (x.publish index link snapshot sending).links := by
  rw [Exchange.publish]
  obtain ⟨p', hkept, ⟨status, hstart⟩ | ⟨bytes, named, hstart, hwrites⟩⟩ := startPublish_cases link.publisher snapshot
  · rw [hstart]
    exact h.keep hlink hidle hkept
  · rw [hstart]
    exact h.request hlink hidle hkept hwrites

theorem InStep.publishIntent (h : InStep x.server x.links) (hlink : x.links[index]? = some link)
    (hidle : link.publisher.call = .idle) (document : IntentGenerationDocument) :
    InStep (x.publishIntent index link document sending).server
      (x.publishIntent index link document sending).links := by
  rw [Exchange.publishIntent]
  obtain ⟨p', hkept, ⟨status, hstart⟩ | ⟨bytes, hstart, hwrites⟩⟩ := startPublishIntent_cases link.publisher document
  · rw [hstart]
    exact h.keep hlink hidle hkept
  · rw [hstart]
    exact h.request hlink hidle hkept hwrites

/-- A publisher that leaves says at most goodbye. -/
theorem startClose_cases (hmodest : link.publisher.config.limits.maxWirePayloadBytes < 2 ^ 32) :
    (∃ status, link.publisher.startClose.1 = .error status) ∨
      ∃ bytes, link.publisher.startClose.1 = .ok bytes ∧ Begins .bye bytes ∧
        ∀ count, Begins .bye (bytes.dropLast.take count) := by
  rw [ObservationPublisher.startClose]
  split_ifs
  · dsimp only [ObservationPublisher.sendFrame]
    rcases hframe : encodeFrame .bye FrameFlags.final _ _ link.publisher.config.limits with status | bytes
    · exact .inl ⟨status, rfl⟩
    · obtain ⟨hdeclared, rfl⟩ := encodeFrame_declared hmodest hframe
      exact .inr ⟨_, rfl, .inr ⟨_, hdeclared, rfl, List.prefix_rfl⟩, begins_dropLast hdeclared⟩
  · exact .inr ⟨[], rfl, begins_nil, fun count => by rw [List.dropLast_nil, List.take_nil]; exact begins_nil⟩

theorem InStep.close (h : InStep x.server x.links) (hlink : x.links[index]? = some link)
    (hidle : link.publisher.call = .idle) :
    InStep (x.close index link sending).server (x.close index link sending).links := by
  rw [Exchange.close]
  split_ifs with hvalid
  · exact h
  obtain ⟨session, hs⟩ := h.serves hlink
  obtain ⟨hsane, hsynced⟩ := h.synced index link session hlink hs
  have hvalid : link.publisher.valid = true := by simpa using hvalid
  -- whatever gets through of the last word, the socket is closed behind it
  have hleave : ∀ (p' : ObservationPublisher) (upstream : Text), p'.config = link.publisher.config →
      (link.upstream = [] → Begins .bye upstream) →
      InStep x.server (x.links.set index { link with publisher := p'.finishClose, upstream := upstream }) := by
    intro p' upstream hconfig hbegins
    refine h.put hlink hs (.refl hs) ⟨hconfig ▸ hsane.modest, fun written hcall => by cases hcall⟩ fun hintact => ?_
    have hrests := (synced_idle hidle).mp (hsynced hintact)
    refine (synced_idle rfl).mpr ⟨hrests.agrees.congr rfl rfl, hrests.quiet, fun hreading => .inr ⟨rfl, hbegins ?_⟩⟩
    exact (hrests.upstream hreading).resolve_right fun ⟨hgone, _⟩ => absurd (hvalid.symm.trans hgone) (by decide)
  have hconfig : link.publisher.startClose.2.config = link.publisher.config := by
    rw [ObservationPublisher.startClose]
    split_ifs <;> rfl
  rcases hstart : link.publisher.startClose with ⟨frame, p'⟩
  rw [hstart] at hconfig
  rcases startClose_cases hsane.modest with ⟨status, hframe⟩ | ⟨bytes, hframe, hbegins, hcut⟩
  · rw [hstart] at hframe
    obtain rfl : frame = .error status := hframe
    exact hleave p' link.upstream hconfig fun hup => hup ▸ begins_nil
  · rw [hstart] at hframe
    obtain rfl : frame = .ok bytes := hframe
    dsimp only
    rcases write_cases { link with publisher := p' } bytes sending with hwrite | ⟨status, count, -, hwrite⟩
    · rw [hwrite]
      exact hleave p' _ hconfig fun hup => by rw [hup]; exact hbegins
    · rw [hwrite]
      exact hleave p' _ hconfig fun hup => by rw [hup]; exact hcut count

/-- A new connection goes to the end of the links, and its session to the end of the sessions. -/
theorem InStep.append {server : ObservationServer} (h : InStep x.server x.links)
    (hsessions : server.sessions = x.server.sessions ++ [session]) (hlimits : server.limits = x.server.limits)
    (hsane : link.publisher.Sane) (hsynced : link.intact = true → Synced x.server.limits link session) :
    InStep server (x.links ++ [link]) where
  modest := hlimits ▸ h.modest
  paired := by rw [hsessions, List.length_append, List.length_append, h.paired]; rfl
  synced := by
    intro i other otherSession hother hsession
    rw [hlimits]
    rw [hsessions] at hsession
    rcases Nat.lt_or_ge i x.links.length with hold | hnew
    · rw [List.getElem?_append_left hold] at hother
      rw [List.getElem?_append_left (h.paired ▸ hold)] at hsession
      exact h.synced i other otherSession hother hsession
    · rw [List.getElem?_append_right hnew, List.getElem?_singleton] at hother
      rw [List.getElem?_append_right (h.paired ▸ hnew), ← h.paired, List.getElem?_singleton] at hsession
      split_ifs at hother hsession
      obtain rfl := Option.some.inj hother
      obtain rfl := Option.some.inj hsession
      exact ⟨hsane, hsynced⟩

theorem InStep.connect (h : InStep x.server x.links) {p : ObservationPublisher} (hhandshaken : p.handshaken = false)
    (hmodest : p.config.limits.maxWirePayloadBytes < 2 ^ 32) :
    InStep (x.connect p sending).server (x.connect p sending).links := by
  have hconnect : x.server.step .connect = x.server.connect := rfl
  rw [Exchange.connect, hconnect, ObservationServer.connect]
  by_cases hchecked : (!(ObservationPublisher.checkConnect p.config).ok) = true
  · rw [if_pos hchecked]
    exact h
  rw [if_neg hchecked]
  generalize List.countP _ x.server.sessions = active
  by_cases hfull : x.server.limits.maxSessions ≤ active
  · simp only [if_pos hfull, if_true]
    exact ⟨h.modest, h.paired, h.synced⟩
  · simp only [if_neg hfull, List.length_append, List.length_singleton, Nat.succ_ne_self, if_false]
    have happend : ∀ (written : Status) (link : Link), link.publisher.config = p.config →
        link.publisher.handshaken = false → (written.ok = true → Synced x.server.limits
          { link with publisher := { link.publisher with call := .connecting written }, intact := written.ok }
          { context := { sessionId := x.server.sessions.length + 1 } }) → _ :=
      fun written link hconfig hgreeting hsynced =>
        @InStep.append _ x { link with
          publisher := { link.publisher with call := .connecting written }, intact := written.ok } _
        { x.server with
          sessions := x.server.sessions ++ [{ context := { sessionId := x.server.sessions.length + 1 } }]
          stats := { x.server.stats with sessionsAccepted := x.server.stats.sessionsAccepted + 1 } }
        h rfl rfl ⟨hconfig ▸ hmodest, fun _ _ => hgreeting⟩ hsynced
    let greeting : Link := { publisher := { p with valid := true, frameSequence := p.frameSequence + 1 } }
    rw [ObservationPublisher.startConnect, ObservationPublisher.sendFrame]
    rcases hframe : encodeFrame _ _ _ _ _ with status | bytes
    · dsimp only
      refine happend status greeting rfl hhandshaken fun hok => ?_
      rw [encodeFrame_error hframe] at hok
      cases hok
    · dsimp only
      obtain ⟨hdeclared, rfl⟩ := encodeFrame_declared hmodest hframe
      rcases write_cases _ _ sending with hwrite | ⟨status, count, hfailed, hwrite⟩
      · rw [hwrite]
        refine happend .okay { greeting with upstream := _ } rfl hhandshaken fun _ => Waits.synced ?_ rfl Call.noConfusion
        exact .sent (.connecting rfl) hdeclared (List.nil_append _) rfl rfl rfl .nil
      · rw [hwrite]
        refine happend status { greeting with upstream := _ } rfl hhandshaken fun hok => ?_
        rw [hfailed] at hok
        cases hok

end Calls

/-! ### Answers -/

section Answers
variable {limits : RuntimeLimits} {socket rest : Socket} {status : Status} {frame : FrameHeader × Text}

omit [DoubleChars] in
theorem receiveExact_error {size : Nat} (h : socket.receiveExact size = (.error status, rest)) : status.ok = false := by
  rw [Socket.receiveExact, Socket.receiveLoop] at h
  generalize readLoop _ size [] socket = result at h
  rcases result with ⟨(_ | cause) | data, left⟩
  · cases h
    rfl
  · cases h
    cases cause <;> rfl
  · cases h

omit [DoubleChars] in
theorem decodeFrameHeader_error {data : Text} (h : decodeFrameHeader data limits = .error status) : status.ok = false := by
  rw [decodeFrameHeader] at h
  cases htype : tryParseFrameType (readU16 (data.drop 6)) with
  | none =>
    rw [htype] at h
    dsimp only at h
    split_ifs at h <;> cases h <;> rfl
  | some type =>
    rw [htype] at h
    dsimp only at h
    split_ifs at h <;> cases h <;> rfl

omit [DoubleChars] in
/-- A read that `Connect` goes on with and that is OK is a frame. -/
theorem readInto_ok (h : (ObservationPublisher.readInto limits socket).1.ok = true) :
    ∃ rest, ObservationPublisher.readFrame limits socket = (.ok (ObservationPublisher.readInto limits socket).2, rest) := by
  revert h
  rw [ObservationPublisher.readInto, ObservationPublisher.readFrame]
  rcases hheader : socket.receiveExact kFrameHeaderBytes with ⟨status | rawHeader, behind⟩
  · exact fun h => absurd (h.symm.trans (receiveExact_error hheader)) (by decide)
  dsimp only
  rw [readDeclared]
  rcases hdecode : decodeFrameHeader rawHeader limits with status | header
  · exact fun h => absurd (h.symm.trans (decodeFrameHeader_error hdecode)) (by decide)
  dsimp only
  rcases hpayload : behind.receiveExact header.payloadBytes.toNat with ⟨status | payload, left⟩
  · exact fun h => absurd (h.symm.trans (receiveExact_error hpayload)) (by decide)
  · intro h
    dsimp only at h ⊢
    rw [if_pos h]
    exact ⟨left, rfl⟩

/-- A frame that a publisher reads of an intact link answers its call, or it is an error. -/
theorem Waits.read {limits' : RuntimeLimits} {closed : Prop} {late : Text} {link : Link} {session : Session} {call : Call}
    (h : Waits limits call link session) (harriving : Exchange.Arriving link.downstream closed socket late)
    (hread : ObservationPublisher.readFrame limits' socket = (.ok frame, rest)) :
    frame.1.type = .errorFrame ∨ ∃ reply, Answers call reply ∧ frame = reply.sent ∧
      Quiet link session (front (flatten rest) ++ late) ∧ (session.phase = .reading → link.upstream = []) ∧
        if reply.accepts then Ahead limits call link else Agrees limits link := by
  have hnil : link.downstream ≠ [] := fun hdown =>
    (hdown ▸ harriving).read_nil ObservationPublisher.readsTape hread
  cases h with
  | sent hrequest hdeclared hup hdown => exact absurd hdown hnil
  | handled hhandles hup hdown => exact absurd hdown hnil
  | answered hanswers hdeclared hdown hquiet hup hrecord =>
    obtain ⟨rfl, rfl⟩ := (hdown ▸ harriving).read_sent ObservationPublisher.readsTape hdeclared hread
    exact .inr ⟨_, hanswers, rfl, hquiet, hup, hrecord⟩
  | doomed hdown hmute hrecord =>
    rcases hdown with hbegins | hunfinished
    · exact .inl (harriving.read_begins ObservationPublisher.readsTape hbegins hread)
    · exact absurd hread (harriving.read_unfinished ObservationPublisher.readsTape hunfinished)

theorem readAck_eq_ok {expected : FrameType} {missing : String} {ack : AckPayload} :
    ObservationPublisher.readAck limits expected missing (.ok frame) = .ok ack ↔
      ∃ document, parseJson limits frame.2 = .ok document ∧ frame.1.type = expected ∧ decodeAck document = .ok ack := by
  obtain ⟨header, payload⟩ := frame
  rw [ObservationPublisher.readAck]
  rcases parseJson limits payload with status | document
  · exact ⟨nofun, nofun⟩
  · simp only [ite_error_eq_ok, ne_eq, not_not, Except.ok.injEq, exists_eq_left']

/-- An acknowledgement that is returned is the one that was sent. -/
theorem readAck_sent [LawfulDoubleChars] {reply : Reply} {sent ack : AckPayload} {expected : FrameType} {missing : String}
    (hpayload : reply.payload = encodeAck sent)
    (h : ObservationPublisher.readAck limits expected missing (.ok reply.sent) = .ok ack) : ack = sent := by
  obtain ⟨document, hparsed, -, hdecoded⟩ := readAck_eq_ok.mp h
  rw [parseJson_written hparsed, hpayload] at hdecoded
  exact (decodeAck_written.mp hdecoded).2

omit [DoubleChars] in
theorem Answers.acknowledges {call : Call} {document : Document} {reply : Reply} (h : Answers call reply)
    (hdocument : call.document = some document) :
    ∃ ack, reply.payload = encodeAck ack ∧ reply.accepts = ack.accepted := by
  cases h with
  | connecting => cases hdocument
  | publishing | publishingIntent => exact ⟨_, rfl, rfl⟩

/-- A document that is acknowledged as accepted has been taken, and one that is acknowledged otherwise has not. -/
theorem Waits.acknowledged [LawfulDoubleChars] {limits' : RuntimeLimits} {closed : Prop} {late : Text} {link : Link}
    {session : Session} {call : Call} {document : Document} {expected : FrameType} {missing : String} {ack : AckPayload}
    {read : Except Status (FrameHeader × Text)} {publisher : ObservationPublisher}
    (h : Waits limits call link session) (harriving : Exchange.Arriving link.downstream closed socket late)
    (hread : ObservationPublisher.readFrame limits' socket = (read, rest)) (hdocument : call.document = some document)
    (hexpected : expected ≠ .errorFrame)
    (hack : ObservationPublisher.readAck limits' expected missing read = .ok ack) :
    Rests limits (Exchange.acknowledge { link with downstream := front (flatten rest) ++ late } document publisher (.ok ack))
      session := by
  rcases read with status | frame
  · cases hack
  rcases h.read harriving hread with htype | ⟨reply, hanswers, rfl, hquiet, hup, hrecord⟩
  · obtain ⟨-, -, htype', -⟩ := readAck_eq_ok.mp hack
    exact absurd (htype'.symm.trans htype) hexpected
  obtain ⟨sent, hpayload, haccepts⟩ := hanswers.acknowledges hdocument
  obtain rfl := readAck_sent hpayload hack
  rw [haccepts] at hrecord
  refine ⟨?_, hquiet, fun hreading => .inl (hup hreading)⟩
  rw [Agrees, Exchange.acknowledge]
  dsimp only
  split_ifs at hrecord ⊢ with haccepted
  · obtain ⟨document', taken, last, hdocument', hadmitted, hlast, htaken⟩ := hrecord
    obtain rfl := Option.some.inj (hdocument.symm.trans hdocument')
    rw [hadmitted]
    exact List.rel_append htaken (.cons hlast .nil)
  · exact hrecord

end Answers

section Receives
variable [LawfulDoubleChars] {x : Exchange} {index : Nat} {link : Link} {session : Session} {socket : Socket} {late : Text}
  {closed : Prop}

omit [LawfulDoubleChars] in
theorem finishConnect_config (p : ObservationPublisher) (written read : Status) (header : FrameHeader) (payload : Text) :
    (p.finishConnect written read header payload).2.config = p.config := by
  rw [ObservationPublisher.finishConnect]
  dsimp only
  repeat' split
  all_goals rfl

omit [LawfulDoubleChars] in
theorem finishConnect_error {p : ObservationPublisher} {written read : Status} {header : FrameHeader} {payload : Text}
    (hgreeting : p.handshaken = false) (htype : header.type = .errorFrame) :
    (p.finishConnect written read header payload).2.handshaken = false := by
  rw [ObservationPublisher.finishConnect]
  dsimp only
  repeat' split
  all_goals exact hgreeting

/-- A publisher reads the answer to its call. -/
theorem InStep.receive (h : InStep x.server x.links) (hlink : x.links[index]? = some link)
    (hbusy : link.publisher.call ≠ .idle) (harriving : Exchange.Arriving link.downstream closed socket late) :
    InStep (x.receive index link socket late).server (x.receive index link socket late).links := by
  obtain ⟨session, hs⟩ := h.serves hlink
  obtain ⟨hsane, hsynced⟩ := h.synced index link session hlink hs
  have hwaits := fun hintact => (synced_of_call hbusy).mp (hsynced hintact)
  have hend : ∀ link' : Link, link'.publisher.config = link.publisher.config → link'.publisher.call = .idle →
      (link'.intact = true → Rests x.server.limits link' session) → InStep x.server (x.links.set index link') := by
    intro link' hconfig hidle hrests
    refine h.put hlink hs (.refl hs) ⟨hconfig ▸ hsane.modest, fun written hcall => ?_⟩ fun hintact =>
      (synced_idle hidle).mpr (hrests hintact)
    rw [hidle] at hcall
    cases hcall
  rw [Exchange.receive]
  rcases hread : ObservationPublisher.readFrame link.publisher.config.limits socket with ⟨read, rest⟩
  dsimp only
  cases hcall : link.publisher.call with
  | idle => exact absurd hcall hbusy
  | connecting written =>
    dsimp only
    refine hend _ (finishConnect_config _ _ _ _ _) rfl fun hintact => ?_
    obtain ⟨hintact, hhandshaken⟩ := Bool.and_eq_true_iff.mp hintact
    obtain ⟨hintact, hok⟩ := Bool.and_eq_true_iff.mp hintact
    obtain ⟨rest', hframe⟩ := readInto_ok hok
    obtain ⟨rfl, rfl⟩ := Prod.mk.inj (hread.symm.trans hframe)
    rcases (hwaits hintact).read harriving hread with htype | ⟨reply, hanswers, -, hquiet, hup, hrecord⟩
    · have hrefused := @finishConnect_error _ _ written
        (ObservationPublisher.readInto link.publisher.config.limits socket).1 _
        (ObservationPublisher.readInto link.publisher.config.limits socket).2.2
        (hsane.greeting written hcall) htype
      exact absurd (hhandshaken.symm.trans hrefused) (by decide)
    · rw [hcall] at hanswers
      cases hanswers with
      | connecting => exact ⟨hrecord.congr rfl rfl, hquiet, fun hreading => .inl (hup hreading)⟩
  | publishing snapshot =>
    dsimp only
    rw [ObservationPublisher.finishPublish]
    rcases hack : ObservationPublisher.readAck _ _ _ read with status | ack
    · exact hend _ rfl rfl fun hintact => by cases hintact
    · refine hend _ ?_ rfl fun hintact =>
        (hwaits hintact).acknowledged harriving hread (by rw [hcall]; rfl) (by decide) hack
      dsimp only [Exchange.acknowledge]
      split_ifs <;> rfl
  | publishingIntent document =>
    dsimp only
    rw [ObservationPublisher.finishPublishIntent]
    rcases hack : ObservationPublisher.readAck _ _ _ read with status | ack
    · exact hend _ rfl rfl fun hintact => by cases hintact
    · exact hend _ rfl rfl fun hintact =>
        (hwaits hintact).acknowledged harriving hread (by rw [hcall]; rfl) (by decide) hack

end Receives

end Protocol

end DriftObservatory
