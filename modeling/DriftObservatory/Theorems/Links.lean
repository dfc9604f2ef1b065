import DriftObservatory.Theorems.Arrivals
import DriftObservatory.Theorems.Payloads
import DriftObservatory.Theorems.Sessions

/-! Documents over the network. As long as the calls of a publisher return OK, its session takes from it exactly the
    documents that were acknowledged as accepted, in their order and once each, whatever the other sessions do and
    however the bytes travel. -/

namespace DriftObservatory
open Pieces Json Outcome

/-! ### What is under way -/

/-- The second document is what the server reads of the first. -/
inductive Delivered (limits : RuntimeLimits) : Document → Document → Prop
  | snapshot {s t : ObservationSnapshot}
      (h : decodeObservationDocument limits (encodeObservationDocument s).canonical = .ok t) :
      Delivered limits (.snapshot s) (.snapshot t)
  | intent {d e : IntentGenerationDocument}
      (h : decodeIntentDocument limits (encodeIntentDocument d).canonical = .ok e) : Delivered limits (.intent d) (.intent e)

def Call.document : Call → Option Document
  | .idle | .connecting _ => none
  | .publishing snapshot => some (.snapshot snapshot)
  | .publishingIntent document => some (.intent document)

/-- The frame a call writes. -/
inductive Requests [DoubleChars] : Call → FrameHeader × Text → Prop
  | connecting {written : Status} {frame : FrameHeader × Text} (htype : frame.1.type = .hello) :
      Requests (.connecting written) frame
  | publishing {snapshot : ObservationSnapshot} {frame : FrameHeader × Text} (htype : frame.1.type = .snapshot)
      (hpayload : frame.2 = writeCanonicalJson (encodeObservationDocument snapshot)) : Requests (.publishing snapshot) frame
  | publishingIntent {document : IntentGenerationDocument} {frame : FrameHeader × Text} (htype : frame.1.type = .intent)
      (hpayload : frame.2 = writeCanonicalJson (encodeIntentDocument document)) : Requests (.publishingIntent document) frame

/-- The handler is between two sections of the call. -/
inductive Handles (limits : RuntimeLimits) : Call → SessionPhase → Prop
  | connecting {written : Status} {hello : HelloPayload} {ack : HelloAckPayload} :
      Handles limits (.connecting written) (.greeted hello ack)
  | publishing {s t : ObservationSnapshot} {ack : AckPayload} (h : Delivered limits (.snapshot s) (.snapshot t)) :
      Handles limits (.publishing s) (.fenced t ack)

theorem Handles.busy {limits : RuntimeLimits} {call : Call} {phase : SessionPhase} (h : Handles limits call phase) :
    phase ≠ .reading := by
  cases h <;> exact SessionPhase.noConfusion

/-- The answer is one to the call. -/
inductive Answers : Call → Reply → Prop
  | connecting {written : Status} {ack : HelloAckPayload} : Answers (.connecting written) (.helloAck ack)
  | publishing {snapshot : ObservationSnapshot} {ack : AckPayload} : Answers (.publishing snapshot) (.snapshotAck ack)
  | publishingIntent {document : IntentGenerationDocument} {ack : AckPayload} :
      Answers (.publishingIntent document) (.intentAck ack)

namespace Reply

def type : Reply → FrameType
  | .helloAck _ => .helloAck
  | .snapshotAck _ => .snapshotAck
  | .intentAck _ => .intentAck
  | .error _ _ => .errorFrame

def payload : Reply → Value
  | .helloAck ack => encodeHelloAck ack
  | .snapshotAck ack | .intentAck ack => encodeAck ack
  | .error reason detail => encodeError reason detail

/-- The answer acknowledges a document as accepted. -/
def accepts : Reply → Bool
  | .snapshotAck ack | .intentAck ack => ack.accepted
  | _ => false

/-- The frame of the answer. -/
def sent [DoubleChars] (reply : Reply) : FrameHeader × Text :=
  (headerOf reply.type 0 0 (writeCanonicalJson reply.payload), writeCanonicalJson reply.payload)

end Reply

theorem encodeFrame_declared {limits : RuntimeLimits} {type : FrameType} {flags : UInt16} {sequence : UInt64}
    {payload bytes : Text} (hmodest : limits.maxWirePayloadBytes < 2 ^ 32)
    (h : encodeFrame type flags sequence payload limits = .ok bytes) :
    Declared (headerOf type flags sequence payload, payload) ∧
      bytes = wire (headerOf type flags sequence payload, payload) 0 := by
  have hbytes := @SentFrame.encode_eq_ok _ ⟨type, flags, sequence, payload⟩ _ h
  refine ⟨⟨rfl, UInt32.toNat_ofNat_of_lt' ?_⟩, hbytes⟩
  rw [encodeFrame] at h
  split_ifs at h with hlength
  exact lt_of_le_of_lt (Nat.not_lt.mp hlength) hmodest

theorem Reply.frame_eq_ok [DoubleChars] {limits : RuntimeLimits} {reply : Reply} {bytes : Text}
    (hmodest : limits.maxWirePayloadBytes < 2 ^ 32) (h : reply.frame limits = .ok bytes) :
    Declared reply.sent ∧ bytes = wire reply.sent 0 := by
  cases reply <;> exact encodeFrame_declared hmodest h

/-! ### The state of a link -/

/-- No answer to a call comes of these bytes. -/
def Unanswering (bytes : Text) : Prop := Begins .errorFrame bytes ∨ Partial bytes

/-- The session waits and nothing is under way from it, or it is closed behind at most an error. -/
def Quiet (link : Link) (session : Session) (tail : Text) : Prop :=
  (session.phase = .reading ∧ tail = [] ∧ link.broken = false) ∨ (session.phase = .closed ∧ Begins .errorFrame tail)

/-- The documents taken are those acknowledged. -/
def Agrees (limits : RuntimeLimits) (link : Link) : Prop :=
  List.Forall₂ (Delivered limits) link.accepted link.admitted

/-- The document of the call is taken too. -/
def Ahead (limits : RuntimeLimits) (call : Call) (link : Link) : Prop :=
  ∃ document taken last, call.document = some document ∧ link.admitted = taken ++ [last] ∧
    Delivered limits document last ∧ List.Forall₂ (Delivered limits) link.accepted taken

section Congruence
variable {limits : RuntimeLimits} {link link' : Link} {call : Call}

theorem Agrees.congr (h : Agrees limits link) (haccepted : link'.accepted = link.accepted)
    (hadmitted : link'.admitted = link.admitted) : Agrees limits link' := by
  rw [Agrees, haccepted, hadmitted]
  exact h

theorem Ahead.congr (h : Ahead limits call link) (haccepted : link'.accepted = link.accepted)
    (hadmitted : link'.admitted = link.admitted) : Ahead limits call link' := by
  rw [Ahead, haccepted, hadmitted]
  exact h

theorem Agrees.ahead {document last : Document} (h : Agrees limits link) (hcall : call.document = some document)
    (haccepted : link'.accepted = link.accepted) (hadmitted : link'.admitted = link.admitted ++ [last])
    (hdelivered : Delivered limits document last) : Ahead limits call link' :=
  ⟨document, link.admitted, last, hcall, hadmitted, hdelivered, haccepted ▸ h⟩

theorem begins_nil {type : FrameType} : Begins type [] := .inl rfl

end Congruence

structure Rests (limits : RuntimeLimits) (link : Link) (session : Session) : Prop where
  agrees : Agrees limits link
  quiet : Quiet link session link.downstream
  upstream : session.phase = .reading → link.upstream = [] ∨ link.publisher.valid = false ∧ Begins .bye link.upstream

section Protocol
variable [DoubleChars]

/-- Where a call stands: its frame is under way, its handler is between two sections, its answer is under way, or it
    is not going to be answered. -/
inductive Waits (limits : RuntimeLimits) (call : Call) (link : Link) (session : Session) : Prop
  | sent {frame : FrameHeader × Text} (hrequest : Requests call frame) (hdeclared : Declared frame)
      (hup : link.upstream = wire frame 0) (hdown : link.downstream = []) (hreading : session.phase = .reading)
      (hopen : link.broken = false) (hagrees : Agrees limits link)
  | handled (hhandles : Handles limits call session.phase) (hup : link.upstream = []) (hdown : link.downstream = [])
      (hopen : link.broken = false) (hagrees : Agrees limits link)
  | answered {reply : Reply} {tail : Text} (hanswers : Answers call reply) (hdeclared : Declared reply.sent)
      (hdown : link.downstream = wire reply.sent 0 ++ tail) (hquiet : Quiet link session tail)
      (hup : session.phase = .reading → link.upstream = [])
      (hrecord : if reply.accepts then Ahead limits call link else Agrees limits link)
  | doomed (hdown : Unanswering link.downstream)
      (hmute : session.phase = .closed ∨
        session.phase = .reading ∧ link.upstream = [] ∧ (link.broken = true ∨ link.downstream = []))
      (hrecord : Agrees limits link ∨ Ahead limits call link)

def Synced (limits : RuntimeLimits) (link : Link) (session : Session) : Prop :=
  match link.publisher.call with
  | .idle => Rests limits link session
  | call => Waits limits call link session

theorem synced_idle {limits : RuntimeLimits} {link : Link} {session : Session} (h : link.publisher.call = .idle) :
    Synced limits link session ↔ Rests limits link session := by
  rw [Synced, h]

theorem synced_of_call {limits : RuntimeLimits} {link : Link} {session : Session} (h : link.publisher.call ≠ .idle) :
    Synced limits link session ↔ Waits limits link.publisher.call link session := by
  rw [Synced]
  split
  · next hidle => exact absurd hidle h
  · rfl

theorem Waits.synced {limits : RuntimeLimits} {call : Call} {link : Link} {session : Session}
    (h : Waits limits call link session) (hcall : link.publisher.call = call) (hbusy : call ≠ .idle) :
    Synced limits link session := by
  subst hcall
  exact (synced_of_call hbusy).mpr h

/-- Every frame of the publisher has its length in its header, and a connection is not handshaken before its answer. -/
structure ObservationPublisher.Sane (p : ObservationPublisher) : Prop where
  modest : p.config.limits.maxWirePayloadBytes < 2 ^ 32
  greeting : ∀ written, p.call = .connecting written → p.handshaken = false

/-- Links and sessions go together, and every intact link is in step with its session. -/
structure InStep (server : ObservationServer) (links : List Link) : Prop where
  modest : server.limits.maxWirePayloadBytes < 2 ^ 32
  paired : links.length = server.sessions.length
  synced : ∀ (i : Nat) link session, links[i]? = some link → server.sessions[i]? = some session →
    link.publisher.Sane ∧ (link.intact = true → Synced server.limits link session)

/-! ### Sessions that end -/

section Ends
variable {limits : RuntimeLimits} {link link' : Link} {session session' : Session} {extra : Text} {call : Call}

/-- A waiting session closes, behind at most an error. -/
theorem Synced.ended (h : Synced limits link session) (hreading : session.phase = .reading)
    (hclosed : session'.phase = .closed) (hpublisher : link'.publisher = link.publisher)
    (haccepted : link'.accepted = link.accepted) (hadmitted : link'.admitted = link.admitted)
    (hdown : link'.downstream = link.downstream ++ extra) (hextra : Begins .errorFrame extra)
    (hbroken : link.broken = true → extra = []) : Synced limits link' session' := by
  have hquiet : ∀ {tail : Text}, Quiet link session tail → Quiet link' session' (tail ++ extra) := by
    rintro tail (⟨-, rfl, -⟩ | ⟨hphase, -⟩)
    · exact .inr ⟨hclosed, hextra⟩
    · rw [hreading] at hphase
      cases hphase
  have hnot : session'.phase ≠ .reading := by
    rw [hclosed]
    exact SessionPhase.noConfusion
  by_cases hidle : link.publisher.call = .idle
  · rw [synced_idle hidle] at h
    rw [synced_idle (hpublisher ▸ hidle)]
    exact ⟨h.agrees.congr haccepted hadmitted, hdown ▸ hquiet h.quiet, fun hphase => absurd hphase hnot⟩
  · rw [synced_of_call hidle] at h
    rw [synced_of_call (hpublisher ▸ hidle), hpublisher]
    cases h with
    | sent hrequest hdeclared hup hdown' hreading hopen hagrees =>
      rw [hdown', List.nil_append] at hdown
      exact .doomed (hdown ▸ .inl hextra) (.inl hclosed) (.inl (hagrees.congr haccepted hadmitted))
    | handled hhandles hup hdown' hopen hagrees => exact absurd hreading hhandles.busy
    | answered hanswers hdeclared hdown' hquiet' hup hrecord =>
      refine .answered hanswers hdeclared (by rw [hdown, hdown', List.append_assoc]) (hquiet hquiet')
        (fun hphase => absurd hphase hnot) ?_
      split_ifs at hrecord ⊢ with haccepts
      · exact hrecord.congr haccepted hadmitted
      · exact hrecord.congr haccepted hadmitted
    | doomed hdown' hmute hrecord =>
      refine .doomed ?_ (.inl hclosed) (hrecord.imp (·.congr haccepted hadmitted) (·.congr haccepted hadmitted))
      rcases hmute with hphase | ⟨-, -, hbroken' | hnil⟩
      · rw [hreading] at hphase
        cases hphase
      · rw [hdown, hbroken hbroken', List.append_nil]
        exact hdown'
      · rw [hdown, hnil, List.nil_append]
        exact .inl hextra

end Ends

/-! ### Sections and their answers -/

section Answers
variable {x : Exchange} {server server' : ObservationServer} {links : List Link} {index : Nat} {link link' link₀ : Link}
  {session session' : Session} {limits : RuntimeLimits} {events : Bool → List ObservationServer.Event} {sending : Sending}

/-- One link and its session move. -/
theorem InStep.put (h : InStep server links) (hlink : links[index]? = some link₀)
    (hs : server.sessions[index]? = some session) (hmoves : ObservationServer.Moves server server' index session')
    (hsane : link.publisher.Sane) (hsynced : link.intact = true → Synced server.limits link session') :
    InStep server' (links.set index link) where
  modest := hmoves.limits ▸ h.modest
  paired := by rw [List.length_set, hmoves.length, h.paired]
  synced := by
    intro i other otherSession hother hsession
    rw [hmoves.limits]
    by_cases hi : i = index
    · subst hi
      rw [List.getElem?_set_self (List.getElem?_eq_some_iff.mp hlink).1] at hother
      rw [hmoves.self hs] at hsession
      obtain rfl := Option.some.inj hother
      obtain rfl := Option.some.inj hsession
      exact ⟨hsane, hsynced⟩
    · rw [List.getElem?_set_ne (Ne.symm hi)] at hother
      rw [hmoves.elsewhere hi] at hsession
      exact h.synced i other otherSession hother hsession

/-- A session that ends behind its last frame stays in step. -/
theorem moves_settle (hmoves : ObservationServer.Moves server server' index session')
    (hs : server.sessions[index]? = some session) (link : Link) :
    ∃ session'', ObservationServer.Moves server (Exchange.settle index link server') index session'' ∧
      ∀ limits, Synced limits link session' → Synced limits link session'' := by
  rw [Exchange.settle]
  split_ifs with hfinal
  · have hself := hmoves.self hs
    by_cases hreading : session'.phase = .reading
    · exact ⟨_, hmoves.trans (ObservationServer.moves_bye hself hreading), fun limits h =>
        h.ended hreading rfl rfl rfl rfl (List.append_nil _).symm begins_nil fun _ => rfl⟩
    · rw [ObservationServer.step_bye_of_busy hself hreading]
      exact ⟨session', hmoves, fun _ h => h⟩
  · exact ⟨session', hmoves, fun _ h => h⟩

/-- What gets through of an answer that is lost. -/
inductive Lost (link : Link) : Text → Bool → Prop
  | none : Lost link [] link.broken
  | some {extra : Text} (hopen : link.broken = false) (hunfinished : Partial extra) : Lost link extra true

theorem transmit_cases (hmodest : limits.maxWirePayloadBytes < 2 ^ 32) (link : Link) (reply : Reply) (sending : Sending) :
    (link.broken = false ∧ Declared reply.sent ∧ link.transmit (reply.frame limits) sending =
        (true, { link with downstream := link.downstream ++ wire reply.sent 0 })) ∨
      ∃ extra broken, Lost link extra broken ∧ Begins reply.type extra ∧ link.transmit (reply.frame limits) sending =
        (false, { link with downstream := link.downstream ++ extra, broken := broken }) := by
  rcases hframe : reply.frame limits with status | bytes
  · exact .inr ⟨[], link.broken, .none, begins_nil, by rw [Link.transmit, List.append_nil]⟩
  · obtain ⟨hdeclared, rfl⟩ := Reply.frame_eq_ok hmodest hframe
    by_cases hbroken : link.broken = true
    · have hclosed : link.transmit (.ok (wire reply.sent 0)) sending = (false, link) := if_pos hbroken
      exact .inr ⟨[], link.broken, .none, begins_nil, by rw [hclosed, List.append_nil]⟩
    · have hopen : link.broken = false := Bool.eq_false_iff.mpr hbroken
      cases sending with
      | whole => exact .inl ⟨hopen, hdeclared, by rw [Link.transmit, if_neg hbroken]⟩
      | cut count error =>
        exact .inr ⟨_, true, .some hopen (partial_dropLast hdeclared count), begins_dropLast hdeclared count,
          by rw [Link.transmit, if_neg hbroken]⟩

/-- Whether a section has an answer or not, and whether it gets through or not. -/
theorem InStep.answer (h : InStep x.server x.links) (hlink : x.links[index]? = some link₀)
    (hs : x.server.sessions[index]? = some session) (hpublisher : link.publisher = link₀.publisher)
    (hcases : (∃ session', ObservationServer.Moves x.server (x.server.perform (events true)).1 index session' ∧
        session'.replies = session.replies ∧ (link.intact = true → Synced x.server.limits
          { link with admitted := link.admitted ++ (x.server.perform (events true)).2 } session')) ∨
      ∃ session' session'' reply, ObservationServer.Moves x.server (x.server.perform (events true)).1 index session' ∧
        session'.replies = session.replies ++ [reply] ∧
        ObservationServer.Moves x.server (x.server.perform (events false)).1 index session'' ∧
        (link.intact = true → link.broken = false → Declared reply.sent → Synced x.server.limits
          { link with
            downstream := link.downstream ++ wire reply.sent 0
            admitted := link.admitted ++ (x.server.perform (events true)).2 } session') ∧
        (link.intact = true → ∀ extra broken, Lost link extra broken → Begins reply.type extra → Synced x.server.limits
          { link with
            downstream := link.downstream ++ extra, broken := broken
            admitted := link.admitted ++ (x.server.perform (events false)).2 } session'')) :
    InStep (x.answer index link events sending).server (x.answer index link events sending).links := by
  have hsane : link.publisher.Sane := hpublisher ▸ (h.synced index link₀ session hlink hs).1
  rw [Exchange.answer]
  rcases hcases with ⟨session', hmoves, hreplies, hsynced⟩ |
    ⟨session', session'', reply, hmoves, hreplies, hmoves', hsent, hlost⟩
  · rw [ObservationServer.newestReply_of_same hmoves hs hreplies]
    obtain ⟨settled, hsettled, hkeeps⟩ := moves_settle hmoves hs
      { link with admitted := link.admitted ++ (x.server.perform (events true)).2 }
    exact h.put hlink hs hsettled hsane fun hintact => hkeeps _ (hsynced hintact)
  · rw [ObservationServer.newestReply_of_answer hmoves hs hreplies]
    dsimp only
    rcases transmit_cases h.modest link reply sending with ⟨hopen, hdeclared, htransmit⟩ |
      ⟨extra, broken, hextra, hbegins, htransmit⟩
    · rw [htransmit]
      dsimp only
      obtain ⟨settled, hsettled, hkeeps⟩ := moves_settle hmoves hs
        { link with
          downstream := link.downstream ++ wire reply.sent 0
          admitted := link.admitted ++ (x.server.perform (events true)).2 }
      exact h.put hlink hs hsettled hsane fun hintact => hkeeps _ (hsent hintact hopen hdeclared)
    · rw [htransmit]
      dsimp only
      obtain ⟨settled, hsettled, hkeeps⟩ := moves_settle hmoves' hs
        { link with
          downstream := link.downstream ++ extra, broken := broken
          admitted := link.admitted ++ (x.server.perform (events false)).2 }
      exact h.put hlink hs hsettled hsane fun hintact => hkeeps _ (hlost hintact extra broken hextra hbegins)

/-- A session ends, with or without a word. -/
theorem InStep.hangUp (h : InStep x.server x.links) (hlink : x.links[index]? = some link)
    (hs : x.server.sessions[index]? = some session) (hreading : session.phase = .reading) (upstream : Text) (final : Bool) :
    InStep (x.server.step (.bye index)) (x.links.set index { link with upstream := upstream, final := final }) :=
  have ⟨hsane, hsynced⟩ := h.synced index link session hlink hs
  h.put hlink hs (ObservationServer.moves_bye hs hreading) hsane fun hintact =>
    (hsynced hintact).ended hreading rfl rfl rfl rfl (List.append_nil _).symm begins_nil
      fun _ => rfl

theorem InStep.refuse (h : InStep x.server x.links) (hlink : x.links[index]? = some link)
    (hs : x.server.sessions[index]? = some session) (hreading : session.phase = .reading) (upstream : Text) (final : Bool)
    (reason : ReasonCode) (detail : Text) :
    let y := x.refuse index { link with upstream := upstream, final := final } reason detail sending
    InStep y.server y.links := by
  have hbye := ObservationServer.moves_bye hs hreading
  obtain ⟨hsane, hsynced⟩ := h.synced index link session hlink hs
  intro y
  rcases transmit_cases h.modest { link with upstream := upstream, final := final } (.error reason detail) sending with
    ⟨hopen, hdeclared, htransmit⟩ | ⟨extra, broken, hextra, hbegins, htransmit⟩
  · simp only [y, Exchange.refuse, htransmit]
    refine h.put hlink hs hbye hsane fun hintact => ?_
    exact (hsynced hintact).ended hreading rfl rfl rfl rfl rfl (.inr ⟨_, hdeclared, rfl, List.prefix_rfl⟩)
      fun hbroken => absurd (hopen.symm.trans hbroken) Bool.false_ne_true
  · simp only [y, Exchange.refuse, htransmit]
    refine h.put hlink hs hbye hsane fun hintact => ?_
    refine (hsynced hintact).ended hreading rfl rfl rfl rfl rfl hbegins fun hbroken => ?_
    cases hextra with
    | none => rfl
    | some hopen => exact absurd (hopen.symm.trans hbroken) Bool.false_ne_true

end Answers

/-! ### Frames that arrive -/

section Reads
variable {x : Exchange} {index : Nat} {link link' : Link} {session session' : Session} {limits : RuntimeLimits}
  {socket rest : Socket} {late extra : Text} {sending : Sending} {frame : FrameHeader × Text} {call : Call} {reply : Reply}
  {broken : Bool}

/-- The frame of the call has been read, and nothing else is under way. -/
structure Called (limits : RuntimeLimits) (link : Link) (frame : FrameHeader × Text) : Prop where
  request : Requests link.publisher.call frame
  upstream : link.upstream = []
  downstream : link.downstream = []
  opened : link.broken = false
  agrees : Agrees limits link

/-- A frame that is read of an intact link is the last word of its publisher or the one of the call. -/
theorem Synced.read (h : Synced limits link session) (hreading : session.phase = .reading)
    (harriving : Exchange.Arriving link.upstream (link.publisher.valid = false) socket late)
    (hread : ObservationServer.readFrame limits socket = (.ok frame, rest)) (final : Bool) :
    frame.1.type = .bye ∨
      Called limits { link with upstream := front (flatten rest) ++ late, final := final } frame := by
  have hnil : link.upstream ≠ [] := fun hup =>
    (hup ▸ harriving).read_nil ObservationServer.readsTape hread
  by_cases hidle : link.publisher.call = .idle
  · rw [synced_idle hidle] at h
    rcases h.upstream hreading with hup | ⟨-, hbegins⟩
    · exact absurd hup hnil
    · exact .inl (harriving.read_begins ObservationServer.readsTape hbegins hread)
  · rw [synced_of_call hidle] at h
    cases h with
    | sent hrequest hdeclared hup hdown hreading hopen hagrees =>
      rw [hup, ← List.append_nil (wire _ 0)] at harriving
      obtain ⟨rfl, hleft⟩ := harriving.read_sent ObservationServer.readsTape hdeclared hread
      exact .inr ⟨hrequest, hleft, hdown, hopen, hagrees⟩
    | handled hhandles => exact absurd hreading hhandles.busy
    | answered hanswers hdeclared hdown hquiet hup hrecord => exact absurd (hup hreading) hnil
    | doomed hdown hmute hrecord =>
      rcases hmute with hclosed | ⟨-, hup, -⟩
      · rw [hreading] at hclosed
        cases hclosed
      · exact absurd hup hnil

theorem Waits.lost (hnil : link.downstream = []) (hlost : Lost link extra broken)
    (hdown : link'.downstream = link.downstream ++ extra) (hbroken : link'.broken = broken)
    (hmute : session'.phase = .closed ∨ session'.phase = .reading ∧ link'.upstream = [])
    (hrecord : Agrees limits link' ∨ Ahead limits call link') : Waits limits call link' session' := by
  rw [hnil, List.nil_append] at hdown
  cases hlost with
  | none =>
    exact .doomed (.inl (.inl hdown)) (hmute.imp id fun ⟨hphase, hup⟩ => ⟨hphase, hup, .inr hdown⟩) hrecord
  | some hopen hunfinished =>
    exact .doomed (.inr (hdown ▸ hunfinished)) (hmute.imp id fun ⟨hphase, hup⟩ => ⟨hphase, hup, .inl hbroken⟩) hrecord

theorem Waits.replied (hnil : link.downstream = []) (hdeclared : Declared reply.sent) (hanswers : Answers call reply)
    (hdown : link'.downstream = link.downstream ++ wire reply.sent 0)
    (hphase : session'.phase = .closed ∨ session'.phase = .reading ∧ link'.upstream = [] ∧ link'.broken = false)
    (hrecord : if reply.accepts then Ahead limits call link' else Agrees limits link') :
    Waits limits call link' session' := by
  have hframe : link'.downstream = wire reply.sent 0 ++ [] := by rw [hdown, hnil, List.nil_append, List.append_nil]
  refine .answered hanswers hdeclared hframe ?_ ?_ hrecord
  · rcases hphase with hclosed | ⟨hreading, -, hopen⟩
    · exact .inr ⟨hclosed, begins_nil⟩
    · exact .inl ⟨hreading, rfl, hopen⟩
  · intro hreading
    rcases hphase with hclosed | ⟨-, hup, -⟩
    · rw [hreading] at hclosed
      cases hclosed
    · exact hup

end Reads

end Protocol

end DriftObservatory
