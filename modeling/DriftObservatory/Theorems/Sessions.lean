import DriftObservatory.Exchange

/-! What each step of the server makes of its session: the phase it is left in, the answer that is added and the
    document that is taken. Every other session stays as it is. -/

namespace DriftObservatory

/-- A write of the server's side leaves the publisher and the record of its link alone. -/
structure Link.Keeps (link link' : Link) : Prop where
  publisher : link'.publisher = link.publisher
  intact : link'.intact = link.intact
  admitted : link'.admitted = link.admitted

theorem Link.transmit_keeps (link : Link) (frame : Except Status Text) (sending : Sending) :
    link.Keeps (link.transmit frame sending).2 := by
  rcases frame with status | bytes
  · exact ⟨rfl, rfl, rfl⟩
  · dsimp only [Link.transmit]
    split
    · exact ⟨rfl, rfl, rfl⟩
    · cases sending <;> exact ⟨rfl, rfl, rfl⟩

namespace ObservationServer
variable [DoubleChars] {server server' : ObservationServer} {event : Event} {index other : Nat} {session session' : Session}

/-! ### One session -/

/-- Only the session at the index changes. -/
structure Moves (server server' : ObservationServer) (index : Nat) (session' : Session) : Prop where
  sessions : server'.sessions = server.sessions.set index session'
  limits : server'.limits = server.limits

omit [DoubleChars] in
theorem Moves.self (h : Moves server server' index session') (hs : server.sessions[index]? = some session) :
    server'.sessions[index]? = some session' := by
  rw [h.sessions, List.getElem?_set_self (List.getElem?_eq_some_iff.mp hs).1]

omit [DoubleChars] in
theorem Moves.elsewhere (h : Moves server server' index session') (hne : other ≠ index) :
    server'.sessions[other]? = server.sessions[other]? := by
  rw [h.sessions, List.getElem?_set_ne (Ne.symm hne)]

omit [DoubleChars] in
theorem Moves.length (h : Moves server server' index session') : server'.sessions.length = server.sessions.length := by
  rw [h.sessions, List.length_set]

omit [DoubleChars] in
theorem Moves.refl (hs : server.sessions[index]? = some session) : Moves server server index session := by
  obtain ⟨hlt, rfl⟩ := List.getElem?_eq_some_iff.mp hs
  exact ⟨(List.set_getElem_self hlt).symm, rfl⟩

omit [DoubleChars] in
theorem Moves.trans {server'' : ObservationServer} {session'' : Session} (h : Moves server server' index session')
    (h' : Moves server' server'' index session'') : Moves server server'' index session'' :=
  ⟨by rw [h'.sessions, h.sessions, List.set_set], h'.limits.trans h.limits⟩

omit [DoubleChars] in
theorem newestReply_of_same (h : Moves server server' index session') (hs : server.sessions[index]? = some session)
    (hreplies : session'.replies = session.replies) : server.newestReply server' index = none := by
  rw [newestReply, hs, h.self hs]
  dsimp only
  rw [hreplies, List.getElem?_eq_none (Nat.le_refl _)]

omit [DoubleChars] in
theorem newestReply_of_answer {reply : Reply} (h : Moves server server' index session')
    (hs : server.sessions[index]? = some session) (hreplies : session'.replies = session.replies ++ [reply]) :
    server.newestReply server' index = some reply := by
  rw [newestReply, hs, h.self hs]
  dsimp only
  rw [hreplies, List.getElem?_concat_length]

/-! ### Ends -/

theorem moves_bye (hs : server.sessions[index]? = some session) (hreading : session.phase = .reading) :
    Moves server (server.step (.bye index)) index session.close := by
  have hstep : server.step (.bye index) = server.update index session.close := by simp only [step, hs, hreading]
  rw [hstep]
  exact ⟨rfl, rfl⟩

theorem step_bye_of_busy (hs : server.sessions[index]? = some session) (hbusy : session.phase ≠ .reading) :
    server.step (.bye index) = server := by
  cases hphase : session.phase with
  | reading => exact absurd hphase hbusy
  | greeted | fenced | closed => simp only [step, hs, hphase]

/-! ### Greetings -/

/-- A greeting is between its sections, or refused and the session closed. -/
theorem moves_hello {document : Except Status HelloPayload} (hs : server.sessions[index]? = some session)
    (hreading : session.phase = .reading) :
    ∃ session', Moves server (server.step (.hello index document)) index session' ∧
      ((session'.replies = session.replies ∧ ∃ hello ack, session'.phase = .greeted hello ack) ∨
        (session'.phase = .closed ∧ ∃ reply, session'.replies = session.replies ++ [reply] ∧
          ((∃ ack, reply = .helloAck ack) ∨ ∃ reason detail, reply = .error reason detail))) := by
  have hstep : server.step (.hello index document) = server.handleHello index session document := by
    simp only [step, hs, hreading]
  rw [hstep, handleHello]
  rcases decodeHello document with status | hello
  · exact ⟨_, ⟨rfl, rfl⟩, .inr ⟨rfl, _, rfl, .inr ⟨_, _, rfl⟩⟩⟩
  · dsimp only
    rcases fenceHello (server.fences.find? hello.source) hello with fence | ⟨reason, detail, counted⟩
    · exact ⟨_, ⟨rfl, rfl⟩, .inl ⟨rfl, hello, _, rfl⟩⟩
    · exact ⟨_, ⟨rfl, rfl⟩, .inr ⟨rfl, _, rfl, .inl ⟨_, rfl⟩⟩⟩

theorem moves_register {now : NdoTime} {sent : Bool} {hello : HelloPayload} {ack : HelloAckPayload}
    (hs : server.sessions[index]? = some session) (hgreeted : session.phase = .greeted hello ack) :
    ∃ session', Moves server (server.step (.register index now sent)) index session' ∧
      if sent then (session'.phase = .reading ∨ session'.phase = .closed) ∧
          ∃ ack, session'.replies = session.replies ++ [.helloAck ack]
        else session' = session.close := by
  have hstep : server.step (.register index now sent) =
      server.registerGreeted index session hello ack now sent := by simp only [step, hs, hgreeted]
  rw [hstep, registerGreeted]
  generalize server.observatory.registerSource _ = registered
  obtain ⟨registration, observatory⟩ := registered
  dsimp only
  generalize (if registration.ok then ack else _) = answer
  cases sent with
  | false => exact ⟨_, ⟨rfl, rfl⟩, rfl⟩
  | true =>
    rcases answer.accepted with _ | _
    · exact ⟨_, ⟨rfl, rfl⟩, .inr rfl, _, rfl⟩
    · exact ⟨_, ⟨rfl, rfl⟩, .inl rfl, _, rfl⟩

/-! ### Documents -/

/-- A snapshot is between the fence and the observatory, or refused. -/
theorem moves_snapshot {document : Except Status ObservationSnapshot} (hs : server.sessions[index]? = some session)
    (hreading : session.phase = .reading) (hhandshaken : session.context.handshaken = true) :
    ∃ session', Moves server (server.step (.snapshot index document)) index session' ∧
      ((session'.replies = session.replies ∧ ∃ snapshot ack, session'.phase = .fenced snapshot ack ∧
          checkObservationDocument server.limits document = .ok snapshot) ∨
        (session'.phase = .reading ∧ ∃ ack, session'.replies = session.replies ++ [.snapshotAck ack] ∧
          ack.accepted = false)) := by
  have hstep : server.step (.snapshot index document) = server.handleSnapshot index session document := by
    simp only [step, hs, hreading, requireHandshake, hhandshaken, if_true]
  have hrefused : ∀ (ack : AckPayload) (stale : Bool), ack.accepted = false →
      Moves server (server.refuseSnapshot index session ack stale) index (session.reply (.snapshotAck ack)) ∧
        (session.reply (.snapshotAck ack)).phase = .reading := fun ack stale _ => ⟨⟨rfl, rfl⟩, hreading⟩
  rw [hstep, handleSnapshot]
  rcases hdecoded : checkObservationDocument server.limits document with status | snapshot
  · exact ⟨_, (hrefused _ false rfl).1, .inr ⟨hreading, _, rfl, rfl⟩⟩
  · dsimp only
    split_ifs with hsource hauthority
    · exact ⟨_, (hrefused _ false rfl).1, .inr ⟨hreading, _, rfl, rfl⟩⟩
    · exact ⟨_, (hrefused _ true rfl).1, .inr ⟨hreading, _, rfl, rfl⟩⟩
    · split
      · exact ⟨_, (hrefused _ true rfl).1, .inr ⟨hreading, _, rfl, rfl⟩⟩
      · exact ⟨_, ⟨rfl, rfl⟩, .inl ⟨rfl, snapshot, _, rfl, rfl⟩⟩

/-- The ingestion is acknowledged as it ended. -/
theorem moves_ingest {now : NdoTime} {sent : Bool} {snapshot : ObservationSnapshot} {ack : AckPayload}
    (hs : server.sessions[index]? = some session) (hfenced : session.phase = .fenced snapshot ack) :
    ∃ session', Moves server (server.step (.ingest index now sent)) index session' ∧
      if sent then session'.phase = .reading ∧ ∃ ack, session'.replies = session.replies ++ [.snapshotAck ack] ∧
          server.takes (.ingest index now sent) = if ack.accepted then some (.snapshot snapshot) else none
        else session' = session.close := by
  have hstep : server.step (.ingest index now sent) =
      server.ingestFenced index session snapshot ack now sent := by simp only [step, hs, hfenced]
  have htakes : server.takes (.ingest index now sent) =
      if (server.observatory.ingestObservation snapshot now).1.ok then some (.snapshot snapshot) else none := by
    obtain ⟨context, phase, replies⟩ := session
    subst hfenced
    simp only [takes, hs]
  rw [hstep, htakes, ingestFenced]
  rcases server.observatory.ingestObservation snapshot now with ⟨ingest, observatory, admission⟩
  cases sent with
  | false => exact ⟨_, ⟨rfl, rfl⟩, rfl⟩
  | true => exact ⟨_, ⟨rfl, rfl⟩, rfl, _, rfl, rfl⟩

/-- An intent document is acknowledged as its commit ended. -/
theorem moves_intent {document : Except Status IntentGenerationDocument} {now : NdoTime}
    (hs : server.sessions[index]? = some session) (hreading : session.phase = .reading)
    (hhandshaken : session.context.handshaken = true) :
    ∃ session' ack, Moves server (server.step (.intent index document now)) index session' ∧ session'.phase = .reading ∧
      session'.replies = session.replies ++ [.intentAck ack] ∧
      if ack.accepted then ∃ d, document = .ok d ∧ server.takes (.intent index document now) = some (.intent d)
        else server.takes (.intent index document now) = none := by
  have hstep : server.step (.intent index document now) = server.handleIntent index session document now := by
    simp only [step, hs, hreading, requireHandshake, hhandshaken, if_true]
  rw [hstep]
  rcases document with status | d
  · exact ⟨_, { reason := status.reason, detail := status.detail }, ⟨rfl, rfl⟩, hreading, rfl, rfl⟩
  · have htakes : server.takes (.intent index (.ok d) now) =
        if (server.observatory.publishIntent d now).1.ok then some (.intent d) else none := by
      obtain ⟨⟨source, epoch, incarnation, sequence, sessionId, handshaken⟩, phase, replies⟩ := session
      obtain rfl : handshaken = true := hhandshaken
      obtain rfl : phase = .reading := hreading
      simp only [takes, hs]
    rw [htakes, handleIntent]
    rcases server.observatory.publishIntent d now with ⟨committed, observatory, report⟩
    refine ⟨_, { generation := d.generation, accepted := committed.ok, reason := _, detail := committed.detail },
      ⟨rfl, rfl⟩, hreading, rfl, ?_⟩
    cases hok : committed.ok with
    | false => simp
    | true => simp

end ObservationServer
end DriftObservatory
