import DriftObservatory.Theorems.Links
import DriftObservatory.Theorems.Refusal

/-! The threads of the sessions keep every intact link in step: what they read is the frame of the call that waits, and
    what they take into the observatory is its document. -/

namespace DriftObservatory
open Pieces Json Outcome

section Protocol
variable [DoubleChars]

section Requests
variable {limits : RuntimeLimits} {link : Link} {call : Call} {frame : FrameHeader × Text}

theorem Called.busy (h : Called limits link frame) : link.publisher.call ≠ .idle := by
  intro hidle
  have hrequest := h.request
  rw [hidle] at hrequest
  cases hrequest

theorem Requests.of_hello (h : Requests call frame) (htype : frame.1.type = .hello) :
    ∃ written, call = .connecting written := by
  cases h with
  | connecting => exact ⟨_, rfl⟩
  | publishing htype' | publishingIntent htype' => exact absurd (htype.symm.trans htype') (by decide)

theorem Requests.of_snapshot (h : Requests call frame) (htype : frame.1.type = .snapshot) :
    ∃ s, call = .publishing s ∧ frame.2 = writeCanonicalJson (encodeObservationDocument s) := by
  cases h with
  | publishing htype' hpayload => exact ⟨_, rfl, hpayload⟩
  | connecting htype' | publishingIntent htype' => exact absurd (htype.symm.trans htype') (by decide)

theorem Requests.of_intent (h : Requests call frame) (htype : frame.1.type = .intent) :
    ∃ d, call = .publishingIntent d ∧ frame.2 = writeCanonicalJson (encodeIntentDocument d) := by
  cases h with
  | publishingIntent htype' hpayload => exact ⟨_, rfl, hpayload⟩
  | connecting htype' | publishing htype' => exact absurd (htype.symm.trans htype') (by decide)

theorem Requests.not_heartbeat (h : Requests call frame) : frame.1.type ≠ .heartbeat := by
  cases h with
  | connecting htype | publishing htype | publishingIntent htype =>
    exact fun htype' => absurd (htype.symm.trans htype') (by decide)

omit [DoubleChars] in
theorem computeSnapshotId_with (s : ObservationSnapshot) (id : SnapshotId) :
    ({ s with snapshotId := id } : ObservationSnapshot).computeSnapshotId = s.computeSnapshotId := rfl

/-- The identity that is computed again is the one the document was read with. -/
theorem delivered_snapshot [LawfulDoubleChars] {s t : ObservationSnapshot}
    (h : checkObservationDocument limits (do
      let document ← parseJson limits (writeCanonicalJson (encodeObservationDocument s))
      decodeObservationDocument limits document) = .ok t) : Delivered limits (.snapshot s) (.snapshot t) := by
  unfold checkObservationDocument at h
  split at h
  · cases h
  · next u hread =>
    obtain ⟨v, hparsed, hdecoded⟩ := bind_eq_ok.mp hread
    obtain rfl := parseJson_written hparsed
    have hid : u.computeSnapshotId = u.snapshotId := by
      obtain ⟨-, rfl⟩ := decodeObservationDocument_written.mp hdecoded
      exact computeSnapshotId_with _ _
    have hsame : { u with snapshotId := u.computeSnapshotId } = u := by rw [hid]
    dsimp only at h
    rw [hsame, ite_error_eq_ok] at h
    exact .snapshot (Except.ok.inj h.2 ▸ hdecoded)

theorem delivered_intent [LawfulDoubleChars] {d e : IntentGenerationDocument}
    (h : (do
      let document ← parseJson limits (writeCanonicalJson (encodeIntentDocument d))
      decodeIntentDocument limits document) = .ok e) : Delivered limits (.intent d) (.intent e) := by
  obtain ⟨v, hparsed, hdecoded⟩ := bind_eq_ok.mp h
  obtain rfl := parseJson_written hparsed
  exact .intent hdecoded

end Requests

/-! ### Frames of the server -/

section Handlers
variable {x : Exchange} {index : Nat} {link link₀ : Link} {session : Session} {frame : FrameHeader × Text}
  {sending : Sending}

theorem InStep.hello (h : InStep x.server x.links) (hlink : x.links[index]? = some link₀)
    (hs : x.server.sessions[index]? = some session) (hreading : session.phase = .reading)
    (hpublisher : link.publisher = link₀.publisher) (htype : frame.1.type = .hello)
    (hcalled : link.intact = true → Called x.server.limits link frame) (document : Except Status HelloPayload) :
    InStep (x.answer index link (fun _ => [.hello index document]) sending).server
      (x.answer index link (fun _ => [.hello index document]) sending).links := by
  obtain ⟨session', hmoves, hcases⟩ := @ObservationServer.moves_hello _ _ _ _ document hs hreading
  refine h.answer hlink hs hpublisher ?_
  rcases hcases with ⟨hreplies, hello, ack, hphase⟩ | ⟨hphase, reply, hreplies, hreply⟩
  · refine .inl ⟨session', hmoves, hreplies, fun hintact => ?_⟩
    have called := hcalled hintact
    obtain ⟨written, hcall⟩ := called.request.of_hello htype
    refine Waits.synced ?_ hcall Call.noConfusion
    exact .handled (hphase ▸ .connecting) called.upstream called.downstream called.opened
      (called.agrees.congr rfl (List.append_nil _))
  · refine .inr ⟨session', session', reply, hmoves, hreplies, hmoves, ?_, ?_⟩
    · intro hintact hopen hdeclared
      have called := hcalled hintact
      obtain ⟨written, hcall⟩ := called.request.of_hello htype
      refine Waits.synced ?_ hcall Call.noConfusion
      rcases hreply with ⟨ack, rfl⟩ | ⟨reason, detail, rfl⟩
      · exact Waits.replied called.downstream hdeclared .connecting rfl (.inl hphase)
          (called.agrees.congr rfl (List.append_nil _))
      · refine .doomed (.inl (.inr ⟨_, hdeclared, rfl, ?_⟩)) (.inl hphase)
          (.inl (called.agrees.congr rfl (List.append_nil _)))
        dsimp only
        rw [called.downstream]
        exact List.prefix_rfl
    · intro hintact extra broken hlost hbegins
      have called := hcalled hintact
      refine Waits.synced ?_ rfl called.busy
      exact Waits.lost called.downstream hlost rfl rfl (.inl hphase) (.inl (called.agrees.congr rfl (List.append_nil _)))

theorem InStep.snapshot [LawfulDoubleChars] (h : InStep x.server x.links) (hlink : x.links[index]? = some link₀)
    (hs : x.server.sessions[index]? = some session) (hreading : session.phase = .reading)
    (hhandshaken : session.context.handshaken = true) (hpublisher : link.publisher = link₀.publisher)
    (htype : frame.1.type = .snapshot) (hcalled : link.intact = true → Called x.server.limits link frame)
    {document : Except Status ObservationSnapshot}
    (hdocument : document = do
      let document ← parseJson x.server.limits frame.2
      decodeObservationDocument x.server.limits document) :
    InStep (x.answer index link (fun _ => [.snapshot index document]) sending).server
      (x.answer index link (fun _ => [.snapshot index document]) sending).links := by
  obtain ⟨session', hmoves, hcases⟩ := @ObservationServer.moves_snapshot _ _ _ _ document hs hreading hhandshaken
  refine h.answer hlink hs hpublisher ?_
  rcases hcases with ⟨hreplies, t, ack, hphase, hchecked⟩ | ⟨hphase, ack, hreplies, hrefused⟩
  · refine .inl ⟨session', hmoves, hreplies, fun hintact => ?_⟩
    have called := hcalled hintact
    obtain ⟨s, hcall, hpayload⟩ := called.request.of_snapshot htype
    have hdelivered : Delivered x.server.limits (.snapshot s) (.snapshot t) := by
      rw [hdocument, hpayload] at hchecked
      exact delivered_snapshot hchecked
    refine Waits.synced ?_ hcall Call.noConfusion
    exact .handled (hphase ▸ .publishing hdelivered) called.upstream called.downstream called.opened
      (called.agrees.congr rfl (List.append_nil _))
  · refine .inr ⟨session', session', .snapshotAck ack, hmoves, hreplies, hmoves, ?_, ?_⟩
    · intro hintact hopen hdeclared
      have called := hcalled hintact
      obtain ⟨s, hcall, -⟩ := called.request.of_snapshot htype
      refine Waits.synced ?_ hcall Call.noConfusion
      refine Waits.replied called.downstream hdeclared .publishing rfl (.inr ⟨hphase, called.upstream, hopen⟩) ?_
      rw [Reply.accepts, hrefused]
      exact called.agrees.congr rfl (List.append_nil _)
    · intro hintact extra broken hlost hbegins
      have called := hcalled hintact
      refine Waits.synced ?_ rfl called.busy
      exact Waits.lost called.downstream hlost rfl rfl (.inr ⟨hphase, called.upstream⟩)
        (.inl (called.agrees.congr rfl (List.append_nil _)))

theorem InStep.intent [LawfulDoubleChars] (h : InStep x.server x.links) (hlink : x.links[index]? = some link₀)
    (hs : x.server.sessions[index]? = some session) (hreading : session.phase = .reading)
    (hhandshaken : session.context.handshaken = true) (hpublisher : link.publisher = link₀.publisher)
    (htype : frame.1.type = .intent) (hcalled : link.intact = true → Called x.server.limits link frame)
    {document : Except Status IntentGenerationDocument}
    (hdocument : document = do
      let document ← parseJson x.server.limits frame.2
      decodeIntentDocument x.server.limits document) (now : NdoTime) :
    InStep (x.answer index link (fun sent => .intent index document now :: if sent then [] else [.bye index])
        sending).server
      (x.answer index link (fun sent => .intent index document now :: if sent then [] else [.bye index])
        sending).links := by
  obtain ⟨session', ack, hmoves, hphase, hreplies, htakes⟩ :=
    @ObservationServer.moves_intent _ _ _ _ document now hs hreading hhandshaken
  have hbye := hmoves.trans (ObservationServer.moves_bye (hmoves.self hs) hphase)
  have hrecord : ∀ link' : Link, link'.accepted = link.accepted →
      link'.admitted = link.admitted ++ (x.server.takes (.intent index document now)).toList → link.intact = true →
      if ack.accepted then Ahead x.server.limits link.publisher.call link' else Agrees x.server.limits link' := by
    intro link' haccepted hadmitted hintact
    have called := hcalled hintact
    obtain ⟨d, hcall, hpayload⟩ := called.request.of_intent htype
    split_ifs at htakes ⊢ with hok
    · obtain ⟨e, hread, htaken⟩ := htakes
      rw [htaken] at hadmitted
      rw [hdocument, hpayload] at hread
      rw [hcall]
      exact called.agrees.ahead rfl haccepted hadmitted (delivered_intent hread)
    · rw [htakes] at hadmitted
      exact called.agrees.congr haccepted (hadmitted.trans (List.append_nil _))
  refine h.answer hlink hs hpublisher (.inr ⟨session', session'.close, .intentAck ack, hmoves, hreplies, hbye, ?_, ?_⟩)
  · intro hintact hopen hdeclared
    have called := hcalled hintact
    obtain ⟨d, hcall, -⟩ := called.request.of_intent htype
    refine Waits.synced ?_ rfl called.busy
    exact Waits.replied called.downstream hdeclared (hcall ▸ .publishingIntent) rfl
      (.inr ⟨hphase, called.upstream, hopen⟩) (hrecord _ rfl (by simp [ObservationServer.perform]) hintact)
  · intro hintact extra broken hlost hbegins
    have called := hcalled hintact
    refine Waits.synced ?_ rfl called.busy
    refine Waits.lost called.downstream hlost rfl rfl (.inl rfl) ?_
    have hrecord := hrecord
      { link with
        downstream := link.downstream ++ extra, broken := broken
        admitted := link.admitted ++ (x.server.perform [.intent index document now, .bye index]).2 }
      rfl (by simp [ObservationServer.perform, ObservationServer.takes]) hintact
    split_ifs at hrecord
    · exact .inr hrecord
    · exact .inl hrecord

/-- A session between two sections serves the call of its publisher. -/
theorem Synced.handled {limits : RuntimeLimits} (h : Synced limits link session) (hbusy : session.phase ≠ .reading)
    (hopen : session.phase ≠ .closed) : Handles limits link.publisher.call session.phase ∧ link.upstream = [] ∧
      link.downstream = [] ∧ Agrees limits link := by
  have hquiet : ∀ {tail : Text}, ¬ Quiet link session tail := by
    rintro tail (⟨hreading, -⟩ | ⟨hclosed, -⟩)
    · exact hbusy hreading
    · exact hopen hclosed
  by_cases hidle : link.publisher.call = .idle
  · exact absurd ((synced_idle hidle).mp h).quiet hquiet
  · rw [synced_of_call hidle] at h
    cases h with
    | sent hrequest hdeclared hup hdown hreading => exact absurd hreading hbusy
    | handled hhandles hup hdown hopen hagrees => exact ⟨hhandles, hup, hdown, hagrees⟩
    | answered hanswers hdeclared hdown hquiet' => exact absurd hquiet' hquiet
    | doomed hdown hmute =>
      rcases hmute with hclosed | ⟨hreading, -⟩
      · exact absurd hclosed hopen
      · exact absurd hreading hbusy

/-- A section that has nothing to do. -/
theorem InStep.skip (h : InStep x.server x.links) (hlink : x.links[index]? = some link)
    (hs : x.server.sessions[index]? = some session) {event : Bool → ObservationServer.Event}
    (hstep : x.server.step (event true) = x.server) (htakes : x.server.takes (event true) = none) :
    InStep (x.answer index link (fun sent => [event sent]) sending).server
      (x.answer index link (fun sent => [event sent]) sending).links := by
  refine h.answer hlink hs rfl (.inl ⟨session, ?_, rfl, fun hintact => ?_⟩)
  · rw [ObservationServer.perform, hstep]
    exact .refl hs
  · have hsynced := (h.synced index link session hlink hs).2 hintact
    simpa only [ObservationServer.perform, htakes, Option.toList_none, List.append_nil] using hsynced

/-- The rest of a greeting, behind its fence. -/
theorem InStep.register (h : InStep x.server x.links) (hlink : x.links[index]? = some link)
    (hs : x.server.sessions[index]? = some session) (now : NdoTime) :
    InStep (x.answer index link (fun sent => [.register index now sent]) sending).server
      (x.answer index link (fun sent => [.register index now sent]) sending).links := by
  by_cases hgreeted : ∃ hello ack, session.phase = .greeted hello ack
  · obtain ⟨hello, ack, hgreeted⟩ := hgreeted
    have hhandled : link.intact = true → ∃ written, link.publisher.call = .connecting written ∧ link.upstream = [] ∧
        link.downstream = [] ∧ Agrees x.server.limits link := by
      intro hintact
      obtain ⟨hhandles, hrest⟩ := ((h.synced index link session hlink hs).2 hintact).handled
        (by rw [hgreeted]; exact SessionPhase.noConfusion) (by rw [hgreeted]; exact SessionPhase.noConfusion)
      rw [hgreeted] at hhandles
      generalize link.publisher.call = call at hhandles ⊢
      cases hhandles with
      | connecting => exact ⟨_, rfl, hrest⟩
    obtain ⟨session', hsent, hphase, ack', hreplies⟩ :=
      @ObservationServer.moves_register _ _ _ _ now true _ _ hs hgreeted
    obtain ⟨session'', hlost, rfl⟩ := @ObservationServer.moves_register _ _ _ _ now false _ _ hs hgreeted
    refine h.answer hlink hs rfl (.inr ⟨session', session.close, .helloAck ack', hsent, hreplies, hlost, ?_, ?_⟩)
    · intro hintact hopen hdeclared
      obtain ⟨written, hcall, hup, hdown, hagrees⟩ := hhandled hintact
      refine Waits.synced ?_ hcall Call.noConfusion
      exact Waits.replied hdown hdeclared .connecting rfl (hphase.symm.imp id fun hphase => ⟨hphase, hup, hopen⟩)
        (hagrees.congr rfl (List.append_nil _))
    · intro hintact extra broken hlost hbegins
      obtain ⟨written, hcall, hup, hdown, hagrees⟩ := hhandled hintact
      refine Waits.synced ?_ hcall Call.noConfusion
      exact Waits.lost hdown hlost rfl rfl (.inl rfl) (.inl (hagrees.congr rfl (List.append_nil _)))
  · refine h.skip hlink hs ?_ rfl
    rw [ObservationServer.step_register hs]
    split
    · next hello ack hphase => exact absurd ⟨hello, ack, hphase⟩ hgreeted
    · rfl

/-- The rest of a snapshot, behind its fence. -/
theorem InStep.ingest (h : InStep x.server x.links) (hlink : x.links[index]? = some link)
    (hs : x.server.sessions[index]? = some session) (now : NdoTime) :
    InStep (x.answer index link (fun sent => [.ingest index now sent]) sending).server
      (x.answer index link (fun sent => [.ingest index now sent]) sending).links := by
  by_cases hfenced : ∃ t ack, session.phase = .fenced t ack
  · obtain ⟨t, ack, hfenced⟩ := hfenced
    have hhandled : link.intact = true → ∃ s, link.publisher.call = .publishing s ∧
        Delivered x.server.limits (.snapshot s) (.snapshot t) ∧ link.upstream = [] ∧ link.downstream = [] ∧
          Agrees x.server.limits link := by
      intro hintact
      obtain ⟨hhandles, hrest⟩ := ((h.synced index link session hlink hs).2 hintact).handled
        (by rw [hfenced]; exact SessionPhase.noConfusion) (by rw [hfenced]; exact SessionPhase.noConfusion)
      rw [hfenced] at hhandles
      generalize link.publisher.call = call at hhandles ⊢
      cases hhandles with
      | publishing hdelivered => exact ⟨_, rfl, hdelivered, hrest⟩
    obtain ⟨session', hsent, hphase, ack', hreplies, htakes⟩ :=
      @ObservationServer.moves_ingest _ _ _ _ now true _ _ hs hfenced
    obtain ⟨session'', hlost, rfl⟩ := @ObservationServer.moves_ingest _ _ _ _ now false _ _ hs hfenced
    have hsame : x.server.takes (.ingest index now false) = x.server.takes (.ingest index now true) := rfl
    have hrecord : ∀ link' : Link, link'.accepted = link.accepted →
        link'.admitted = link.admitted ++ (x.server.takes (.ingest index now true)).toList → link.intact = true →
        if ack'.accepted then Ahead x.server.limits link.publisher.call link' else Agrees x.server.limits link' := by
      intro link' haccepted hadmitted hintact
      obtain ⟨s, hcall, hdelivered, -, -, hagrees⟩ := hhandled hintact
      split_ifs at htakes ⊢ with hok
      · rw [htakes] at hadmitted
        rw [hcall]
        exact hagrees.ahead rfl haccepted hadmitted hdelivered
      · rw [htakes] at hadmitted
        exact hagrees.congr haccepted (hadmitted.trans (List.append_nil _))
    refine h.answer hlink hs rfl (.inr ⟨session', session.close, .snapshotAck ack', hsent, hreplies, hlost, ?_, ?_⟩)
    · intro hintact hopen hdeclared
      obtain ⟨s, hcall, -, hup, hdown, -⟩ := hhandled hintact
      refine @Waits.synced _ _ link.publisher.call _ _ ?_ rfl (hcall ▸ Call.noConfusion)
      exact Waits.replied hdown hdeclared (hcall ▸ .publishing) rfl (.inr ⟨hphase, hup, hopen⟩)
        (hrecord _ rfl (by simp [ObservationServer.perform]) hintact)
    · intro hintact extra broken hlost hbegins
      obtain ⟨s, hcall, -, hup, hdown, -⟩ := hhandled hintact
      refine @Waits.synced _ _ link.publisher.call _ _ ?_ rfl (hcall ▸ Call.noConfusion)
      refine Waits.lost hdown hlost rfl rfl (.inl rfl) ?_
      have hrecord := hrecord
        { link with
          downstream := link.downstream ++ extra, broken := broken
          admitted := link.admitted ++ (x.server.perform [.ingest index now false]).2 }
        rfl (by simp [ObservationServer.perform, hsame]) hintact
      split_ifs at hrecord
      · exact .inr hrecord
      · exact .inl hrecord
  · refine h.skip hlink hs ?_ ?_
    · rw [ObservationServer.step_ingest hs]
      split
      · next t ack hphase => exact absurd ⟨t, ack, hphase⟩ hfenced
      · rfl
    · obtain ⟨context, phase, replies⟩ := session
      cases phase with
      | fenced t ack => exact absurd ⟨t, ack, rfl⟩ hfenced
      | reading | greeted | closed => simp only [ObservationServer.takes, hs]

/-- A publisher of this program sends no heartbeat: the link that echoes one is in doubt already. -/
theorem InStep.echo (h : InStep x.server x.links) (hlink : x.links[index]? = some link₀)
    (hs : x.server.sessions[index]? = some session) (hreading : session.phase = .reading)
    (hpublisher : link.publisher = link₀.publisher) (hdoubt : ¬ link.intact = true) :
    InStep (Exchange.settle index link x.server) (x.links.set index link) ∧
      InStep (x.server.step (.bye index)) (x.links.set index link) := by
  have hsane : link.publisher.Sane := hpublisher ▸ (h.synced index link₀ session hlink hs).1
  obtain ⟨session', hmoves, -⟩ := moves_settle (.refl hs) hs link
  exact ⟨h.put hlink hs hmoves hsane fun hintact => absurd hintact hdoubt,
    h.put hlink hs (ObservationServer.moves_bye hs hreading) hsane fun hintact => absurd hintact hdoubt⟩

/-- The thread of a session reads. -/
theorem InStep.read [LawfulDoubleChars] {socket : Socket} {late : Text} (h : InStep x.server x.links)
    (hlink : x.links[index]? = some link) (hs : x.server.sessions[index]? = some session)
    (hreading : session.phase = .reading)
    (harriving : Exchange.Arriving link.upstream (link.publisher.valid = false) socket late) (now : NdoTime) :
    InStep (x.read index link session socket late now sending).server
      (x.read index link session socket late now sending).links := by
  have hrefuse : ∀ (stats : FrameStats) (upstream : Text) (final : Bool) (reason : ReasonCode) (detail : Text),
      let y := Exchange.refuse ⟨x.server, x.links, stats⟩ index { link with upstream := upstream, final := final }
        reason detail sending
      InStep y.server y.links := fun stats upstream final reason detail =>
    InStep.refuse (x := ⟨x.server, x.links, stats⟩) h hlink hs hreading upstream final reason detail
  rw [Exchange.read]
  rcases hread : ObservationServer.readFrame x.server.limits socket with ⟨status | ⟨header, payload⟩, rest⟩
  · dsimp only
    by_cases hclosed : status.reason = .wireSessionClosed
    · rw [if_pos hclosed]
      exact h.hangUp hlink hs hreading _ link.final
    · rw [if_neg hclosed]
      exact hrefuse _ _ _ _ _
  · dsimp only
    generalize hlink' : ({ link with
      upstream := front (flatten rest) ++ late
      final := header.flags &&& FrameFlags.final ≠ 0 } : Link) = link'
    have hcalled : link'.intact = true → header.type ≠ .bye → Called x.server.limits link' (header, payload) := by
      subst hlink'
      intro hintact htype
      exact (((h.synced index link session hlink hs).2 hintact).read hreading harriving hread _).resolve_left htype
    have hpublisher : link'.publisher = link.publisher := hlink' ▸ rfl
    let y : Exchange := { x with stats := { x.stats with framesReceived := x.stats.framesReceived + 1 } }
    have hy : InStep y.server y.links := h
    rw [handleFrame]
    by_cases hgreeting : (!session.context.handshaken && header.type ≠ .hello) = true
    · rw [if_pos hgreeting, ← hlink']
      exact hrefuse _ _ _ _ _
    rw [if_neg hgreeting]
    have hhandshaken : header.type ≠ .hello → session.context.handshaken = true := by
      intro htype
      simpa [htype] using hgreeting
    cases htype : header.type with
    | hello =>
      exact hy.hello hlink hs hreading hpublisher htype (fun hintact => hcalled hintact (by rw [htype]; decide)) _
    | snapshot =>
      exact hy.snapshot hlink hs hreading (hhandshaken (by rw [htype]; decide)) hpublisher htype
        (fun hintact => hcalled hintact (by rw [htype]; decide)) rfl
    | intent =>
      exact hy.intent hlink hs hreading (hhandshaken (by rw [htype]; decide)) hpublisher htype
        (fun hintact => hcalled hintact (by rw [htype]; decide)) rfl now
    | heartbeat =>
      have hsilent : ¬ link'.intact = true := fun hintact =>
        absurd htype (hcalled hintact (by rw [htype]; decide)).request.not_heartbeat
      dsimp only
      generalize encodeFrame _ _ _ _ _ = echoed
      rcases hsent : link'.transmit echoed sending with ⟨sent, other⟩
      have hkeeps := link'.transmit_keeps echoed sending
      rw [hsent] at hkeeps
      obtain ⟨hsettled, hended⟩ :=
        hy.echo hlink hs hreading (hkeeps.publisher.trans hpublisher) fun hintact => hsilent (hkeeps.intact ▸ hintact)
      cases sent with
      | false => exact hended
      | true => exact hsettled
    | bye =>
      rw [← hlink']
      exact h.hangUp hlink hs hreading _ _
    | helloAck | snapshotAck | intentAck | errorFrame =>
      rw [← hlink']
      exact hrefuse _ _ _ _ _

end Handlers

end Protocol

end DriftObservatory
