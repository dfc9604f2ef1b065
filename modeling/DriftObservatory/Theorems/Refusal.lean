import DriftObservatory.Theorems.Authority

/-! Refused frames and the fences. The fence sections come before the registration of a source and before the ingestion
    of a snapshot, so a frame that either of them refuses has already moved the fence. -/

namespace DriftObservatory

/-! ### Registration and ingestion -/

/-- The registration of a greeted source has nothing to object. -/
def Observatory.Registers (o : Observatory) (hello : HelloPayload) : Prop :=
  match o.sources.find? hello.source with
  | some existing => existing.incarnation ≤ hello.incarnation
  | none => o.sources.size < o.config.limits.maxSources

/-- A new observation does not come before the newest retained one of its target and source, nor contradicts it. -/
def FindingLedger.Follows (L : FindingLedger) (snapshot : ObservationSnapshot) : Prop :=
  ∀ newest, L.newest snapshot.target snapshot.source = some newest →
    newest.incarnation ≤ snapshot.incarnation ∧ newest.epoch ≤ snapshot.epoch ∧
      (snapshot.incarnation = newest.incarnation → snapshot.sequence = newest.sequence →
        snapshot.computeContentDigest = newest.computeContentDigest)

/-- The ingestion of an observation has nothing to object. -/
def Observatory.Ingests (o : Observatory) (snapshot : ObservationSnapshot) (now : NdoTime) : Prop :=
  (o.config.requireStarted = true → o.started = true) ∧
  (o.config.requireRegisteredSources = true → o.sources.contains snapshot.source = true) ∧
  (({ snapshot with receivedAt := now } : ObservationSnapshot).validate o.ledger.limits).ok = true ∧
  o.ledger.Follows { snapshot with receivedAt := now }

namespace FindingLedger

theorem ok_fenceObservation {newest snapshot : ObservationSnapshot} {report : ObservationAdmission} :
    (match fenceObservation newest snapshot report with
      | .inl (status, _) => status.ok
      | .inr _ => true) = true ↔
    newest.incarnation ≤ snapshot.incarnation ∧ newest.epoch ≤ snapshot.epoch ∧
      (snapshot.incarnation = newest.incarnation → snapshot.sequence = newest.sequence →
        snapshot.computeContentDigest = newest.computeContentDigest) := by
  unfold fenceObservation
  by_cases hincarnation : snapshot.incarnation < newest.incarnation
  · rw [if_pos hincarnation]
    exact ⟨fun h => (by cases h), fun h => absurd h.1 (not_le.mpr hincarnation)⟩
  by_cases hepoch : snapshot.epoch < newest.epoch
  · rw [if_neg hincarnation, if_pos hepoch]
    exact ⟨fun h => (by cases h), fun h => absurd h.2.1 (not_le.mpr hepoch)⟩
  rw [if_neg hincarnation, if_neg hepoch]
  have hahead : newest.incarnation ≤ snapshot.incarnation ∧ newest.epoch ≤ snapshot.epoch :=
    ⟨not_lt.mp hincarnation, not_lt.mp hepoch⟩
  by_cases hsame : snapshot.incarnation = newest.incarnation ∧ snapshot.sequence = newest.sequence
  · rw [if_pos hsame]
    by_cases hcontent : snapshot.computeContentDigest = newest.computeContentDigest
    · rw [if_pos hcontent]
      exact ⟨fun _ => ⟨hahead.1, hahead.2, fun _ _ => hcontent⟩, fun _ => rfl⟩
    · rw [if_neg hcontent]
      exact ⟨fun h => (by cases h), fun h => absurd (h.2.2 hsame.1 hsame.2) hcontent⟩
  · rw [if_neg hsame]
    exact ⟨fun _ => ⟨hahead.1, hahead.2, fun hi hq => absurd ⟨hi, hq⟩ hsame⟩, fun _ => rfl⟩

theorem ok_recordObservation {L : FindingLedger} {snapshot : ObservationSnapshot}
    {verdict : FreshnessVerdict} {recovered : Bool} :
    (L.recordObservation snapshot verdict recovered).1.ok = true ↔
      (snapshot.validate L.limits).ok = true ∧ L.Follows snapshot := by
  unfold recordObservation Follows newest
  dsimp only
  cases hvalid : (snapshot.validate L.limits).ok with
  | false =>
    simp only [Bool.not_false, if_true, hvalid, Bool.false_eq_true, false_and]
  | true =>
    simp only [Bool.not_true, Bool.false_eq_true, if_false, true_and]
    cases hlast : ((L.windows.find? ⟨snapshot.target, snapshot.source⟩).getD []).getLast? with
    | none => exact ⟨fun _ _ h => (by cases h), fun _ => rfl⟩
    | some retained =>
      dsimp only
      have hfence := @ok_fenceObservation retained.snapshot snapshot
        { snapshot := snapshot.snapshotId, source := snapshot.source, target := snapshot.target,
          sequence := snapshot.sequence, freshness := verdict.state }
      simp only [Option.map_some, Option.some.injEq, forall_eq']
      rw [← hfence]
      generalize fenceObservation retained.snapshot snapshot _ = decision
      rcases decision with ⟨status, report⟩ | report
      · rfl
      · exact ⟨fun _ => rfl, fun _ => rfl⟩

end FindingLedger

/-- The registration a greeting asks for. -/
def HelloPayload.descriptor (hello : HelloPayload) (now : NdoTime) : SourceDescriptor where
  id := hello.source
  capabilities := hello.capabilities
  registeredAt := now
  epoch := hello.epoch
  incarnation := hello.incarnation
  provenance := hello.provenance
  evidence := hello.capabilities.evidence

namespace Observatory

theorem ok_ingestObservation {o : Observatory} {snapshot : ObservationSnapshot} {now : NdoTime} :
    (o.ingestObservation snapshot now).1.ok = true ↔ o.Ingests snapshot now := by
  have hrecorded := @FindingLedger.ok_recordObservation o.ledger { snapshot with receivedAt := now }
    (evaluateFreshness { snapshot with receivedAt := now } (freshnessFor o.config.policy snapshot.target) now
      o.config.epoch false) false
  unfold ingestObservation Ingests
  rw [← hrecorded]
  cases hrequired : o.config.requireStarted && !o.started with
  | true =>
    rw [Bool.and_eq_true, Bool.not_eq_true'] at hrequired
    rw [if_pos rfl]
    refine ⟨fun h => (by cases h), fun h => ?_⟩
    rw [h.1 hrequired.1] at hrequired
    cases hrequired.2
  | false =>
    have hstarted : o.config.requireStarted = true → o.started = true := fun h => by simpa [h] using hrequired
    rw [if_neg Bool.false_ne_true]
    dsimp only
    cases hregistered : o.config.requireRegisteredSources && !o.sources.contains snapshot.source with
    | true =>
      rw [Bool.and_eq_true, Bool.not_eq_true'] at hregistered
      rw [if_pos rfl]
      refine ⟨fun h => (by cases h), fun h => ?_⟩
      rw [h.2.1 hregistered.1] at hregistered
      cases hregistered.2
    | false =>
      have hsource : o.config.requireRegisteredSources = true → o.sources.contains snapshot.source = true :=
        fun h => by simpa [h] using hregistered
      rw [if_neg Bool.false_ne_true]
      generalize o.ledger.recordObservation _ _ _ = recorded
      obtain ⟨status, ledger, report⟩ := recorded
      refine Iff.trans ?_ ⟨fun h => ⟨hstarted, hsource, h⟩, fun h => h.2.2⟩
      dsimp only
      cases hok : status.ok with
      | false => simp only [Bool.not_false, if_true, hok]
      | true =>
        rw [if_neg (by decide)]
        exact ⟨fun _ => rfl, fun _ => by split <;> rfl⟩

/-- A decoded greeting is refused by the registration only for what is registered already. -/
theorem ok_registerSource {o : Observatory} {document : Except Status HelloPayload} {hello : HelloPayload}
    {now : NdoTime} (hdecoded : decodeHello document = .ok hello) :
    (o.registerSource (hello.descriptor now)).1.ok = true ↔ o.Registers hello := by
  obtain ⟨hid, hepoch, hincarnation⟩ := decodeHello_ok hdecoded
  have hnonempty : hello.source.empty = false := ObservationServer.source_of_decoded hdecoded
  unfold registerSource Registers HelloPayload.descriptor
  dsimp only
  simp only [hnonempty, hid, hincarnation, hepoch, Bool.not_true, Bool.or_false, Bool.false_eq_true, if_false]
  cases o.sources.find? hello.source with
  | some existing =>
    dsimp only
    split
    · rename_i hless
      exact ⟨fun h => (by cases h), fun h => absurd h (not_le.mpr hless)⟩
    · rename_i hle
      exact ⟨fun _ => not_lt.mp hle, fun _ => rfl⟩
  | none =>
    dsimp only
    split
    · rename_i hfull
      exact ⟨fun h => (by cases h), fun h => absurd h (not_lt.mpr hfull)⟩
    · rename_i hroom
      exact ⟨fun _ => not_le.mp hroom, fun _ => rfl⟩

end Observatory

/-! ### Whole frames -/

/-- The answer says that the frame is not accepted. -/
def Reply.refuses : Reply → Bool
  | .helloAck ack => !ack.accepted
  | .snapshotAck ack => !ack.accepted
  | .intentAck ack => !ack.accepted
  | .error _ _ => false

namespace ObservationServer

/-- The session has been answered once since `before`, with a refusal. -/
def Refused (before after : ObservationServer) (index : Nat) : Prop :=
  ∃ session session' reply, before.sessions[index]? = some session ∧ after.sessions[index]? = some session' ∧
    session'.replies = session.replies ++ [reply] ∧ reply.refuses = true

/-- The fence holds the greeting back or is of its authority already, or the registration accepts it. -/
def GreetingKept (server : ObservationServer) (hello : HelloPayload) : Prop :=
  server.observatory.Registers hello ∨ ∃ fence, server.fences.find? hello.source = some fence ∧
    (hello.epoch < fence.epoch ∨ hello.incarnation < fence.incarnation ∨ hello.authority = fence.authority)

/-- The session or the fence holds the snapshot back or is at its mark already, or the ingestion accepts it. -/
def SnapshotKept (server : ObservationServer) (session : Session) (snapshot : ObservationSnapshot) (now : NdoTime) :
    Prop :=
  server.observatory.Ingests snapshot now ∨ snapshot.source ≠ session.context.source ∨
    snapshot.authority ≠ (session.context.epoch, session.context.incarnation) ∨
    ∃ fence, server.fences.find? snapshot.source = some fence ∧
      (snapshot.authority ≠ fence.authority ∨ snapshot.sequence ≤ fence.sequence)

variable [DoubleChars] {server : ObservationServer} {index : Nat} {session : Session}

/-- A greeting frame from its arrival to its answer. -/
def greetingFrame (server : ObservationServer) (index : Nat) (document : Except Status HelloPayload) (now : NdoTime) :
    ObservationServer :=
  (server.step (.hello index document)).step (.register index now true)

/-- A snapshot frame from its arrival to its answer. -/
def snapshotFrame (server : ObservationServer) (index : Nat) (document : Except Status ObservationSnapshot)
    (now : NdoTime) : ObservationServer :=
  (server.step (.snapshot index document)).step (.ingest index now true)

omit [DoubleChars] in
theorem refused_iff {after : ObservationServer} {session' : Session} {reply : Reply}
    (hs : server.sessions[index]? = some session) (hafter : after.sessions = server.sessions.set index session')
    (hreplies : session'.replies = session.replies ++ [reply]) : Refused server after index ↔ reply.refuses = true := by
  have hlt : index < server.sessions.length := (List.getElem?_eq_some_iff.mp hs).1
  have hget : after.sessions[index]? = some session' := by rw [hafter, List.getElem?_set_self hlt]
  refine ⟨?_, fun h => ⟨session, session', reply, hs, hget, hreplies, h⟩⟩
  rintro ⟨before, answered, other, hbefore, hanswered, heq, hrefuses⟩
  rw [hs] at hbefore
  rw [hget] at hanswered
  obtain rfl := Option.some.inj hbefore
  obtain rfl := Option.some.inj hanswered
  have hreply := List.append_cancel_left (hreplies.symm.trans heq)
  rw [List.singleton_inj.mp hreply]
  exact hrefuses

omit [DoubleChars] in
theorem fenceHello_refused {fence? : Option SourceFence} {hello : HelloPayload} {reason : ReasonCode} {detail : Text}
    {counted : Bool} (h : fenceHello fence? hello = .refused reason detail counted)
    (hfiled : ∀ fence, fence? = some fence → fence.source.empty = false) :
    ∃ fence, fence? = some fence ∧ (hello.epoch < fence.epoch ∨ hello.incarnation < fence.incarnation) := by
  rcases fence? with _ | fence
  · exfalso
    revert h
    simp [fenceHello, StringId.empty, show (default : SourceId).str = [] from rfl]
  · refine ⟨fence, rfl, ?_⟩
    unfold fenceHello at h
    dsimp only at h
    by_contra hnot
    rw [not_or] at hnot
    rw [if_neg (by simp [hnot.1]), if_neg (by simp [hnot.2]), if_neg (by simp [hnot.2])] at h
    cases h

theorem step_register {now : NdoTime} {sent : Bool} (hs : server.sessions[index]? = some session) :
    server.step (.register index now sent) = match session.phase with
      | .greeted hello ack => server.registerGreeted index session hello ack now sent
      | _ => server := by
  cases hphase : session.phase <;> simp only [step, hs, hphase]

theorem step_ingest {now : NdoTime} {sent : Bool} (hs : server.sessions[index]? = some session) :
    server.step (.ingest index now sent) = match session.phase with
      | .fenced snapshot ack => server.ingestFenced index session snapshot ack now sent
      | _ => server := by
  cases hphase : session.phase <;> simp only [step, hs, hphase]

/-- A greeting frame that the fence holds back. -/
theorem greetingFrame_refused {document : Except Status HelloPayload} {hello : HelloPayload} {now : NdoTime}
    {reason : ReasonCode} {detail : Text} {counted : Bool} (hs : server.sessions[index]? = some session)
    (hreading : session.phase = .reading) (hdecoded : decodeHello document = .ok hello)
    (hfence : fenceHello (server.fences.find? hello.source) hello = .refused reason detail counted) :
    (server.greetingFrame index document now).fences = server.fences := by
  have hstep : server.step (.hello index document) = server.handleHello index session document := by
    simp only [step, hs, hreading]
  obtain ⟨replies, hset, hfences⟩ : ∃ replies, (server.step (.hello index document)).sessions =
      server.sessions.set index { session with replies := replies, phase := .closed } ∧
        (server.step (.hello index document)).fences = server.fences := by
    rw [hstep]
    unfold handleHello
    rw [hdecoded]
    dsimp only
    rw [hfence]
    exact ⟨_, rfl, rfl⟩
  have hget : (server.step (.hello index document)).sessions[index]? =
      some { session with replies := replies, phase := .closed } := by
    rw [hset, List.getElem?_set_self (List.getElem?_eq_some_iff.mp hs).1]
  rw [greetingFrame, step_register hget, hfences]

omit [DoubleChars] in
theorem registerGreeted_answer {hello : HelloPayload} {ack : HelloAckPayload} {now : NdoTime}
    (hack : ack.accepted = true) :
    ∃ session' reply, (server.registerGreeted index session hello ack now true).sessions =
        server.sessions.set index session' ∧
      (server.registerGreeted index session hello ack now true).fences = server.fences ∧
      session'.replies = session.replies ++ [reply] ∧
      (reply.refuses = true ↔ (server.observatory.registerSource (hello.descriptor now)).1.ok = false) := by
  unfold registerGreeted HelloPayload.descriptor
  generalize server.observatory.registerSource _ = registered
  obtain ⟨registration, observatory⟩ := registered
  dsimp only
  cases hok : registration.ok with
  | true =>
    rw [if_pos rfl, hack, if_neg (by decide), if_neg (by decide)]
    exact ⟨_, .helloAck ack, rfl, rfl, rfl, by simp [Reply.refuses, hack]⟩
  | false =>
    simp only [Bool.false_eq_true, if_false, Bool.not_true, Bool.not_false, if_true]
    exact ⟨_, .helloAck _, rfl, rfl, rfl, by simp [Reply.refuses]⟩

omit [DoubleChars] in
theorem ingestFenced_answer {snapshot : ObservationSnapshot} {ack : AckPayload} {now : NdoTime} :
    ∃ session' reply, (server.ingestFenced index session snapshot ack now true).sessions =
        server.sessions.set index session' ∧
      (server.ingestFenced index session snapshot ack now true).fences = server.fences ∧
      session'.replies = session.replies ++ [reply] ∧
      (reply.refuses = true ↔ (server.observatory.ingestObservation snapshot now).1.ok = false) := by
  unfold ingestFenced
  generalize server.observatory.ingestObservation snapshot now = ingested
  obtain ⟨ingest, observatory, admission⟩ := ingested
  exact ⟨_, _, rfl, rfl, rfl, by simp [Reply.refuses]⟩

/-- A greeting frame that the fence lets through. -/
theorem greetingFrame_accepted {document : Except Status HelloPayload} {hello : HelloPayload} {now : NdoTime}
    {fence : SourceFence} (hs : server.sessions[index]? = some session) (hreading : session.phase = .reading)
    (hdecoded : decodeHello document = .ok hello)
    (hfence : fenceHello (server.fences.find? hello.source) hello = .accepted fence) :
    (server.greetingFrame index document now).fences = server.fences.insert hello.source fence ∧
      (Refused server (server.greetingFrame index document now) index ↔ ¬ server.observatory.Registers hello) := by
  have hstep : server.step (.hello index document) = server.handleHello index session document := by
    simp only [step, hs, hreading]
  have hlt := (List.getElem?_eq_some_iff.mp hs).1
  obtain ⟨ack, hack, hgreeted⟩ : ∃ ack, ack.accepted = true ∧ server.step (.hello index document) =
      { server.update index { session with phase := .greeted hello ack } with
        fences := server.fences.insert hello.source fence } := by
    rw [hstep]
    unfold handleHello
    rw [hdecoded]
    dsimp only
    rw [hfence]
    exact ⟨_, rfl, rfl⟩
  have hget : (server.step (.hello index document)).sessions[index]? =
      some { session with phase := .greeted hello ack } := by
    rw [hgreeted]
    exact List.getElem?_set_self hlt
  have hframe : server.greetingFrame index document now = (server.step (.hello index document)).registerGreeted index
      { session with phase := .greeted hello ack } hello ack now true := by
    rw [greetingFrame, step_register hget]
  have hregisters := @Observatory.ok_registerSource server.observatory document hello now hdecoded
  obtain ⟨session', reply, hset, hfences, hreplies, hreply⟩ :=
    @registerGreeted_answer (server.step (.hello index document)) index { session with phase := .greeted hello ack }
      hello ack now hack
  rw [hframe]
  refine ⟨by rw [hfences, hgreeted], ?_⟩
  have hset' : (registerGreeted (server.step (.hello index document)) index { session with phase := .greeted hello ack }
      hello ack now true).sessions = server.sessions.set index session' := by
    rw [hset, hgreeted]
    exact List.set_set ..
  have hobservatory : (server.step (.hello index document)).observatory = server.observatory := by rw [hgreeted]; rfl
  rw [refused_iff hs hset' hreplies, hreply, hobservatory, ← hregisters, Bool.not_eq_true]

theorem snapshotFrame_refused {document : Except Status ObservationSnapshot} {now : NdoTime} {ack : AckPayload}
    {stale : Bool} (hs : server.sessions[index]? = some session) (hreading : session.phase = .reading)
    (hstep : server.step (.snapshot index document) = server.refuseSnapshot index session ack stale) :
    (server.snapshotFrame index document now).fences = server.fences := by
  have hget : (server.step (.snapshot index document)).sessions[index]? = some (session.reply (.snapshotAck ack)) := by
    rw [hstep]
    exact List.getElem?_set_self (List.getElem?_eq_some_iff.mp hs).1
  have hphase : (session.reply (.snapshotAck ack)).phase = .reading := hreading
  rw [snapshotFrame, step_ingest hget, hphase]
  dsimp only
  rw [hstep]
  rfl

theorem snapshotFrame_passed {document : Except Status ObservationSnapshot} {snapshot : ObservationSnapshot}
    {now : NdoTime} {fence : SourceFence} {ack : AckPayload} (hs : server.sessions[index]? = some session)
    (hstep : server.step (.snapshot index document) =
      { server.update index { session with phase := .fenced snapshot ack } with
        fences := server.fences.insert snapshot.source fence }) :
    (server.snapshotFrame index document now).fences = server.fences.insert snapshot.source fence ∧
      (Refused server (server.snapshotFrame index document now) index ↔ ¬ server.observatory.Ingests snapshot now) := by
  have hlt := (List.getElem?_eq_some_iff.mp hs).1
  have hget : (server.step (.snapshot index document)).sessions[index]? =
      some { session with phase := .fenced snapshot ack } := by
    rw [hstep]
    exact List.getElem?_set_self hlt
  have hframe : server.snapshotFrame index document now = (server.step (.snapshot index document)).ingestFenced index
      { session with phase := .fenced snapshot ack } snapshot ack now true := by
    rw [snapshotFrame, step_ingest hget]
  obtain ⟨session', reply, hset, hfences, hreplies, hreply⟩ :=
    @ingestFenced_answer (server.step (.snapshot index document)) index { session with phase := .fenced snapshot ack }
      snapshot ack now
  rw [hframe]
  refine ⟨by rw [hfences, hstep], ?_⟩
  have hset' : (ingestFenced (server.step (.snapshot index document)) index
      { session with phase := .fenced snapshot ack } snapshot ack now true).sessions =
        server.sessions.set index session' := by
    rw [hset, hstep]
    exact List.set_set ..
  have hobservatory : (server.step (.snapshot index document)).observatory = server.observatory := by rw [hstep]; rfl
  rw [refused_iff hs hset' hreplies, hreply, hobservatory, ← Observatory.ok_ingestObservation, Bool.not_eq_true]

/-! ### When a refused frame leaves its fence alone -/

theorem greeting_untouched_iff (h : Fenced server) {document : Except Status HelloPayload} {hello : HelloPayload}
    {now : NdoTime} (hs : server.sessions[index]? = some session) (hreading : session.phase = .reading)
    (hdecoded : decodeHello document = .ok hello) :
    (Refused server (server.greetingFrame index document now) index →
      (server.greetingFrame index document now).fences.find? hello.source = server.fences.find? hello.source) ↔
    server.GreetingKept hello := by
  rcases hfence : fenceHello (server.fences.find? hello.source) hello with fence | ⟨reason, detail, counted⟩
  · obtain ⟨hfences, hrefused⟩ := @greetingFrame_accepted _ _ _ _ _ _ now _ hs hreading hdecoded hfence
    obtain ⟨hsource, hepoch, hincarnation, hold⟩ := fenceHello_accepted hfence
    have hauthority : fence.authority = hello.authority := Prod.ext hepoch hincarnation
    rw [hrefused, hfences, OrdMap.find?_insert_self]
    refine ⟨fun hsame => ?_, ?_⟩
    · by_cases hregisters : server.observatory.Registers hello
      · exact .inl hregisters
      · exact .inr ⟨fence, (hsame hregisters).symm, .inr (.inr hauthority.symm)⟩
    · rintro (hregisters | ⟨found, hfound, hbelow⟩) hnot
      · exact absurd hregisters hnot
      · obtain ⟨hfiled, hnonempty⟩ := h.filed _ _ hfound
        obtain ⟨hepoch', hincarnation', hkept⟩ := hold found hfound hnonempty
        rcases hbelow with hless | hless | heq
        · exact absurd hepoch' (not_le.mpr hless)
        · exact absurd hincarnation' (not_le.mpr hless)
        · obtain ⟨hsequence, hcontent⟩ := hkept (congrArg Prod.snd heq).symm
          rw [hfound]
          rw [← hauthority] at heq
          obtain ⟨foundSource, foundEpoch, foundIncarnation, foundSequence, foundDigest⟩ := found
          obtain ⟨source, epoch, incarnation, sequence, digest⟩ := fence
          obtain ⟨rfl, rfl⟩ := Prod.mk.inj heq
          subst hsource hsequence hcontent
          rw [show foundSource = hello.source from hfiled]
  · have hfences := @greetingFrame_refused _ _ _ _ _ _ now _ _ _ hs hreading hdecoded hfence
    refine ⟨fun _ => ?_, fun _ _ => by rw [hfences]⟩
    obtain ⟨found, hfound, hless⟩ := fenceHello_refused hfence fun fence hfence => (h.filed _ _ hfence).2
    exact .inr ⟨found, hfound, hless.imp_right .inl⟩

omit [DoubleChars] in
theorem fenceSnapshot_later {fence : SourceFence} {snapshot : ObservationSnapshot} {digest : Digest}
    (hfiled : fence.source.empty = false) (hauthority : snapshot.authority = fence.authority)
    (hless : fence.sequence < snapshot.sequence) (reason : ReasonCode) :
    fenceSnapshot (some fence) snapshot.source snapshot.epoch snapshot.incarnation snapshot.sequence digest ≠
      .error reason := by
  obtain ⟨hepoch, hincarnation⟩ := Prod.mk.inj hauthority
  unfold fenceSnapshot
  dsimp only [Option.getD_some]
  rw [hfiled, if_neg Bool.false_ne_true, if_neg (by rw [not_or, not_not, not_not]; exact ⟨hepoch, hincarnation⟩)]
  split
  · exact fun h => (by cases h)
  · rw [if_neg (not_lt.mpr hless.le), if_neg fun h => hless.ne' h.1]
    exact fun h => (by cases h)

theorem snapshot_untouched_iff (h : Fenced server) {document : Except Status ObservationSnapshot}
    {snapshot : ObservationSnapshot} {now : NdoTime} (hs : server.sessions[index]? = some session)
    (hreading : session.phase = .reading) (hhandshaken : session.context.handshaken = true)
    (hdecoded : checkObservationDocument server.limits document = .ok snapshot) :
    (Refused server (server.snapshotFrame index document now) index →
      (server.snapshotFrame index document now).fences.find? snapshot.source = server.fences.find? snapshot.source) ↔
    server.SnapshotKept session snapshot now := by
  have hstep : server.step (.snapshot index document) = server.handleSnapshot index session document := by
    simp only [step, hs, hreading, requireHandshake, hhandshaken, if_true]
  have hfound : snapshot.source = session.context.source →
      snapshot.authority = (session.context.epoch, session.context.incarnation) →
      ∃ fence, server.fences.find? snapshot.source = some fence ∧ snapshot.authority ≤ fence.authority := by
    intro hsource hauthority
    refine h.behind (snapshot.source, snapshot.authority) ⟨session, List.mem_of_getElem? hs, ?_⟩
    unfold Session.holds
    rw [hhandshaken, hsource, hauthority]
    exact List.mem_append_left _ (List.mem_singleton_self _)
  rcases handleSnapshot_cases server index session document with
    ⟨⟨ack, stale, -, hrefused⟩, hreasons⟩ | ⟨passed, fence', ack, hdecoded', hsource, hauthority, hok, hpassed⟩
  · have hfences := @snapshotFrame_refused _ _ _ _ document now ack stale hs hreading (hstep.trans hrefused)
    refine ⟨fun _ => ?_, fun _ _ => by rw [hfences]⟩
    by_cases hsource : snapshot.source = session.context.source
    · by_cases hauthority : snapshot.authority = (session.context.epoch, session.context.incarnation)
      · obtain ⟨fence, hfence, -⟩ := hfound hsource hauthority
        obtain ⟨reason, herror⟩ := ((hreasons snapshot hdecoded).resolve_left (not_not.mpr hsource)).resolve_left
          (not_not.mpr hauthority)
        rw [hfence] at herror
        refine .inr (.inr (.inr ⟨fence, hfence, ?_⟩))
        by_contra hnot
        rw [not_or, not_not, not_le] at hnot
        exact fenceSnapshot_later (h.filed _ _ hfence).2 hnot.1 hnot.2 reason herror
      · exact .inr (.inr (.inl hauthority))
    · exact .inr (.inl hsource)
  · rw [hdecoded] at hdecoded'
    obtain rfl := Except.ok.inj hdecoded'
    obtain ⟨hfences, hrefused⟩ := @snapshotFrame_passed _ _ _ _ document snapshot now fence' ack hs (hstep.trans hpassed)
    obtain ⟨fence, hfence, hbehind⟩ := hfound hsource hauthority
    rw [hfence] at hok
    have hpasses := passes_snapshot (h.filed _ _ hfence).2 hbehind (sequence_of_decoded hdecoded) hok
    rw [hrefused, hfences, OrdMap.find?_insert_self, hfence]
    refine ⟨fun hsame => ?_, ?_⟩
    · by_cases hingests : server.observatory.Ingests snapshot now
      · exact .inl hingests
      · refine .inr (.inr (.inr ⟨fence, hfence, .inr ?_⟩))
        rw [← Option.some.inj (hsame hingests)]
        exact (mark_inj hpasses.mark).2.2.le
    · rintro (hingests | hne | hne | ⟨found, hfound, hbelow⟩) hnot
      · exact absurd hingests hnot
      · exact absurd hsource hne
      · exact absurd hauthority hne
      · rw [hfence] at hfound
        obtain rfl := Option.some.inj hfound
        rcases hpasses.moved with hmoved | hsame
        · exfalso
          rcases hbelow with hne | hle
          · exact hne hpasses.authority
          · refine absurd hmoved (not_lt.mpr ?_)
            rw [← hpasses.mark]
            exact mark_le hbehind.1 hbehind.2 fun _ => hle
        · rw [hsame]

/-- In every state a server reaches, a greeting or a snapshot frame that is refused leaves the fence of its source as it
    was exactly when the fence itself holds the frame back, has nothing to learn from it, or what follows the fence
    accepts it. -/
theorem refused_untouched_iff (limits : RuntimeLimits) (observatory : Observatory) (events : List Event) :
    let server := Run.exec step (start limits observatory) events
    ∀ index session, server.sessions[index]? = some session → session.phase = .reading →
      (∀ document hello now, decodeHello document = .ok hello →
        ((Refused server (server.greetingFrame index document now) index →
          (server.greetingFrame index document now).fences.find? hello.source =
            server.fences.find? hello.source) ↔ server.GreetingKept hello)) ∧
      (∀ document snapshot now, session.context.handshaken = true →
        checkObservationDocument server.limits document = .ok snapshot →
        ((Refused server (server.snapshotFrame index document now) index →
          (server.snapshotFrame index document now).fences.find? snapshot.source =
            server.fences.find? snapshot.source) ↔ server.SnapshotKept session snapshot now)) := by
  intro server index session hs hreading
  refine ⟨fun document hello now hdecoded => ?_, fun document snapshot now hhandshaken hdecoded => ?_⟩
  · exact greeting_untouched_iff fenced_exec hs hreading hdecoded
  · exact snapshot_untouched_iff fenced_exec hs hreading hhandshaken hdecoded

end ObservationServer

namespace Sample
open ObservationServer

/-- An observatory that has kept an observation of a later process of the source. -/
def reloaded : Observatory := (listening.observatory.ingestObservation (report 2 1) ⟨1⟩).2.1

/-- A session of the earlier process. -/
def returned : ObservationServer :=
  Run.exec (@step noDoubles) (start {} reloaded) [.connect, .hello 0 (greet 1), .register 0 ⟨1⟩ true]

/-- What is to be known of a session before it publishes. -/
def standing (session : Session) : Bool × Bool × SourceId × Authority :=
  (match session.phase with
    | .reading => true
    | _ => false, session.context.handshaken, session.context.source, session.context.epoch,
    session.context.incarnation)

/-- The observation of the earlier process as it is decoded. -/
def decoded : ObservationSnapshot := { report 1 1 with snapshotId := (report 1 1).computeSnapshotId }

theorem decoded_eq {limits : RuntimeLimits} (h : (decoded.validate limits).ok = true) :
    checkObservationDocument limits (.ok (report 1 1)) = .ok decoded := by
  have hvalid : (({ report 1 1 with snapshotId := (report 1 1).computeSnapshotId } :
      ObservationSnapshot).validate limits).ok = true := h
  unfold checkObservationDocument
  dsimp only
  rw [hvalid, if_neg (by decide), decoded]

theorem reading_of_standing {session : Session} (h : (standing session).1 = true) : session.phase = .reading := by
  rcases hphase : session.phase with _ | _ | _ | _
  · rfl
  all_goals
    rw [standing, hphase] at h
    cases h

/-- The observatory refuses what the fence of the earlier process lets through. -/
theorem returned_unkept : ∃ session, returned.sessions[0]? = some session ∧ session.phase = .reading ∧
    session.context.handshaken = true ∧ checkObservationDocument returned.limits (.ok (report 1 1)) = .ok decoded ∧
      ¬ returned.SnapshotKept session decoded ⟨2⟩ := by
  have hstanding : returned.sessions[0]?.map standing = some (true, true, ⟨ascii "a"⟩, ⟨1⟩, ⟨1⟩) ∧
      (returned.fences.find? ⟨ascii "a"⟩).map (fun fence => (fence.authority, fence.sequence)) =
        some ((⟨1⟩, ⟨1⟩), default) ∧
      (returned.observatory.ingestObservation decoded ⟨2⟩).1.ok = false ∧
      (decoded.validate returned.limits).ok = true ∧
      (decoded.source, decoded.authority, decoded.sequence) = (⟨ascii "a"⟩, (⟨1⟩, ⟨1⟩), ⟨1⟩) := by decide +kernel
  obtain ⟨hsession, hfence, hingest, hvalid, hdecoded⟩ := hstanding
  obtain ⟨session, hs, hstanding⟩ := Option.map_eq_some_iff.mp hsession
  obtain ⟨fence, hfence, hmark⟩ := Option.map_eq_some_iff.mp hfence
  obtain ⟨hhandshaken, hcontext⟩ := Prod.mk.inj (Prod.mk.inj hstanding).2
  obtain ⟨hsource, hdecoded⟩ := Prod.mk.inj hdecoded
  obtain ⟨hauthority, hsequence⟩ := Prod.mk.inj hdecoded
  refine ⟨session, hs, reading_of_standing (congrArg Prod.fst hstanding), hhandshaken, decoded_eq hvalid, ?_⟩
  rintro (hingests | hne | hne | ⟨found, hfound, hbelow⟩)
  · rw [← Observatory.ok_ingestObservation, hingest] at hingests
    cases hingests
  · exact hne (hsource.trans (Prod.mk.inj hcontext).1.symm)
  · exact hne (hauthority.trans (Prod.mk.inj hcontext).2.symm)
  · rw [hsource, hfence] at hfound
    obtain rfl := Option.some.inj hfound
    rcases hbelow with hne | hle
    · exact hne (hauthority.trans (Prod.mk.inj hmark).1.symm)
    · rw [hsequence, (Prod.mk.inj hmark).2] at hle
      exact absurd hle (by decide)

end Sample

open ObservationServer in
theorem ObservationServer.refused_untouched_iff_returned :
    Refused Sample.returned (@snapshotFrame Sample.noDoubles Sample.returned 0 (.ok (Sample.report 1 1)) ⟨2⟩) 0 ∧
      (@snapshotFrame Sample.noDoubles Sample.returned 0 (.ok (Sample.report 1 1)) ⟨2⟩).fences.find? Sample.decoded.source ≠
        Sample.returned.fences.find? Sample.decoded.source := by
  obtain ⟨session, hs, hreading, hhandshaken, hdecodes, hunkept⟩ := Sample.returned_unkept
  have hiff := (@refused_untouched_iff Sample.noDoubles {} Sample.reloaded
    [.connect, .hello 0 (Sample.greet 1), .register 0 ⟨1⟩ true] 0 session hs hreading).2 _ _ ⟨2⟩ hhandshaken hdecodes
  exact Classical.not_imp.mp fun hkept => hunkept (hiff.mp hkept)

open ObservationServer in
theorem ObservationServer.refused_returned_moved :
    ¬ ∀ (limits : RuntimeLimits) (observatory : Observatory) (events : List Event) (index : Nat) (session : Session)
      (document : Except Status ObservationSnapshot) (snapshot : ObservationSnapshot) (now : NdoTime),
      let server := Run.exec (@step Sample.noDoubles) (start limits observatory) events
      server.sessions[index]? = some session → session.phase = .reading → session.context.handshaken = true →
      checkObservationDocument server.limits document = .ok snapshot →
      Refused server (@snapshotFrame Sample.noDoubles server index document now) index →
      (@snapshotFrame Sample.noDoubles server index document now).fences.find? snapshot.source =
        server.fences.find? snapshot.source := by
  intro h
  obtain ⟨session, hs, hreading, hhandshaken, hdecodes, hunkept⟩ := Sample.returned_unkept
  have huntouched := h {} Sample.reloaded [.connect, .hello 0 (Sample.greet 1), .register 0 ⟨1⟩ true] 0 session _ _ ⟨2⟩ hs
    hreading hhandshaken hdecodes
  exact hunkept ((@snapshot_untouched_iff Sample.noDoubles _ _ _ (@fenced_exec Sample.noDoubles _ _ _)
    (.ok (Sample.report 1 1)) _ ⟨2⟩ hs hreading hhandshaken hdecodes).mp huntouched)

end DriftObservatory
