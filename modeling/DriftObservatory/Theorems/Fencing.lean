import DriftObservatory.Server
import DriftObservatory.Theorems.Atomicity

/-! The fences of the observation server. Whatever the sessions do, no session is ahead of the fence of its source,
    the fence only moves forward and lets one content through for each mark. -/

namespace DriftObservatory

/-! ### Marks -/

/-- An epoch, an incarnation and a sequence number, in this order. -/
abbrev Mark := FabricEpoch ×ₗ Incarnation ×ₗ SourceSequence

def SourceFence.mark (fence : SourceFence) : Mark := toLex (fence.epoch, toLex (fence.incarnation, fence.sequence))

def ObservationSnapshot.mark (snapshot : ObservationSnapshot) : Mark :=
  toLex (snapshot.epoch, toLex (snapshot.incarnation, snapshot.sequence))

theorem mark_le {e e' : FabricEpoch} {i i' : Incarnation} {q q' : SourceSequence} (he : e ≤ e') (hi : i ≤ i')
    (hq : i = i' → q ≤ q') : (toLex (e, toLex (i, q)) : Mark) ≤ toLex (e', toLex (i', q')) := by
  rw [Prod.Lex.toLex_le_toLex, Prod.Lex.toLex_le_toLex]
  rcases he.lt_or_eq with he | he
  · exact .inl he
  · refine .inr ⟨he, ?_⟩
    rcases hi.lt_or_eq with hi | hi
    · exact .inl hi
    · exact .inr ⟨hi, hq hi⟩

theorem mark_inj {e e' : FabricEpoch} {i i' : Incarnation} {q q' : SourceSequence}
    (h : (toLex (e, toLex (i, q)) : Mark) = toLex (e', toLex (i', q'))) : e = e' ∧ i = i' ∧ q = q' := by
  simpa [Prod.ext_iff] using h

/-! ### The two sections on a fence -/

section Sections
variable {found : Option SourceFence} {fence old : SourceFence} {hello : HelloPayload}

/-- An accepted greeting sets the authority; it keeps the mark of its own incarnation and resets that of an older one. -/
theorem fenceHello_accepted (h : fenceHello found hello = .accepted fence) :
    fence.source = hello.source ∧ fence.epoch = hello.epoch ∧ fence.incarnation = hello.incarnation ∧
      ∀ old, found = some old → old.source.empty = false →
        old.epoch ≤ hello.epoch ∧ old.incarnation ≤ hello.incarnation ∧
          (old.incarnation = hello.incarnation →
            fence.sequence = old.sequence ∧ fence.contentDigest = old.contentDigest) := by
  unfold fenceHello at h
  dsimp only at h
  split at h
  · cases h
  rename_i hepoch
  split at h
  · cases h
  split at h
  · cases h
  rename_i hincarnation
  obtain rfl := GreetingVerdict.accepted.inj h
  refine ⟨rfl, rfl, rfl, ?_⟩
  rintro old rfl hsource
  simp only [Option.isSome_some, Option.getD_some, Bool.true_and, decide_eq_true_eq, hsource, Bool.not_false,
    not_lt] at hepoch hincarnation
  refine ⟨hepoch, hincarnation, fun heq => ?_⟩
  simp [heq]

theorem decodeHello_ok {document : Except Status HelloPayload} {hello : HelloPayload}
    (h : decodeHello document = .ok hello) :
    isValidIdentityText hello.source.str = true ∧ hello.epoch.isSet = true ∧ hello.incarnation.isSet = true := by
  unfold decodeHello at h
  rcases document with status | decoded
  · cases h
  · dsimp only at h
    split at h
    · cases h
    · rename_i hvalid
      split at h
      · cases h
      · rename_i hset
        obtain rfl := Except.ok.inj h
        simpa using And.intro hvalid hset

variable {source : SourceId} {epoch : FabricEpoch} {incarnation : Incarnation} {sequence : SourceSequence}
  {digest : Digest}

/-- For an authority that is not ahead of the fence, only the current one passes, with a later sequence number or
    with the content of the mark. -/
theorem fenceSnapshot_ok (hsource : old.source.empty = false) (he : epoch ≤ old.epoch)
    (hi : incarnation ≤ old.incarnation) (hq : sequence.isSet = true)
    (h : fenceSnapshot (some old) source epoch incarnation sequence digest = .ok fence) :
    epoch = old.epoch ∧ incarnation = old.incarnation ∧
      ((old.sequence < sequence ∧ fence = { old with sequence := sequence, contentDigest := digest }) ∨
        (sequence = old.sequence ∧ digest = old.contentDigest ∧ fence = old)) := by
  unfold fenceSnapshot at h
  simp only [Option.getD_some, hsource, Bool.false_eq_true, if_false] at h
  split_ifs at h with hauth hepoch hinc hunset hless hsame hmore
  · -- The takeover needs an authority ahead of the fence.
    exfalso
    rcases hauth with hne | hne
    · exact hepoch (lt_of_le_of_ne he hne)
    · have heq : epoch = old.epoch := le_antisymm he (not_lt.mp hepoch)
      exact hinc ⟨heq, lt_of_le_of_ne hi hne⟩
  · rw [not_or, not_not, not_not] at hauth
    refine ⟨hauth.1, hauth.2, .inl ⟨?_, (Except.ok.inj h).symm⟩⟩
    simp only [Bool.and_eq_true, Bool.not_eq_true'] at hunset
    have hzero : old.sequence.value = 0 := by simpa [StrongUint.isSet] using hunset.1
    have hpos : sequence.value ≠ 0 := by simpa [StrongUint.isSet] using hq
    show old.sequence.value < sequence.value
    rw [hzero]
    exact UInt64.pos_iff_ne_zero.mpr hpos
  · rw [not_or, not_not, not_not] at hauth
    exact ⟨hauth.1, hauth.2, .inl ⟨hmore, (Except.ok.inj h).symm⟩⟩
  · rw [not_or, not_not, not_not] at hauth
    have heq : sequence = old.sequence := le_antisymm (not_lt.mp hmore) (not_lt.mp hless)
    refine ⟨hauth.1, hauth.2, .inr ⟨heq, ?_, (Except.ok.inj h).symm⟩⟩
    by_contra hne
    exact hsame ⟨heq, hne⟩

end Sections

/-! ### Authorities -/

/-- An epoch and an incarnation; the order is the one of the components. -/
abbrev Authority := FabricEpoch × Incarnation

def SourceFence.authority (fence : SourceFence) : Authority := (fence.epoch, fence.incarnation)

def HelloPayload.authority (hello : HelloPayload) : Authority := (hello.epoch, hello.incarnation)

def ObservationSnapshot.authority (snapshot : ObservationSnapshot) : Authority := (snapshot.epoch, snapshot.incarnation)

/-- The authorities a session may still present: the one of its handshake and the one of the frame it is handling. -/
def Session.holds (session : Session) : List (SourceId × Authority) :=
  (if session.context.handshaken then
    [(session.context.source, session.context.epoch, session.context.incarnation)] else []) ++
  match session.phase with
  | .greeted hello _ => [(hello.source, hello.authority)]
  | .fenced snapshot _ => [(snapshot.source, snapshot.authority)]
  | _ => []

namespace ObservationServer

/-- The session a step is of. -/
def Event.session : Event → Option Nat
  | .connect => none
  | .hello index _ | .register index _ _ | .snapshot index _ | .ingest index _ _ | .intent index _ _ | .bye index =>
    some index

variable [DoubleChars]

/-- The server before its first connection. -/
def start (limits : RuntimeLimits) (observatory : Observatory) : ObservationServer :=
  { limits := limits, observatory := observatory }

def phase (server : ObservationServer) (index : Nat) : Option SessionPhase := server.sessions[index]?.map (·.phase)

/-- The greeting that the fence accepts in a step. -/
def greeting (server : ObservationServer) (event : Event) : Option HelloPayload :=
  match event with
  | .hello index _ => match server.phase index, (server.step event).phase index with
    | some .reading, some (.greeted hello _) => some hello
    | _, _ => none
  | _ => none

/-- The snapshot that the fence lets through in a step. -/
def passed (server : ObservationServer) (event : Event) : Option ObservationSnapshot :=
  match event with
  | .snapshot index _ => match server.phase index, (server.step event).phase index with
    | some .reading, some (.fenced snapshot _) => some snapshot
    | _, _ => none
  | _ => none

/-- The observation that a step admits to the ledger. -/
def admitted (server : ObservationServer) (event : Event) : Option ObservationSnapshot :=
  match event with
  | .ingest index now _ => match server.phase index with
    | some (.fenced snapshot _) =>
      if (server.observatory.ingestObservation snapshot now).1.ok then some snapshot else none
    | _ => none
  | _ => none

/-- Some session holds the authority. -/
def Held (server : ObservationServer) (claim : SourceId × Authority) : Prop :=
  ∃ session ∈ server.sessions, claim ∈ session.holds

/-- Some session is between the fence and the ingestion of the snapshot. -/
def Pending (server : ObservationServer) (snapshot : ObservationSnapshot) : Prop :=
  ∃ session ∈ server.sessions, ∃ ack, session.phase = .fenced snapshot ack

/-! ### What a step does to the fences and to what the sessions hold -/

inductive Stepped (server : ObservationServer) (event : Event) : Prop
  | quiet (hgreeting : server.greeting event = none) (hpassed : server.passed event = none)
      (hfences : (server.step event).fences = server.fences)
      (hheld : ∀ claim, (server.step event).Held claim → server.Held claim)
      (hpending : ∀ snapshot, (server.step event).Pending snapshot → server.Pending snapshot)
  | greeted {index : Nat} {document : Except Status HelloPayload} {hello : HelloPayload} {fence : SourceFence}
      (hevent : event = .hello index document) (hdecoded : decodeHello document = .ok hello)
      (hgreeting : server.greeting event = some hello) (hpassed : server.passed event = none)
      (hfence : fenceHello (server.fences.find? hello.source) hello = .accepted fence)
      (hfences : (server.step event).fences = server.fences.insert hello.source fence)
      (hheld : ∀ claim, (server.step event).Held claim → server.Held claim ∨ claim = (hello.source, hello.authority))
      (hpending : ∀ snapshot, (server.step event).Pending snapshot → server.Pending snapshot)
  | passed {index : Nat} {document : Except Status ObservationSnapshot} {snapshot : ObservationSnapshot}
      {fence : SourceFence}
      (hevent : event = .snapshot index document)
      (hdecoded : checkObservationDocument server.limits document = .ok snapshot)
      (hgreeting : server.greeting event = none) (hpassed : server.passed event = some snapshot)
      (hown : server.Held (snapshot.source, snapshot.authority))
      (hfence : fenceSnapshot (server.fences.find? snapshot.source) snapshot.source snapshot.epoch snapshot.incarnation
        snapshot.sequence snapshot.computeContentDigest = .ok fence)
      (hfences : (server.step event).fences = server.fences.insert snapshot.source fence)
      (hheld : ∀ claim, (server.step event).Held claim → server.Held claim)
      (hpending : ∀ s, (server.step event).Pending s → server.Pending s ∨ s = snapshot)

variable {server server' : ObservationServer} {event : Event} {index : Nat} {session session' : Session}

theorem greeting_of_same (h : server.step event = server) : server.greeting event = none := by
  cases event <;> try rfl
  unfold greeting
  rw [h]
  dsimp only
  split
  · rename_i hbefore hafter
    rw [hbefore] at hafter
    cases hafter
  · rfl

theorem passed_of_same (h : server.step event = server) : server.passed event = none := by
  cases event <;> try rfl
  unfold passed
  rw [h]
  dsimp only
  split
  · rename_i hbefore hafter
    rw [hbefore] at hafter
    cases hafter
  · rfl

theorem stepped_of_same (h : server.step event = server) : Stepped server event :=
  .quiet (greeting_of_same h) (passed_of_same h) (by rw [h]) (by rw [h]; exact fun _ => id) (by rw [h]; exact fun _ => id)

omit [DoubleChars] in
theorem held_set (hset : server'.sessions = server.sessions.set index session')
    {claim : SourceId × Authority} (h : server'.Held claim) : server.Held claim ∨ claim ∈ session'.holds := by
  obtain ⟨other, hmem, hclaim⟩ := h
  rw [hset] at hmem
  rcases List.mem_or_eq_of_mem_set hmem with hmem | rfl
  · exact .inl ⟨other, hmem, hclaim⟩
  · exact .inr hclaim

omit [DoubleChars] in
theorem pending_set (hset : server'.sessions = server.sessions.set index session') {snapshot : ObservationSnapshot}
    (h : server'.Pending snapshot) : server.Pending snapshot ∨ ∃ ack, session'.phase = .fenced snapshot ack := by
  obtain ⟨other, hmem, hphase⟩ := h
  rw [hset] at hmem
  rcases List.mem_or_eq_of_mem_set hmem with hmem | rfl
  · exact .inl ⟨other, hmem, hphase⟩
  · exact .inr hphase

omit [DoubleChars] in
theorem phase_set (hs : server.sessions[index]? = some session)
    (hset : server'.sessions = server.sessions.set index session') : server'.phase index = some session'.phase := by
  have hlt : index < server.sessions.length := (List.getElem?_eq_some_iff.mp hs).1
  rw [phase, hset, List.getElem?_set_self hlt]
  rfl

/-- A session that holds no more than before and is left in no frame moves no fence. -/
theorem stepped_of_idle (hs : server.sessions[index]? = some session) (hfences : (server.step event).fences = server.fences)
    (hset : (server.step event).sessions = server.sessions.set index session')
    (hat : event.session = some index) (hidle : session'.phase = .reading ∨ session'.phase = .closed)
    (hholds : session'.holds ⊆ session.holds) : Stepped server event := by
  have hphase := phase_set hs hset
  refine .quiet ?_ ?_ hfences (fun claim h => ?_) (fun snapshot h => ?_)
  · cases event <;> try rfl
    obtain rfl := Option.some.inj hat
    unfold greeting
    dsimp only
    rw [hphase]
    rcases hidle with hidle | hidle <;> rw [hidle] <;> split <;> simp_all
  · cases event <;> try rfl
    obtain rfl := Option.some.inj hat
    unfold passed
    dsimp only
    rw [hphase]
    rcases hidle with hidle | hidle <;> rw [hidle] <;> split <;> simp_all
  · rcases held_set hset h with h | h
    · exact h
    · exact ⟨session, List.mem_of_getElem? hs, hholds h⟩
  · rcases pending_set hset h with h | ⟨ack, h⟩
    · exact h
    · rcases hidle with hidle | hidle <;> rw [hidle] at h <;> cases h

omit [DoubleChars] in
theorem holds_close (session : Session) (replies : List Reply) :
    { session with replies := replies, phase := .closed }.holds ⊆ session.holds :=
  List.append_subset.mpr ⟨List.subset_append_left _ _, List.nil_subset _⟩

theorem stepped_connect (server : ObservationServer) : Stepped server .connect := by
  have hcases : server.step .connect =
        { server with stats := { server.stats with sessionsRefused := server.stats.sessionsRefused + 1 } } ∨
      server.step .connect = { server with
        sessions := server.sessions ++ [{ context := { sessionId := server.sessions.length + 1 } }]
        stats := { server.stats with sessionsAccepted := server.stats.sessionsAccepted + 1 } } := by
    simp only [step, connect]
    split_ifs
    · exact .inl rfl
    · exact .inr rfl
  rcases hcases with hstep | hstep
  · exact .quiet rfl rfl (by rw [hstep]) (by rw [hstep]; exact fun _ => id) (by rw [hstep]; exact fun _ => id)
  · refine .quiet rfl rfl (by rw [hstep]) ?_ ?_
    · rintro claim ⟨session, hmem, hclaim⟩
      rw [hstep] at hmem
      rcases List.mem_append.mp hmem with hmem | hmem
      · exact ⟨session, hmem, hclaim⟩
      · rw [List.mem_singleton.mp hmem] at hclaim
        cases hclaim
    · rintro snapshot ⟨session, hmem, ack, hphase⟩
      rw [hstep] at hmem
      rcases List.mem_append.mp hmem with hmem | hmem
      · exact ⟨session, hmem, ack, hphase⟩
      · rw [List.mem_singleton.mp hmem] at hphase
        cases hphase

theorem stepped_hello {document : Except Status HelloPayload} (hs : server.sessions[index]? = some session)
    (hreading : session.phase = .reading) : Stepped server (.hello index document) := by
  have hstep : server.step (.hello index document) = server.handleHello index session document := by
    simp only [step, hs, hreading]
  rcases hdecoded : decodeHello document with status | hello
  · have hclosed : server.handleHello index session document =
        server.update index ((session.reply (.error status.reason status.detail)).close) := by
      simp only [handleHello, hdecoded]
    rw [hclosed] at hstep
    exact stepped_of_idle hs (by rw [hstep]; rfl) (by rw [hstep]; rfl) rfl (.inr rfl) (holds_close session _)
  · rcases hfence : fenceHello (server.fences.find? hello.source) hello with fence | ⟨reason, detail, counted⟩
    · obtain ⟨ack, hset, hfences⟩ : ∃ ack, (server.step (.hello index document)).sessions =
          server.sessions.set index { session with phase := .greeted hello ack } ∧
            (server.step (.hello index document)).fences = server.fences.insert hello.source fence := by
        rw [hstep]
        unfold handleHello
        rw [hdecoded]
        dsimp only
        rw [hfence]
        exact ⟨_, rfl, rfl⟩
      refine .greeted rfl hdecoded ?_ rfl hfence hfences (fun claim h => ?_) (fun snapshot h => ?_)
      · have hbefore : server.phase index = some .reading := by rw [phase, hs, Option.map_some, hreading]
        simp only [greeting, phase_set hs hset, hbefore]
      · rcases held_set hset h with h | h
        · exact .inl h
        · rcases List.mem_append.mp h with h | h
          · exact .inl ⟨session, List.mem_of_getElem? hs, List.mem_append_left _ h⟩
          · exact .inr (List.mem_singleton.mp h)
      · rcases pending_set hset h with h | ⟨ack, h⟩
        · exact h
        · cases h
    · obtain ⟨replies, hset, hfences⟩ : ∃ replies, (server.step (.hello index document)).sessions =
          server.sessions.set index { session with replies := replies, phase := .closed } ∧
            (server.step (.hello index document)).fences = server.fences := by
        rw [hstep]
        unfold handleHello
        rw [hdecoded]
        dsimp only
        rw [hfence]
        exact ⟨_, rfl, rfl⟩
      exact stepped_of_idle hs hfences hset rfl (.inr rfl) (holds_close session _)

theorem stepped_register {now : NdoTime} {sent : Bool} {hello : HelloPayload} {ack : HelloAckPayload}
    (hs : server.sessions[index]? = some session) (hgreeted : session.phase = .greeted hello ack) :
    Stepped server (.register index now sent) := by
  have hstep : server.step (.register index now sent) =
      server.registerGreeted index session hello ack now sent := by simp only [step, hs, hgreeted]
  have hclaim : (hello.source, hello.authority) ∈ session.holds := by
    unfold Session.holds
    rw [hgreeted]
    exact List.mem_append_right _ (List.mem_singleton_self _)
  obtain ⟨session', hset, hfences, hidle, hholds⟩ : ∃ session',
      (server.step (.register index now sent)).sessions = server.sessions.set index session' ∧
        (server.step (.register index now sent)).fences = server.fences ∧
          (session'.phase = .reading ∨ session'.phase = .closed) ∧ session'.holds ⊆ session.holds := by
    rw [hstep]
    unfold registerGreeted
    generalize server.observatory.registerSource _ = registered
    obtain ⟨registration, observatory⟩ := registered
    dsimp only
    generalize (if registration.ok then ack else _) = answer
    cases sent with
    | false => exact ⟨_, rfl, rfl, .inr rfl, holds_close session session.replies⟩
    | true =>
      rcases answer.accepted with _ | _
      · exact ⟨_, rfl, rfl, .inr rfl, holds_close session _⟩
      · refine ⟨_, rfl, rfl, .inl rfl, fun claim h => ?_⟩
        obtain rfl := List.mem_singleton.mp h
        exact hclaim
  exact stepped_of_idle hs hfences hset rfl hidle hholds

theorem stepped_ingest {now : NdoTime} {sent : Bool} {snapshot : ObservationSnapshot} {ack : AckPayload}
    (hs : server.sessions[index]? = some session) (hfenced : session.phase = .fenced snapshot ack) :
    Stepped server (.ingest index now sent) := by
  have hstep : server.step (.ingest index now sent) =
      server.ingestFenced index session snapshot ack now sent := by simp only [step, hs, hfenced]
  obtain ⟨session', hset, hfences, hidle, hholds⟩ : ∃ session',
      (server.step (.ingest index now sent)).sessions = server.sessions.set index session' ∧
        (server.step (.ingest index now sent)).fences = server.fences ∧
          (session'.phase = .reading ∨ session'.phase = .closed) ∧ session'.holds ⊆ session.holds := by
    rw [hstep]
    unfold ingestFenced
    generalize server.observatory.ingestObservation _ _ = ingested
    obtain ⟨ingest, observatory, admission⟩ := ingested
    cases sent with
    | false => exact ⟨_, rfl, rfl, .inr rfl, holds_close session session.replies⟩
    | true => exact ⟨_, rfl, rfl, .inl rfl, holds_close session session.replies⟩
  exact stepped_of_idle hs hfences hset rfl hidle hholds

theorem stepped_requireHandshake {handled : ObservationServer} (hs : server.sessions[index]? = some session)
    (hat : event.session = some index) (hstep : server.step event = server.requireHandshake index session handled)
    (h : session.context.handshaken = true → server.step event = handled → Stepped server event) :
    Stepped server event := by
  unfold requireHandshake at hstep
  split at hstep
  · rename_i hhandshaken
    exact h hhandshaken hstep
  · exact stepped_of_idle hs (by rw [hstep]; rfl) (by rw [hstep]; rfl) hat (.inr rfl) (holds_close session _)

omit [DoubleChars] in
theorem sequence_of_valid {limits : RuntimeLimits} {snapshot : ObservationSnapshot}
    (h : (snapshot.validate limits).ok = true) : snapshot.sequence.isSet = true := by
  unfold ObservationSnapshot.validate at h
  rw [Status.ok_firstFailing] at h
  have hchecked := h (.require snapshot.sequence.isSet
    (.rejected .observationSequenceRegressed (ascii "observation sequence must be positive"))) (by simp)
  exact (Status.ok_require (by rfl)).mp hchecked

omit [DoubleChars] in
theorem sequence_of_decoded {limits : RuntimeLimits} {document : Except Status ObservationSnapshot}
    {snapshot : ObservationSnapshot} (h : checkObservationDocument limits document = .ok snapshot) :
    snapshot.sequence.isSet = true := by
  unfold checkObservationDocument at h
  rcases document with status | decoded
  · cases h
  · dsimp only at h
    split at h
    · cases h
    · rename_i hok
      obtain rfl := Except.ok.inj h
      exact sequence_of_valid (by simpa only [Bool.not_eq_true', Bool.not_eq_false] using hok)

omit [DoubleChars] in
/-- A snapshot frame is refused, or it decodes to a snapshot of the handshaken authority that passes the fence. -/
theorem handleSnapshot_cases (server : ObservationServer) (index : Nat) (session : Session)
    (document : Except Status ObservationSnapshot) :
    ((∃ ack stale, ack.accepted = false ∧
      server.handleSnapshot index session document = server.refuseSnapshot index session ack stale) ∧
      ∀ snapshot, checkObservationDocument server.limits document = .ok snapshot →
        snapshot.source ≠ session.context.source ∨
        snapshot.authority ≠ (session.context.epoch, session.context.incarnation) ∨
        ∃ reason, fenceSnapshot (server.fences.find? snapshot.source) snapshot.source snapshot.epoch
          snapshot.incarnation snapshot.sequence snapshot.computeContentDigest = .error reason) ∨
    ∃ snapshot fence ack, checkObservationDocument server.limits document = .ok snapshot ∧
      snapshot.source = session.context.source ∧
      snapshot.authority = (session.context.epoch, session.context.incarnation) ∧
      fenceSnapshot (server.fences.find? snapshot.source) snapshot.source snapshot.epoch snapshot.incarnation
        snapshot.sequence snapshot.computeContentDigest = .ok fence ∧
      server.handleSnapshot index session document =
        { server.update index { session with phase := .fenced snapshot ack } with
          fences := server.fences.insert snapshot.source fence } := by
  rcases hdecoded : checkObservationDocument server.limits document with status | snapshot
  · refine .inl ⟨?_, fun _ h => by cases h⟩
    simp only [handleSnapshot, hdecoded]
    exact ⟨_, _, rfl, rfl⟩
  by_cases hsource : snapshot.source = session.context.source
  swap
  · refine .inl ⟨?_, fun other h => .inl (Except.ok.inj h ▸ hsource)⟩
    unfold handleSnapshot
    rw [hdecoded]
    dsimp only
    rw [if_pos hsource]
    exact ⟨_, _, rfl, rfl⟩
  by_cases hauthority : snapshot.incarnation ≠ session.context.incarnation ∨ snapshot.epoch ≠ session.context.epoch
  · refine .inl ⟨?_, fun other h => .inr (.inl (Except.ok.inj h ▸ fun heq => ?_))⟩
    · unfold handleSnapshot
      rw [hdecoded]
      dsimp only
      rw [if_neg (not_not.mpr hsource), if_pos hauthority]
      exact ⟨_, _, rfl, rfl⟩
    · rcases hauthority with hne | hne
      · exact hne (Prod.ext_iff.mp heq).2
      · exact hne (Prod.ext_iff.mp heq).1
  rcases hfence : fenceSnapshot (server.fences.find? snapshot.source) snapshot.source snapshot.epoch
      snapshot.incarnation snapshot.sequence snapshot.computeContentDigest with reason | fence
  · refine .inl ⟨?_, fun other h => .inr (.inr (Except.ok.inj h ▸ ⟨reason, hfence⟩))⟩
    unfold handleSnapshot
    rw [hdecoded]
    dsimp only
    rw [if_neg (not_not.mpr hsource), if_neg hauthority, hfence]
    exact ⟨_, _, rfl, rfl⟩
  · right
    have hpassed : ∃ ack, server.handleSnapshot index session document =
        { server.update index { session with phase := .fenced snapshot ack } with
          fences := server.fences.insert snapshot.source fence } := by
      unfold handleSnapshot
      rw [hdecoded]
      dsimp only
      rw [if_neg (not_not.mpr hsource), if_neg hauthority, hfence]
      exact ⟨_, rfl⟩
    obtain ⟨ack, hpassed⟩ := hpassed
    rw [not_or, not_not, not_not] at hauthority
    exact ⟨snapshot, fence, ack, rfl, hsource, Prod.ext hauthority.2 hauthority.1, hfence, hpassed⟩

theorem stepped_snapshot {document : Except Status ObservationSnapshot} (hs : server.sessions[index]? = some session)
    (hreading : session.phase = .reading) : Stepped server (.snapshot index document) := by
  have hstep : server.step (.snapshot index document) =
      server.requireHandshake index session (server.handleSnapshot index session document) := by
    simp only [step, hs, hreading]
  refine stepped_requireHandshake hs rfl hstep fun hhandshaken hstep => ?_
  rcases handleSnapshot_cases server index session document with
    ⟨⟨ack, stale, -, hrefused⟩, -⟩ | ⟨snapshot, fence, ack, hdecoded, hsource, hauthority, hfence, hpassed⟩
  · rw [hrefused] at hstep
    have hset : (server.step (.snapshot index document)).sessions =
        server.sessions.set index (session.reply (.snapshotAck ack)) := by rw [hstep]; rfl
    exact stepped_of_idle hs (by rw [hstep]; rfl) hset rfl (.inl hreading) (List.Subset.refl _)
  · rw [hpassed] at hstep
    have hset : (server.step (.snapshot index document)).sessions =
        server.sessions.set index { session with phase := .fenced snapshot ack } := by rw [hstep]; rfl
    have hown : (snapshot.source, snapshot.authority) ∈ session.holds := by
      unfold Session.holds
      rw [hhandshaken, hsource, hauthority]
      exact List.mem_append_left _ (List.mem_singleton_self _)
    have hmem := List.mem_of_getElem? hs
    refine .passed rfl hdecoded rfl ?_ ⟨session, hmem, hown⟩ hfence (by rw [hstep]) (fun claim h => ?_)
      (fun other h => ?_)
    · have hbefore : server.phase index = some .reading := by rw [phase, hs, Option.map_some, hreading]
      simp only [passed, phase_set hs hset, hbefore]
    · rcases held_set hset h with h | h
      · exact h
      · rcases List.mem_append.mp h with h | h
        · exact ⟨session, hmem, List.mem_append_left _ h⟩
        · rw [List.mem_singleton.mp h]
          exact ⟨session, hmem, hown⟩
    · rcases pending_set hset h with h | ⟨ack, h⟩
      · exact .inl h
      · exact .inr (SessionPhase.fenced.inj h).1.symm

theorem stepped_intent {document : Except Status IntentGenerationDocument} {now : NdoTime}
    (hs : server.sessions[index]? = some session) (hreading : session.phase = .reading) :
    Stepped server (.intent index document now) := by
  have hstep : server.step (.intent index document now) =
      server.requireHandshake index session (server.handleIntent index session document now) := by
    simp only [step, hs, hreading]
  refine stepped_requireHandshake hs rfl hstep fun _ hstep => ?_
  obtain ⟨reply, hset, hfences⟩ : ∃ reply, (server.step (.intent index document now)).sessions =
      server.sessions.set index (session.reply reply) ∧
        (server.step (.intent index document now)).fences = server.fences := by
    rw [hstep]
    unfold handleIntent
    rcases document with status | intent
    · exact ⟨_, rfl, rfl⟩
    · exact ⟨_, rfl, rfl⟩
  exact stepped_of_idle hs hfences hset rfl (.inl hreading) (List.Subset.refl _)

theorem stepped_bye (hs : server.sessions[index]? = some session) (hreading : session.phase = .reading) :
    Stepped server (.bye index) := by
  have hstep : server.step (.bye index) = server.update index session.close := by simp only [step, hs, hreading]
  exact stepped_of_idle hs (by rw [hstep]; rfl) (by rw [hstep]; rfl) rfl (.inr rfl) (holds_close session session.replies)

theorem stepped (server : ObservationServer) (event : Event) : Stepped server event := by
  cases event with
  | connect => exact stepped_connect server
  | hello index document =>
    rcases hs : server.sessions[index]? with _ | session
    · exact stepped_of_same (by simp only [step, hs])
    · rcases hphase : session.phase with _ | _ | _ | _
      case reading => exact stepped_hello hs hphase
      all_goals exact stepped_of_same (by simp only [step, hs, hphase])
  | register index now sent =>
    rcases hs : server.sessions[index]? with _ | session
    · exact stepped_of_same (by simp only [step, hs])
    · rcases hphase : session.phase with _ | _ | _ | _
      case greeted => exact stepped_register hs hphase
      all_goals exact stepped_of_same (by simp only [step, hs, hphase])
  | snapshot index document =>
    rcases hs : server.sessions[index]? with _ | session
    · exact stepped_of_same (by simp only [step, hs])
    · rcases hphase : session.phase with _ | _ | _ | _
      case reading => exact stepped_snapshot hs hphase
      all_goals exact stepped_of_same (by simp only [step, hs, hphase])
  | ingest index now sent =>
    rcases hs : server.sessions[index]? with _ | session
    · exact stepped_of_same (by simp only [step, hs])
    · rcases hphase : session.phase with _ | _ | _ | _
      case fenced => exact stepped_ingest hs hphase
      all_goals exact stepped_of_same (by simp only [step, hs, hphase])
  | intent index document now =>
    rcases hs : server.sessions[index]? with _ | session
    · exact stepped_of_same (by simp only [step, hs])
    · rcases hphase : session.phase with _ | _ | _ | _
      case reading => exact stepped_intent hs hphase
      all_goals exact stepped_of_same (by simp only [step, hs, hphase])
  | bye index =>
    rcases hs : server.sessions[index]? with _ | session
    · exact stepped_of_same (by simp only [step, hs])
    · rcases hphase : session.phase with _ | _ | _ | _
      case reading => exact stepped_bye hs hphase
      all_goals exact stepped_of_same (by simp only [step, hs, hphase])

/-! ### The fences and the sessions over a run -/

/-- Every fence is filed under the source it fences, and no session is ahead of the fence of its source. -/
structure Fenced (server : ObservationServer) : Prop where
  filed : ∀ source fence, server.fences.find? source = some fence →
    fence.source = source ∧ fence.source.empty = false
  behind : ∀ claim, server.Held claim → ∃ fence, server.fences.find? claim.1 = some fence ∧ claim.2 ≤ fence.authority

omit [DoubleChars] in
theorem fenced_start {limits : RuntimeLimits} {observatory : Observatory} : Fenced (start limits observatory) where
  filed := fun _ _ h => by cases h
  behind := fun _ ⟨_, hmem, _⟩ => absurd hmem List.not_mem_nil

/-- A later state of a fence: the authority is not behind, and the mark only keeps its place with its content. -/
structure Advances (fence fence' : SourceFence) : Prop where
  authority : fence.authority ≤ fence'.authority
  mark : fence.mark ≤ fence'.mark
  content : fence.mark = fence'.mark → fence.contentDigest = fence'.contentDigest

omit [DoubleChars] in
theorem Advances.refl (fence : SourceFence) : Advances fence fence := ⟨le_refl _, le_refl _, fun _ => rfl⟩

omit [DoubleChars] in
theorem source_of_decoded {document : Except Status HelloPayload} {hello : HelloPayload}
    (h : decodeHello document = .ok hello) : hello.source.empty = false := by
  obtain ⟨hvalid, -⟩ := decodeHello_ok h
  by_contra hempty
  simp_all [StringId.empty, isValidIdentityText]

omit [DoubleChars] in
theorem advances_hello {hello : HelloPayload} {fence fence' : SourceFence} (hfiled : fence.source.empty = false)
    (h : fenceHello (some fence) hello = .accepted fence') : Advances fence fence' := by
  obtain ⟨-, hepoch, hincarnation, hold⟩ := fenceHello_accepted h
  obtain ⟨hepoch', hincarnation', hkept⟩ := hold fence rfl hfiled
  rw [← hepoch] at hepoch'
  rw [← hincarnation] at hincarnation' hkept
  refine ⟨⟨hepoch', hincarnation'⟩, mark_le hepoch' hincarnation' fun heq => ?_, fun heq => ?_⟩
  · rw [(hkept heq).1]
  · exact (hkept (mark_inj heq).2.1).2.symm

/-- A snapshot that passes belongs to the authority of the fence, and either moves the mark to its own or repeats it. -/
structure Passes (snapshot : ObservationSnapshot) (fence fence' : SourceFence) : Prop where
  authority : snapshot.authority = fence.authority
  kept : fence'.authority = fence.authority
  filed : fence'.source = fence.source
  mark : snapshot.mark = fence'.mark
  content : snapshot.computeContentDigest = fence'.contentDigest
  moved : fence.mark < fence'.mark ∨ fence' = fence

omit [DoubleChars] in
theorem passes_snapshot {snapshot : ObservationSnapshot} {fence fence' : SourceFence}
    (hfiled : fence.source.empty = false) (hbehind : snapshot.authority ≤ fence.authority)
    (hsequence : snapshot.sequence.isSet = true)
    (h : fenceSnapshot (some fence) snapshot.source snapshot.epoch snapshot.incarnation snapshot.sequence
      snapshot.computeContentDigest = .ok fence') : Passes snapshot fence fence' := by
  generalize hdigest : snapshot.computeContentDigest = digest at h
  have hepoch : snapshot.epoch ≤ fence.epoch := hbehind.1
  have hincarnation : snapshot.incarnation ≤ fence.incarnation := hbehind.2
  obtain ⟨hepoch, hincarnation, hmoved⟩ := fenceSnapshot_ok hfiled hepoch hincarnation hsequence h
  have hauthority : snapshot.authority = fence.authority := Prod.ext hepoch hincarnation
  rcases hmoved with ⟨hless, rfl⟩ | ⟨hsame, hcontent, rfl⟩
  · refine ⟨hauthority, rfl, rfl, ?_, hdigest, .inl ?_⟩
    · unfold ObservationSnapshot.mark SourceFence.mark
      rw [hepoch, hincarnation]
    · unfold SourceFence.mark
      rw [Prod.Lex.toLex_lt_toLex, Prod.Lex.toLex_lt_toLex]
      exact .inr ⟨rfl, .inr ⟨rfl, hless⟩⟩
  · refine ⟨hauthority, rfl, rfl, ?_, hdigest.trans hcontent, .inr rfl⟩
    unfold ObservationSnapshot.mark SourceFence.mark
    rw [hepoch, hincarnation, hsame]

omit [DoubleChars] in
theorem Passes.advances {snapshot : ObservationSnapshot} {fence fence' : SourceFence}
    (h : Passes snapshot fence fence') : Advances fence fence' := by
  refine ⟨h.kept.ge, ?_, fun heq => ?_⟩
  · rcases h.moved with hless | rfl
    · exact hless.le
    · exact le_refl _
  · rcases h.moved with hless | rfl
    · exact absurd heq hless.ne
    · rfl

/-- A step moves every fence forward. -/
theorem advances_step (h : Fenced server) {source : SourceId} {fence : SourceFence}
    (hfence : server.fences.find? source = some fence) :
    ∃ fence', (server.step event).fences.find? source = some fence' ∧ Advances fence fence' := by
  have hfiled := (h.filed source fence hfence).2
  cases stepped server event with
  | quiet _ _ hfences => exact ⟨fence, by rw [hfences, hfence], .refl fence⟩
  | @greeted _ _ hello fence' _ _ _ _ haccepted hfences =>
    rw [hfences, OrdMap.find?_insert]
    split
    · rename_i heq
      rw [heq, hfence] at haccepted
      exact ⟨fence', rfl, advances_hello hfiled haccepted⟩
    · exact ⟨fence, hfence, .refl fence⟩
  | @passed _ _ snapshot fence' _ hdecoded _ _ hown hok hfences =>
    rw [hfences, OrdMap.find?_insert]
    split
    · rename_i heq
      subst heq
      obtain ⟨found, hfound, hbehind⟩ := h.behind _ hown
      rw [hfence] at hfound hok
      obtain rfl := Option.some.inj hfound
      have hsequence := sequence_of_decoded hdecoded
      exact ⟨fence', rfl, (passes_snapshot hfiled hbehind hsequence hok).advances⟩
    · exact ⟨fence, hfence, .refl fence⟩

theorem passes_step (h : Fenced server) {snapshot : ObservationSnapshot} (hpassed : server.passed event = some snapshot) :
    ∃ fence fence', server.fences.find? snapshot.source = some fence ∧
      (server.step event).fences.find? snapshot.source = some fence' ∧ Passes snapshot fence fence' := by
  cases stepped server event with
  | quiet _ hnone => rw [hnone] at hpassed; cases hpassed
  | greeted _ _ _ hnone => rw [hnone] at hpassed; cases hpassed
  | @passed _ _ snapshot' fence' _ hdecoded _ hsome hown hok hfences =>
    rw [hsome] at hpassed
    obtain rfl := Option.some.inj hpassed
    obtain ⟨fence, hfence, hbehind⟩ := h.behind _ hown
    dsimp only at hfence hbehind
    rw [hfence] at hok
    refine ⟨fence, fence', hfence, by rw [hfences, OrdMap.find?_insert_self], ?_⟩
    exact passes_snapshot (h.filed _ _ hfence).2 hbehind (sequence_of_decoded hdecoded) hok

theorem fenced_step (h : Fenced server) : Fenced (server.step event) := by
  have hbehind : ∀ claim, server.Held claim →
      ∃ fence, (server.step event).fences.find? claim.1 = some fence ∧ claim.2 ≤ fence.authority := by
    intro claim hheld
    obtain ⟨fence, hfence, hle⟩ := h.behind claim hheld
    obtain ⟨fence', hfence', hadvances⟩ := @advances_step _ server event h _ _ hfence
    exact ⟨fence', hfence', hle.trans hadvances.authority⟩
  cases stepped server event with
  | quiet _ _ hfences hheld =>
    refine ⟨fun source fence hfence => ?_, fun claim hclaim => hbehind claim (hheld claim hclaim)⟩
    rw [hfences] at hfence
    exact h.filed source fence hfence
  | @greeted _ _ hello fence' _ hdecoded _ _ haccepted hfences hheld =>
    obtain ⟨hsource, hepoch, hincarnation, -⟩ := fenceHello_accepted haccepted
    refine ⟨fun source fence hfence => ?_, fun claim hclaim => ?_⟩
    · rw [hfences, OrdMap.find?_insert] at hfence
      split at hfence
      · rename_i heq
        obtain rfl := Option.some.inj hfence
        rw [hsource]
        exact ⟨heq, source_of_decoded hdecoded⟩
      · exact h.filed source fence hfence
    · rcases hheld claim hclaim with hclaim | rfl
      · exact hbehind claim hclaim
      · refine ⟨fence', by rw [hfences, OrdMap.find?_insert_self], ?_⟩
        exact (Prod.ext hepoch hincarnation : fence'.authority = hello.authority).ge
  | @passed _ _ snapshot fence' _ _ _ hpassed _ _ hfences hheld =>
    refine ⟨fun source fence hfence => ?_, fun claim hclaim => hbehind claim (hheld claim hclaim)⟩
    obtain ⟨before, after, hbefore, hafter, hpasses⟩ := passes_step h hpassed
    by_cases heq : snapshot.source = source
    · rw [heq] at hbefore hafter
      rw [hafter] at hfence
      obtain rfl := Option.some.inj hfence
      rw [hpasses.filed]
      exact h.filed source before hbefore
    · rw [hfences, OrdMap.find?_insert_of_ne heq] at hfence
      exact h.filed source fence hfence

theorem fenced_exec {limits : RuntimeLimits} {observatory : Observatory} {events : List Event} :
    Fenced (Run.exec step (start limits observatory) events) :=
  Run.always (fun _ _ h => fenced_step h) fenced_start

/-! ### One content for each mark -/

/-- What has passed is not ahead of the fence and has its content where it has its mark. -/
structure Unique (server : ObservationServer) (out : List ObservationSnapshot) : Prop where
  fenced : Fenced server
  behind : ∀ snapshot ∈ out, ∃ fence, server.fences.find? snapshot.source = some fence ∧ snapshot.mark ≤ fence.mark ∧
    (snapshot.mark = fence.mark → snapshot.computeContentDigest = fence.contentDigest)
  unique : ∀ a ∈ out, ∀ b ∈ out, a.source = b.source → a.mark = b.mark → a.computeContentDigest = b.computeContentDigest

theorem behind_step {out : List ObservationSnapshot} (h : Unique server out) {snapshot : ObservationSnapshot}
    (hmem : snapshot ∈ out) : ∃ fence, (server.step event).fences.find? snapshot.source = some fence ∧
      snapshot.mark ≤ fence.mark ∧
        (snapshot.mark = fence.mark → snapshot.computeContentDigest = fence.contentDigest) := by
  obtain ⟨fence, hfence, hle, hcontent⟩ := h.behind snapshot hmem
  obtain ⟨fence', hfence', hadvances⟩ := @advances_step _ server event h.fenced _ _ hfence
  refine ⟨fence', hfence', hle.trans hadvances.mark, fun heq => ?_⟩
  -- The fence cannot have moved away from a mark that is still the one of the snapshot.
  have hsame : fence.mark = fence'.mark := le_antisymm hadvances.mark (heq ▸ hle)
  rw [hcontent (heq.trans hsame.symm), hadvances.content hsame]

theorem unique_step {out : List ObservationSnapshot} (h : Unique server out) :
    Unique (server.step event) (out ++ (server.passed event).toList) := by
  rcases hpassed : server.passed event with _ | snapshot
  · rw [Option.toList_none, List.append_nil]
    exact ⟨fenced_step h.fenced, fun other hother => behind_step h hother, h.unique⟩
  · obtain ⟨fence, fence', hfence, hfence', hpasses⟩ := passes_step h.fenced hpassed
    have hagree : ∀ other ∈ out, other.source = snapshot.source → other.mark = snapshot.mark →
        other.computeContentDigest = snapshot.computeContentDigest := by
      intro other hother hsource hmark
      obtain ⟨found, hfound, -, hcontent⟩ := @behind_step _ server event _ h _ hother
      rw [hsource, hfence'] at hfound
      obtain rfl := Option.some.inj hfound
      rw [hcontent (hmark.trans hpasses.mark), hpasses.content]
    rw [Option.toList_some]
    refine ⟨fenced_step h.fenced, fun other hother => ?_, fun a ha b hb hsource hmark => ?_⟩
    · rcases List.mem_append.mp hother with hother | hother
      · exact behind_step h hother
      · rw [List.mem_singleton.mp hother]
        exact ⟨fence', hfence', hpasses.mark.le, fun _ => hpasses.content⟩
    · rcases List.mem_append.mp ha with ha | ha <;> rcases List.mem_append.mp hb with hb | hb
      · exact h.unique a ha b hb hsource hmark
      · rw [List.mem_singleton] at hb
        rw [hb] at hsource hmark ⊢
        exact hagree a ha hsource hmark
      · rw [List.mem_singleton] at ha
        rw [ha] at hsource hmark ⊢
        exact (hagree b hb hsource.symm hmark.symm).symm
      · rw [List.mem_singleton.mp ha, List.mem_singleton.mp hb]

theorem unique_exec {limits : RuntimeLimits} {observatory : Observatory} {events : List Event} :
    Unique (Run.exec step (start limits observatory) events)
      (Run.outputs step passed (start limits observatory) events) := by
  have hstart : Unique (start limits observatory) [] :=
    ⟨fenced_start, fun _ h => absurd h List.not_mem_nil, fun _ h => absurd h List.not_mem_nil⟩
  have hstep : ∀ server event out, Unique server out → True →
      Unique (step server event) (out ++ (passed server event).toList) := fun _ _ _ h _ => unique_step h
  exact Run.invariant_outputs hstep hstart (Run.permits_of_mem fun _ _ _ => trivial)

theorem refused_below (h : Fenced server) {document : Except Status ObservationSnapshot}
    {snapshot : ObservationSnapshot} {fence : SourceFence} (hs : server.sessions[index]? = some session)
    (hreading : session.phase = .reading) (hhandshaken : session.context.handshaken = true)
    (hdecoded : checkObservationDocument server.limits document = .ok snapshot)
    (hfence : server.fences.find? snapshot.source = some fence) (hbelow : snapshot.mark < fence.mark) :
    ∃ ack stale, ack.accepted = false ∧
      server.step (.snapshot index document) = server.refuseSnapshot index session ack stale := by
  have hstep : server.step (.snapshot index document) = server.handleSnapshot index session document := by
    simp only [step, hs, hreading, requireHandshake, hhandshaken, if_true]
  rw [hstep]
  rcases handleSnapshot_cases server index session document with
    ⟨hrefused, -⟩ | ⟨passed, fence', ack, hdecoded', hsource, hauthority, hok, hpassed⟩
  · exact hrefused
  · exfalso
    rw [hdecoded] at hdecoded'
    obtain rfl := Except.ok.inj hdecoded'
    have hown : (snapshot.source, snapshot.authority) ∈ session.holds := by
      unfold Session.holds
      rw [hhandshaken, hsource, hauthority]
      exact List.mem_append_left _ (List.mem_singleton_self _)
    obtain ⟨found, hfound, hbehind⟩ := h.behind _ ⟨session, List.mem_of_getElem? hs, hown⟩
    dsimp only at hfound hbehind
    rw [hfence] at hfound hok
    obtain rfl := Option.some.inj hfound
    have hpasses := passes_snapshot (h.filed _ _ hfence).2 hbehind (sequence_of_decoded hdecoded) hok
    rw [hpasses.mark] at hbelow
    exact absurd hpasses.advances.mark (not_le.mpr hbelow)

/-- Over every run of a server, the mark of every source moves forward, a snapshot below it is refused, and no mark is
    given to two contents. -/
theorem fences_monotone_unique (limits : RuntimeLimits) (observatory : Observatory) (events : List Event) :
    let server := Run.exec step (start limits observatory) events
    (∀ event source fence, server.fences.find? source = some fence →
      ∃ fence', (server.step event).fences.find? source = some fence' ∧ fence.mark ≤ fence'.mark) ∧
    (∀ index session document snapshot fence, server.sessions[index]? = some session → session.phase = .reading →
      session.context.handshaken = true → checkObservationDocument server.limits document = .ok snapshot →
      server.fences.find? snapshot.source = some fence → snapshot.mark < fence.mark →
      ∃ ack stale, ack.accepted = false ∧
        server.step (.snapshot index document) = server.refuseSnapshot index session ack stale) ∧
    (∀ a ∈ Run.outputs step passed (start limits observatory) events,
      ∀ b ∈ Run.outputs step passed (start limits observatory) events,
        a.source = b.source → a.mark = b.mark → a.computeContentDigest = b.computeContentDigest) := by
  refine ⟨fun event source fence hfence => ?_, ?_, unique_exec.unique⟩
  · obtain ⟨fence', hfence', hadvances⟩ := advances_step fenced_exec hfence
    exact ⟨fence', hfence', hadvances.mark⟩
  · intro index session document snapshot fence hs hreading hhandshaken hdecoded hfence hbelow
    exact refused_below fenced_exec hs hreading hhandshaken hdecoded hfence hbelow

end ObservationServer

namespace Sample
open ObservationServer

/-- A greeting of the source. -/
def greet (incarnation : UInt64) : Except Status HelloPayload :=
  .ok { source := ⟨ascii "a"⟩, epoch := ⟨1⟩, incarnation := ⟨incarnation⟩ }

/-- An observation of nothing by the source. -/
def report (incarnation sequence : UInt64) : ObservationSnapshot :=
  let s := { snapshot "a" { id := object, presence := .present, fields := ∅ } with
    incarnation := ⟨incarnation⟩, sequence := ⟨sequence⟩, objects := ∅ }
  { s with snapshotId := s.computeSnapshotId }

/-- The server of an observatory that admits any source. -/
def listening : ObservationServer :=
  start {} (.make { epoch := ⟨1⟩, incarnation := ⟨1⟩, requireStarted := false, requireRegisteredSources := false })

/-- A session publishes an observation and repeats it. -/
def repeated : List Event :=
  [.connect, .hello 0 (greet 1), .register 0 ⟨1⟩ true, .snapshot 0 (.ok (report 1 1)), .ingest 0 ⟨2⟩ true,
    .snapshot 0 (.ok (report 1 1))]

/-- What the fence has let through in a run of the sample server. -/
def throughFence (events : List Event) : List ObservationSnapshot :=
  Run.outputs (@step noDoubles) (@passed noDoubles) listening events

end Sample

theorem ObservationServer.fences_monotone_unique_repeated :
    (Sample.throughFence Sample.repeated).map (·.sequence) = [⟨1⟩, ⟨1⟩] ∧
      ∀ a ∈ Sample.throughFence Sample.repeated, ∀ b ∈ Sample.throughFence Sample.repeated,
        a.source = b.source → a.mark = b.mark → a.computeContentDigest = b.computeContentDigest :=
  ⟨by decide +kernel, (@ObservationServer.fences_monotone_unique Sample.noDoubles _ _ Sample.repeated).2.2⟩

end DriftObservatory
