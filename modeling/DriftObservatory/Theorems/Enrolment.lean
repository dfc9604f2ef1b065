import DriftObservatory.Theorems.Refusal
import Mathlib.Data.Finset.Card

/-! The fences and the registry of sources. A greeting files a fence before the registration that decides whether there is
    room for its source. -/

namespace DriftObservatory

namespace ObservationServer

/-- The sources that have a fence or are registered. -/
def enrolled (server : ObservationServer) : Finset SourceId :=
  (server.observatory.sources.keys ++ server.fences.keys).toFinset

def maxSources (server : ObservationServer) : Nat := server.observatory.config.limits.maxSources

/-- Some session is between the fence and the registration of the greeting. -/
def Greeted (server : ObservationServer) (hello : HelloPayload) : Prop :=
  ∃ index ack, server.phase index = some (.greeted hello ack)

/-- A greeting that reaches the fences is of an enrolled source, or finds room for one more. -/
def HasRoom (server : ObservationServer) (event : Event) : Prop :=
  ∀ index document hello, event = .hello index document → server.phase index = some .reading →
    decodeHello document = .ok hello → hello.source ∈ server.enrolled ∨ server.enrolled.card < server.maxSources

/-- The table of the fences is within the envelope, and every fence is of a registered source, or of one whose greeting is
    still being handled. -/
structure WithinEnvelope (server : ObservationServer) : Prop where
  size : server.fences.size ≤ server.maxSources
  registered : ∀ source, server.fences.contains source = true →
    server.observatory.sources.contains source = true ∨ ∃ hello, server.Greeted hello ∧ hello.source = source

variable {server server' : ObservationServer} {event : Event} {index : Nat} {session session' : Session}
  {source : SourceId}

theorem mem_enrolled : source ∈ server.enrolled ↔
    server.observatory.sources.contains source = true ∨ server.fences.contains source = true := by
  rw [enrolled, List.mem_toFinset, List.mem_append, OrdMap.mem_keys, OrdMap.mem_keys]

theorem size_fences_le : server.fences.size ≤ server.enrolled.card := by
  rw [OrdMap.size_eq_card]
  refine Finset.card_le_card fun source h => ?_
  rw [List.mem_toFinset, OrdMap.mem_keys] at h
  exact mem_enrolled.mpr (.inr h)

/-! ### What a step does to the registry and to the greetings -/

/-- A step leaves the registry as it is, or it registers the source of a greeting. -/
inductive Enrols [DoubleChars] (server : ObservationServer) (event : Event) : Prop
  | kept (hsources : (server.step event).observatory.sources = server.observatory.sources)
      (hmax : (server.step event).maxSources = server.maxSources)
      (hleft : ∀ hello, server.Greeted hello → (server.step event).Greeted hello)
      (hnew : ∀ hello, (server.step event).Greeted hello →
        server.Greeted hello ∨ ∃ document, decodeHello document = .ok hello)
  | registered {hello : HelloPayload} {now : NdoTime} (hgreeted : server.Greeted hello)
      (hobservatory : (server.step event).observatory = (server.observatory.registerSource (hello.descriptor now)).2)
      (hleft : ∀ other, server.Greeted other → other = hello ∨ (server.step event).Greeted other)
      (hnew : ∀ other, (server.step event).Greeted other → server.Greeted other)

theorem phase_set_of_ne {other : Nat} (hset : server'.sessions = server.sessions.set index session') (hne : other ≠ index) :
    server'.phase other = server.phase other := by
  rw [phase, phase, hset, List.getElem?_set_ne hne.symm]

theorem phase_of_session (hs : server.sessions[index]? = some session) : server.phase index = some session.phase := by
  rw [phase, hs]
  rfl

section Steps
variable [DoubleChars]

theorem enrols_of_same (h : server.step event = server) : Enrols server event :=
  .kept (by rw [h]) (by rw [h]) (by rw [h]; exact fun _ => id) (by rw [h]; exact fun _ => .inl)

/-- A session that was not handling a greeting goes on, with a decoded greeting at most. -/
theorem enrols_of_set (hs : server.sessions[index]? = some session)
    (hset : (server.step event).sessions = server.sessions.set index session')
    (hsources : (server.step event).observatory.sources = server.observatory.sources)
    (hconfig : (server.step event).observatory.config = server.observatory.config)
    (hidle : ∀ hello ack, session.phase ≠ .greeted hello ack)
    (hnew : ∀ hello ack, session'.phase = .greeted hello ack → ∃ document, decodeHello document = .ok hello) :
    Enrols server event := by
  refine .kept hsources (by rw [maxSources, hconfig]; rfl) ?_ ?_
  · rintro hello ⟨other, ack, hphase⟩
    have hne : other ≠ index := by
      rintro rfl
      rw [phase_of_session hs] at hphase
      exact hidle hello ack (Option.some.inj hphase)
    exact ⟨other, ack, (phase_set_of_ne hset hne).trans hphase⟩
  · rintro hello ⟨other, ack, hphase⟩
    by_cases heq : other = index
    · subst heq
      rw [phase_set hs hset] at hphase
      exact .inr (hnew hello ack (Option.some.inj hphase))
    · exact .inl ⟨other, ack, (phase_set_of_ne hset heq).symm.trans hphase⟩

theorem enrols_connect : Enrols server .connect := by
  have hstep : server.step .connect = server.connect := rfl
  have hcases : (server.connect.sessions = server.sessions ∨
      server.connect.sessions = server.sessions ++ [{ context := { sessionId := server.sessions.length + 1 } }]) ∧
        server.connect.observatory = server.observatory := by
    unfold connect
    dsimp only
    split_ifs
    · exact ⟨.inl rfl, rfl⟩
    · exact ⟨.inr rfl, rfl⟩
  obtain ⟨hsessions, hobservatory⟩ := hcases
  refine .kept (by rw [hstep, hobservatory]) (by rw [hstep, maxSources, hobservatory]; rfl) ?_ ?_
  · rintro hello ⟨index, ack, hphase⟩
    refine ⟨index, ack, ?_⟩
    rcases hsessions with hsessions | hsessions
    · rw [hstep, phase, hsessions]
      exact hphase
    · obtain ⟨session, hs, hgreeted⟩ := Option.map_eq_some_iff.mp hphase
      rw [hstep, phase, hsessions, List.getElem?_append_left (List.getElem?_eq_some_iff.mp hs).1, hs, Option.map_some, hgreeted]
  · rintro hello ⟨index, ack, hphase⟩
    refine .inl ⟨index, ack, ?_⟩
    rcases hsessions with hsessions | hsessions
    · rw [hstep, phase, hsessions] at hphase
      exact hphase
    · rw [hstep, phase, hsessions] at hphase
      obtain ⟨session, hs, hgreeted⟩ := Option.map_eq_some_iff.mp hphase
      by_cases hlt : index < server.sessions.length
      · rw [List.getElem?_append_left hlt] at hs
        rw [phase, hs, Option.map_some, hgreeted]
      · rw [List.getElem?_append_right (Nat.le_of_not_lt hlt)] at hs
        rw [List.mem_singleton.mp (List.mem_of_getElem? hs)] at hgreeted
        cases hgreeted

theorem enrols_hello {document : Except Status HelloPayload} (hs : server.sessions[index]? = some session)
    (hreading : session.phase = .reading) : Enrols server (.hello index document) := by
  have hstep : server.step (.hello index document) = server.handleHello index session document := by
    simp only [step, hs, hreading]
  have hidle : ∀ hello ack, session.phase ≠ .greeted hello ack := by
    rw [hreading]
    exact fun _ _ h => (by cases h)
  have hset : ∃ session', (server.handleHello index session document).sessions = server.sessions.set index session' ∧
      (server.handleHello index session document).observatory = server.observatory ∧
      ∀ hello ack, session'.phase = .greeted hello ack → ∃ document, decodeHello document = .ok hello := by
    rcases hdecoded : decodeHello document with status | hello
    · simp only [handleHello, hdecoded]
      exact ⟨_, rfl, rfl, fun _ _ h => (by cases h)⟩
    · rcases hfence : fenceHello (server.fences.find? hello.source) hello with fence | ⟨reason, detail, counted⟩
      · simp only [handleHello, hdecoded, hfence]
        refine ⟨_, rfl, rfl, fun other ack h => ⟨document, ?_⟩⟩
        obtain ⟨rfl, -⟩ := SessionPhase.greeted.inj h
        exact hdecoded
      · simp only [handleHello, hdecoded, hfence]
        exact ⟨_, rfl, rfl, fun _ _ h => (by cases h)⟩
  obtain ⟨session', hset, hobservatory, hnew⟩ := hset
  exact enrols_of_set hs (by rw [hstep, hset]) (by rw [hstep, hobservatory]) (by rw [hstep, hobservatory]) hidle hnew

theorem enrols_register {now : NdoTime} {sent : Bool} {hello : HelloPayload} {ack : HelloAckPayload}
    (hs : server.sessions[index]? = some session) (hgreeted : session.phase = .greeted hello ack) :
    Enrols server (.register index now sent) := by
  have hstep : server.step (.register index now sent) = server.registerGreeted index session hello ack now sent := by
    simp only [step, hs, hgreeted]
  have hset : ∃ session', (server.registerGreeted index session hello ack now sent).sessions =
        server.sessions.set index session' ∧ (∀ hello ack, session'.phase ≠ .greeted hello ack) ∧
      (server.registerGreeted index session hello ack now sent).observatory =
        (server.observatory.registerSource (hello.descriptor now)).2 := by
    unfold registerGreeted
    dsimp only
    split_ifs <;> exact ⟨_, rfl, fun _ _ h => (by cases h), rfl⟩
  obtain ⟨session', hset, hidle, hobservatory⟩ := hset
  rw [← hstep] at hset hobservatory
  refine .registered ⟨index, ack, by rw [phase_of_session hs, hgreeted]⟩ hobservatory ?_ ?_
  · rintro other ⟨at', ack', hphase⟩
    by_cases heq : at' = index
    · subst heq
      rw [phase_of_session hs, hgreeted] at hphase
      obtain ⟨rfl, -⟩ := SessionPhase.greeted.inj (Option.some.inj hphase)
      exact .inl rfl
    · exact .inr ⟨at', ack', (phase_set_of_ne hset heq).trans hphase⟩
  · rintro other ⟨at', ack', hphase⟩
    have hne : at' ≠ index := by
      rintro rfl
      rw [phase_set hs hset] at hphase
      exact hidle other ack' (Option.some.inj hphase)
    exact ⟨at', ack', (phase_set_of_ne hset hne).symm.trans hphase⟩

theorem enrols_requireHandshake {handled : ObservationServer} (hs : server.sessions[index]? = some session)
    (hreading : session.phase = .reading) (hstep : server.step event = server.requireHandshake index session handled)
    (hset : ∃ session', handled.sessions = server.sessions.set index session' ∧
      ∀ hello ack, session'.phase ≠ .greeted hello ack)
    (hsources : handled.observatory.sources = server.observatory.sources)
    (hconfig : handled.observatory.config = server.observatory.config) : Enrols server event := by
  have hidle : ∀ hello ack, session.phase ≠ .greeted hello ack := by
    rw [hreading]
    exact fun _ _ h => (by cases h)
  unfold requireHandshake at hstep
  split_ifs at hstep
  · obtain ⟨session', hset, hquiet⟩ := hset
    exact enrols_of_set hs (by rw [hstep, hset]) (by rw [hstep, hsources]) (by rw [hstep, hconfig]) hidle
      fun hello ack h => absurd h (hquiet hello ack)
  · exact enrols_of_set hs (by rw [hstep]; rfl) (by rw [hstep]; rfl) (by rw [hstep]; rfl) hidle fun _ _ h => (by cases h)

theorem enrols_snapshot {document : Except Status ObservationSnapshot} (hs : server.sessions[index]? = some session)
    (hreading : session.phase = .reading) : Enrols server (.snapshot index document) := by
  have hstep : server.step (.snapshot index document) =
      server.requireHandshake index session (server.handleSnapshot index session document) := by
    simp only [step, hs, hreading]
  rcases server.handleSnapshot_cases index session document with
    ⟨⟨ack, stale, -, hrefused⟩, -⟩ | ⟨snapshot, fence, ack, -, -, -, -, hpassed⟩
  · refine enrols_requireHandshake hs hreading hstep ⟨session.reply (.snapshotAck ack), by rw [hrefused]; rfl, ?_⟩
      (by rw [hrefused]; rfl) (by rw [hrefused]; rfl)
    intro hello ack' h
    have hphase : (session.reply (.snapshotAck ack)).phase = session.phase := rfl
    rw [hphase, hreading] at h
    cases h
  · exact enrols_requireHandshake hs hreading hstep
      ⟨{ session with phase := .fenced snapshot ack }, by rw [hpassed]; rfl, fun _ _ h => (by cases h)⟩
      (by rw [hpassed]; rfl) (by rw [hpassed]; rfl)

omit [DoubleChars] in
theorem sources_ingestObservation {o : Observatory} {snapshot : ObservationSnapshot} {now : NdoTime} :
    (o.ingestObservation snapshot now).2.1.sources = o.sources ∧ (o.ingestObservation snapshot now).2.1.config = o.config := by
  unfold Observatory.ingestObservation
  dsimp only
  split_ifs <;> exact ⟨rfl, rfl⟩

theorem sources_publishIntent {o : Observatory} {document : IntentGenerationDocument} {now : NdoTime} :
    (o.publishIntent document now).2.1.sources = o.sources ∧ (o.publishIntent document now).2.1.config = o.config := by
  unfold Observatory.publishIntent
  dsimp only
  split_ifs <;> exact ⟨rfl, rfl⟩

theorem enrols_ingest {now : NdoTime} {sent : Bool} {snapshot : ObservationSnapshot} {ack : AckPayload}
    (hs : server.sessions[index]? = some session) (hfenced : session.phase = .fenced snapshot ack) :
    Enrols server (.ingest index now sent) := by
  have hstep : server.step (.ingest index now sent) = server.ingestFenced index session snapshot ack now sent := by
    simp only [step, hs, hfenced]
  have hset : ∃ session', (server.ingestFenced index session snapshot ack now sent).sessions =
        server.sessions.set index session' ∧ (∀ hello ack, session'.phase ≠ .greeted hello ack) ∧
      (server.ingestFenced index session snapshot ack now sent).observatory =
        (server.observatory.ingestObservation snapshot now).2.1 := by
    unfold ingestFenced
    dsimp only
    split_ifs <;> exact ⟨_, rfl, fun _ _ h => (by cases h), rfl⟩
  obtain ⟨session', hset, hquiet, hobservatory⟩ := hset
  obtain ⟨hsources, hconfig⟩ := @sources_ingestObservation server.observatory snapshot now
  refine enrols_of_set hs (by rw [hstep, hset]) (by rw [hstep, hobservatory, hsources])
    (by rw [hstep, hobservatory, hconfig]) ?_ fun hello ack h => absurd h (hquiet hello ack)
  rw [hfenced]
  exact fun _ _ h => (by cases h)

theorem enrols_intent {document : Except Status IntentGenerationDocument} {now : NdoTime}
    (hs : server.sessions[index]? = some session) (hreading : session.phase = .reading) :
    Enrols server (.intent index document now) := by
  have hstep : server.step (.intent index document now) =
      server.requireHandshake index session (server.handleIntent index session document now) := by
    simp only [step, hs, hreading]
  have hreply : ∀ reply hello ack, (session.reply reply).phase ≠ .greeted hello ack := by
    intro reply hello ack h
    have hphase : (session.reply reply).phase = session.phase := rfl
    rw [hphase, hreading] at h
    cases h
  rcases document with status | intent
  · exact enrols_requireHandshake hs hreading hstep ⟨_, rfl, hreply _⟩ rfl rfl
  · obtain ⟨hsources, hconfig⟩ := @sources_publishIntent _ server.observatory intent now
    exact enrols_requireHandshake hs hreading hstep ⟨_, rfl, hreply _⟩ hsources hconfig

theorem enrols (server : ObservationServer) (event : Event) : Enrols server event := by
  cases event with
  | connect => exact enrols_connect
  | hello index document =>
    rcases hs : server.sessions[index]? with _ | session
    · exact enrols_of_same (by simp only [step, hs])
    · cases hphase : session.phase
      case reading => exact enrols_hello hs hphase
      all_goals exact enrols_of_same (by simp only [step, hs, hphase])
  | register index now sent =>
    rcases hs : server.sessions[index]? with _ | session
    · exact enrols_of_same (by simp only [step, hs])
    · cases hphase : session.phase
      case greeted => exact enrols_register hs hphase
      all_goals exact enrols_of_same (by simp only [step, hs, hphase])
  | snapshot index document =>
    rcases hs : server.sessions[index]? with _ | session
    · exact enrols_of_same (by simp only [step, hs])
    · cases hphase : session.phase
      case reading => exact enrols_snapshot hs hphase
      all_goals exact enrols_of_same (by simp only [step, hs, hphase])
  | ingest index now sent =>
    rcases hs : server.sessions[index]? with _ | session
    · exact enrols_of_same (by simp only [step, hs])
    · cases hphase : session.phase
      case fenced => exact enrols_ingest hs hphase
      all_goals exact enrols_of_same (by simp only [step, hs, hphase])
  | intent index document now =>
    rcases hs : server.sessions[index]? with _ | session
    · exact enrols_of_same (by simp only [step, hs])
    · cases hphase : session.phase
      case reading => exact enrols_intent hs hphase
      all_goals exact enrols_of_same (by simp only [step, hs, hphase])
  | bye index =>
    rcases hs : server.sessions[index]? with _ | session
    · exact enrols_of_same (by simp only [step, hs])
    · cases hphase : session.phase
      case reading =>
        have hstep : server.step (.bye index) = server.update index session.close := by simp only [step, hs, hphase]
        refine enrols_of_set hs (by rw [hstep]; rfl) (by rw [hstep]; rfl) (by rw [hstep]; rfl) ?_ fun _ _ h => (by cases h)
        rw [hphase]
        exact fun _ _ h => (by cases h)
      all_goals exact enrols_of_same (by simp only [step, hs, hphase])

/-! ### The registration of a greeted source -/

omit [DoubleChars] in
theorem registerSource_cases {o : Observatory} {descriptor : SourceDescriptor} :
    (o.registerSource descriptor).2 = o ∨
      (o.registerSource descriptor).2 = { o with sources := o.sources.insert descriptor.id descriptor } := by
  unfold Observatory.registerSource
  dsimp only
  cases o.sources.find? descriptor.id with
  | some existing =>
    dsimp only
    split_ifs
    · exact .inl rfl
    · exact .inl rfl
    · exact .inl rfl
    · exact .inr rfl
  | none =>
    dsimp only
    split_ifs
    · exact .inl rfl
    · exact .inl rfl
    · exact .inl rfl
    · exact .inr rfl

omit [DoubleChars] in
/-- Where there is room, the source of a greeting is registered afterwards. -/
theorem contains_registerSource {o : Observatory} {document : Except Status HelloPayload} {hello : HelloPayload}
    {now : NdoTime} (hdecoded : decodeHello document = .ok hello)
    (hroom : o.sources.contains hello.source = true ∨ o.sources.size < o.config.limits.maxSources) :
    (o.registerSource (hello.descriptor now)).2.sources.contains hello.source = true := by
  obtain ⟨hid, hepoch, hincarnation⟩ := decodeHello_ok hdecoded
  have hnonempty : hello.source.empty = false := source_of_decoded hdecoded
  unfold Observatory.registerSource HelloPayload.descriptor
  dsimp only
  simp only [hnonempty, hid, hincarnation, hepoch, Bool.not_true, Bool.or_false, Bool.false_eq_true, if_false]
  cases hfound : o.sources.find? hello.source with
  | some existing =>
    dsimp only
    split_ifs
    · exact OrdMap.contains_iff.mpr ⟨existing, hfound⟩
    · exact OrdMap.contains_insert.mpr (.inl rfl)
  | none =>
    dsimp only
    rw [OrdMap.contains_eq_false_iff.mpr hfound] at hroom
    rw [if_neg (not_le.mpr (hroom.resolve_left Bool.false_ne_true))]
    exact OrdMap.contains_insert.mpr (.inl rfl)

/-! ### The envelope over a run -/

/-- The enrolled sources are within the envelope, and every fence is registered or about to be. -/
structure Enrolled (server : ObservationServer) : Prop where
  fenced : Fenced server
  room : server.enrolled.card ≤ server.maxSources
  settled : ∀ source, server.fences.contains source = true →
    server.observatory.sources.contains source = true ∨ ∃ hello, server.Greeted hello ∧ hello.source = source
  decoded : ∀ hello, server.Greeted hello → ∃ document, decodeHello document = .ok hello

omit [DoubleChars] in
theorem Enrolled.within (h : Enrolled server) : WithinEnvelope server := ⟨size_fences_le.trans h.room, h.settled⟩

omit [DoubleChars] in
theorem Fenced.greeted (h : Fenced server) {hello : HelloPayload} (hgreeted : server.Greeted hello) :
    server.fences.contains hello.source = true := by
  obtain ⟨index, ack, hphase⟩ := hgreeted
  obtain ⟨session, hs, hphase⟩ := Option.map_eq_some_iff.mp hphase
  have hheld : server.Held (hello.source, hello.authority) := by
    refine ⟨session, List.mem_of_getElem? hs, List.mem_append_right _ ?_⟩
    rw [hphase]
    exact List.mem_singleton_self _
  obtain ⟨fence, hfence, -⟩ := h.behind _ hheld
  exact OrdMap.contains_iff.mpr ⟨fence, hfence⟩

/-- A greeting that the fence accepts was read and decoded, and waits for its registration. -/
theorem greeting_spec {hello : HelloPayload} (h : server.greeting event = some hello) :
    (server.step event).Greeted hello ∧
      ∃ index document, event = .hello index document ∧ server.phase index = some .reading ∧
        decodeHello document = .ok hello := by
  cases stepped server event with
  | quiet hnone => cases hnone.symm.trans h
  | passed _ _ hnone => cases hnone.symm.trans h
  | @greeted index document hello' _ hevent hdecoded hgreeting =>
    obtain rfl := Option.some.inj (hgreeting.symm.trans h)
    subst hevent
    unfold greeting at h
    dsimp only at h
    split at h
    · rename_i ack hbefore hafter
      obtain rfl := Option.some.inj h
      exact ⟨⟨index, ack, hafter⟩, index, document, rfl, hbefore, hdecoded⟩
    · cases h

theorem contains_fences_step (h : Fenced server) (hfence : (server.step event).fences.contains source = true) :
    server.fences.contains source = true ∨ ∃ hello, server.greeting event = some hello ∧ hello.source = source := by
  cases stepped server event with
  | quiet _ _ hfences => exact .inl (hfences ▸ hfence)
  | @greeted _ _ hello _ _ _ hgreeting _ _ hfences =>
    rw [hfences] at hfence
    rcases OrdMap.contains_insert.mp hfence with heq | hfence
    · exact .inr ⟨hello, hgreeting, heq⟩
    · exact .inl hfence
  | passed _ _ _ _ hown _ hfences =>
    rw [hfences] at hfence
    rcases OrdMap.contains_insert.mp hfence with rfl | hfence
    · obtain ⟨fence, hfound, -⟩ := h.behind _ hown
      exact .inl (OrdMap.contains_iff.mpr ⟨fence, hfound⟩)
    · exact .inl hfence

theorem maxSources_step : (server.step event).maxSources = server.maxSources := by
  cases enrols server event with
  | kept _ hmax => exact hmax
  | registered _ hobservatory =>
    rw [maxSources, hobservatory]
    rcases registerSource_cases with hsame | hsame <;> rw [hsame] <;> rfl

/-- Registrations do not enrol: a greeted source has its fence. -/
theorem mem_enrolled_step (h : Fenced server) (hmem : source ∈ (server.step event).enrolled) :
    source ∈ server.enrolled ∨ ∃ hello, server.greeting event = some hello ∧ hello.source = source := by
  rcases mem_enrolled.mp hmem with hregistered | hfence
  · refine .inl ?_
    cases enrols server event with
    | kept hsources => exact mem_enrolled.mpr (.inl (hsources ▸ hregistered))
    | @registered hello now hgreeted hobservatory =>
      rw [hobservatory] at hregistered
      rcases @registerSource_cases server.observatory (hello.descriptor now) with hsame | hsame
      · rw [hsame] at hregistered
        exact mem_enrolled.mpr (.inl hregistered)
      · rw [hsame] at hregistered
        rcases OrdMap.contains_insert.mp hregistered with rfl | hregistered
        · exact mem_enrolled.mpr (.inr (h.greeted hgreeted))
        · exact mem_enrolled.mpr (.inl hregistered)
  · rcases contains_fences_step h hfence with hfence | hgreeting
    · exact .inl (mem_enrolled.mpr (.inr hfence))
    · exact .inr hgreeting

theorem contains_sources_step (h : server.observatory.sources.contains source = true) :
    (server.step event).observatory.sources.contains source = true := by
  cases enrols server event with
  | kept hsources => exact hsources ▸ h
  | @registered hello now _ hobservatory =>
    rw [hobservatory]
    rcases @registerSource_cases server.observatory (hello.descriptor now) with hsame | hsame
    · rw [hsame]
      exact h
    · rw [hsame]
      exact OrdMap.contains_insert.mpr (.inr h)

theorem room_step (h : Enrolled server) (hroom : server.HasRoom event) :
    (server.step event).enrolled.card ≤ (server.step event).maxSources := by
  rw [maxSources_step]
  by_cases hnew : (server.step event).enrolled ⊆ server.enrolled
  · exact (Finset.card_le_card hnew).trans h.room
  · obtain ⟨source, hmem, hout⟩ := Finset.not_subset.mp hnew
    obtain ⟨hello, hgreeting, rfl⟩ := (mem_enrolled_step h.fenced hmem).resolve_left hout
    have hsubset : (server.step event).enrolled ⊆ insert hello.source server.enrolled := by
      intro other hother
      rcases mem_enrolled_step h.fenced hother with hold | ⟨hello', hgreeting', rfl⟩
      · exact Finset.mem_insert_of_mem hold
      · obtain rfl := Option.some.inj (hgreeting'.symm.trans hgreeting)
        exact Finset.mem_insert_self _ _
    obtain ⟨-, index, document, hevent, hreading, hdecoded⟩ := greeting_spec hgreeting
    have hless := (hroom index document hello hevent hreading hdecoded).resolve_left hout
    calc (server.step event).enrolled.card
        ≤ (insert hello.source server.enrolled).card := Finset.card_le_card hsubset
      _ ≤ server.enrolled.card + 1 := Finset.card_insert_le _ _
      _ ≤ server.maxSources := hless

omit [DoubleChars] in
/-- Among the enrolled sources there is room for a greeted one. -/
theorem Enrolled.registers (h : Enrolled server) {hello : HelloPayload} (hgreeted : server.Greeted hello) :
    server.observatory.sources.contains hello.source = true ∨ server.observatory.sources.size < server.maxSources := by
  by_cases hregistered : server.observatory.sources.contains hello.source = true
  · exact .inl hregistered
  · refine .inr (lt_of_lt_of_le ?_ h.room)
    rw [OrdMap.size_eq_card]
    refine Finset.card_lt_card (Finset.ssubset_iff_subset_ne.mpr ⟨fun source hmem => ?_, fun heq => hregistered ?_⟩)
    · rw [List.mem_toFinset, OrdMap.mem_keys] at hmem
      exact mem_enrolled.mpr (.inl hmem)
    · have hmem : hello.source ∈ server.enrolled := mem_enrolled.mpr (.inr (h.fenced.greeted hgreeted))
      rwa [← heq, List.mem_toFinset, OrdMap.mem_keys] at hmem

theorem enrolled_step (h : Enrolled server) (hroom : server.HasRoom event) : Enrolled (server.step event) where
  fenced := fenced_step h.fenced
  room := room_step h hroom
  settled := by
    intro source hfence
    rcases contains_fences_step h.fenced hfence with hfence | ⟨hello, hgreeting, hsource⟩
    · rcases h.settled source hfence with hregistered | ⟨hello, hgreeted, rfl⟩
      · exact .inl (contains_sources_step hregistered)
      · cases enrols server event with
        | kept _ _ hleft => exact .inr ⟨hello, hleft hello hgreeted, rfl⟩
        | registered _ hobservatory hleft =>
          rcases hleft hello hgreeted with rfl | hleft
          · obtain ⟨document, hdecoded⟩ := h.decoded _ hgreeted
            rw [hobservatory]
            exact .inl (contains_registerSource hdecoded (h.registers hgreeted))
          · exact .inr ⟨hello, hleft, rfl⟩
    · exact .inr ⟨hello, (greeting_spec hgreeting).1, hsource⟩
  decoded := by
    intro hello hgreeted
    cases enrols server event with
    | kept _ _ _ hnew => exact (hnew hello hgreeted).elim (h.decoded hello) id
    | registered _ _ _ hnew => exact h.decoded hello (hnew hello hgreeted)

omit [DoubleChars] in
theorem enrolled_start {limits : RuntimeLimits} {observatory : Observatory}
    (h : observatory.sources.size ≤ observatory.config.limits.maxSources) : Enrolled (start limits observatory) where
  fenced := fenced_start
  room := by
    have henrolled : (start limits observatory).enrolled = observatory.sources.keys.toFinset := by
      rw [enrolled, List.toFinset_append]
      exact Finset.union_empty _
    rw [henrolled, ← OrdMap.size_eq_card]
    exact h
  settled := fun _ hfence => (by cases hfence)
  decoded := fun _ hgreeted => (by obtain ⟨_, _, hphase⟩ := hgreeted; cases hphase)

end Steps

/-- Over every run whose greetings are of enrolled sources or find room for one more, the fences stay within the envelope. -/
theorem fence_envelope [DoubleChars] {limits : RuntimeLimits} {observatory : Observatory} {events : List Event}
    (hstart : observatory.sources.size ≤ observatory.config.limits.maxSources)
    (hroom : Run.Permits step HasRoom (start limits observatory) events) :
    ∀ front rest, events = front ++ rest → WithinEnvelope (Run.exec step (start limits observatory) front) := by
  rintro front rest rfl
  exact (Run.invariant (fun _ _ h hroom => enrolled_step h hroom) (enrolled_start hstart)
    (Run.permits_append.mp hroom).1).within

end ObservationServer

namespace Sample
open ObservationServer

/-- The server of an observatory that has room for one source. -/
def narrowServer : ObservationServer :=
  start {} (.make { epoch := ⟨1⟩, incarnation := ⟨1⟩, limits := { maxSources := 1 } })

/-- Two sources greet one after the other. -/
def introduced : List Event :=
  [.connect, .hello 0 (.ok { source := ⟨ascii "a"⟩, epoch := ⟨1⟩, incarnation := ⟨1⟩ }), .register 0 ⟨1⟩ true,
    .connect, .hello 1 (.ok { source := ⟨ascii "b"⟩, epoch := ⟨1⟩, incarnation := ⟨1⟩ }), .register 1 ⟨2⟩ true]

end Sample

open ObservationServer in
theorem ObservationServer.fence_envelope_listening :
    WithinEnvelope (Run.exec (@step Sample.noDoubles) Sample.listening Sample.repeated) := by
  refine @ObservationServer.fence_envelope Sample.noDoubles {} _ Sample.repeated (by decide) ?_ Sample.repeated []
    (List.append_nil _).symm
  have hquiet : ∀ (server : ObservationServer) (event : Event), (∀ index document, event ≠ .hello index document) →
      server.HasRoom event := fun _ _ hevent index document _ heq => absurd heq (hevent index document)
  refine ⟨hquiet _ _ fun _ _ h => (by cases h), ?_, hquiet _ _ fun _ _ h => (by cases h),
    hquiet _ _ fun _ _ h => (by cases h), hquiet _ _ fun _ _ h => (by cases h), hquiet _ _ fun _ _ h => (by cases h), trivial⟩
  intro index document hello _ _ _
  exact .inr (by decide)

open ObservationServer in
/-- The second source is refused for want of room, and its fence stays. -/
theorem ObservationServer.fence_envelope_introduced :
    ¬ WithinEnvelope (Run.exec (@step Sample.noDoubles) Sample.narrowServer Sample.introduced) := by
  intro h
  have hsize : (Run.exec (@step Sample.noDoubles) Sample.narrowServer Sample.introduced).fences.size = 2 := by decide +kernel
  have hbound := h.size
  rw [hsize] at hbound
  exact absurd hbound (by decide +kernel)

end DriftObservatory
