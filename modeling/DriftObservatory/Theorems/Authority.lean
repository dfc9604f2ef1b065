import DriftObservatory.Theorems.Fencing
import DriftObservatory.Theorems.Staleness

/-! The fences of the observation server and what reaches the ledger. The fence of a source and the ledger are behind
    different mutexes, so a snapshot that has passed the fence may be admitted after the authority of its source has
    changed, and a frame that is refused after its fence section has moved the fence all the same. -/

namespace DriftObservatory

/-- The session is between the fence and the ingestion of a snapshot of the source, and the greeting presents a later
    authority than the snapshot. -/
def Session.overtakenBy (hello : HelloPayload) (session : Session) : Bool :=
  match session.phase with
  | .fenced snapshot _ => snapshot.source == hello.source && decide (snapshot.epoch ≤ hello.epoch) &&
    decide (snapshot.incarnation ≤ hello.incarnation) && snapshot.authority != hello.authority
  | _ => false

namespace ObservationServer

/-- The greeting that arrives. -/
def Event.greets : Event → Option HelloPayload
  | .hello _ document => (decodeHello document).toOption
  | _ => none

/-- A greeting comes only when no older snapshot of its source is between the fence and the ledger. -/
def Calm (server : ObservationServer) (event : Event) : Prop :=
  ∀ hello ∈ event.greets, server.sessions.any (Session.overtakenBy hello) = false

instance (server : ObservationServer) (event : Event) : Decidable (Calm server event) :=
  inferInstanceAs (Decidable (∀ hello ∈ event.greets, server.sessions.any (Session.overtakenBy hello) = false))

/-- Every accepted greeting is behind the fence of its source, and every snapshot on its way to the ledger has the
    authority of the fence. -/
structure Current (server : ObservationServer) (out : List HelloPayload) : Prop where
  fenced : Fenced server
  accepted : ∀ hello ∈ out, ∃ fence, server.fences.find? hello.source = some fence ∧ hello.authority ≤ fence.authority
  pending : ∀ snapshot, server.Pending snapshot →
    ∃ fence, server.fences.find? snapshot.source = some fence ∧ snapshot.authority = fence.authority

variable [DoubleChars] {server : ObservationServer} {event : Event} {out : List HelloPayload}

theorem accepted_step (h : Current server out) {hello : HelloPayload}
    (hmem : hello ∈ out ++ (server.greeting event).toList) :
    ∃ fence, (server.step event).fences.find? hello.source = some fence ∧ hello.authority ≤ fence.authority := by
  rcases List.mem_append.mp hmem with hmem | hmem
  · obtain ⟨fence, hfence, hle⟩ := h.accepted hello hmem
    obtain ⟨fence', hfence', hadvances⟩ := @advances_step _ server event h.fenced _ _ hfence
    exact ⟨fence', hfence', hle.trans hadvances.authority⟩
  · rw [Option.mem_toList] at hmem
    cases stepped server event with
    | quiet hnone => rw [hnone] at hmem; cases hmem
    | passed _ _ hnone => rw [hnone] at hmem; cases hmem
    | @greeted _ _ greeted fence _ _ hsome _ haccepted hfences =>
      rw [hsome] at hmem
      obtain rfl := Option.some.inj hmem
      obtain ⟨-, hepoch, hincarnation, -⟩ := fenceHello_accepted haccepted
      refine ⟨fence, by rw [hfences, OrdMap.find?_insert_self], ?_⟩
      exact (Prod.ext hepoch hincarnation : fence.authority = greeted.authority).ge

omit [DoubleChars] in
/-- A pending snapshot that an accepted greeting does not overtake has the authority of the greeting. -/
theorem authority_of_calm {hello : HelloPayload} {snapshot : ObservationSnapshot}
    (hcalm : server.sessions.any (Session.overtakenBy hello) = false) (hpending : server.Pending snapshot)
    (hsource : snapshot.source = hello.source) (hle : snapshot.authority ≤ hello.authority) :
    snapshot.authority = hello.authority := by
  obtain ⟨session, hmem, ack, hphase⟩ := hpending
  have hcalm : session.overtakenBy hello = false := by
    simpa using List.any_eq_false.mp hcalm session hmem
  have hepoch : snapshot.epoch ≤ hello.epoch := hle.1
  have hincarnation : snapshot.incarnation ≤ hello.incarnation := hle.2
  simpa [Session.overtakenBy, hphase, hsource, hepoch, hincarnation] using hcalm

theorem pending_step (h : Current server out) (hcalm : Calm server event) {snapshot : ObservationSnapshot}
    (hpending : (server.step event).Pending snapshot) :
    ∃ fence, (server.step event).fences.find? snapshot.source = some fence ∧
      snapshot.authority = fence.authority := by
  cases stepped server event with
  | quiet _ _ hfences _ hkept =>
    rw [hfences]
    exact h.pending snapshot (hkept snapshot hpending)
  | @greeted _ document hello fence hevent hdecoded _ _ haccepted hfences _ hkept =>
    have hbefore := hkept snapshot hpending
    obtain ⟨found, hfound, heq⟩ := h.pending snapshot hbefore
    rw [hfences, OrdMap.find?_insert]
    split
    · rename_i hsource
      rw [hsource, hfound] at haccepted
      have hadvances := advances_hello (h.fenced.filed _ _ hfound).2 haccepted
      obtain ⟨-, hepoch, hincarnation, -⟩ := fenceHello_accepted haccepted
      have hauthority : fence.authority = hello.authority := Prod.ext hepoch hincarnation
      have hgreets : hello ∈ event.greets := by
        subst hevent
        exact congrArg Except.toOption hdecoded
      refine ⟨fence, rfl, ?_⟩
      rw [hauthority]
      refine authority_of_calm (hcalm hello hgreets) hbefore hsource.symm ?_
      rw [heq, ← hauthority]
      exact hadvances.authority
    · exact ⟨found, hfound, heq⟩
  | @passed _ _ arrived fence _ _ _ hpassed _ _ hfences _ hkept =>
    obtain ⟨before, after, hbefore, hafter, hpasses⟩ := passes_step h.fenced hpassed
    rcases hkept snapshot hpending with hold | rfl
    · obtain ⟨found, hfound, heq⟩ := h.pending snapshot hold
      by_cases hsource : arrived.source = snapshot.source
      · rw [hsource] at hbefore hafter
        rw [hfound] at hbefore
        obtain rfl := Option.some.inj hbefore
        exact ⟨after, hafter, heq.trans hpasses.kept.symm⟩
      · rw [hfences, OrdMap.find?_insert_of_ne hsource]
        exact ⟨found, hfound, heq⟩
    · exact ⟨after, hafter, hpasses.authority.trans hpasses.kept.symm⟩

theorem current_step (h : Current server out) (hcalm : Calm server event) :
    Current (server.step event) (out ++ (server.greeting event).toList) :=
  ⟨fenced_step h.fenced, fun _ => accepted_step h, fun _ => pending_step h hcalm⟩

omit [DoubleChars] in
theorem pending_of_admitted {snapshot : ObservationSnapshot} (h : server.admitted event = some snapshot) :
    server.Pending snapshot := by
  unfold admitted at h
  cases event <;> try cases h
  rename_i index now sent
  dsimp only at h
  split at h
  · rename_i fenced ack hphase
    obtain ⟨session, hs, hfenced⟩ := Option.map_eq_some_iff.mp hphase
    split at h
    · obtain rfl := Option.some.inj h
      exact ⟨session, List.mem_of_getElem? hs, ack, hfenced⟩
    · cases h
  · cases h

/-- In a run in which no greeting overtakes a snapshot between the fence and the ledger, the ledger admits no
    observation of an older authority than the greetings accepted before. -/
theorem admitted_current (limits : RuntimeLimits) (observatory : Observatory) (events : List Event)
    (h : Run.Permits step Calm (start limits observatory) events) :
    ∀ event snapshot, (Run.exec step (start limits observatory) events).admitted event = some snapshot →
      ∀ hello ∈ Run.outputs step greeting (start limits observatory) events, hello.source = snapshot.source →
        toLex hello.authority ≤ toLex snapshot.authority := by
  have hstart : Current (start limits observatory) [] :=
    ⟨fenced_start, fun _ h => absurd h List.not_mem_nil, fun _ ⟨_, hmem, _⟩ => absurd hmem List.not_mem_nil⟩
  have hcurrent : Current _ ([] ++ Run.outputs step greeting (start limits observatory) events) :=
    Run.invariant_outputs (fun _ _ _ => current_step) hstart h
  intro event snapshot hadmitted hello hhello hsource
  obtain ⟨fence, hfence, hle⟩ := hcurrent.accepted hello hhello
  obtain ⟨found, hfound, heq⟩ := hcurrent.pending snapshot (pending_of_admitted hadmitted)
  rw [hsource, hfound] at hfence
  obtain rfl := Option.some.inj hfence
  rw [heq]
  exact Prod.Lex.toLex_mono hle

end ObservationServer

namespace Sample
open ObservationServer

/-- The source restarts while nothing is on its way, and its new process publishes. -/
def restarted : List Event :=
  [.connect, .connect, .hello 0 (greet 1), .register 0 ⟨1⟩ true, .hello 1 (greet 2), .register 1 ⟨1⟩ true,
    .snapshot 1 (.ok (report 2 1))]

/-- The source restarts while an observation of its old process is between the fence and the ledger. -/
def overlapped : List Event :=
  [.connect, .connect, .hello 0 (greet 1), .register 0 ⟨1⟩ true, .snapshot 0 (.ok (report 1 1)), .hello 1 (greet 2),
    .register 1 ⟨1⟩ true]

/-- The greetings accepted in a run of the sample server. -/
def greetings (events : List Event) : List HelloPayload :=
  Run.outputs (@step noDoubles) (@greeting noDoubles) listening events

end Sample

theorem ObservationServer.admitted_current_restarted :
    ((Run.exec (@step Sample.noDoubles) Sample.listening Sample.restarted).admitted (.ingest 1 ⟨2⟩ true)).map
        (·.authority) = some (⟨1⟩, ⟨2⟩) ∧
      (Sample.greetings Sample.restarted).map (·.authority) = [(⟨1⟩, ⟨1⟩), (⟨1⟩, ⟨2⟩)] ∧
      ∀ event snapshot, (Run.exec (@step Sample.noDoubles) Sample.listening Sample.restarted).admitted event =
        some snapshot → ∀ hello ∈ Sample.greetings Sample.restarted, hello.source = snapshot.source →
          toLex hello.authority ≤ toLex snapshot.authority :=
  ⟨by decide +kernel, by decide +kernel,
    @admitted_current Sample.noDoubles _ _ Sample.restarted (by decide +kernel)⟩

theorem ObservationServer.admitted_overlapped_stale :
    ¬ ∀ (limits : RuntimeLimits) (observatory : Observatory) (events : List Event) (event : Event)
      (snapshot : ObservationSnapshot),
      (Run.exec (@step Sample.noDoubles) (start limits observatory) events).admitted event = some snapshot →
      ∀ hello ∈ Run.outputs (@step Sample.noDoubles) (@greeting Sample.noDoubles) (start limits observatory) events,
        hello.source = snapshot.source → toLex hello.authority ≤ toLex snapshot.authority := by
  intro h
  have hrun := h Sample.listening.limits Sample.listening.observatory Sample.overlapped (.ingest 0 ⟨2⟩ true)
  have hadmitted : ((Run.exec (@step Sample.noDoubles) Sample.listening Sample.overlapped).admitted
      (.ingest 0 ⟨2⟩ true)).map (fun s => (s.source, s.authority)) = some (⟨ascii "a"⟩, ⟨1⟩, ⟨1⟩) := by decide +kernel
  have hgreetings : (Sample.greetings Sample.overlapped).map (fun hello => (hello.source, hello.authority)) =
      [(⟨ascii "a"⟩, ⟨1⟩, ⟨1⟩), (⟨ascii "a"⟩, ⟨1⟩, ⟨2⟩)] := by decide +kernel
  obtain ⟨snapshot, hsnapshot, hold⟩ := Option.map_eq_some_iff.mp hadmitted
  obtain ⟨hello, hhello, hnew⟩ : ∃ hello ∈ Sample.greetings Sample.overlapped,
      (hello.source, hello.authority) = (⟨ascii "a"⟩, ⟨1⟩, ⟨2⟩) :=
    List.mem_map.mp (by rw [hgreetings]; exact List.mem_cons_of_mem _ (List.mem_singleton_self _))
  rw [Prod.mk.injEq] at hold hnew
  have hle := hrun snapshot hsnapshot hello hhello (hnew.1.trans hold.1.symm)
  rw [hold.2, hnew.2] at hle
  exact absurd hle (by decide)

end DriftObservatory
