import DriftObservatory.Lib.Run
import DriftObservatory.Theorems.Calls
import DriftObservatory.Theorems.Fencing
import DriftObservatory.Theorems.Handlers

/-! Exactly-once delivery: what a session takes from its publisher are the documents that were acknowledged as accepted,
    over every run of the publishers, the sessions and the network between them. -/

namespace DriftObservatory
open Pieces Json

theorem Call.eq_idle {call : Call} (h : call matches .idle) : call = .idle := by
  cases call <;> first | rfl | cases h

theorem SessionPhase.eq_reading {phase : SessionPhase} (h : phase matches .reading) : phase = .reading := by
  cases phase <;> first | rfl | cases h

section Protocol
variable [DoubleChars]

/-- A step that its thread can take; the publisher of a new connection fits its payloads into their length field. -/
def Exchange.Permitted (x : Exchange) (event : Exchange.Event) : Prop :=
  x.Enabled event ∧ match event with
    | .connect publisher _ => publisher.config.limits.maxWirePayloadBytes < 2 ^ 32
    | _ => True

variable [LawfulDoubleChars] {x : Exchange} {server : ObservationServer}

/-- **Every step keeps the intact links in step.** -/
theorem InStep.step (h : InStep x.server x.links) {event : Exchange.Event} (hpermitted : x.Permitted event) :
    InStep (x.step event).server (x.step event).links := by
  obtain ⟨henabled, hmodest⟩ := hpermitted
  cases event with
  | connect p sending =>
    obtain ⟨-, hhandshaken⟩ := henabled
    exact h.connect hhandshaken hmodest
  | read index socket late now sending =>
    obtain ⟨link, session, hlink, hs, hreading, harriving⟩ := henabled
    simp only [Exchange.step, hlink, hs]
    exact h.read hlink hs (SessionPhase.eq_reading hreading) harriving now
  | register index now sending =>
    cases hlink : x.links[index]? with
    | none => simpa only [Exchange.step, hlink] using h
    | some link =>
      obtain ⟨session, hs⟩ := h.serves hlink
      simp only [Exchange.step, hlink]
      exact h.register hlink hs now
  | ingest index now sending =>
    cases hlink : x.links[index]? with
    | none => simpa only [Exchange.step, hlink] using h
    | some link =>
      obtain ⟨session, hs⟩ := h.serves hlink
      simp only [Exchange.step, hlink]
      exact h.ingest hlink hs now
  | publish index snapshot sending =>
    obtain ⟨link, hlink, hidle⟩ := henabled
    simp only [Exchange.step, hlink]
    exact h.publish hlink (Call.eq_idle hidle) snapshot
  | publishIntent index document sending =>
    obtain ⟨link, hlink, hidle⟩ := henabled
    simp only [Exchange.step, hlink]
    exact h.publishIntent hlink (Call.eq_idle hidle) document
  | receive index socket late =>
    obtain ⟨link, session, hlink, hs, hbusy, harriving⟩ := henabled
    simp only [Exchange.step, hlink]
    exact h.receive hlink (fun hidle => hbusy (by rw [hidle])) harriving
  | close index sending =>
    obtain ⟨link, hlink, hidle⟩ := henabled
    simp only [Exchange.step, hlink]
    exact h.close hlink (Call.eq_idle hidle)

end Protocol

namespace Sample

/-- Some bytes, and nothing behind them within the deadline. -/
def arrivals (bytes : Text) : Socket :=
  if h : bytes = [] then [.interruption .deadline] else [.piece bytes h, .interruption .deadline]

theorem arriving_arrivals (bytes : Text) (closed : Prop) : Exchange.Arriving bytes closed (arrivals bytes) [] := by
  refine ⟨bytes, (List.append_nil bytes).symm, .inl ⟨.deadline, ?_⟩⟩
  rw [arrivals]
  split_ifs with h
  · rw [h]
    rfl
  · rfl

/-- What the publisher of a single link and its session do. -/
inductive Move
  | connect (publisher : ObservationPublisher)
  | publish (snapshot : ObservationSnapshot)
  | receive
  | read
  | register
  | ingest

/-- Everything under way arrives. -/
def Move.event (x : Exchange) : Move → Exchange.Event
  | connect publisher => .connect publisher .whole
  | publish snapshot => .publish 0 snapshot .whole
  | receive => .receive 0 (arrivals (x.links[0]?.elim [] (·.downstream))) []
  | read => .read 0 (arrivals (x.links[0]?.elim [] (·.upstream))) [] ⟨1⟩ .whole
  | register => .register 0 ⟨1⟩ .whole
  | ingest => .ingest 0 ⟨1⟩ .whole

def Move.ready (x : Exchange) : Move → Bool
  | connect publisher => !publisher.valid && !publisher.handshaken &&
      decide (publisher.config.limits.maxWirePayloadBytes < 2 ^ 32)
  | publish _ => x.links[0]?.any (·.publisher.call matches .idle)
  | receive => x.links[0]?.any (!·.publisher.call matches .idle) && x.server.sessions[0]?.isSome
  | read => x.links[0]?.isSome && x.server.sessions[0]?.any (·.phase matches .reading)
  | register | ingest => true

section Moves
variable [DoubleChars] {x : Exchange}

omit [DoubleChars] in
theorem Move.permitted {move : Move} (h : move.ready x = true) : x.Permitted (move.event x) := by
  cases move with
  | connect publisher =>
    simp only [Move.ready, Bool.and_eq_true, Bool.not_eq_true', decide_eq_true_eq] at h
    exact ⟨h.1, h.2⟩
  | publish snapshot =>
    simp only [Move.ready, Option.any_eq_true] at h
    obtain ⟨link, hlink, hidle⟩ := h
    exact ⟨⟨link, hlink, hidle⟩, trivial⟩
  | receive =>
    simp only [Move.ready, Bool.and_eq_true, Option.isSome_iff_exists, Option.any_eq_true, Bool.not_eq_true'] at h
    obtain ⟨⟨link, hlink, hbusy⟩, session, hs⟩ := h
    refine ⟨⟨link, session, hlink, hs, fun hidle => ?_, ?_⟩, trivial⟩
    · cases hbusy.symm.trans hidle
    · rw [hlink]
      exact arriving_arrivals _ _
  | read =>
    simp only [Move.ready, Bool.and_eq_true, Option.isSome_iff_exists, Option.any_eq_true] at h
    obtain ⟨⟨link, hlink⟩, session, hs, hreading⟩ := h
    refine ⟨⟨link, session, hlink, hs, hreading, ?_⟩, trivial⟩
    rw [hlink]
    exact arriving_arrivals _ _
  | register => exact ⟨trivial, trivial⟩
  | ingest => exact ⟨trivial, trivial⟩

def events (x : Exchange) : List Move → List Exchange.Event
  | [] => []
  | move :: moves => move.event x :: events (x.step (move.event x)) moves

end Moves

end Sample

end DriftObservatory
