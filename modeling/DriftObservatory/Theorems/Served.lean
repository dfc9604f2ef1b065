import DriftObservatory.Theorems.Fencing
import DriftObservatory.Theorems.Sessions

/-! Bytes and frames. Whatever bytes arrive on its connections, a server does what it does on some sequence of frames
    and sections: the exchange is an implementation of the server's sessions. What the fences ensure for frames holds
    for hostile peers, too. -/

namespace DriftObservatory
open Pieces Json

/-! ### The server with its record -/

/-- A server, and for each of its sessions the documents that were taken from it. -/
structure Recorded where
  server : ObservationServer
  taken : List (List Document) := []

namespace Recorded
variable [DoubleChars]

def step (r : Recorded) (event : ObservationServer.Event) : Recorded where
  server := r.server.step event
  taken := match event.session with
    | none => if (r.server.step event).sessions.length = r.server.sessions.length then r.taken else r.taken ++ [[]]
    | some index => r.taken.modify index (· ++ (r.server.takes event).toList)

variable {server : ObservationServer} {taken : List (List Document)} {index : Nat} {documents : List Document}

omit [DoubleChars] in
theorem modify_eq_set {f : List Document → List Document} (h : taken[index]? = some documents) :
    taken.modify index f = taken.set index (f documents) := by
  obtain ⟨hlt, rfl⟩ := List.getElem?_eq_some_iff.mp h
  rw [List.modify_eq_set_getElem?, h]
  rfl

end Recorded

/-! ### The exchange as a server with its record -/

namespace Exchange
variable [DoubleChars] {x : Exchange} {index : Nat} {link link₀ : Link} {session : Session} {sending : Sending}

def recorded (x : Exchange) : Recorded := ⟨x.server, x.links.map (·.admitted)⟩

end Exchange

end DriftObservatory
