import DriftObservatory.Engine
import DriftObservatory.Lib.Run

/-! Interleavings of the engine's operations. An evaluation in flight is a small program of its own: it copies the
    policy, its workers test the flags and compare target by target, and it publishes when they are done. An action
    names the next critical section or the next atomic step of one worker; a run is any list of actions. -/

namespace DriftObservatory

/-! ### Evaluations in flight -/

/-- One worker thread over the targets `next..last`. `tested` holds between its load of `cancelled_` and its load of
    `stopping_`; a worker that saw a flag has `gaveUp`. -/
structure Worker where
  next : Nat
  last : Nat
  tested : Bool := false
  gaveUp : Bool := false

namespace Worker

def done (w : Worker) : Bool := w.gaveUp || w.last ≤ w.next

end Worker

/-- The ranges the targets are cut into. -/
def workerRanges (workers targets : Nat) : List Worker :=
  let workers := min (if workers = 0 then 1 else workers) (if targets = 0 then 1 else targets)
  if workers ≤ 1 then [{ next := 0, last := targets }]
  else
    let perWorker := (targets + workers - 1) / workers
    (List.range workers).filterMap fun worker =>
      let first := worker * perWorker
      let last := min (first + perWorker) targets
      if last ≤ first then none else some { next := first, last := last }

/-- A call of `EvaluateAt` after its first critical section. -/
structure Evaluation where
  input : Observatory.EvaluationInput
  apply : Bool
  policy : Option ObservatoryPolicy := none
  workers : List Worker := []
  targets : List TargetEvaluation
  result : Option (Except Status EvaluationOutcome) := none

namespace Evaluation

def inFlight (e : Evaluation) : Bool := e.result.isNone

/-- The join of the worker threads can return. -/
def joined (e : Evaluation) : Bool := e.policy.isSome && e.workers.all Worker.done

/-- The second critical section and the start of the workers. -/
def copyPolicy (o : Observatory) (e : Evaluation) : Evaluation :=
  if e.inFlight && e.policy.isNone then
    { e with
      policy := some o.config.policy
      workers := workerRanges o.config.evaluationWorkers e.input.targets.length }
  else e

/-- A worker loads `cancelled_`. -/
def testCancelled (o : Observatory) (index : Nat) (e : Evaluation) : Evaluation :=
  match e.workers[index]? with
  | none => e
  | some w =>
    if w.done || w.tested then e
    else if o.cancelled then { e with workers := e.workers.set index { w with gaveUp := true } }
    else { e with workers := e.workers.set index { w with tested := true } }

/-- A worker loads `stopping_` and, unless it is raised, compares its next target. -/
def compareNext (o : Observatory) (index : Nat) (e : Evaluation) : Evaluation :=
  match e.workers[index]?, e.policy with
  | some w, some policy =>
    if w.done || !w.tested then e
    else if o.stopping then { e with workers := e.workers.set index { w with gaveUp := true } }
    else match e.input.targets[w.next]? with
      | none => e
      | some input =>
        { e with
          workers := e.workers.set index { w with next := w.next + 1, tested := false }
          targets := e.targets.set w.next (compareTarget input policy o.config.limits) }
  | _, _ => e

end Evaluation

/-! ### The system -/

structure System where
  observatory : Observatory
  evaluations : List Evaluation := []

inductive Action
  | start
  | stop
  | rotateIncarnation (incarnation : Incarnation) (epoch : FabricEpoch) (now : NdoTime)
  | requestCancellation
  | clearCancellation
  | replaceLedger (decoded : FindingLedger)
  | registerSource (descriptor : SourceDescriptor)
  | publishIntent (document : IntentGenerationDocument) (stamp : NdoTime)
  | ingestObservation (snapshot : ObservationSnapshot) (receiveTime : NdoTime)
  | setPolicy (policy : ObservatoryPolicy) (now : NdoTime)
  | suppressFinding (finding : FindingId) (actor : ActorId) (reason : Text) (expiresAt : Option NdoTime)
      (now : NdoTime)
  | clearSuppression (finding : FindingId) (actor : ActorId) (now : NdoTime)
  | acknowledgeFinding (finding : FindingId) (actor : ActorId) (reason : Text) (now : NdoTime)
  | clearAcknowledgement (finding : FindingId) (actor : ActorId) (now : NdoTime)
  | expireSuppressions (now : NdoTime)
  | evaluateAt (now : NdoTime) (apply : Bool)
  | copyPolicy (evaluation : Nat)
  | testCancelled (evaluation worker : Nat)
  | compareNext (evaluation worker : Nat)
  | publish (evaluation : Nat)

namespace System
variable [DoubleChars]

/-- The critical section in which an evaluation publishes; it waits until its workers are joined. -/
def publish (s : System) (index : Nat) : System :=
  match s.evaluations[index]? with
  | none => s
  | some e =>
    match e.policy with
    | none => s
    | some policy =>
      if e.inFlight && e.joined then
        let published := s.observatory.publishEvaluation e.input policy e.targets e.apply
        { observatory := published.2
          evaluations := s.evaluations.set index { e with result := some published.1 } }
      else s

def evaluateAt (s : System) (now : NdoTime) (apply : Bool) : System :=
  match s.observatory.admitEvaluation now with
  | (.error _, observatory) => { s with observatory := observatory }
  | (.ok input, observatory) =>
    { observatory := observatory
      evaluations := s.evaluations ++
        [{ input := input, apply := apply, targets := List.replicate input.targets.length {} }] }

def step (s : System) : Action → System
  | .start => { s with observatory := s.observatory.start.2 }
  | .stop => { s with observatory := s.observatory.stop }
  | .rotateIncarnation incarnation epoch now =>
    { s with observatory := (s.observatory.rotateIncarnation incarnation epoch now).2 }
  | .requestCancellation => { s with observatory := s.observatory.requestCancellation }
  | .clearCancellation => { s with observatory := s.observatory.clearCancellation }
  | .replaceLedger decoded => { s with observatory := s.observatory.replaceLedger decoded }
  | .registerSource descriptor => { s with observatory := (s.observatory.registerSource descriptor).2 }
  | .publishIntent document stamp => { s with observatory := (s.observatory.publishIntent document stamp).2.1 }
  | .ingestObservation snapshot receiveTime =>
    { s with observatory := (s.observatory.ingestObservation snapshot receiveTime).2.1 }
  | .setPolicy policy now => { s with observatory := (s.observatory.setPolicy policy now).2 }
  | .suppressFinding finding actor reason expiresAt now =>
    { s with observatory := (s.observatory.suppressFinding finding actor reason expiresAt now).2 }
  | .clearSuppression finding actor now =>
    { s with observatory := (s.observatory.clearSuppression finding actor now).2 }
  | .acknowledgeFinding finding actor reason now =>
    { s with observatory := (s.observatory.acknowledgeFinding finding actor reason now).2 }
  | .clearAcknowledgement finding actor now =>
    { s with observatory := (s.observatory.clearAcknowledgement finding actor now).2 }
  | .expireSuppressions now => { s with observatory := s.observatory.expireSuppressions now }
  | .evaluateAt now apply => s.evaluateAt now apply
  | .copyPolicy index => { s with evaluations := s.evaluations.modify index (Evaluation.copyPolicy s.observatory) }
  | .testCancelled index worker =>
    { s with evaluations := s.evaluations.modify index (Evaluation.testCancelled s.observatory worker) }
  | .compareNext index worker =>
    { s with evaluations := s.evaluations.modify index (Evaluation.compareNext s.observatory worker) }
  | .publish index => s.publish index

end System

end DriftObservatory
