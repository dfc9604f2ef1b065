import DriftObservatory.Engine
import DriftObservatory.Persistence

/-! Ledger files. A save writes the encoding beside the file and renames it over the file; a load asks for the size of
    the file, opens it and reads that much. The steps of both are explicit: each of them may fail, the process may die
    between any two of them, and a load may run while a save does. What a process has handed to the system survives it. -/

namespace DriftObservatory
open FindingLedger

/-- The files of a disk by their paths. -/
abbrev Disk := Text → Option Text

/-- Where a save of the path writes. -/
def temporary (path : Text) : Text := path ++ ascii ".tmp"

/-- A call of `SaveLedgerFile` behind its checks; `written` bytes have reached the temporary file. -/
structure Saving where
  path : Text
  ledger : FindingLedger
  epoch : FabricEpoch
  incarnation : Incarnation
  written : Nat := 0

/-- A call of `LoadLedgerFile` behind its look at the size. -/
structure Loading where
  path : Text
  size : Nat
  epoch : FabricEpoch

/-- A process with its disk. Saves hold the lock of the observatory, loads do not. -/
structure Installation where
  observatory : Observatory
  disk : Disk
  saving : Option Saving := none
  loading : List Loading := []

section Steps
variable [DoubleChars]

/-- What a save writes. -/
def Saving.bytes (saving : Saving) : Text := saving.ledger.encodeLedger saving.epoch saving.incarnation

namespace Installation

def limits (x : Installation) : RuntimeLimits := x.observatory.config.limits

/-! ### Saving -/

/-- `SaveLedgerFile` up to the temporary file, which is emptied; `opens` tells whether that succeeds. -/
def beginSave (x : Installation) (path : Text) (opens : Bool) : Except Status Unit × Installation :=
  match x.saving with
  | some _ => (.ok (), x)
  | none =>
    match x.observatory.ledger.saveLedgerFile x.observatory.config.epoch x.observatory.config.incarnation
        x.limits.maxLedgerBytes with
    | .error status => (.error status, x)
    | .ok _ =>
      if opens then
        (.ok (), { x with
          disk := Function.update x.disk (temporary path) (some [])
          saving := some {
            path := path, ledger := x.observatory.ledger, epoch := x.observatory.config.epoch
            incarnation := x.observatory.config.incarnation } })
      else (.error (.rejected .ledgerHeaderInvalid (ascii "the ledger file could not be opened for writing")), x)

/-- More bytes reach the temporary file. -/
def write (x : Installation) (count : Nat) : Installation :=
  match x.saving with
  | none => x
  | some saving =>
    let written := min (saving.written + count) saving.bytes.length
    { x with
      disk := Function.update x.disk (temporary saving.path) (some (saving.bytes.take written))
      saving := some { saving with written := written } }

/-- The write or the flush fails. -/
def failSave (x : Installation) (flushing : Bool) : Except Status Unit × Installation :=
  (.error (.rejected .ledgerHeaderInvalid
    (ascii (if flushing then "the ledger file could not be flushed" else "the ledger file could not be written"))),
    { x with saving := none })

/-- Everything is flushed and the temporary file takes the place of the file, or it is removed. -/
def replaceFile (x : Installation) (renames removes : Bool) : Except Status Unit × Installation :=
  match x.saving with
  | none => (.ok (), x)
  | some saving =>
    if saving.written < saving.bytes.length then (.ok (), x)
    else if renames then
      (.ok (), { x with
        disk := Function.update (Function.update x.disk saving.path (x.disk (temporary saving.path)))
          (temporary saving.path) none
        saving := none })
    else
      (.error (.rejected .ledgerHeaderInvalid (ascii "the ledger file could not be replaced atomically")),
        { x with
          disk := if removes then Function.update x.disk (temporary saving.path) none else x.disk
          saving := none })

/-! ### Loading -/

/-- `LoadLedgerFile` up to its look at the size. -/
def beginLoad (x : Installation) (path : Text) : Except Status Loading :=
  match x.disk path with
  | none => .error (.notFound .ledgerHeaderInvalid (ascii "the ledger file could not be inspected"))
  | some content =>
    if x.limits.maxLedgerBytes < content.length then
      .error (.limit .ledgerPayloadTooLarge (ascii "ledger file exceeds the envelope"))
    else .ok { path := path, size := content.length, epoch := x.observatory.config.epoch }

/-- The rest of `LoadLedgerFile`: the bytes are those of the file that is opened. -/
def finishLoad (x : Installation) (loading : Loading) (opens : Bool) : Except Status (FindingLedger × LedgerRecoveryReport) :=
  match x.disk loading.path, opens with
  | some content, true =>
    if content.length < loading.size then
      .error (.rejected .ledgerTruncated (ascii "the ledger file ended early"))
    else if loading.size = 0 then .error (.rejected .ledgerHeaderInvalid (ascii "no bytes were supplied"))
    else decodeLedger x.limits loading.epoch (content.take loading.size)
  | _, _ => .error (.notFound .ledgerHeaderInvalid (ascii "the ledger file could not be opened"))

/-! ### Steps -/

inductive Event
  | beginSave (path : Text) (opens : Bool)
  | write (count : Nat)
  | failSave (flushing : Bool)
  | replaceFile (renames removes : Bool)
  | beginLoad (path : Text)
  | finishLoad (index : Nat) (opens : Bool)
  | operate (observatory : Observatory)
  | crash (observatory : Observatory)

/-- Nothing the observatory does changes its limits, and it is restarted under the same ones. -/
def reconfigure (x : Installation) (observatory : Observatory) : Observatory :=
  { observatory with config := { observatory.config with limits := x.limits } }

def step (x : Installation) : Event → Installation
  | .beginSave path opens => (x.beginSave path opens).2
  | .write count => x.write count
  | .failSave flushing => (x.failSave flushing).2
  | .replaceFile renames removes => (x.replaceFile renames removes).2
  | .beginLoad path => match x.beginLoad path with
    | .error _ => x
    | .ok loading => { x with loading := x.loading ++ [loading] }
  | .finishLoad index opens => match x.loading[index]? with
    | none => x
    | some loading =>
      let x := { x with loading := x.loading.eraseIdx index }
      match x.finishLoad loading opens with
      | .error _ => x
      | .ok (decoded, _) => { x with observatory := x.observatory.replaceLedger decoded }
  | .operate observatory => { x with observatory := x.reconfigure observatory }
  | .crash observatory => { x with observatory := x.reconfigure observatory, saving := none, loading := [] }

/-- The save that a step completes. -/
def completed (x : Installation) : Event → Option Saving
  | .replaceFile true _ => x.saving.filter fun saving => saving.bytes.length ≤ saving.written
  | _ => none

end Installation

end Steps

end DriftObservatory
