import VmOperator.Store.Client

/-! A machine as it was last read, written back guarded by its version. An accepted write gives the
copy that the next write starts from. A plain write that comes second is given up; a write that must
not be lost is tried again on the latest copy. -/

namespace VmOperator.Checkout

/-- none where another writer was first -/
def unlessConflict (write : Action Machine) : Action (Option Machine) :=
  tryCatch (some <$> write) fun
    | .fault (.conflict _) => return none
    | e => throw e

/-- writes metadata and spec -/
def save (m : Machine) : Action (Option Machine) := unlessConflict (Store.updateMachine m)

/-- writes the status -/
def saveStatus (m : Machine) : Action (Option Machine) := unlessConflict (Store.updateMachineStatus m)

/-- how often a write that must not be lost is tried -/
def attempts : Nat := 5

/-- after a lost write: the copy that the next one starts from, and the fault that the write ends with
if there is no next one -/
def refresh (change : Machine → Machine) (m : Machine) (lost : ConflictFault) :
    Program (Machine × Failure) := do
  match ← (Store.getMachine m.ns m.name).run with
  | .ok (some latest) => return (change latest, .fault (.conflict lost))
  | .ok none => return (m, .fault (.store (.vanished m.key)))
  | .error e => return (m, e)

/-- writes the status and refreshes the copy after a conflict; the copy is given back with a failure
too -/
def writeRefreshing (change : Machine → Machine) : (attempts : Nat) → Machine →
    Program (Machine × Except Failure Unit)
  | 0, m => return (m, .ok ())
  | more + 1, m => do
    match ← (Store.updateMachineStatus m).run with
    | .ok saved => return (saved, .ok ())
    | .error (.fault (.conflict lost)) =>
      match ← refresh change m lost with
      | (m, .fault (.conflict last)) =>
        if more = 0 then return (m, .error (.fault (.conflict last)))
        else writeRefreshing change more m
      | (m, e) => return (m, .error e)
    | .error e => return (m, .error e)

def saveStatusRetrying (change : Machine → Machine) (m : Machine) :
    Program (Machine × Except Failure Unit) :=
  writeRefreshing change attempts (change m)

/-- the copy after a write that must not be lost, or the failure it ended with -/
def saveStatusSurely (change : Machine → Machine) (m : Machine) : Action Machine :=
  .mk (do
    let (m, result) ← saveStatusRetrying change m
    return result.map fun _ => m)

end VmOperator.Checkout
