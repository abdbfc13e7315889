import VmOperator.Image.Phase
import VmOperator.Resource.Machine

/-! The list of machines as it is shown: a row for each, with the phase of its image, its virtual
machine, its addresses and whether it is ready. -/

namespace VmOperator

/-- why a row cannot be shown -/
inductive RowProblem where
  | failure (f : Failure)
  | unprintable (v : Value)
deriving DecidableEq, Repr

structure Listing where
  title : String
  columns : List String
  rows : List (List String)
deriving DecidableEq, Repr

namespace Listing

def readyMark : String := "✅"
def failedMark : String := "❌"

/-- the phase that is shown: a virtual machine ends the image's way, and progress that is no phase is
called invalid -/
def phaseText (m : Machine) : Except Failure String :=
  match Phase.decode m.status.progress, m.status.vmId with
  | .ok _, some _ | .error (.fault (.progress _)), some _ => .ok "VMCreated"
  | .ok p, none => .ok p.tag
  | .error (.fault (.progress _)), none => .ok "invalid"
  | .error e, _ => .error e

def orDash (s : String) : String := if s == "" then "-" else s

def addressText (m : Machine) : Except Failure String := do
  return orDash (", ".intercalate (← m.status.addresses.mapM fun a => a.address.toText))

/-- a cell that was recorded untyped; null leaves it blank -/
def cell : Value → Except RowProblem String
  | .string s => .ok s
  | .null => .ok ""
  | v => .error (.unprintable v)

def row (m : Machine) : Except RowProblem (List String) := do
  let phase ← (phaseText m).mapError .failure
  let addresses ← (addressText m).mapError .failure
  return [← cell m.ns, ← cell m.name, phase, orDash ((m.status.vmId.map toString).getD ""), addresses,
    if m.status.ready then readyMark else failedMark]

def ofMachines (ms : List Machine) : Except RowProblem Listing := do
  return {
    title := "FreeboxMachines"
    columns := ["Namespace", "Name", "Phase", "VM ID", "Addresses", "Ready"]
    rows := ← ms.mapM row }

end Listing
end VmOperator
