import VmOperator.Appliance.Client
import VmOperator.Reconcile.Context
import VmOperator.Text.Lower

/-! Finding the addresses of a virtual machine among the hosts of the network. One write publishes the
addresses together with readiness. -/

namespace VmOperator.Discovery

open Appliance

/-- the addresses of the first host with the given hardware address, whose case does not matter -/
def addressesIn (wanted : String) : List LanHost → Except Failure (List Value)
  | [] => .ok []
  | host :: rest => do
    if Text.lower (← host.mac.toText) == wanted then return host.addresses else addressesIn wanted rest

def findAddresses (s : Settings) (mac : Value) : Action (List Value) := do
  let wanted := Text.lower (← mac.toText)
  addressesIn wanted (← lanHosts s s.lanInterface)

/-- none where the appliance could not list its hosts -/
def tryAddresses (s : Settings) (mac : Value) : Action (Option (List Value)) :=
  tryCatch (some <$> findAddresses s mac) fun
    | .fault (.appliance _) => return none
    | e => throw e

/-- the machine with its addresses, ready and provisioned -/
def markReady (c : Context) (m : Machine) (addresses : List Value) : Machine :=
  let reachable := { m with
    status.addresses := addresses.map fun address => { address }
    status.ready := true
    status.provisioned := true }
  let conditioned := reachable.setCondition c.now .ready .yes "InfrastructureReady" "VM is running and reachable"
  (conditioned.setCondition c.now .infrastructureReady .yes "InfrastructureReady" "").setCondition
    c.now .vmProvisioned .yes "VMProvisioned" ""

def publish (c : Context) (m : Machine) (addresses : List Value) : Action Outcome := do
  match ← Checkout.saveStatus (markReady c m addresses) with
  | some _ => return .done
  | none => return c.step

/-- the virtual machine that was handed in, asked for anew where it has no hardware address -/
def current (c : Context) (id : Int) (known : Option Vm) : Action Vm :=
  match known with
  | some vm => if vm.mac.isTruthy then return vm else return (← getVm c.settings (.int id)).vm
  | none => return (← getVm c.settings (.int id)).vm

def discover (c : Context) (m : Machine) (known : Option Vm := none) : Action Outcome := do
  if !m.status.addresses.isEmpty then return .done
  match m.status.vmId with
  | none => return c.poll
  | some id =>
    let vm ← current c id known
    if !vm.mac.isTruthy then return c.poll
    match ← tryAddresses c.settings vm.mac with
    | none | some [] => return c.poll
    | some addresses => publish c m addresses

end VmOperator.Discovery
