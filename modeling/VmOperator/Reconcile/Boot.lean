import VmOperator.Reconcile.Discovery
import VmOperator.Store.Client

/-! From a finished disk to a running virtual machine. It is created once, with its complete bootstrap
data, and its number is stored before it is started. -/

namespace VmOperator.Boot

open Appliance

/-- the identity in the cluster of the virtual machine that the appliance knows by this id -/
def providerId (id : Value) : String := "freebox://" ++ id.text

/-- the bootstrap data of the machine as text, none while a part of it is still to come -/
def userData (c : Context) (m : Machine) : Action (Option String) := do
  match ← Store.getOwner c.settings m with
  | none => return none
  | some owner =>
    let secret ← Store.bootstrapSecret owner
    if secret = .null then return none
    match ← Store.getBootstrapData m.ns secret with
    | none => return none
    | some bytes =>
      match Utf8.decode bytes with
      | .ok text => return some text
      | .error _ => Action.fault (.bootstrap (.notText (Store.pairKey m.ns secret)))

def order (m : Machine) (path userData : String) : VmOrder where
  name := m.vmName
  diskPath := .string path
  diskType := .string (Image.diskType path).text
  memory := .int m.memoryMb
  vcpus := .int m.vcpus
  userData := .string userData

/-- the machine with the number of its new virtual machine -/
def record (c : Context) (number : Int) (path : String) (m : Machine) : Machine :=
  let numbered := { m with
    status.vmId := some number
    status.diskPath := .string path
    status.providerId := m.status.providerId.orElse (.string (providerId (.int number))) }
  numbered.setCondition c.now .vmProvisioned .no "VMStarting" ("VM " ++ toString number ++ " created")

/-- gives the spec the provider id of a recorded virtual machine; a write that comes second is given
up and leaves the copy at its old version -/
def ensureProviderId (m : Machine) : Action Machine :=
  match m.spec.providerId.isTruthy, m.status.vmId with
  | false, some number => do
    let named := { m with spec.providerId := .string (providerId (.int number)) }
    return (← Checkout.save named).getD named
  | _, _ => return m

/-- a virtual machine that exists is started where it is stopped, never created again -/
def existing (c : Context) (m : Machine) (number : Int) : Action Outcome := do
  let latest ← ensureProviderId m
  if !m.status.addresses.isEmpty then return .done
  let known ← getVm c.settings (.int number)
  if known.vm.isStopped then startVm c.settings (.int number)
  Discovery.discover c latest (some known.vm)

def create (c : Context) (m : Machine) (path userData : String) : Action Outcome := do
  let created ← createVm c.settings (order m path userData)
  let number := created.number
  let recorded ← Checkout.saveStatusSurely (record c number path) m
  let latest ← ensureProviderId recorded
  startVm c.settings (.int number)
  Discovery.discover c latest (some created.vm)

def ensure (c : Context) (m : Machine) (path : Value) : Action Outcome := do
  match m.status.vmId with
  | some number => existing c m number
  | none =>
    match ← userData c m with
    | none => return c.poll
    | some text => create c m (← path.toText) text

end VmOperator.Boot
