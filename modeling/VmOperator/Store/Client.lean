import VmOperator.Program
import VmOperator.Settings.Basic

/-! What the operator asks of the store. A missing object is no fault when it is fetched; any other
refusal is one, and a refusal with status 409 means that another writer was first. -/

namespace VmOperator.Store

def refusal (action key : String) (status reason : Value) : Fault :=
  if status.isNumber 409 then .conflict (.refused action key reason)
  else .store (.refused action key status reason)

def pairKey (ns name : Value) : String := ns.text ++ "/" ++ name.text

/-- the object, none where it is missing -/
def fetch (action : String) (kind : Kind) (ns name : Value) : Action (Option Value) := do
  match ← Action.call (.get kind ns name) with
  | .ok object => return some object
  | .refused status reason =>
    if status.isNumber 404 then return none
    else Action.fault (refusal action (pairKey ns name) status reason)

/-- the object as the store keeps it after a replacement -/
def write (action key : String) (c : Call) : Action Value := do
  match ← Action.call c with
  | .ok object => return object
  | .refused status reason => Action.fault (refusal action key status reason)

def getMachine (ns name : Value) : Action (Option Machine) := do
  match ← fetch "get FreeboxMachine" .machines ns name with
  | some object => return some (← Machine.ofValue object)
  | none => return none

/-- the machines of a namespace, of all where it counts as unset -/
def listMachines (ns : Value) : Action (List Machine) := do
  let call : Call := .list .machines (if ns.isTruthy then some ns else none)
  let result ← write "list FreeboxMachines" call.place call
  let items ← (← result.get "items" (.array [])).items
  items.mapM fun item => (Machine.ofValue item : Except Failure Machine)

/-- replaces metadata and spec -/
def updateMachine (m : Machine) : Action Machine := do
  let object ← m.toValue
  Machine.ofValue (← write "update FreeboxMachine" m.key (.replace .machines m.ns m.name object))

/-- replaces the status alone -/
def updateMachineStatus (m : Machine) : Action Machine := do
  let object ← m.toValue
  Machine.ofValue
    (← write "update FreeboxMachine status" m.key (.replaceStatus .machines m.ns m.name object))

def getCluster (ns name : Value) : Action (Option Cluster) := do
  match ← fetch "get FreeboxCluster" .clusters ns name with
  | some object => return some (← Cluster.ofValue object)
  | none => return none

def updateClusterStatus (c : Cluster) : Action Cluster := do
  let object ← c.toValue
  Cluster.ofValue
    (← write "update FreeboxCluster status" c.key (.replaceStatus .clusters c.ns c.name object))

/-- the machine of the cluster that owns this one, as it is stored; null stands for none -/
def getOwner (s : Settings) (m : Machine) : Action (Option Value) := do
  let name ← m.ownerName
  if name = .null then return none
  let owner ← fetch "get Machine" (.owners s.clusterApiVersion) m.ns name
  return owner.filter (· ≠ .null)

/-- the name of the secret in an owner's bootstrap section, null where there is none -/
def bootstrapSecret (owner : Value) : Except Failure Value := do
  let bootstrap ← (← owner.section? "spec").section? "bootstrap"
  return (← bootstrap.get "dataSecretName").orElse .null

def holdsText (part whole : List Char) : Bool :=
  (List.range (whole.length + 1)).any fun i => part.isPrefixOf (whole.drop i)

/-- the entry of a secret's data that holds the bootstrap data -/
def bootstrapEntry (secret : String) (data : Value) : Except Failure Value :=
  let missing : Failure := .fault (.bootstrap (.noValue secret))
  let misused : Failure := .wrongType (.lookupIn data)
  match data.orElse (.object []) with
  | .object fs => (Fields.get? fs "value").elim (.error missing) .ok
  | .array items => .error (if items.contains (.string "value") then misused else missing)
  | .string s => .error (if holdsText "value".toList s.toList then misused else missing)
  | _ => .error misused

/-- bootstrap data, none while the secret does not exist -/
def getBootstrapData (ns name : Value) : Action (Option (List UInt8)) := do
  match ← fetch "get Secret" .secrets ns name with
  | none => return none
  | some secret =>
    let entry ← bootstrapEntry (pairKey ns name) (← secret.get "data")
    return some (← Appliance.decodeBytes entry)

end VmOperator.Store
