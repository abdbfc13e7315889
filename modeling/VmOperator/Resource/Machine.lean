import VmOperator.Resource.Condition

/-! A machine as the store holds it. The parts that the operator works with are read out of the stored
object, which is kept beside them; `toValue` lays them over it again, so that whatever else the object
holds is written back unchanged. -/

namespace VmOperator

def apiGroup : String := "infrastructure.cluster.x-k8s.io"
def apiVersion : String := "v1alpha1"

structure Address where
  address : Value
  type : Value := .string "InternalIP"
deriving DecidableEq, Repr

def Address.toValue (a : Address) : Value := .object [("type", a.type), ("address", a.address)]

/-- what is asked for; an integer of zero and a value that counts as unset stand for nothing given -/
structure MachineSpec where
  name : Value := .string ""
  vcpus : Int := 0
  memoryMb : Int := 0
  diskSizeGb : Int := 0
  imageUrl : Value := .string ""
  providerId : Value := .string ""
deriving DecidableEq, Repr

namespace MachineSpec

def ofValue (data : Value) : Except Failure MachineSpec := do
  return {
    name := ← data.get "name" (.string "")
    vcpus := ← data.intOf "vcpus"
    memoryMb := ← data.intOf "memoryMB"
    diskSizeGb := ← data.intOf "diskSizeGB"
    imageUrl := ← data.get "imageURL" (.string "")
    providerId := ← data.get "providerID" (.string "") }

def toFields (s : MachineSpec) : Fields :=
  [("name", s.name), ("vcpus", .int s.vcpus), ("memoryMB", .int s.memoryMb),
    ("diskSizeGB", .int s.diskSizeGb), ("imageURL", s.imageUrl),
    ("providerID", s.providerId)].filter fun f => f.2.isTruthy

end MachineSpec

/-- what was observed; only the operator writes it. The progress is an object. -/
structure MachineStatus where
  progress : Value := .object []
  vmId : Option Int := none
  diskPath : Value := .string ""
  addresses : List Address := []
  providerId : Value := .string ""
  ready : Bool := false
  provisioned : Bool := false
  conditions : List Condition := []
  stopAttempts : Int := 0
deriving DecidableEq, Repr

namespace MachineStatus

/-- entries without an address are left out -/
def addressesOf (items : List Value) : Except Failure (List Address) := do
  let found ← items.mapM fun item => do
    let address ← item.get "address"
    if address.isTruthy then
      return [({ address, type := ← item.get "type" (.string "InternalIP") } : Address)]
    else return []
  return found.flatten

def provisionedOf (data : Value) : Except Failure Bool := do
  return (← (← data.section? "initialization").get "provisioned" (.bool false)).isTruthy

def ofValue (data : Value) : Except Failure MachineStatus := do
  let vmId ← data.get "vmId"
  return {
    progress := ← (← data.section? "progress").toObject
    vmId := ← if vmId = .null then pure none else some <$> vmId.toInt
    diskPath := ← data.get "diskPath" (.string "")
    addresses := ← addressesOf (← data.itemsOf "addresses")
    providerId := ← data.get "providerID" (.string "")
    ready := (← data.get "ready" (.bool false)).isTruthy
    provisioned := ← provisionedOf data
    conditions := ← (← data.itemsOf "conditions").mapM Condition.ofValue
    stopAttempts := ← (← (← data.section? "teardown").get "stopAttempts" (.int 0)).toInt }

def toFields (s : MachineStatus) : Fields :=
  [("ready", .bool s.ready), ("initialization", .object [("provisioned", .bool s.provisioned)])] ++
    (if s.progress.isTruthy then [("progress", s.progress)] else []) ++
    (match s.vmId with
      | some id => [("vmId", .int id)]
      | none => []) ++
    (if s.diskPath.isTruthy then [("diskPath", s.diskPath)] else []) ++
    (if s.addresses.isEmpty then [] else [("addresses", .array (s.addresses.map Address.toValue))]) ++
    (if s.providerId.isTruthy then [("providerID", s.providerId)] else []) ++
    (if s.conditions.isEmpty then [] else [("conditions", .array (s.conditions.map Condition.toValue))]) ++
    (if s.stopAttempts = 0 then [] else [("teardown", .object [("stopAttempts", .int s.stopAttempts)])])

def toValue (s : MachineStatus) : Value := .object s.toFields

end MachineStatus

structure OwnerReference where
  apiVersion : Value := .string ""
  kind : Value := .string ""
  name : Value := .string ""
  uid : Value := .string ""
deriving DecidableEq, Repr

namespace OwnerReference

def ofValue (data : Value) : Except Failure OwnerReference := do
  return {
    apiVersion := ← data.get "apiVersion" (.string "")
    kind := ← data.get "kind" (.string "")
    name := ← data.get "name" (.string "")
    uid := ← data.get "uid" (.string "") }

def slash : Value := .string "/"

/-- the part of the version in front of a slash, empty without one -/
def group (o : OwnerReference) : Except Failure String :=
  match o.apiVersion with
  | .string s =>
    .ok (if s.toList.contains '/' then String.ofList (s.toList.takeWhile (· != '/')) else "")
  | .array items =>
    if items.contains slash then .error (.wrongType (.lookupIn o.apiVersion)) else .ok ""
  | .object fs => if Fields.has fs "/" then .error (.wrongType (.lookupIn o.apiVersion)) else .ok ""
  | v => .error (.wrongType (.lookupIn v))

end OwnerReference

structure Machine where
  name : Value := .string ""
  ns : Value := .string ""
  spec : MachineSpec := {}
  status : MachineStatus := {}
  finalizers : List Value := []
  resourceVersion : Value := .string ""
  generation : Value := .null
  deletionTimestamp : Value := .null
  owners : List OwnerReference := []
  stored : Fields := []
deriving DecidableEq, Repr

namespace Machine

def kind : String := "FreeboxMachine"
def finalizer : String := "freeboxmachine.infrastructure.cluster.x-k8s.io/finalizer"
def finalizerValue : Value := .string finalizer

def defaultVcpus : Int := 2
def defaultMemoryMb : Int := 2048
def defaultDiskSizeGb : Int := 20

def ofValue (object : Value) : Except Failure Machine := do
  let metadata ← object.section? "metadata"
  return {
    name := ← metadata.get "name" (.string "")
    ns := ← metadata.get "namespace" (.string "")
    spec := ← MachineSpec.ofValue (← object.section? "spec")
    status := ← MachineStatus.ofValue (← object.section? "status")
    finalizers := ← metadata.itemsOf "finalizers"
    resourceVersion := ← metadata.get "resourceVersion" (.string "")
    generation := ← metadata.get "generation"
    deletionTimestamp := ← metadata.get "deletionTimestamp"
    owners := ← (← metadata.itemsOf "ownerReferences").mapM OwnerReference.ofValue
    stored := ← object.fields }

/-- the metadata with the machine's own keys set -/
def metadataOver (m : Machine) (metadata : Fields) : Fields :=
  let named := ((metadata.set "name" m.name).set "namespace" m.ns).set "finalizers" (.array m.finalizers)
  if m.resourceVersion.isTruthy then named.set "resourceVersion" m.resourceVersion else named

/-- the stored object with the machine's parts laid over it; metadata or a spec that is no object has
no place for them -/
def toValue (m : Machine) : Except Failure Value := do
  let typed := (m.stored.setDefault "apiVersion" (.string (apiGroup ++ "/" ++ VmOperator.apiVersion))).setDefault
    "kind" (.string kind)
  let metadata ← ((typed.get? "metadata").getD (.object [])).fields
  let named := typed.set "metadata" (.object (m.metadataOver metadata))
  let spec ← ((named.get? "spec").getD (.object [])).fields
  let specified := named.set "spec" (.object (spec.update m.spec.toFields))
  return .object (specified.set "status" m.status.toValue)

/-- namespace and name -/
def key (m : Machine) : String := m.ns.text ++ "/" ++ m.name.text

/-- the name of the virtual machine on the appliance -/
def vmName (m : Machine) : Value := m.spec.name.orElse m.name

def vcpus (m : Machine) : Int := if 0 < m.spec.vcpus then m.spec.vcpus else defaultVcpus

def memoryMb (m : Machine) : Int := if 0 < m.spec.memoryMb then m.spec.memoryMb else defaultMemoryMb

def diskSizeGb (m : Machine) : Int :=
  if 0 < m.spec.diskSizeGb then m.spec.diskSizeGb else defaultDiskSizeGb

def diskSizeBytes (m : Machine) : Int := m.diskSizeGb * (1024 * 1024 * 1024)

def providerId (m : Machine) : Value := m.status.providerId.orElse m.spec.providerId

def isBeingDeleted (m : Machine) : Bool := m.deletionTimestamp.isTruthy

def hasFinalizer (m : Machine) : Bool := m.finalizers.contains finalizerValue

/-- the name of the first owner that is a machine of the cluster's own group; null where there is none -/
def ownerName (m : Machine) : Except Failure Value := go m.owners
where
  go : List OwnerReference → Except Failure Value
    | [] => .ok .null
    | o :: rest =>
      if o.kind = .string "Machine" then do
        if (← o.group) == "cluster.x-k8s.io" then return o.name else go rest
      else go rest

/-- sets a condition of the machine, observed at its generation -/
def setCondition (m : Machine) (now : String) (type : ConditionType) (status : ConditionStatus)
    (reason message : String) : Machine :=
  let conditions := Condition.assign now (.string type.text) status (.string reason) (.string message)
    m.generation m.status.conditions
  { m with status.conditions := conditions }

def imageCondition? (m : Machine) : Option Condition :=
  Condition.find? m.status.conditions (.string ConditionType.imageReady.text)

def imageReady (m : Machine) : Bool :=
  m.imageCondition?.any fun c => c.status = .string ConditionStatus.yes.text

/-- the reason of a recorded image failure -/
def failedImageReason? (m : Machine) : Except Failure (Option String) :=
  match m.imageCondition? with
  | none => .ok none
  | some c =>
    if c.status ≠ .string ConditionStatus.no.text then .ok none
    else do
      let reason ← c.reason.toText
      return if "Failed".toList.isSuffixOf reason.toList then some reason else none

end Machine
end VmOperator
