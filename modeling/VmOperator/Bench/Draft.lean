import VmOperator.Bench.Table
import VmOperator.Program

/-! A copy of a machine whose parts may be set to any value. A number or a flag that is set is written
as it was given, so it is kept beside the machine and laid over the object on its way to the store. -/

namespace VmOperator.Bench

inductive Part where
  | name
  | ns
  | finalizers
  | resourceVersion
  | generation
  | deletionTimestamp
  | spec
  | specName
  | vcpus
  | memoryMb
  | diskSizeGb
  | imageUrl
  | specProviderId
  | status
  | progress
  | addresses
  | conditions
  | vmId
  | diskPath
  | statusProviderId
  | ready
  | provisioned
  | stopAttempts
  | stored
deriving DecidableEq, Repr

/-- assignments to parts, in order -/
abbrev Edit := List (Part × Value)

structure Draft where
  machine : Machine
  loose : Edit := []
deriving Repr

namespace Part

/-- parts in the order in which their values are looked at before a write -/
def looked : List Part := [.stored, .finalizers, .spec, .status, .progress, .addresses, .conditions]

/-- a value that the part cannot be written with -/
def check (p : Part) (v : Value) : Except Failure Unit :=
  match p with
  | .stored => discard v.fields
  | .finalizers => discard v.items
  | .progress => if v.isTruthy then discard v.toObject else .ok ()
  | .addresses | .conditions => if v.isTruthy then .error (.wrongType (.fieldOf v)) else .ok ()
  | .spec | .status => .error (.wrongType (.fieldOf v))
  | _ => .ok ()

/-- sets a field of an object inside the object -/
def setInner (object : Value) (outer key : String) (v : Value) : Value :=
  let inside := fieldsOf ((Fields.get? (fieldsOf object) outer).getD .null)
  .object ((fieldsOf object).set outer (.object (inside.set key v)))

/-- lays a part over an object that was written without it; what counts as unset is left out, but for
flags and for a number of a virtual machine that is not null -/
def lay (object : Value) (p : Part) (v : Value) : Value :=
  let unlessUnset (outer key : String) (v : Value) : Value :=
    if v.isTruthy then setInner object outer key v else object
  match p with
  | .vcpus => unlessUnset "spec" "vcpus" v
  | .memoryMb => unlessUnset "spec" "memoryMB" v
  | .diskSizeGb => unlessUnset "spec" "diskSizeGB" v
  | .vmId => if v = .null then object else setInner object "status" "vmId" v
  | .ready => setInner object "status" "ready" v
  | .provisioned => setInner object "status" "initialization" (.object [("provisioned", v)])
  | .stopAttempts =>
    if v.isTruthy then setInner object "status" "teardown" (.object [("stopAttempts", v)]) else object
  | _ => object

/-- the machine with a part set; one that is kept beside it is made neutral -/
def assign (m : Machine) (p : Part) (v : Value) : Machine :=
  match p with
  | .name => { m with name := v }
  | .ns => { m with ns := v }
  | .finalizers => { m with finalizers := v.items.toOption.getD [] }
  | .resourceVersion => { m with resourceVersion := v }
  | .generation => { m with generation := v }
  | .deletionTimestamp => { m with deletionTimestamp := v }
  | .specName => { m with spec.name := v }
  | .imageUrl => { m with spec.imageUrl := v }
  | .specProviderId => { m with spec.providerId := v }
  | .diskPath => { m with status.diskPath := v }
  | .statusProviderId => { m with status.providerId := v }
  | .progress => { m with status.progress := (v.orElse (.object [])).toObject.toOption.getD (.object []) }
  | .addresses => { m with status.addresses := [] }
  | .conditions => { m with status.conditions := [] }
  | .vcpus => { m with spec.vcpus := 0 }
  | .memoryMb => { m with spec.memoryMb := 0 }
  | .diskSizeGb => { m with spec.diskSizeGb := 0 }
  | .vmId => { m with status.vmId := none }
  | .ready => { m with status.ready := false }
  | .provisioned => { m with status.provisioned := false }
  | .stopAttempts => { m with status.stopAttempts := 0 }
  | .stored => { m with stored := fieldsOf v }
  | .spec | .status => m

end Part

namespace Draft

def set (d : Draft) (p : Part) (v : Value) : Draft :=
  ⟨p.assign d.machine v, (d.loose.filter fun e => e.1 ≠ p) ++ [(p, v)]⟩

def edit (d : Draft) (e : Edit) : Draft := e.foldl (fun d (p, v) => d.set p v) d

/-- why the draft cannot be written -/
def check (d : Draft) : Except Failure Unit :=
  Part.looked.forM fun p =>
    match d.loose.find? fun e => e.1 = p with
    | some (_, v) => p.check v
    | none => .ok ()

def lay (d : Draft) (object : Value) : Value := d.loose.foldl (fun object (p, v) => p.lay object v) object

def layCall (d : Draft) (c : Store.Call) : Store.Call := c.mapObject d.lay

/-- the draft after a call: where a machine was fetched, its edit starts anew from that -/
def follow (e : Edit) (d : Draft) (c : Store.Call) (reply : Store.Reply) : Draft :=
  match c, reply with
  | .get .., .ok object =>
    match Machine.ofValue object with
    | .ok latest => edit ⟨latest, []⟩ e
    | .error _ => d
  | _, _ => d

end Draft
end VmOperator.Bench
