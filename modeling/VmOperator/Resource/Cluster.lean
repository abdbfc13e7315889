import VmOperator.Resource.Machine

/-! A cluster as the store holds it; of its parts only the status is the operator's. -/

namespace VmOperator

structure Cluster where
  name : Value := .string ""
  ns : Value := .string ""
  ready : Bool := false
  provisioned : Bool := false
  conditions : List Condition := []
  resourceVersion : Value := .string ""
  stored : Fields := []
deriving DecidableEq, Repr

namespace Cluster

def ofValue (object : Value) : Except Failure Cluster := do
  let metadata ← object.section? "metadata"
  let status ← object.section? "status"
  return {
    name := ← metadata.get "name" (.string "")
    ns := ← metadata.get "namespace" (.string "")
    ready := (← status.get "ready" (.bool false)).isTruthy
    provisioned := ← MachineStatus.provisionedOf status
    conditions := ← (← status.itemsOf "conditions").mapM Condition.ofValue
    resourceVersion := ← metadata.get "resourceVersion" (.string "")
    stored := ← object.fields }

def statusValue (c : Cluster) : Value :=
  .object [("ready", .bool c.ready), ("initialization", .object [("provisioned", .bool c.provisioned)]),
    ("conditions", .array (c.conditions.map Condition.toValue))]

/-- the stored object with the status laid over it; a version needs metadata that is an object -/
def toValue (c : Cluster) : Except Failure Value := do
  let kept := c.stored.setDefault "metadata" (.object [])
  let versioned ←
    if c.resourceVersion.isTruthy then do
      let metadata ← ((kept.get? "metadata").getD (.object [])).fields
      pure (kept.set "metadata" (.object (metadata.set "resourceVersion" c.resourceVersion)))
    else pure kept
  return .object (versioned.set "status" c.statusValue)

def key (c : Cluster) : String := c.ns.text ++ "/" ++ c.name.text

end Cluster
end VmOperator
