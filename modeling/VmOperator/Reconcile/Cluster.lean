import VmOperator.Reconcile.Machine

/-! One invocation for a cluster: it is marked provisioned once, for there is nothing to build. -/

namespace VmOperator.Reconcile

/-- the cluster marked ready and provisioned -/
def markProvisioned (now : String) (k : Cluster) : Cluster :=
  let conditions := Condition.assign now (.string ConditionType.ready.text) .yes (.string "Provisioned")
    (.string "FreeboxCluster is ready") .null k.conditions
  { k with ready := true, provisioned := true, conditions }

/-- a conflict is tried again soon, every other fault is reported -/
def publishCluster (c : Context) (k : Cluster) : Action Outcome :=
  tryCatch (do
      discard (Store.updateClusterStatus (markProvisioned c.now k))
      return .done) fun
    | .fault (.conflict _) => return c.step
    | e => throw e

def cluster (c : Context) (ns name : String) : Action Outcome :=
  reported do
    match ← Store.getCluster (.string ns) (.string name) with
    | none => return .done
    | some k => if k.provisioned then return .done else publishCluster c k

end VmOperator.Reconcile
