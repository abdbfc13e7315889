import VmOperator.Reconcile.Boot
import VmOperator.Reconcile.ImagePipeline
import VmOperator.Reconcile.Teardown

/-! One invocation for a machine: teardown where it is being deleted, otherwise finalizer, image,
virtual machine, addresses. A fault ends the invocation as a failed outcome. -/

namespace VmOperator.Reconcile

/-- a fault becomes the outcome; any other failure stays one -/
def reported (action : Action Outcome) : Action Outcome :=
  tryCatch action fun
    | .fault f => return .failed f
    | e => throw e

/-- the machine with its finalizer in place, none where another writer was first -/
def ensureFinalizer (m : Machine) : Action (Option Machine) :=
  if m.hasFinalizer then return some m
  else Checkout.save { m with finalizers := m.finalizers ++ [Machine.finalizerValue] }

def boot (c : Context) (m : Machine) : Action Outcome := do
  let path ← ImagePipeline.finalPath c m
  Boot.ensure c m (.string path)

/-- brings up a machine that holds the finalizer -/
def provision (c : Context) (m : Machine) : Action Outcome := do
  if !m.spec.imageUrl.isTruthy then return .done
  if (← m.failedImageReason?).isSome then return .done
  if m.imageReady then boot c m
  else match ← ImagePipeline.advance c m with
    | .ends outcome => return outcome
    | .ready m => boot c m

/-- what an invocation does with the machine it fetched -/
def settle (c : Context) (m : Machine) : Action Outcome := do
  if m.isBeingDeleted then Teardown.run c m
  else match ← ensureFinalizer m with
    | none => return c.step
    | some m => provision c m

def machine (c : Context) (ns name : String) : Action Outcome :=
  reported do
    match ← Store.getMachine (.string ns) (.string name) with
    | none => return .done
    | some m => settle c m

end VmOperator.Reconcile
