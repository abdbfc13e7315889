import VmOperator.Appliance.Client
import VmOperator.Reconcile.Context

/-! Taking a machine down: its virtual machine is stopped and deleted, its disk removed, and only then
is the finalizer released. Waiting for the stop is counted in the status, one check an invocation. -/

namespace VmOperator.Teardown

open Appliance

/-- either the invocation ends, or the virtual machine is gone and it goes on with the machine -/
inductive Progress where
  | ends (o : Outcome)
  | gone (m : Machine)

def efiSuffix : String := ".efivars"

/-- forgets the number of a virtual machine that is gone -/
def forgetVm (c : Context) (m : Machine) : Action Progress := do
  match ← Checkout.saveStatus { m with status.vmId := none, status.stopAttempts := 0 } with
  | some saved => return .gone saved
  | none => return .ends c.step

/-- the virtual machine, none where the appliance says that it does not exist -/
def lookFor (c : Context) (number : Int) : Action (Option KnownVm) :=
  tryCatch (some <$> getVm c.settings (.int number)) fun
    | .fault (.appliance f) => do
      if ← f.notFound then return none else throw (.fault (.appliance f))
    | e => throw e

/-- asks for the stop; a fault of the appliance is passed over -/
def tryKill (c : Context) (number : Int) : Action Unit :=
  tryCatch (killVm c.settings (.int number)) fun
    | .fault (.appliance _) => return ()
    | e => throw e

/-- one more check that found the virtual machine running -/
def awaitStop (c : Context) (m : Machine) (number : Int) : Action Progress := do
  let attempts := m.status.stopAttempts
  if attempts = 0 then tryKill c number
  match ← Checkout.saveStatus { m with status.stopAttempts := attempts + 1 } with
  | some _ => return .ends (.requeue c.settings.stopPollInterval)
  | none => return .ends c.step

def removeVm (c : Context) (m : Machine) (number : Int) : Action Progress := do
  match ← lookFor c number with
  | none => forgetVm c m
  | some known =>
    if !known.vm.isStopped && m.status.stopAttempts < c.settings.stopPollAttempts then
      awaitStop c m number
    else
      deleteVm c.settings (.int number)
      forgetVm c m

def removeDisk (c : Context) (m : Machine) : Action Unit := do
  if m.status.diskPath.isTruthy then
    let path ← m.status.diskPath.toText
    discard (removeFiles c.settings [.string path, .string (path ++ efiSuffix)])

/-- releases the finalizer; every other one stays, in order -/
def release (c : Context) (m : Machine) : Action Outcome := do
  match ← Checkout.save { m with finalizers := m.finalizers.filter (· ≠ Machine.finalizerValue) } with
  | some _ => return .done
  | none => return c.step

def run (c : Context) (m : Machine) : Action Outcome := do
  if !m.hasFinalizer then return .done
  let progress ← match m.status.vmId with
    | some number => removeVm c m number
    | none => pure (.gone m)
  match progress with
  | .ends outcome => return outcome
  | .gone m =>
    removeDisk c m
    release c m

end VmOperator.Teardown
