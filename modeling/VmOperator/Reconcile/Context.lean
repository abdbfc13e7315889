import VmOperator.Reconcile.Checkout
import VmOperator.Reconcile.Outcome
import VmOperator.Settings.Basic

/-! What every step of a reconciler may look at: settings, directories, and the clock's value, which
stands still during an invocation. -/

namespace VmOperator

structure Context where
  settings : Settings
  layout : Image.Layout
  now : String
deriving Repr

namespace Context

/-- look again while the appliance works -/
def poll (c : Context) : Outcome := .requeue c.settings.pollInterval

/-- go on with the next step -/
def step (c : Context) : Outcome := .requeue c.settings.stepInterval

end Context
end VmOperator
