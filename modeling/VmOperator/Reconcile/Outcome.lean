import VmOperator.Failure

/-! What an invocation of a reconciler comes to: nothing to do until the next change, another
invocation after a delay, or a fault that is retried with backoff. -/

namespace VmOperator

inductive Outcome where
  | done
  | requeue (after : Number)
  | failed (f : Fault)
deriving DecidableEq, Repr

namespace Outcome

def isFailed : Outcome → Bool
  | .failed _ => true
  | _ => false

/-- a delay beyond the largest double has no description -/
def describe : Outcome → Except Failure String
  | .done => .ok "done"
  | .requeue after =>
    match after.general? with
    | some text => .ok ("requeue after " ++ text ++ "s")
    | none => .error .outOfRange
  | .failed f => .ok ("failed: " ++ f.message)

end Outcome
end VmOperator
