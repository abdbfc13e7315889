import VmOperator.Reconcile.Cluster

/-! Invocations by key. Failures of a key in a row are counted, and the delay before the next attempt
doubles with each of them up to a maximum; any other outcome resets the count. -/

namespace VmOperator

structure Key where
  kind : String
  ns : String
  name : String
deriving DecidableEq, Repr

namespace Key

def machineKind : String := "machine"
def clusterKind : String := "cluster"

def text (k : Key) : String := k.kind ++ ":" ++ k.ns ++ "/" ++ k.name

end Key

/-- the keys whose last outcome was a failure, with the failures in a row -/
structure Queue where
  failures : List (Key × Nat) := []
deriving DecidableEq, Repr

namespace Queue

def count (q : Queue) (k : Key) : Nat := ((q.failures.find? fun f => f.1 = k).map (·.2)).getD 0

def forget (q : Queue) (k : Key) : Queue := ⟨q.failures.filter fun f => f.1 ≠ k⟩

def countUp (q : Queue) (k : Key) : Queue := ⟨(q.forget k).failures ++ [(k, q.count k + 1)]⟩

/-- doublings of a double stop where the factor is beyond the largest one -/
def doublingLimit : Nat := 1024

/-- `base * 2 ^ doublings` -/
def doubled (base : Number) (doublings : Nat) : Except Failure Number :=
  match base with
  | .int b => .ok (.int (b * (Nat.pow 2 doublings : Nat)))
  | .double x => if doublings < doublingLimit then .ok (.double (x.shift doublings)) else .error .outOfRange

/-- the delay after so many failures in a row -/
def delay (s : Settings) (failures : Nat) : Except Failure Number := do
  return (← doubled s.backoffBase (failures - 1)).least s.backoffMax

/-- counts a failure and gives the delay before the next attempt -/
def backoff (s : Settings) (q : Queue) (k : Key) : Queue × Except Failure Number :=
  let q := q.countUp k
  (q, delay s (q.count k))

/-- what becomes of an invocation: it is settled, or handled again after a delay -/
inductive Verdict where
  | settled (o : Outcome)
  | again (message : String) (delay : Number)
deriving DecidableEq, Repr

def verdictMessage (k : Key) (o : Outcome) : Except Failure String := return k.text ++ ": " ++ (← o.describe)

/-- the queue after an outcome of `k`, and the verdict on it -/
def judge (s : Settings) (q : Queue) (k : Key) (o : Outcome) : Queue × Except Failure Verdict :=
  match o with
  | .failed _ =>
    let (q, delay) := q.backoff s k
    (q, do return .again (← verdictMessage k o) (← delay))
  | .requeue after => (q.forget k, do return .again (← verdictMessage k o) after)
  | .done => (q.forget k, .ok (.settled .done))

def reconcile (c : Context) (k : Key) : Action Outcome :=
  if k.kind == Key.machineKind then Reconcile.machine c k.ns k.name else Reconcile.cluster c k.ns k.name

/-- one invocation for a key; a failure that is no outcome leaves the counts alone -/
def process (c : Context) (q : Queue) (k : Key) : Program (Queue × Except Failure Verdict) := do
  match ← (reconcile c k).run with
  | .ok outcome => return q.judge c.settings k outcome
  | .error e => return (q, .error e)

/-- what happened to a watched object -/
inductive Event where
  | resume
  | create
  | update
  | delete
  | field
deriving DecidableEq, Repr

/-- machines and clusters are watched, but not their fields, nor the deletion of a cluster -/
def isWatched (k : Key) : Event → Bool
  | .resume | .create | .update => k.kind == Key.machineKind || k.kind == Key.clusterKind
  | .delete => k.kind == Key.machineKind
  | .field => false

end Queue

/-- how the operator is run on a cluster -/
structure Watch where
  clusterwide : Bool
  namespaces : List String
deriving DecidableEq, Repr

def Settings.watch (s : Settings) : Watch :=
  if s.watchNamespace == "" then ⟨true, []⟩ else ⟨false, [s.watchNamespace]⟩

end VmOperator
