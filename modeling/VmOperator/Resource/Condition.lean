import VmOperator.Value.Access

/-! Conditions of a resource. `assign` updates the first condition of a type in place or appends one;
the time of transition moves only when the status changes. What a condition says is kept as it is
given; types are told apart by value. -/

namespace VmOperator

inductive ConditionStatus where
  | yes
  | no
  | unknown
deriving DecidableEq, Repr

namespace ConditionStatus

def text : ConditionStatus → String
  | .yes => "True"
  | .no => "False"
  | .unknown => "Unknown"

def ofValue (v : Value) : Except Failure ConditionStatus :=
  if v = .string "True" then .ok .yes
  else if v = .string "False" then .ok .no
  else if v = .string "Unknown" then .ok .unknown
  else .error (.badValue (.unknownConditionStatus v))

end ConditionStatus

/-- the conditions that the operator publishes -/
inductive ConditionType where
  | imageReady
  | vmProvisioned
  | infrastructureReady
  | ready
deriving DecidableEq, Repr

def ConditionType.text : ConditionType → String
  | .imageReady => "ImageReady"
  | .vmProvisioned => "VMProvisioned"
  | .infrastructureReady => "InfrastructureReady"
  | .ready => "Ready"

/-- what is stored is kept as it is; a generation of null is none -/
structure Condition where
  type : Value
  status : Value
  reason : Value
  message : Value := .string ""
  lastTransition : Value := .string ""
  observedGeneration : Value := .null
deriving DecidableEq, Repr, Inhabited

namespace Condition

def ofValue (data : Value) : Except Failure Condition := do
  return {
    type := ← data.get "type" (.string "")
    status := ← data.get "status" (.string "Unknown")
    reason := ← data.get "reason" (.string "")
    message := ← data.get "message" (.string "")
    lastTransition := ← data.get "lastTransitionTime" (.string "")
    observedGeneration := ← data.get "observedGeneration" }

def toValue (c : Condition) : Value :=
  .object ([("type", c.type), ("status", c.status), ("reason", c.reason), ("message", c.message),
      ("lastTransitionTime", c.lastTransition)] ++
    (if c.observedGeneration = .null then [] else [("observedGeneration", c.observedGeneration)]))

/-- the first condition of a type -/
def find? (cs : List Condition) (type : Value) : Option Condition := cs.find? fun c => c.type.same type

/-- a condition after it was set again; `now` is the clock's value -/
def renew (c : Condition) (status : ConditionStatus) (reason message generation : Value)
    (now : String) : Condition :=
  { c with
    status := .string status.text
    reason
    message
    observedGeneration := generation
    lastTransition := if c.status = .string status.text then c.lastTransition else .string now }

def fresh (type : Value) (status : ConditionStatus) (reason message generation : Value) (now : String) :
    Condition where
  type
  status := .string status.text
  reason
  message
  lastTransition := .string now
  observedGeneration := generation

def assign (now : String) (type : Value) (status : ConditionStatus) (reason message generation : Value) :
    List Condition → List Condition
  | [] => [fresh type status reason message generation now]
  | c :: cs =>
    if c.type.same type then renew c status reason message generation now :: cs
    else c :: assign now type status reason message generation cs

end Condition
end VmOperator
