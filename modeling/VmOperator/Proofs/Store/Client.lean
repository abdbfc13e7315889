import VmOperator.Proofs.Store.World
import VmOperator.Store.Client

/-! What is asked of the store about a machine is one call and a reading of the reply: `getMachine_eq`,
`updateMachine_eq`, `updateMachineStatus_eq`. -/

namespace VmOperator

theorem Action.run_bind_call {α β : Type} {p : Action α} {c : Store.Call} {read : Store.Reply → Except Failure α}
    (h : p.run = .call c fun reply => .done (read reply)) (f : α → Action β) :
    (p >>= f).run = .call c fun reply =>
      match read reply with
      | .ok a => (f a).run
      | .error e => .done (.error e) := by
  rw [ExceptT.run_bind, h]
  show Program.call _ _ = _
  congr 1
  funext reply
  show Program.bind (.done (read reply)) _ = _
  cases read reply <;> rfl

namespace Store

def fetched (action key : String) : Reply → Except Failure (Option Value)
  | .ok o => .ok (some o)
  | .refused status reason =>
    if status.isNumber 404 then .ok none else .error (.fault (refusal action key status reason))

theorem fetch_eq (action : String) (kind : Kind) (ns name : Value) :
    (fetch action kind ns name).run =
      .call (.get kind ns name) fun reply => .done (fetched action (pairKey ns name) reply) := by
  have asked : (Action.call (.get kind ns name)).run = .call (.get kind ns name) fun reply => .done (.ok reply) := rfl
  unfold fetch
  rw [Action.run_bind_call asked]
  congr 1
  funext reply
  cases reply with
  | ok o => rfl
  | refused status reason =>
    unfold fetched
    dsimp only
    split <;> rfl

def got (key : String) (reply : Reply) : Except Failure (Option Machine) := do
  match ← fetched "get FreeboxMachine" key reply with
  | some o => return some (← Machine.ofValue o)
  | none => return none

section Got

variable {key : String} {o status reason : Value} {m : Machine}

theorem got_ok (h : Machine.ofValue o = .ok m) : got key (.ok o) = .ok (some m) := by
  unfold got fetched
  rw [ok_bind]
  dsimp only
  rw [h]
  rfl

theorem got_unreadable {e : Failure} (h : Machine.ofValue o = .error e) : got key (.ok o) = .error e := by
  unfold got fetched
  rw [ok_bind]
  dsimp only
  rw [h]
  rfl

theorem got_missing (h : status.isNumber 404 = true) : got key (.refused status reason) = .ok none := by
  have missing : fetched "get FreeboxMachine" key (.refused status reason) = .ok none := if_pos h
  rw [got, missing]
  rfl

theorem got_refused (h : status.isNumber 404 = false) :
    got key (.refused status reason) = .error (.fault (refusal "get FreeboxMachine" key status reason)) := by
  have refused : fetched "get FreeboxMachine" key (.refused status reason) =
      .error (.fault (refusal "get FreeboxMachine" key status reason)) := by
    rw [fetched, h]
    rfl
  rw [got, refused]
  rfl

theorem refusal_of_conflict {action : String} (h : status.isNumber 409 = true) :
    refusal action key status reason = .conflict (.refused action key reason) := if_pos h

theorem refusal_of_other {action : String} (h : status.isNumber 409 = false) :
    refusal action key status reason = .store (.refused action key status reason) := by
  unfold refusal
  rw [h]
  rfl

end Got

theorem getMachine_eq (ns name : Value) :
    (getMachine ns name).run = .call (.get .machines ns name) fun reply => .done (got (pairKey ns name) reply) := by
  unfold getMachine got
  rw [Action.run_bind_call (fetch_eq ..)]
  congr 1
  funext reply
  cases fetched "get FreeboxMachine" (pairKey ns name) reply with
  | error e => rfl
  | ok found =>
    cases found with
    | none => rfl
    | some o =>
      dsimp only [ok_bind]
      generalize Machine.ofValue o = read
      cases read <;> rfl

def written (action key : String) : Reply → Except Failure Machine
  | .ok o => Machine.ofValue o
  | .refused status reason => .error (.fault (refusal action key status reason))

theorem updateMachine_eq {m : Machine} {x : Value} (h : m.toValue = .ok x) :
    (updateMachine m).run = .call (.replace .machines m.ns m.name x) fun reply =>
      .done (written "update FreeboxMachine" m.key reply) := by
  unfold updateMachine
  rw [h]
  show Program.call _ _ = _
  congr 1
  funext reply
  cases reply <;> rfl

theorem updateMachineStatus_eq {m : Machine} {x : Value} (h : m.toValue = .ok x) :
    (updateMachineStatus m).run = .call (.replaceStatus .machines m.ns m.name x) fun reply =>
      .done (written "update FreeboxMachine status" m.key reply) := by
  unfold updateMachineStatus
  rw [h]
  show Program.call _ _ = _
  congr 1
  funext reply
  cases reply <;> rfl

end Store
end VmOperator
