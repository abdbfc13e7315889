import VmOperator.Store.Basic

/-! An object store on the bench. Every change of an object takes the next version number; writes made
from another version are refused. Rules may interfere with calls: another writer's change, a refusal
or a made-up answer. -/

namespace VmOperator.Bench

open Store

structure Place where
  plural : String
  ns : Value
  name : Value
deriving DecidableEq, Repr

structure Row where
  place : Place
  object : Value
deriving Repr

/-- what a rule does to the call it applies to, in this order -/
structure Interference where
  change : Option Value := none
  remove : Bool := false
  refusal : Option (Value × Value) := none
  answer : Option Value := none
deriving Repr

/-- applies to calls of a verb and perhaps a kind, after `skip` of them and for `times` of them -/
structure Rule where
  verb : String
  plural : Option String
  skip : Nat
  times : Nat
  effect : Interference
deriving Repr

structure Table where
  rows : List Row := []
  version : Nat := 0
  rules : List Rule := []
deriving Repr

def entriesOf : Value → Option (List (Value × Value))
  | .object fs => some (fs.map fun f => (.string f.1, f.2))
  | .pairs entries => some entries
  | _ => none

def valueAt (entries : List (Value × Value)) (key : Value) : Option Value :=
  (entries.find? fun e => e.1 = key).map (·.2)

mutual

/-- sets an entry to a change of it: objects merge, null removes -/
def mergeEntry (target : List (Value × Value)) (key : Value) : Value → List (Value × Value)
  | .null => target.filter fun e => e.1 ≠ key
  | .object change =>
    match (valueAt target key).bind entriesOf with
    | some old => Value.setEntry target key (Value.ofEntries (mergeEntries old change))
    | none => Value.setEntry target key (.object change)
  | v => Value.setEntry target key v

def mergeEntries (target : List (Value × Value)) : List (String × Value) → List (Value × Value)
  | [] => target
  | (key, v) :: rest => mergeEntries (mergeEntry target (.string key) v) rest

end

def merge (object change : Value) : Value :=
  match entriesOf object, change with
  | some old, .object new => .ofEntries (mergeEntries old new)
  | _, change => change

/-- the field of an object inside another one; null where there is none -/
def inner (object : Value) (outer key : String) : Value :=
  match object with
  | .object fs =>
    match Fields.get? fs outer with
    | some (.object inside) => (Fields.get? inside key).getD .null
    | _ => .null
  | _ => .null

def metadata (object : Value) (key : String) : Value := inner object "metadata" key

def placeOf (plural : String) (object : Value) : Place :=
  ⟨plural, (metadata object "namespace").orElse (.string ""), (metadata object "name").orElse (.string "")⟩

def fieldsOf : Value → Fields
  | .object fs => fs
  | _ => []

def stamped (version : Nat) (object : Value) : Value :=
  let inside := fieldsOf ((Fields.get? (fieldsOf object) "metadata").getD (.object []))
  .object ((fieldsOf object).set "metadata" (.object (inside.set "resourceVersion" (.string (toString version)))))

namespace Table

def find? (t : Table) (place : Place) : Option Value :=
  (t.rows.find? fun r => r.place = place).map (·.object)

def remove (t : Table) (place : Place) : Table :=
  { t with rows := t.rows.filter fun r => r.place ≠ place }

def setRow (place : Place) (object : Value) : List Row → List Row
  | [] => [⟨place, object⟩]
  | r :: rest => if r.place = place then ⟨place, object⟩ :: rest else r :: setRow place object rest

/-- stores an object under the next version and gives it as stored -/
def bump (t : Table) (place : Place) (object : Value) : Table × Value :=
  let version := t.version + 1
  let object := stamped version object
  ({ t with rows := setRow place object t.rows, version }, object)

/-- stores an object as its own writer does, who gives secrets no version -/
def store (t : Table) (place : Place) (object : Value) : Table × Value :=
  if place.plural == Kind.secrets.plural then ({ t with rows := setRow place object t.rows }, object)
  else t.bump place object

def put (t : Table) (plural : String) (object : Value) : Table := (t.store (placeOf plural object) object).1

/-- another writer's change; nothing where the object is missing -/
def touch (t : Table) (place : Place) (change : Value) : Table :=
  match t.find? place with
  | some object => (t.bump place (merge object change)).1
  | none => t

def seed (objects : Fields) : Table :=
  objects.sortKeys.foldl (fun t (plural, list) =>
    match list with
    | .array items => items.foldl (fun t object => t.put plural object) t
    | _ => t) {}

def missing : Reply := .refused (.int 404) (.string "Not Found")
def conflict : Reply := .refused (.int 409) (.string "Conflict")

/-- an object that is being deleted and holds no finalizer goes away with its last write -/
def isReleased (object : Value) : Bool :=
  (metadata object "deletionTimestamp").isTruthy && !(metadata object "finalizers").isTruthy

/-- a replacement made by `make` from the stored object, guarded by the incoming version -/
def replace (t : Table) (place : Place) (incoming : Value) (make : Value → Value) : Reply × Table :=
  match t.find? place with
  | none => (missing, t)
  | some stored =>
    if metadata incoming "resourceVersion" ≠ metadata stored "resourceVersion" then (conflict, t)
    else
      let (t, object) := t.store place (make stored)
      (.ok object, t)

/-- without the object at a place where that is released -/
def collect (t : Table) (place : Place) : Table :=
  match t.find? place with
  | some object => if isReleased object then t.remove place else t
  | none => t

/-- the status of one object in place of another's -/
def withStatusOf (source object : Value) : Value :=
  match Fields.get? (fieldsOf source) "status" with
  | some status => .object ((fieldsOf object).set "status" status)
  | none => .object ((fieldsOf object).erase "status")

def placeOfCall (c : Call) : Place :=
  match c with
  | .get k ns name | .replace k ns name _ | .replaceStatus k ns name _ => ⟨k.plural, ns, name⟩
  | .list k _ => ⟨k.plural, .null, .null⟩

def plainly (t : Table) : Call → Reply × Table
  | .get k ns name => ((t.find? ⟨k.plural, ns, name⟩).elim missing .ok, t)
  | .list k ns =>
    let rows := t.rows.filter fun r =>
      r.place.plural == k.plural && ns.all fun ns => r.place.ns = ns
    (.ok (.object [("items", .array (rows.map (·.object)))]), t)
  | .replace k ns name object =>
    let (reply, t) := t.replace ⟨k.plural, ns, name⟩ object fun stored => withStatusOf stored object
    (reply, if reply matches .ok _ then t.collect ⟨k.plural, ns, name⟩ else t)
  | .replaceStatus k ns name object =>
    t.replace ⟨k.plural, ns, name⟩ object fun stored => withStatusOf object stored

/-- the rules after a call, and what the first one that applies does to it -/
def takeRule (verb plural : String) : List Rule → List Rule × Option Interference
  | [] => ([], none)
  | r :: rest =>
    if r.verb == verb && r.plural.all (· == plural) then
      if 0 < r.skip then ({ r with skip := r.skip - 1 } :: rest, none)
      else (if r.times ≤ 1 then rest else { r with times := r.times - 1 } :: rest, some r.effect)
    else
      let (rest, effect) := takeRule verb plural rest
      (r :: rest, effect)

def answer (t : Table) (c : Call) : Reply × Table :=
  let (rules, effect) := takeRule c.verb.text c.kind.plural t.rules
  let t := { t with rules }
  match effect with
  | none => t.plainly c
  | some e =>
    let place := placeOfCall c
    let t := match e.change with
      | some change => t.touch place change
      | none => t
    let t := if e.remove then t.remove place else t
    match e.refusal, e.answer with
    | some (status, reason), _ => (.refused status reason, t)
    | none, some v => (.ok v, t)
    | none, none => t.plainly c

end Table
end VmOperator.Bench
