import VmOperator.Bench.Table
import VmOperator.Bytes.Wide
import VmOperator.Program
import VmOperator.Value.Json

/-! A bench on which the operator's programs run: an appliance that answers from a script and an object
store in memory, with a record of everything that was asked of them. -/

namespace VmOperator.Bench

open Appliance (Request Reply)

/-- the replies of each route in turn; the last one stays -/
abbrev Script := List (String × List Reply)

def routeOf (r : Request) : String := r.method.text ++ " " ++ r.path

def nextReply (route : String) : Script → Reply × Script
  | [] => (.unreachable ("no route for " ++ route), [])
  | (known, replies) :: rest =>
    if known == route then
      match replies with
      | [] => (.unreachable ("no route for " ++ route), (known, []) :: rest)
      | [last] => (last, (known, [last]) :: rest)
      | first :: more => (first, (known, more) :: rest)
    else
      let (reply, rest) := nextReply route rest
      (reply, (known, replies) :: rest)

/-- replaces the replies of the routes that the second script names -/
def Script.update (s new : Script) : Script :=
  s.filter (fun route => !new.any fun n => n.1 == route.1) ++ new

/-- a call to the store with the status it ended with -/
structure CallRecord where
  call : Store.Call
  status : Value
deriving Repr

structure World where
  script : Script := []
  table : Table := {}
  requests : List Request := []
  calls : List CallRecord := []
deriving Repr

def statusOf : Store.Reply → Value
  | .ok _ => .int 200
  | .refused status _ => status

namespace World

def handler : Program.Handler World where
  send r w :=
    let (reply, script) := nextReply (routeOf r) w.script
    (reply, { w with script, requests := w.requests ++ [r] })
  call c w :=
    let (reply, table) := w.table.answer c
    (reply, { w with table, calls := w.calls ++ [⟨c, statusOf reply⟩] })

def run {α : Type} (w : World) (p : Program α) : α × World := p.run handler w

def clearRecords (w : World) : World := { w with requests := [], calls := [] }

end World

/-- a scripted reply: no connection, a raw text, a body, or a result inside a successful body -/
def replyOf (v : Value) : Reply :=
  let fs := fieldsOf v
  let status := (fs.get? "status").getD (.int 200)
  match fs.get? "transport", fs.get? "text", fs.get? "body" with
  | some text, _, _ => .unreachable text.text
  | none, some text, _ => .answer status ((Wide.text? (Utf8.encode text.text)).bind Json.read?)
  | none, none, some body => .answer status (some body)
  | none, none, none =>
    .answer status (some (.object [("success", .bool true), ("result", (fs.get? "result").getD .null)]))

def scriptOf (v : Value) : Script :=
  (fieldsOf v).map fun (route, replies) =>
    match replies with
    | .array items => (route, items.map replyOf)
    | reply => (route, [replyOf reply])

def natOf (v : Value) (default : Nat) : Nat :=
  match v with
  | .int n => n.toNat
  | _ => default

def ruleOf (v : Value) : Rule :=
  let fs := fieldsOf v
  { verb := ((fs.get? "verb").getD .null).text
    plural := (fs.get? "plural").map Value.text
    skip := natOf ((fs.get? "skip").getD .null) 0
    times := natOf ((fs.get? "times").getD .null) 1
    effect := {
      change := fs.get? "touch"
      remove := ((fs.get? "remove").getD .null).isTruthy
      refusal := (fs.get? "status").map fun status => (status, (fs.get? "reason").getD .null)
      answer := fs.get? "return" } }

def rulesOf (v : Value) : List Rule :=
  match v with
  | .array items => items.map ruleOf
  | _ => []

/-- the world that a document describes: objects, the appliance's script, and rules for the store -/
def World.ofValue (v : Value) : World :=
  let fs := fieldsOf v
  let table := Table.seed (fieldsOf ((fs.get? "objects").getD .null))
  { script := scriptOf ((fs.get? "appliance").getD .null)
    table := { table with rules := rulesOf ((fs.get? "faults").getD .null) } }

end VmOperator.Bench
