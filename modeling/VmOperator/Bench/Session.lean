import VmOperator.Bench.Clock
import VmOperator.Bench.Draft
import VmOperator.Bench.World
import VmOperator.Queue

/-! A session on the bench: an operator under its settings, the world that it works on and the copy of
a machine that writes of their own start from. The clock stands one minute later at every step. -/

namespace VmOperator.Bench

structure Session where
  settings : Settings
  layout : Image.Layout
  world : World
  minute : Nat := 0
  queue : Queue := {}
  copy : Option Draft := none

namespace Session

/-- the world after an operator was set up on it, with the session if that went well -/
def start (s : Settings) (layout : Option Image.Layout) (w : World) : Except Failure Session × World :=
  match layout with
  | some layout => (.ok { settings := s, layout, world := w }, w)
  | none =>
    let (layout, w) := w.run (Appliance.layout s).run
    (layout.map fun layout => { settings := s, layout, world := w }, w)

def context (s : Session) : Context := ⟨s.settings, s.layout, clock s.minute⟩

def perform {α : Type} (s : Session) (p : Program α) : α × Session :=
  let (result, world) := s.world.run p
  (result, { s with world })

def ask {α : Type} (s : Session) (a : Action α) : Except Failure α × Session := s.perform a.run

/-- the next step: its clock, and no record of what was asked before -/
def next (s : Session) : Session := { s with minute := s.minute + 1, world := s.world.clearRecords }

def process (s : Session) (k : Key) : Except Failure Queue.Verdict × Session :=
  let ((queue, verdict), s) := s.perform (Queue.process s.context s.queue k)
  (verdict, { s with queue })

/-- one invocation where the event is watched -/
def deliver (s : Session) (k : Key) (e : Queue.Event) : Option (Except Failure Queue.Verdict) × Session :=
  if Queue.isWatched k e then
    let (verdict, s) := s.process k
    (some verdict, s)
  else (none, s)

/-- a failure of a key and so many more; the delay after the last one -/
def backoff (s : Session) (k : Key) (more : Nat) : Except Failure Number × Session :=
  let (queue, delay) := (List.range more).foldl (fun (queue, delay) _ =>
    match delay with
    | .error e => (queue, .error e)
    | .ok _ => queue.backoff s.settings k) (s.queue.backoff s.settings k)
  (delay, { s with queue })

def forget (s : Session) (k : Key) : Session := { s with queue := s.queue.forget k }

/-- a fresh copy of a machine that must exist -/
def fetch (ns name : String) : Action Machine := do
  match ← Store.getMachine (.string ns) (.string name) with
  | some m => return m
  | none => throw .noMachine

def withMachine {α : Type} (s : Session) (ns name : String) (f : Context → Machine → Action α) :
    Except Failure α × Session :=
  s.ask (do f s.context (← fetch ns name))

/-- makes a fresh copy the one that writes start from -/
def checkOut (s : Session) (ns name : String) : Except Failure Machine × Session :=
  let (m, s) := s.ask (fetch ns name)
  (m, { s with copy := (m.toOption.map fun m => ⟨m, []⟩).or s.copy })

/-- a write needs a copy to start from -/
def noCopy : Failure := .wrongType (.fieldOf .null)

/-- edits the copy without writing it -/
def amend (s : Session) (e : Edit) : Session := { s with copy := s.copy.map (·.edit e) }

/-- edits the copy and writes it; the edit stays on the copy whatever becomes of the write -/
def write (s : Session) (e : Edit) (save : Machine → Action (Option Machine)) :
    Except Failure (Bool × Machine) × Session :=
  match s.copy.map (·.edit e) with
  | none => (.error noCopy, s)
  | some d =>
    let (saved, s) := match d.check with
      | .ok () => s.perform (Prod.fst <$> (save d.machine).run.mapCalls Draft.layCall (fun d _ _ => d) d)
      | .error e => (.error e, s)
    let latest : Draft := match saved with
      | .ok (some saved) => ⟨saved, []⟩
      | _ => d
    (saved.map fun saved => (saved.isSome, latest.machine), { s with copy := some latest })

def writeRetrying (s : Session) (e : Edit) : Except Failure Machine × Session :=
  match s.copy.map (·.edit e) with
  | none => (.error noCopy, s)
  | some d =>
    match d.check with
    | .error e => (.error e, { s with copy := some d })
    | .ok () =>
      let change (m : Machine) : Machine := (Draft.edit ⟨m, []⟩ e).machine
      let (((m, result), last), s) :=
        s.perform ((Checkout.saveStatusRetrying change d.machine).mapCalls Draft.layCall (Draft.follow e) d)
      let loose := match result with
        | .ok () => []
        | .error _ => last.loose
      (result.map fun _ => m, { s with copy := some ⟨m, loose⟩ })

end Session
end VmOperator.Bench
