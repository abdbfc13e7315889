import VmOperator.Command.Basic
import VmOperator.Command.Listing
import VmOperator.Queue
import VmOperator.Settings.Reader

/-! What a command comes to: what it prints, the status it ends with, and the operator that it leaves
running. A failure on the way to the appliance or the store is printed; one inside the work itself
escapes. -/

namespace VmOperator

/-- where the store's address and credentials come from -/
inductive Access where
  | inCluster
  | ownFile
  | missing (reason : String)
deriving DecidableEq, Repr

def Access.used? : Access → Option Access
  | .missing _ => none
  | a => some a

inductive Printed where
  | line (text : String)
  | listing (l : Listing)
deriving DecidableEq, Repr

/-- a failure that a command does not answer for -/
inductive Escape where
  | settings (problems : List Settings.Problem)
  | row (p : RowProblem)
deriving DecidableEq, Repr

/-- `journal` holds level and format once settings were read, `access` whatever was then used to reach
the store -/
structure Ending where
  status : Nat := 0
  printed : List Printed := []
  escaped : Option Escape := none
  journal : Option (String × String) := none
  access : Option Access := none
  watch : Option Watch := none
deriving DecidableEq, Repr

namespace Ending

def misused : Ending where
  status := 2

def escape (e : Escape) : Ending where
  status := 1
  escaped := some e

def failure (f : Failure) : Ending := escape (.row (.failure f))

/-- one line is printed, and the status says whether it is good news -/
def saying (good : Bool) (text : String) : Ending where
  status := if good then 0 else 1
  printed := [.line ((if good then Listing.readyMark else Listing.failedMark) ++ " " ++ text)]

end Ending

namespace Command

/-- store and appliance are reached, in this order; otherwise the reason why not -/
def connect (s : Settings) (a : Access) : Program (Except String Image.Layout) :=
  match a with
  | .missing reason => return .error reason
  | .inCluster | .ownFile => do
    match ← (Appliance.layout s).run with
    | .ok layout => return .ok layout
    | .error e => return .error e.text

def startOperator (s : Settings) (a : Access) : Program Ending := do
  match ← connect s a with
  | .ok _ => return { watch := some s.watch }
  | .error _ => return { status := 1 }

def reconcileOnce (s : Settings) (a : Access) (now ns name : String) : Program Ending := do
  match ← connect s a with
  | .error reason => return .saying false ("Failed to initialize: " ++ reason)
  | .ok layout =>
    match ← (Reconcile.machine ⟨s, layout, now⟩ ns name).run with
    | .error e => return .failure e
    | .ok outcome =>
      match outcome.describe with
      | .error e => return .failure e
      | .ok text => return .saying (!outcome.isFailed) (ns ++ "/" ++ name ++ ": " ++ text)

def listed (a : Access) (ns : String) : Program (Except String (List Machine)) :=
  match a with
  | .missing reason => return .error reason
  | .inCluster | .ownFile => do
    match ← (Store.listMachines (.string ns)).run with
    | .ok found => return .ok found
    | .error e => return .error e.text

def listMachines (a : Access) (ns : String) : Program Ending := do
  match ← listed a ns with
  | .error reason => return .saying false ("Failed to list FreeboxMachines: " ++ reason)
  | .ok found =>
    match Listing.ofMachines found with
    | .ok l => return { printed := [.listing l] }
    | .error p => return .escape (.row p)

def perform (s : Settings) (a : Access) (now : String) : Command → Program Ending
  | .run => startOperator s a
  | .reconcile ns name => reconcileOnce s a now ns name
  | .machines ns => listMachines a ns

/-- a command under the settings of an environment -/
def execute (environment : EnvFile.Bindings) (a : Access) (now : String) (c : Command) : Program Ending :=
  match Settings.read [] environment "" with
  | .error problems => return .escape (.settings problems)
  | .ok s => do
    let ending ← c.perform s a now
    return { ending with journal := some (s.logLevel, s.logFormat), access := a.used? }

end Command

def Invocation.execute (environment : EnvFile.Bindings) (a : Access) (now : String) :
    Invocation → Program Ending
  | .help => return {}
  | .misused => return .misused
  | .command c => c.execute environment a now

end VmOperator
