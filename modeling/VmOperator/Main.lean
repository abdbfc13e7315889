import VmOperator.Bench.Clock
import VmOperator.Bench.World
import VmOperator.Command.Ending

/-! The command line on the bench. The document of the bench is one line of JSON on standard input;
settings come from the environment of the process, under the names of their variables in capitals. -/

namespace VmOperator.Main

def bindingName (setting : String) : String := (Settings.variableHead ++ setting).toUpper

def readEnvironment : IO EnvFile.Bindings := do
  let found ← Settings.entries.mapM fun e => do
    let value ← IO.getEnv (bindingName e.name)
    return value.toList.map fun v => (bindingName e.name, some v)
  return found.flatten

def usage : List String := ["run", "reconcile NAMESPACE NAME", "machines [--namespace NAMESPACE]"]

def linesOf : Printed → List String
  | .line text => [text]
  | .listing l => l.title :: (l.columns :: l.rows).map fun row => "\t".intercalate row

def escapeLines : Escape → List String
  | .settings problems => problems.map fun p => p.setting ++ " does not fit"
  | .row (.failure f) => [f.text]
  | .row (.unprintable v) => [v.literal ++ " cannot be shown"]

def accessOf (document : Value) : Access :=
  match Fields.get? (Bench.fieldsOf document) "kubeconfig" with
  | some (.string "local") => .ownFile
  | some (.string "missing") => .missing "no kubeconfig"
  | _ => .inCluster

def perform (c : Command) : IO UInt32 := do
  let document := (Json.read? (← (← IO.getStdin).getLine)).getD .null
  let program := c.execute (← readEnvironment) (accessOf document) (Bench.clock 0)
  let ending := ((Bench.World.ofValue document).run program).1
  (ending.printed.flatMap linesOf).forM fun line => IO.println line
  (ending.escaped.toList.flatMap escapeLines).forM fun line => IO.eprintln line
  return UInt32.ofNat ending.status

end VmOperator.Main

open VmOperator in
def main (args : List String) : IO UInt32 := do
  match Invocation.ofWords args with
  | .help =>
    Main.usage.forM fun line => IO.println line
    return 0
  | .misused =>
    Main.usage.forM fun line => IO.eprintln line
    return 2
  | .command c => Main.perform c
