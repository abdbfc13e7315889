/-! The command line. It names one of three commands and gives its arguments and options, in any
order; what stands after a double dash is an argument, unless it stands where the command is named and
names none. A line that fits no command is misused, and one that asks for help is answered with help
whatever its arguments are. -/

namespace VmOperator

inductive Command where
  | run
  | reconcile (ns name : String)
  | machines (ns : String)
deriving DecidableEq, Repr

/-- what a command line asks for -/
inductive Invocation where
  | help
  | misused
  | command (c : Command)
deriving DecidableEq, Repr

namespace Command

/-- the words of a command line by their part in it; a later value of an option stands before an
earlier one -/
structure Words where
  help : Bool := false
  values : List (String × String) := []
  arguments : List String := []
deriving DecidableEq, Repr

/-- a dash alone is an argument -/
def isOption (word : String) : Bool :=
  match word.toList with
  | '-' :: _ :: _ => true
  | _ => false

/-- the name of an option and the value that an equals sign joins to it -/
def splitOption (word : String) : String × Option String :=
  let cs := word.toList
  let name := String.ofList (cs.takeWhile (· != '='))
  match cs.dropWhile (· != '=') with
  | _ :: value => (name, some (String.ofList value))
  | [] => (name, none)

def helpOption : String := "--help"

/-- sorts the words of a line into `w`; `known` are the options, each of which takes a value. Without
`mixed` no option follows the first argument. None where an option is unknown or lacks its value. -/
def sortWords (known : List String) (mixed : Bool) : (w : Words) → List String → Option Words
  | w, [] => some w
  | w, word :: rest =>
    if word == "--" then some { w with arguments := w.arguments ++ rest }
    else if isOption word then
      match splitOption word with
      | (name, none) =>
        if name == helpOption then sortWords known mixed { w with help := true } rest
        else if known.contains name then
          match rest with
          | value :: rest => sortWords known mixed { w with values := (name, value) :: w.values } rest
          | [] => none
        else none
      | (name, some value) =>
        if known.contains name then
          sortWords known mixed { w with values := (name, value) :: w.values } rest
        else none
    else if mixed then sortWords known mixed { w with arguments := w.arguments ++ [word] } rest
    else some { w with arguments := w.arguments ++ word :: rest }

def namespaceOption : String := "--namespace"

/-- the options of a command, and the command that its words make -/
def shape? (name : String) : Option (List String × (Words → Option Command)) :=
  match name with
  | "run" => some ([], fun w =>
    match w.arguments with
    | [] => some .run
    | _ => none)
  | "reconcile" => some ([], fun w =>
    match w.arguments with
    | [ns, name] => some (.reconcile ns name)
    | _ => none)
  | "machines" => some ([namespaceOption], fun w =>
    match w.arguments with
    | [] => some (.machines (((w.values.find? fun v => v.1 == namespaceOption).map (·.2)).getD ""))
    | _ => none)
  | _ => none

/-- help is asked for in front of any argument -/
def asksHelp (words : List String) : Bool := (sortWords [] false {} words).any (·.help)

end Command

open Command in
def Invocation.ofWords (words : List String) : Invocation :=
  match sortWords [] false {} words with
  | none => .misused
  | some line =>
    if line.help then .help
    else match line.arguments with
      | [] => .misused
      | name :: rest =>
        match shape? name with
        | none => if asksHelp (name :: rest) then .help else .misused
        | some (options, make) =>
          match sortWords options true {} rest with
          | none => .misused
          | some w => if w.help then .help else (make w).elim .misused .command

end VmOperator
