import VmOperator.Text.Lines
import VmOperator.Text.Lower
import VmOperator.Value.Access

/-! The operator's journal. Records below the configured level are dropped; the others are written as
JSON objects, or for the console as a line with the fields in the order of their keys, and the traces
that came with the record below it. A record has no place for a failure that is still under way, so
`exc_info` is never written. -/

namespace VmOperator.Journal

inductive Level where
  | unset
  | debug
  | info
  | warning
  | error
  | critical
deriving DecidableEq, Repr

namespace Level

def rank : Level → Nat
  | .unset => 0
  | .debug => 10
  | .info => 20
  | .warning => 30
  | .error => 40
  | .critical => 50

def text : Level → String
  | .unset => "notset"
  | .debug => "debug"
  | .info => "info"
  | .warning => "warning"
  | .error => "error"
  | .critical => "critical"

def named : List (String × Level) := [("critical", .critical), ("fatal", .critical), ("error", .error),
  ("warn", .warning), ("warning", .warning), ("info", .info), ("debug", .debug), ("notset", .unset)]

/-- besides ASCII letters only a dotless i and a long s share their capital with a letter of a level -/
def foldChar (c : Char) : Char :=
  if c.toNat = 0x131 then 'i' else if c.toNat = 0x17F then 's' else Text.asciiLower c

/-- the level of a name in any case -/
def ofName? (name : String) : Option Level :=
  (named.find? fun e => e.1 == String.ofList (name.toList.map foldChar)).map (·.2)

/-- the level that records of a kind are written at -/
def ofRecord? (kind : String) : Option Level :=
  if kind == "exception" then some .error
  else if kind == "msg" then some .info
  else if kind == "notset" then none
  else (named.find? fun e => e.1 == kind).map (·.2)

/-- the levels that records are written at -/
def written : List Level := [.debug, .info, .warning, .error, .critical]

end Level

inductive Format where
  | json
  | console
deriving DecidableEq, Repr

structure Config where
  least : Level
  format : Format
deriving DecidableEq, Repr

/-- a level without such a name is refused; every format but the console's is JSON -/
def configure (level format : String) : Except Failure Config :=
  match Level.ofName? level with
  | some least => .ok ⟨least, if format == "console" then .console else .json⟩
  | none => .error (.missingKey level)

/-- an event of null is none -/
structure Record where
  level : Level
  event : Value
  fields : Fields
deriving Repr

namespace Record

/-- names of what every record has, which are no names of fields -/
def reserved : List String := ["event", "self"]

/-- a record of a level, refused where a field bears a reserved name -/
def ofFields (level : Level) (event : Value) (fields : Fields) : Except Failure Record :=
  match fields.find? fun f => reserved.contains f.1 with
  | some f => .error (.wrongType (.keyOf f.2))
  | none => .ok ⟨level, event, fields.erase "exc_info"⟩

/-- the record as one object; `time` stands for the moment it was written -/
def toValue (r : Record) (time : Value) : Value :=
  let event := if r.event = .null then r.fields else r.fields.set "event" r.event
  .object ((event.set "level" (.string r.level.text)).set "timestamp" time)

/-- characters for which a text is quoted on the console -/
def needsQuotes (c : Char) : Bool :=
  [0x20, 0x09, 0x3D, 0x0D, 0x0A, 0x22, 0x27].contains c.toNat

def consoleText (v : Value) : String :=
  match v with
  | .string s => if s.toList.any needsQuotes then v.literal else s
  | v => v.literal

/-- the fields that name a source, which stand in brackets in front of the others -/
def sources : List String := ["logger", "logger_name"]

/-- a trace, written below its record -/
def trace? (r : Record) (key : String) : Except Failure (Option String) :=
  match (r.fields.get? key).getD .null with
  | .null => .ok none
  | .string s => .ok (some s)
  | v => .error (.wrongType (.textOf v))

def ruler : String := String.ofList (List.replicate 79 '=')

/-- ends a colour; every part of a heading that comes from its record is followed by it -/
def reset : String := "\x1b[0m"

/-- the record in front of its traces -/
def heading (r : Record) (time : String) : String :=
  let own := ["event", "level", "timestamp", "stack", "exception"] ++ sources
  let named := sources.filterMap fun key => (r.fields.get? key).map fun v => "[" ++ v.text ++ reset ++ "]"
  let others := (Fields.sortKeys (r.fields.filter fun f => !own.contains f.1)).map fun f =>
    f.1 ++ reset ++ "=" ++ consoleText f.2 ++ reset
  let event := if r.event = .null then [] else [r.event.text ++ reset]
  " ".intercalate ([time, "[" ++ r.level.text ++ " ]"] ++ event ++ named ++ others)

/-- the record as it is shown, a ruler between two traces -/
def shown (r : Record) (time : String) : Except Failure String := do
  let heading := r.heading time
  match ← r.trace? "stack", ← r.trace? "exception" with
  | none, none => return heading
  | some stack, none => return heading ++ "\n" ++ stack
  | none, some exception => return heading ++ "\n" ++ exception
  | some stack, some exception =>
    return heading ++ "\n" ++ stack ++ "\n\n" ++ ruler ++ "\n\n" ++ exception

end Record

/-- what stands behind a colour code's two opening characters, none where it is not closed -/
def afterColour? (s : List Char) : Option (List Char) :=
  match s.dropWhile fun c => c == ';' || (0x30 ≤ c.toNat && c.toNat ≤ 0x39) with
  | 'm' :: rest => some rest
  | _ => none

/-- a text without its colour codes -/
def dropColours : (fuel : Nat) → List Char → List Char
  | 0, s => s
  | _ + 1, [] => []
  | fuel + 1, c :: rest =>
    if c.toNat = 0x1B ∧ rest.head? = some '[' then
      match afterColour? (rest.drop 1) with
      | some after => dropColours fuel after
      | none => c :: dropColours fuel rest
    else c :: dropColours fuel rest

/-- a line without its first word, one space between the others -/
def tail (line : List Char) : String :=
  " ".intercalate (((Text.words line).drop 1).map String.ofList)

/-- the lines that the console shows, each without colours and without its first word -/
def Record.lines (r : Record) : Except Failure (List String) := do
  let shown := (← r.shown "now") ++ "\n"
  return (Text.lines shown.toList).map fun line => tail (dropColours (line.length + 1) line)

def Config.admits (c : Config) (r : Record) : Bool := c.least.rank ≤ r.level.rank

/-- the record as it is written, nothing below the least level; `method_name` is reserved too, but only
a record that is written is refused for it -/
def Config.write (c : Config) (r : Record) : Except Failure (List Value) :=
  if c.admits r then
    match r.fields.get? "method_name", c.format with
    | some v, _ => .error (.wrongType (.keyOf v))
    | none, .json => .ok [r.toValue (.bool true)]
    | none, .console => return (← r.lines).map Value.string
  else .ok []

/-- the level of a rank, none below the least level; a rank between two levels has no name -/
def Config.levelAt? (c : Config) (rank : Value) : Except Failure (Option Level) :=
  match rank with
  | .number n =>
    if n.lt (.int c.least.rank) then .ok none
    else match Level.written.find? fun level => n.same (.int level.rank) with
      | some level => .ok (some level)
      | none => .error (.missingKey n.text)
  | .bool b =>
    if (if b then 1 else 0) < c.least.rank then .ok none
    else .error (.missingKey (Value.bool b).literal)
  | v => .error (.wrongType (.integerOf v))

end VmOperator.Journal
