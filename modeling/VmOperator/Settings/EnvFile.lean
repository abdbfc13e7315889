import VmOperator.Text.Blank

/-! Files of environment variables: one `KEY=value` a line, with an optional `export`, comments, and
values that may stand in quotes. A key without a value is bound to none. Where a line cannot be read
any further, the rest of it is passed over. References to other keys take the value of an earlier
key, else of the environment, else their own default. -/

namespace VmOperator.EnvFile

abbrev Bindings := List (String × Option String)

def quoteMark : Char := Char.ofNat 0x22
def tick : Char := Char.ofNat 0x27
def backslash : Char := Char.ofNat 0x5C

def isInlineBlank (c : Char) : Bool := Text.isGap c && c != '\n'

def byteOrderMark : Char := Char.ofNat 0xFEFF

/-- a byte order mark may stand in front of a file -/
def dropMark : List Char → List Char
  | [] => []
  | c :: rest => if c = byteOrderMark then rest else c :: rest

/-- line ends are written in three ways -/
def unifyLines : List Char → List Char
  | '\r' :: '\n' :: rest => '\n' :: unifyLines rest
  | '\r' :: rest => '\n' :: unifyLines rest
  | c :: rest => c :: unifyLines rest
  | [] => []

/-- the text up to the closing mark, and what follows the mark; a backslash keeps the character after
it, and none is read without a closing mark -/
def readQuoted (mark : Char) : List Char → Option (List Char × List Char)
  | [] => none
  | [c] => if c = mark then some ([], []) else none
  | c :: d :: rest =>
    if c = mark then some ([], d :: rest)
    else if c = backslash then (readQuoted mark rest).map fun (v, after) => (c :: d :: v, after)
    else (readQuoted mark (d :: rest)).map fun (v, after) => (c :: v, after)

def escaped? (known : List (Char × Char)) (c : Char) : Option Char :=
  (known.find? fun e => e.1 == c).map (·.2)

def unescape (known : List (Char × Char)) : List Char → List Char
  | c :: d :: rest =>
    if c = backslash then
      match escaped? known d with
      | some e => e :: unescape known rest
      | none => c :: unescape known (d :: rest)
    else c :: unescape known (d :: rest)
  | s => s

def tickEscapes : List (Char × Char) := [(backslash, backslash), (tick, tick)]

def quoteEscapes : List (Char × Char) :=
  [(backslash, backslash), (tick, tick), (quoteMark, quoteMark), ('a', Char.ofNat 7), ('b', Char.ofNat 8),
    ('f', Char.ofNat 12), ('n', '\n'), ('r', '\r'), ('t', '\t'), ('v', Char.ofNat 11)]

/-- without the comment that a blank and a hash begin -/
def dropComment : (blank : Bool) → List Char → List Char
  | _, [] => []
  | blank, c :: rest =>
    if c = '#' ∧ blank then [] else c :: dropComment (Text.isGap c) rest

def trimEnd (s : List Char) : List Char := (s.reverse.dropWhile Text.isGap).reverse

/-- a value and the rest of the file after it; `blank` says whether blanks stand in front of it -/
def readValue (blank : Bool) (s : List Char) : Option (List Char × List Char) :=
  match s with
  | [] => some ([], [])
  | c :: rest =>
    if c = tick then (readQuoted tick rest).map fun (v, after) => (unescape tickEscapes v, after)
    else if c = quoteMark then
      (readQuoted quoteMark rest).map fun (v, after) => (unescape quoteEscapes v, after)
    else some (trimEnd (dropComment blank (s.takeWhile (· != '\n'))), s.dropWhile (· != '\n'))

def skipExport (s : List Char) : List Char :=
  let after := s.drop 6
  if "export".toList.isPrefixOf s && (after.takeWhile isInlineBlank).length != 0 then
    after.dropWhile isInlineBlank
  else s

/-- a key, empty where a comment stands in its place -/
def readKey (s : List Char) : Option (List Char × List Char) :=
  match s with
  | [] => none
  | c :: rest =>
    if c = '#' then some ([], s)
    else if c = tick then
      let key := rest.takeWhile (· != tick)
      match rest.dropWhile (· != tick) with
      | _ :: after => if key.isEmpty then none else some (key, after)
      | [] => none
    else
      let isKey (c : Char) : Bool := c != '=' && c != '#' && !Text.isGap c
      if (s.takeWhile isKey).isEmpty then none else some (s.takeWhile isKey, s.dropWhile isKey)

def skipLine (s : List Char) : List Char := (s.dropWhile (· != '\n')).drop 1

/-- a key, empty in front of a comment, with the value bound to it -/
abbrev Line := List Char × Option (List Char)

/-- after a value only blanks, a comment and the line's end may follow -/
def endLine (line : Line) (s : List Char) : Option Line × List Char :=
  match s.dropWhile isInlineBlank with
  | [] => (some line, [])
  | c :: rest =>
    if c = '\n' then (some line, rest)
    else (if c = '#' then some line else none, skipLine (c :: rest))

/-- one line, none where it cannot be read, and the rest of the file -/
def readLine (s : List Char) : Option Line × List Char :=
  match readKey (skipExport s) with
  | none => (none, skipLine s)
  | some (key, after) =>
    match after.dropWhile isInlineBlank with
    | '=' :: more =>
      let start := more.dropWhile isInlineBlank
      match readValue (start.length < more.length) start with
      | some (value, after) => endLine (key, some value) after
      | none => (none, skipLine start)
    | after => endLine (key, none) after

def readLines : (fuel : Nat) → List Char → List Line
  | 0, _ => []
  | fuel + 1, s =>
    match s.dropWhile Text.isGap with
    | [] => []
    | c :: rest =>
      let (line, after) := readLine (c :: rest)
      line.toList ++ readLines fuel after

/-- binds a key in its first place -/
def bind : Bindings → String → Option String → Bindings
  | [], key, value => [(key, value)]
  | (k, old) :: rest, key, value =>
    if k = key then (k, value) :: rest else (k, old) :: bind rest key value

/-- the last binding of a key -/
def lookup (bindings : Bindings) (key : String) : Option (Option String) :=
  (bindings.reverse.find? fun b => b.1 == key).map (·.2)

/-- a reference after its opening brace: the name, the default, and what follows the closing brace -/
def readReference (s : List Char) : Option (String × String × List Char) :=
  let close := Char.ofNat 0x7D
  let name := s.takeWhile fun c => c != close && c != ':'
  match s.dropWhile fun c => c != close && c != ':' with
  | ':' :: '-' :: more =>
    match more.dropWhile (· != close) with
    | _ :: after => some (String.ofList name, String.ofList (more.takeWhile (· != close)), after)
    | [] => none
  | c :: after => if c = close then some (String.ofList name, "", after) else none
  | [] => none

/-- references are replaced; a key that is bound to no value leaves nothing, whatever its default -/
def expand (known : Bindings) : (fuel : Nat) → List Char → List Char
  | 0, s => s
  | _ + 1, [] => []
  | fuel + 1, c :: rest =>
    if c = '$' ∧ rest.head? = some (Char.ofNat 0x7B) then
      match readReference (rest.drop 1) with
      | some (name, default, after) =>
        (((lookup known name).getD (some default)).getD "").toList ++ expand known fuel after
      | none => c :: expand known fuel rest
    else c :: expand known fuel rest

def bindLine (environment done : Bindings) (line : Line) : Bindings :=
  if line.1.isEmpty then done
  else bind done (String.ofList line.1)
    (line.2.map fun value => String.ofList (expand (environment ++ done) (value.length + 1) value))

/-- the bindings of a file, read in an environment, by the first place of their keys -/
def read (environment : Bindings) (text : String) : Bindings :=
  let s := unifyLines (dropMark text.toList)
  (readLines (s.length + 1) s).foldl (bindLine environment) []

end VmOperator.EnvFile
