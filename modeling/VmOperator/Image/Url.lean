import VmOperator.Text.Lines

/-! The path of a URL: what is left once scheme, authority, parameters, query and fragment are taken
off. A URL is refused only for its authority: brackets that do not enclose the host, a bracketed host
that is no IPv6 address, or a letter that stands for one of the delimiters. -/

namespace VmOperator.Url

inductive Problem where
  | unmatchedBracket
  | badFutureAddress
  | bracketedIPv4
  | notAnAddress (host : String)
  | disguisedDelimiter (authority : String)
deriving DecidableEq, Repr

/-- `s` up to the first character in `stops`, and from there on -/
def breakAt (stops : List Char) (s : List Char) : List Char × List Char :=
  (s.takeWhile fun c => !stops.contains c, s.dropWhile fun c => !stops.contains c)

def isLetter (c : Char) : Bool :=
  (0x41 ≤ c.toNat && c.toNat ≤ 0x5A) || (0x61 ≤ c.toNat && c.toNat ≤ 0x7A)

def isDigit (c : Char) : Bool := 0x30 ≤ c.toNat && c.toNat ≤ 0x39

def isHex (c : Char) : Bool :=
  isDigit c || (0x41 ≤ c.toNat && c.toNat ≤ 0x46) || (0x61 ≤ c.toNat && c.toNat ≤ 0x66)

def isSchemeChar (c : Char) : Bool := isLetter c || isDigit c || ['+', '-', '.'].contains c

/-- the scheme in front of the first colon, empty where what stands there is no scheme -/
def splitScheme (s : List Char) : List Char × List Char :=
  match breakAt [':'] s with
  | (c :: name, ':' :: rest) =>
    if isLetter c && name.all isSchemeChar then (c :: name, rest) else ([], s)
  | _ => ([], s)

def splitOn (sep : Char) (s : List Char) : List (List Char) := Text.splitWhere (· == sep) s

def isIPv4Part (part : List Char) : Bool :=
  !part.isEmpty && part.all isDigit && part.length ≤ 3 && (part == ['0'] || part.head? != some '0') &&
    part.foldl (fun n c => n * 10 + (c.toNat - 0x30)) 0 ≤ 255

def isIPv4 (host : List Char) : Bool :=
  let parts := splitOn '.' host
  parts.length == 4 && parts.all isIPv4Part

def isGroup (part : List Char) : Bool := !part.isEmpty && part.all isHex && part.length ≤ 4

/-- an IPv4 address in the last part counts as two groups -/
def groupsOf (parts : List (List Char)) : Option (List (List Char)) :=
  let last := parts.getLast?.getD []
  if last.contains '.' then
    if isIPv4 last then some (parts.dropLast ++ [['0'], ['0']]) else none
  else some parts

/-- groups around one gap, which stands for at least one group and may lie at either end -/
def areGroups (parts : List (List Char)) : Bool :=
  match ((List.range parts.length).filter fun i =>
    0 < i && i + 1 < parts.length && (parts.getD i []).isEmpty) with
  | [] => parts.length == 8 && parts.all isGroup
  | [gap] =>
    let high := parts.take gap
    let low := parts.drop (gap + 1)
    let high' := if high.head? == some [] then high.drop 1 else high
    let low' := if low.getLast? == some [] then low.dropLast else low
    (high.head? != some [] || high'.isEmpty) && (low.getLast? != some [] || low'.isEmpty) &&
      high'.length + low'.length < 8 && high'.all isGroup && low'.all isGroup
  | _ => false

/-- the address may carry a zone after one percent sign -/
def isIPv6 (host : List Char) : Bool :=
  let (address, zone) := breakAt ['%'] host
  let zoneFits := zone.isEmpty || (1 < zone.length && !(zone.drop 1).contains '%')
  let parts := splitOn ':' address
  !host.contains '/' && zoneFits && 3 ≤ parts.length &&
    match groupsOf parts with
    | some groups => groups.length ≤ 9 && areGroups groups
    | none => false

/-- a version in hexadecimal between `v` and a point, then anything -/
def isFutureAddress (host : List Char) : Bool :=
  let rest := host.drop 1
  let version := rest.takeWhile isHex
  !version.isEmpty && (rest.dropWhile isHex).head? == some '.' && 1 < (rest.dropWhile isHex).length

def checkBracketed (host : List Char) : Except Problem Unit :=
  if host.head? == some 'v' then
    if isFutureAddress host then .ok () else .error .badFutureAddress
  else if isIPv4 host then .error .bracketedIPv4
  else if isIPv6 host then .ok ()
  else .error (.notAnAddress (String.ofList host))

/-- letters whose compatible form holds one of the delimiters `/`, `?`, `#`, `@` and `:` -/
def disguises : List Nat :=
  [0x2047, 0x2048, 0x2049, 0x2100, 0x2101, 0x2105, 0x2106, 0x2A74, 0xFE13, 0xFE16, 0xFE55, 0xFE56,
    0xFE5F, 0xFE6B, 0xFF03, 0xFF0F, 0xFF1A, 0xFF1F, 0xFF20]

/-- what follows the last `stop`, the whole where there is none -/
def afterLast (stop : Char) (s : List Char) : List Char := (s.reverse.takeWhile (· != stop)).reverse

/-- the host of an authority that holds brackets: between the first pair behind any user information,
with nothing in front of it and at most a port after it, or in front of the port where only the user
information holds brackets -/
def bracketedHost (authority : List Char) : Except Problem (List Char) :=
  match breakAt ['['] (afterLast '@' authority) with
  | ([], _ :: bracketed) =>
    match breakAt [']'] bracketed with
    | (host, _ :: c :: _) => if c = ':' then .ok host else .error .unmatchedBracket
    | (host, _) => .ok host
  | (_, _ :: _) => .error .unmatchedBracket
  | (place, []) => .ok (breakAt [':'] place).1

def checkBrackets (authority : List Char) : Except Problem Unit :=
  match authority.contains '[', authority.contains ']' with
  | true, true => bracketedHost authority >>= checkBracketed
  | false, false => .ok ()
  | _, _ => .error .unmatchedBracket

def checkAuthority (authority : List Char) : Except Problem Unit :=
  if authority.any fun c => disguises.contains c.toNat then
    .error (.disguisedDelimiter (String.ofList authority))
  else .ok ()

/-- schemes whose last component may carry parameters after a semicolon -/
def parameterSchemes : List String :=
  ["", "ftp", "hdl", "prospero", "http", "imap", "https", "shttp", "rtsp", "rtspu", "sip", "sips",
    "mms", "sftp", "tel"]

def lowerLetter (c : Char) : Char :=
  if 0x41 ≤ c.toNat ∧ c.toNat ≤ 0x5A then Char.ofNat (c.toNat + 0x20) else c

/-- without the parameters of the last component -/
def dropParameters (p : List Char) : List Char :=
  let name := (p.reverse.takeWhile (· != '/')).reverse
  p.take (p.length - (breakAt [';'] name).2.length)

/-- without blanks and controls in front, and without tabs and line ends anywhere -/
def clean (s : List Char) : List Char :=
  (s.dropWhile fun c => c.toNat ≤ 0x20).filter fun c => c != '\t' && c != '\r' && c != '\n'

def path (url : String) : Except Problem String := do
  let (scheme, rest) := splitScheme (clean url.toList)
  let (authority, rest) := match rest with
    | '/' :: '/' :: more => breakAt ['/', '?', '#'] more
    | rest => ([], rest)
  checkBrackets authority
  checkAuthority authority
  let rest := (breakAt ['?'] (breakAt ['#'] rest).1).1
  let scheme := String.ofList (scheme.map lowerLetter)
  return String.ofList (if parameterSchemes.contains scheme then dropParameters rest else rest)

end VmOperator.Url
