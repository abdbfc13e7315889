import VmOperator.Bytes.Base64
import VmOperator.Bytes.Utf8
import VmOperator.Image.Url
import VmOperator.Text.Integer
import VmOperator.Value.Literal

/-! What can go wrong. A `Fault` is trouble with the appliance or the store that the operator reports
and retries; every other `Failure` is a value that had the wrong shape where it was used. The wording
of each cause stands in `message` and `text`. -/

namespace VmOperator

/-- a call that the appliance did not carry out -/
structure ApplianceFault where
  operation : Value
  message : Value
  statusCode : Value := .null
  errorCode : Value := .null
deriving DecidableEq, Repr

inductive StoreFault where
  | refused (action key : String) (status reason : Value)
  | vanished (key : String)
  | stated (message : Value)
deriving DecidableEq, Repr

/-- a write that came after another writer's -/
inductive ConflictFault where
  | refused (action key : String) (reason : Value)
  | stated (message : Value)
deriving DecidableEq, Repr

/-- a bootstrap secret that exists and cannot be used -/
inductive BootstrapFault where
  | noValue (secret : String)
  | notText (secret : String)
  | stated (message : Value)
deriving DecidableEq, Repr

/-- a recorded progress that is no phase -/
inductive ProgressFault where
  | unknownPhase (tag progress : Value)
  | badTask (task : Value) (tag : String)
  | downloadWithoutTask
  | missingPaths (tag : String) (progress : Value)
  | stated (message : Value)
deriving DecidableEq, Repr

inductive Fault where
  | general (message : Value)
  | appliance (f : ApplianceFault)
  | store (f : StoreFault)
  | conflict (f : ConflictFault)
  | bootstrap (f : BootstrapFault)
  | progress (f : ProgressFault)
  | task (step reason detail : Value)
deriving DecidableEq, Repr

/-- a value of the right type that stands for nothing -/
inductive BadValue where
  | notAnInteger (literal : String)
  | tooManyDigits (count : Nat)
  | nanToInteger
  | notAscii
  | notAPair (index length : Nat)
  | unknownConditionStatus (status : Value)
  | nothingToSubmit (tag : String)
  | textAsNumber
  | url (p : Url.Problem)
deriving DecidableEq, Repr

/-- a use that the type of a value does not allow -/
inductive Misuse where
  | fieldOf (v : Value)
  | itemsOf (v : Value)
  | integerOf (v : Value)
  | bytesOf (v : Value)
  | textOf (v : Value)
  | lookupIn (v : Value)
  | keyOf (v : Value)
  | pairOf (index : Nat)
  | formatOf (v : Value)
deriving DecidableEq, Repr

inductive Failure where
  | fault (f : Fault)
  | wrongType (use : Misuse)
  | missingKey (key : String)
  | noMachine
  | outOfRange
  | badValue (p : BadValue)
  | badBase64 (p : Base64.Problem)
  | badUtf8 (p : Utf8.Problem)
deriving DecidableEq, Repr

namespace ApplianceFault

/-- error codes by which the appliance says that an object does not exist -/
def notFoundCodes : List String := ["noent", "not_found", "no_such_vm", "invalid_id"]

/-- whether the object was missing; an error code that is a list or an object cannot be looked up -/
def notFound (f : ApplianceFault) : Except Failure Bool :=
  if f.statusCode.isNumber 404 then .ok true
  else match f.errorCode with
    | .string code => .ok (notFoundCodes.contains code)
    | v@(.array _) | v@(.object _) | v@(.pairs _) => .error (.wrongType (.keyOf v))
    | _ => .ok false

def text (f : ApplianceFault) : String :=
  f.operation.text ++ ": " ++ f.message.text ++
    (if f.errorCode.isTruthy then " (error_code=" ++ f.errorCode.text ++ ")" else "") ++
    (if f.statusCode = .null then "" else " [HTTP " ++ f.statusCode.text ++ "]")

end ApplianceFault

def StoreFault.text : StoreFault → String
  | .refused action key status reason =>
    action ++ " " ++ key ++ ": HTTP " ++ status.text ++ " " ++ reason.text
  | .vanished key => "FreeboxMachine " ++ key ++ " disappeared during update"
  | .stated message => message.text

def ConflictFault.text : ConflictFault → String
  | .refused action key reason => action ++ " " ++ key ++ ": conflict (" ++ reason.text ++ ")"
  | .stated message => message.text

def BootstrapFault.text : BootstrapFault → String
  | .noValue secret => "bootstrap secret " ++ secret ++ " missing 'value' key"
  | .notText secret => "bootstrap secret " ++ secret ++ " is not UTF-8 text"
  | .stated message => message.text

def ProgressFault.text : ProgressFault → String
  | .unknownPhase tag progress => "unknown phase " ++ tag.literal ++ " in progress " ++ progress.literal
  | .badTask task tag => "invalid task id " ++ task.literal ++ " for " ++ tag
  | .downloadWithoutTask => "Downloading progress without a task id"
  | .missingPaths tag progress => tag ++ " progress requires src and dst, got " ++ progress.literal
  | .stated message => message.text

def Fault.message : Fault → String
  | .general message => message.text
  | .appliance f => f.text
  | .store f => f.text
  | .conflict f => f.text
  | .bootstrap f => f.text
  | .progress f => f.text
  | .task step _ detail =>
    step.text ++ " failed" ++ (if detail.isTruthy then ": " ++ detail.text else "")

def Url.Problem.text : Url.Problem → String
  | .unmatchedBracket => "Invalid IPv6 URL"
  | .badFutureAddress => "IPvFuture address is invalid"
  | .bracketedIPv4 => "An IPv4 address cannot be in brackets"
  | .notAnAddress host => Text.quoted host ++ " does not appear to be an IPv4 or IPv6 address"
  | .disguisedDelimiter authority =>
    "netloc '" ++ authority ++ "' contains invalid characters under NFKC normalization"

def BadValue.message : BadValue → String
  | .notAnInteger literal =>
    "invalid literal for int() with base 10: " ++ String.ofList ((Text.quoted literal).toList.take 200)
  | .tooManyDigits count =>
    "Exceeds the limit (4300 digits) for integer string conversion: value has " ++ toString count ++
      " digits; use sys.set_int_max_str_digits() to increase the limit"
  | .nanToInteger => "cannot convert float NaN to integer"
  | .notAscii => "string argument should contain only ASCII characters"
  | .notAPair index length =>
    "dictionary update sequence element #" ++ toString index ++ " has length " ++ toString length ++
      "; 2 is required"
  | .unknownConditionStatus status => status.literal ++ " is not a valid ConditionStatus"
  | .nothingToSubmit tag => tag ++ " has no step to submit"
  | .textAsNumber => "Unknown format code 'g' for object of type 'str'"
  | .url p => p.text

def base64Message : Base64.Problem → String
  | .incorrectPadding => "Incorrect padding"
  | .lonelyCharacter count =>
    "Invalid base64-encoded string: number of data characters (" ++ toString count ++
      ") cannot be 1 more than a multiple of 4"

def utf8Message (p : Utf8.Problem) : String :=
  let reason := match p.fault with
    | .startByte => "invalid start byte"
    | .continuationByte => "invalid continuation byte"
    | .endOfData => "unexpected end of data"
  let place :=
    if p.count = 1 then
      "byte 0x" ++ String.ofList (Text.hexDigits 2 p.byte.toNat) ++ " in position " ++ toString p.start
    else "bytes in position " ++ toString p.start ++ "-" ++ toString (p.start + p.count - 1)
  "'utf-8' codec can't decode " ++ place ++ ": " ++ reason

def Misuse.text : Misuse → String
  | .fieldOf v => "'" ++ v.typeName ++ "' object has no attribute 'get'"
  | .itemsOf v => "'" ++ v.typeName ++ "' object is not iterable"
  | .integerOf v =>
    "int() argument must be a string, a bytes-like object or a real number, not '" ++ v.typeName ++ "'"
  | .bytesOf v => "argument should be a bytes-like object or ASCII string, not '" ++ v.typeName ++ "'"
  | .textOf v => "a text is needed, not '" ++ v.typeName ++ "'"
  | .lookupIn v => "nothing can be looked up in '" ++ v.typeName ++ "'"
  | .keyOf v => "unhashable type: '" ++ v.typeName ++ "'"
  | .formatOf v => "unsupported format string passed to " ++ v.typeName ++ ".__format__"
  | .pairOf index => "cannot convert dictionary update sequence element #" ++ toString index ++ " to a sequence"

def Failure.text : Failure → String
  | .fault f => f.message
  | .wrongType use => use.text
  | .missingKey key => Text.quoted key
  | .noMachine => "there is no such machine"
  | .outOfRange => "cannot convert float infinity to integer"
  | .badValue p => p.message
  | .badBase64 p => base64Message p
  | .badUtf8 p => utf8Message p

end VmOperator
