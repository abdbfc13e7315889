import VmOperator.Image.Name
import VmOperator.Value.Access

/-! How far the image of a machine has come. The phase is all that is remembered between two
invocations; a step without a task was entered and not submitted yet. `encode` and `decode` go
between phases and the progress stored with the machine. -/

namespace VmOperator

inductive Phase (Task : Type := Int) where
  | notStarted
  | downloading (task : Task)
  | extracting (src dst : Value) (task : Option Task)
  | copying (src dst : Value) (task : Option Task)
  | renaming (src dst : Value) (task : Option Task)
  | resizing (task : Option Task)
deriving DecidableEq, Repr, Inhabited

namespace Phase

variable {Task : Type}

def tag : Phase Task → String
  | .notStarted => "NotStarted"
  | .downloading _ => "Downloading"
  | .extracting .. => "Extracting"
  | .copying .. => "Copying"
  | .renaming .. => "Renaming"
  | .resizing _ => "Resizing"

def task? : Phase Task → Option Task
  | .notStarted => none
  | .downloading task => some task
  | .extracting _ _ task | .copying _ _ task | .renaming _ _ task | .resizing task => task

def paths? : Phase Task → Option (Value × Value)
  | .extracting src dst _ | .copying src dst _ | .renaming src dst _ => some (src, dst)
  | _ => none

/-- the phase with its task changed -/
def map {Other : Type} (f : Task → Other) : Phase Task → Phase Other
  | .notStarted => .notStarted
  | .downloading task => .downloading (f task)
  | .extracting src dst task => .extracting src dst (task.map f)
  | .copying src dst task => .copying src dst (task.map f)
  | .renaming src dst task => .renaming src dst (task.map f)
  | .resizing task => .resizing (task.map f)

/-- the fields of a phase; a task that is written as null is left out -/
def encodeBy (write : Task → Value) : Phase Task → Fields
  | .notStarted => []
  | p =>
    [("phase", .string p.tag)] ++
      (match p.task?.map write with
        | none | some .null => []
        | some task => [("taskId", task)]) ++
      (match p.paths? with
        | some (src, dst) => [("src", src), ("dst", dst)]
        | none => [])

def encode (p : Phase) : Fields := p.encodeBy Value.int

/-- the kinds of phase, by which a recorded tag is looked up -/
inductive Kind where
  | notStarted
  | downloading
  | resizing
  | moving (make : Value → Value → Option Int → Phase)

def kind? : String → Option Kind
  | "NotStarted" => some .notStarted
  | "Downloading" => some .downloading
  | "Extracting" => some (.moving .extracting)
  | "Copying" => some (.moving .copying)
  | "Renaming" => some (.moving .renaming)
  | "Resizing" => some .resizing
  | _ => none

def fault (f : ProgressFault) : Failure := .fault (.progress f)

/-- the recorded task; one that is no integer makes the progress unreadable -/
def decodeTask (tag : String) (recorded : Value) : Except Failure (Option Int) :=
  if recorded = .null then .ok none
  else match recorded.toInt with
    | .ok n => .ok (some n)
    | .error .outOfRange => .error .outOfRange
    | .error _ => .error (fault (.badTask recorded tag))

def decodeKind (kind : Kind) (tag : String) (progress : Value) (fs : Fields) (task : Option Int) :
    Except Failure Phase :=
  match kind, task with
  | .notStarted, _ => .ok .notStarted
  | .downloading, none => .error (fault .downloadWithoutTask)
  | .downloading, some n => .ok (.downloading n)
  | .resizing, task => .ok (.resizing task)
  | .moving make, task =>
    let src := (fs.get? "src").getD .null
    let dst := (fs.get? "dst").getD .null
    if src.isTruthy && dst.isTruthy then .ok (make src dst task)
    else .error (fault (.missingPaths tag progress))

/-- the phase of a recorded progress; progress that counts as unset means nothing was started -/
def decode (progress : Value) : Except Failure Phase :=
  if !progress.isTruthy then .ok .notStarted
  else do
    let fs ← progress.fields
    let recorded : Value := (fs.get? "phase").getD .null
    match recorded with
    | .string tag =>
      match kind? tag with
      | none => .error (fault (.unknownPhase recorded progress))
      | some kind => do
        let task ← decodeTask tag ((fs.get? "taskId").getD .null)
        decodeKind kind tag progress fs task
    | _ => .error (fault (.unknownPhase recorded progress))

/-- the phase once its step was submitted as `task` -/
def withTask (task : Task) : Phase Task → Except Failure (Phase Task)
  | .notStarted => .ok (.downloading task)
  | .downloading _ => .error (.badValue (.nothingToSubmit "Downloading"))
  | .extracting src dst _ => .ok (.extracting src dst task)
  | .copying src dst _ => .ok (.copying src dst task)
  | .renaming src dst _ => .ok (.renaming src dst task)
  | .resizing _ => .ok (.resizing task)

/-- a downloaded archive is extracted into the storage directory, any other image copied there -/
def afterDownload (name downloads : String) (storage : Value) : Phase :=
  let src : Value := .string (Path.trimSlashes downloads ++ "/" ++ name)
  if Image.isCompressed name then .extracting src storage none else .copying src storage none

/-- where the transfer of an image leaves it -/
def transferOutput (p : Phase) (name storage : String) : String :=
  match p with
  | .extracting .. => Image.extractedPath storage name
  | _ => Image.copiedPath storage name

/-- the image is renamed unless the transfer left it at its final path -/
def afterTransfer (p : Phase) (name storage machine : String) : Phase :=
  let output := p.transferOutput name storage
  let final := Image.finalPath storage machine name
  if output ≠ final then .renaming (.string output) (.string final) none else .resizing none

def afterRename : Phase := .resizing none

end Phase
end VmOperator
