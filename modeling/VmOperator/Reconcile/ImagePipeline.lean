import VmOperator.Appliance.Client
import VmOperator.Image.Phase
import VmOperator.Reconcile.Context

/-! The way of an image: download, extraction or copy, rename, resize. An invocation sends at most one
request and then writes the status at most once; a step whose task is recorded is polled and never
submitted again. -/

namespace VmOperator.ImagePipeline

/-- either the invocation ends, or the image is ready and it goes on with the machine -/
inductive Advance where
  | ends (o : Outcome)
  | ready (m : Machine)

/-- the name of the machine's image; a URL left blank by something other than text gives none -/
def imageName? (m : Machine) : Except Failure (Option String) :=
  match m.spec.imageUrl with
  | .string url =>
    match Image.nameOfUrl url with
    | .ok name => .ok (some name)
    | .error p => .error (.badValue (.url p))
  | v => if v.isTruthy then .error (.wrongType (.textOf v)) else .ok none

def named (name : Option String) : Except Failure String := name.elim (.error (.wrongType (.textOf .null))) .ok

/-- where the disk of the machine ends up -/
def finalPath (c : Context) (m : Machine) : Except Failure String := do
  let name ← named (← imageName? m)
  return Image.finalPath c.layout.storage (← m.vmName.toText) name

/-- records the next phase; a write that comes second is made again by the next invocation -/
def transition (c : Context) (m : Machine) (next : Phase) (message : String) : Action Unit :=
  discard (Checkout.saveStatus
    ({ m with status.progress := .object next.encode }.setCondition c.now .imageReady .no next.tag message))

/-- records a failure that the appliance reported -/
def fail (c : Context) (m : Machine) (step reason message : String) (detail : Value := .string "") :
    Action Advance := do
  let message := if detail.isTruthy then message ++ ": " ++ detail.text else message
  discard (Checkout.saveStatus (m.setCondition c.now .imageReady .no reason message))
  return .ends (.failed (.task (.string step) (.string reason) detail))

def startDownload (c : Context) (m : Machine) (name : Option String) : Action Advance := do
  let task ← Appliance.addDownload c.settings [m.spec.imageUrl] (.string c.layout.downloads)
    (.string (name.getD ""))
  transition c m (.downloading task) "Downloading image"
  return .ends c.poll

/-- the spelling of a name that is none -/
def blankName : String := "b''"

def pollDownload (c : Context) (m : Machine) (task : Int) (name : Option String) : Action Advance := do
  let polled ← Appliance.getDownload c.settings (.int task)
  if polled.isError then fail c m "download" "DownloadFailed" "Image download failed"
  else if !polled.isDone then return .ends c.poll
  else
    let next := Phase.afterDownload (name.getD blankName) c.layout.downloads (.string c.layout.storage)
    transition c m next (next.tag ++ " image")
    return .ends c.step

/-- records the task of a step that was just submitted -/
def submitted (c : Context) (m : Machine) (current : Phase) (task : Int) : Action Advance := do
  let next ← current.withTask task
  transition c m next (current.tag ++ " image")
  return .ends c.poll

/-- a step is over: the phase after it is entered -/
def entered (c : Context) (m : Machine) (next : Phase) : Action Advance := do
  transition c m next (next.tag ++ " image")
  return .ends c.step

/-- polls a task on files: its failure ends the image, its end leads to `next` -/
def pollFiles (c : Context) (m : Machine) (task : Int) (step reason message : String)
    (next : Except Failure Phase) : Action Advance := do
  let polled ← Appliance.getFileTask c.settings (.int task)
  if polled.isError then fail c m step reason message polled.error
  else if !polled.isDone then return .ends c.poll
  else entered c m (← next)

def afterTransfer (c : Context) (m : Machine) (current : Phase) (name : Option String) :
    Except Failure Phase := do
  return current.afterTransfer (← named name) c.layout.storage (← m.vmName.toText)

def submitResize (c : Context) (m : Machine) (current : Phase) : Action Advance := do
  let path ← finalPath c m
  submitted c m current (← Appliance.resizeDisk c.settings (.string path) (.int m.diskSizeBytes))

def pollResize (c : Context) (m : Machine) (task : Int) : Action Advance := do
  let polled ← Appliance.getDiskTask c.settings (.int task)
  if !polled.done then return .ends c.poll
  else if polled.error then fail c m "resize" "ResizeFailed" "Disk resize failed"
  else
    let ready := m.setCondition c.now .imageReady .yes "ImageReady"
      "Image downloaded, extracted, renamed, and resized"
    match ← Checkout.saveStatus ready with
    | some saved => return .ready saved
    | none => return .ends c.step

/-- the next step of the machine's image -/
def advance (c : Context) (m : Machine) : Action Advance := do
  let name ← imageName? m
  let current ← Phase.decode m.status.progress
  match current with
  | .notStarted => startDownload c m name
  | .downloading task => pollDownload c m task name
  | .extracting src dst none =>
    submitted c m current (← Appliance.extractFile c.settings src dst).id
  | .extracting _ _ (some task) =>
    pollFiles c m task "extraction" "ExtractionFailed" "Image extraction failed" (afterTransfer c m current name)
  | .copying src dst none =>
    submitted c m current (← Appliance.copyFiles c.settings [src] dst).id
  | .copying _ _ (some task) =>
    pollFiles c m task "copy" "CopyFailed" "Image copy failed" (afterTransfer c m current name)
  | .renaming src dst none =>
    submitted c m current (← Appliance.moveFiles c.settings [src] dst).id
  | .renaming _ _ (some task) =>
    pollFiles c m task "rename" "RenameFailed" "Image rename failed" (.ok Phase.afterRename)
  | .resizing none => submitResize c m current
  | .resizing (some task) => pollResize c m task

end VmOperator.ImagePipeline
