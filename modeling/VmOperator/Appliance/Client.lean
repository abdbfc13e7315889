import VmOperator.Program
import VmOperator.Settings.Basic

/-! The operations of the appliance. Each is one request; a reply without success in its body is a
fault that carries the operation, the appliance's message and code, and the status. Nothing here waits
for work to finish: long operations answer with a task. Numbers of tasks and machines are written into
the path as they are given. -/

namespace VmOperator.Appliance

def failed {α : Type} (operation : String) (message : Value) (status code : Value := .null) : Action α :=
  Action.fault (.appliance ⟨.string operation, message, status, code⟩)

/-- the result inside a body that reports success -/
def unwrap (operation url : String) : Reply → Action Value
  | .unreachable text =>
    failed operation (.string ("request to " ++ url ++ " failed: " ++ text))
  | .answer status none => failed operation (.string ("invalid JSON response from " ++ url)) status
  | .answer status (some body) =>
    let fields : Fields := match body with
      | .object fs => fs
      | _ => []
    if ((fields.get? "success").getD .null).isTruthy then return (fields.get? "result").getD .null
    else
      let message := ((fields.get? "msg").getD .null).orElse (.string "API call was not successful")
      failed operation message status ((fields.get? "error_code").getD .null)

def exchange (s : Settings) (operation : String) (method : Method) (path : String)
    (content : Content := .none) : Action Value := do
  unwrap operation (s.applianceUrl ++ path) (← Action.send ⟨method, path, content⟩)

/-! Downloads -/

/-- submits a download and gives its task -/
def addDownload (s : Settings) (urls : List Value) (downloads name : Value) : Action Int := do
  let urls ← urls.mapM fun url => (url.toText : Except Failure String)
  let result ← exchange s "add download task" .post "/downloads/add" (.form
    [("download_url_list", .string ("\n".intercalate urls)),
      ("download_dir", ← pathValue downloads), ("filename", name)])
  (← result.member "id").toInt

def getDownload (s : Settings) (task : Value) : Action DownloadTask := do
  DownloadTask.ofResult task (← exchange s "get download task" .get ("/downloads/" ++ task.text))

/-- the directory that downloads go to unless another one is named -/
def downloadDirectory (s : Settings) : Action String := do
  let operation := "get download config"
  let result ← exchange s operation .get "/downloads/config/"
  let encoded ← (result.orElse (.object [])).get "download_dir" (.string "")
  match decodePath encoded with
  | .ok dir => if dir == "" then failed operation (.string "download_dir is empty") else return dir
  | .error (.wrongType use) => throw (.wrongType use)
  | .error _ => failed operation (.string "download_dir is not base64")

/-- the directory for disks on the appliance's main storage -/
def storageDirectory (s : Settings) : Action String := do
  let operation := "get system info"
  let result ← exchange s operation .get "/system/"
  let main ← (result.orElse (.object [])).get "user_main_storage" (.string "")
  if main.isTruthy then return "/" ++ main.text ++ "/VMs"
  else failed operation (.string "user_main_storage is empty")

/-- the directories of the settings, the missing ones as the appliance names them -/
def layout (s : Settings) : Action Image.Layout := do
  let downloads ← if s.downloads == "" then downloadDirectory s else pure s.downloads
  let storage ← if s.storage == "" then storageDirectory s else pure s.storage
  return ⟨downloads, storage⟩

/-! Files -/

def fileTask (s : Settings) (operation path : String) (fields : Fields) : Action FileTask := do
  FileTask.ofResult (← exchange s operation .post path (.json fields))

def pathValues (files : List Value) : Except Failure Value := return .array (← files.mapM pathValue)

def extractFile (s : Settings) (src dst : Value) : Action FileTask := do
  fileTask s "extract file" "/fs/extract/"
    [("src", ← pathValue src), ("dst", ← pathValue dst), ("delete_archive", .bool false),
      ("overwrite", .bool true)]

def overwrite : Value := .string "overwrite"

def copyFiles (s : Settings) (files : List Value) (dst : Value) (mode : Value := overwrite) :
    Action FileTask := do
  fileTask s "copy files" "/fs/cp/" [("files", ← pathValues files), ("dst", ← pathValue dst), ("mode", mode)]

def moveFiles (s : Settings) (files : List Value) (dst : Value) (mode : Value := overwrite) :
    Action FileTask := do
  fileTask s "move files" "/fs/mv/" [("files", ← pathValues files), ("dst", ← pathValue dst), ("mode", mode)]

def removeFiles (s : Settings) (files : List Value) : Action FileTask := do
  fileTask s "remove files" "/fs/rm/" [("files", ← pathValues files)]

def getFileTask (s : Settings) (task : Value) : Action FileTask := do
  FileTask.ofResult (← exchange s "get filesystem task" .get ("/fs/tasks/" ++ task.text))

/-! Disks -/

/-- grows a disk and gives the task of it -/
def resizeDisk (s : Settings) (path size : Value) (shrink : Value := .bool false) : Action Int := do
  let result ← exchange s "resize virtual disk" .post "/vm/disk/resize/" (.json
    [("disk_path", ← pathValue path), ("size", size), ("shrink_allow", shrink)])
  (← result.member "id").toInt

def getDiskTask (s : Settings) (task : Value) : Action DiskTask := do
  DiskTask.ofResult task (← exchange s "get virtual disk task" .get ("/vm/disk/task/" ++ task.text))

/-! Virtual machines -/

def vmPath (id : Value) : String := "/vm/" ++ id.text

def createVm (s : Settings) (order : VmOrder) : Action KnownVm := do
  KnownVm.ofResult (← exchange s "create virtual machine" .post "/vm/" (.json (← order.toFields)))

def getVm (s : Settings) (id : Value) : Action KnownVm := do
  KnownVm.ofResult (← exchange s "get virtual machine" .get (vmPath id))

def startVm (s : Settings) (id : Value) : Action Unit :=
  discard (exchange s "start virtual machine" .post (vmPath id ++ "/start"))

def killVm (s : Settings) (id : Value) : Action Unit :=
  discard (exchange s "kill virtual machine" .post (vmPath id ++ "/stop"))

def deleteVm (s : Settings) (id : Value) : Action Unit :=
  discard (exchange s "delete virtual machine" .delete (vmPath id))

/-! Network -/

def lanHosts (s : Settings) (interface : String) : Action (List LanHost) := do
  let result ← exchange s "list LAN hosts" .get ("/lan/browser/" ++ interface ++ "/")
  let hosts ← (result.orElse (.array [])).items
  hosts.mapM fun host => (LanHost.ofResult host : Except Failure LanHost)

end VmOperator.Appliance
