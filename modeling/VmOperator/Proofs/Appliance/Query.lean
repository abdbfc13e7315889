import VmOperator.Appliance.Client
import VmOperator.Proofs.Program.Dialogue

/-! Every operation of the appliance's client is one query: a request that is fixed before anything is
sent, and a reading of the reply (`createVm_eq` and its siblings). -/

namespace VmOperator

namespace Action

variable {α β : Type}

theorem liftM_eq (x : Except Failure α) : (liftM x : Action α) = ofExcept x := rfl

theorem ofExcept_bind (x : Except Failure α) (f : α → Except Failure β) :
    ofExcept (x >>= f) = ofExcept x >>= fun a => ofExcept (f a) := by
  cases x <;> rfl

theorem mapM_ofExcept (f : α → Except Failure β) (xs : List α) :
    xs.mapM (fun x => ofExcept (f x)) = ofExcept (xs.mapM f) := by
  induction xs with
  | nil => rfl
  | cons x xs ih =>
    rw [List.mapM_cons, List.mapM_cons, ih]
    cases f x with
    | error e => rfl
    | ok y => cases xs.mapM f <;> rfl

end Action

namespace Appliance

def bodyFields : Value → Fields
  | .object fs => fs
  | _ => []

/-- the result inside a body that reports success -/
def resultOf : Reply → Option Value
  | .answer _ (some body) =>
    if (((bodyFields body).get? "success").getD .null).isTruthy then
      some (((bodyFields body).get? "result").getD .null)
    else none
  | _ => none

def refusal (operation url : String) : Reply → ApplianceFault
  | .unreachable text => ⟨.string operation, .string ("request to " ++ url ++ " failed: " ++ text), .null, .null⟩
  | .answer status none => ⟨.string operation, .string ("invalid JSON response from " ++ url), status, .null⟩
  | .answer status (some body) =>
    ⟨.string operation,
      (((bodyFields body).get? "msg").getD .null).orElse (.string "API call was not successful"),
      status, ((bodyFields body).get? "error_code").getD .null⟩

def judged (operation url : String) (reply : Reply) : Except Failure Value :=
  match resultOf reply with
  | some v => .ok v
  | none => .error (.fault (.appliance (refusal operation url reply)))

theorem judged_eq_ok {operation url : String} {reply : Reply} {v : Value} :
    judged operation url reply = .ok v ↔ resultOf reply = some v := by
  unfold judged
  cases resultOf reply <;> simp

theorem unwrap_eq (operation url : String) (reply : Reply) :
    unwrap operation url reply = Action.ofExcept (judged operation url reply) := by
  cases reply with
  | unreachable text => rfl
  | answer status body =>
    cases body with
    | none => rfl
    | some body =>
      change (if (((bodyFields body).get? "success").getD .null).isTruthy then _ else _) = _
      by_cases h : (((bodyFields body).get? "success").getD .null).isTruthy
      · simp only [judged, resultOf, if_pos h]; rfl
      · simp only [judged, resultOf, if_neg h]; rfl

/-- a request, if its parts can be written, and what its reply is read as -/
structure Query (α : Type) where
  request : Except Failure Request
  read : Reply → Except Failure α

namespace Query

variable {α β : Type}

def ask (q : Query α) : Action α := do
  let r ← q.request
  q.read (← Action.send r)

def andThen (q : Query α) (f : α → Except Failure β) : Query β := ⟨q.request, fun reply => q.read reply >>= f⟩

theorem ask_bind (q : Query α) (f : α → Except Failure β) :
    (q.ask >>= fun a => Action.ofExcept (f a)) = (q.andThen f).ask := by
  simp only [ask, andThen, bind_assoc]
  exact congrArg _ (funext fun r => congrArg _ (funext fun reply => (Action.ofExcept_bind _ _).symm))

/-- what has to be written first belongs to the request -/
theorem bind_ask (written : Except Failure β) (request : β → Except Failure Request)
    (read : Reply → Except Failure α) :
    (Action.ofExcept written >>= fun b => ask ⟨request b, read⟩) = ask ⟨written >>= request, read⟩ := by
  cases written <;> rfl

end Query

variable (s : Settings)

theorem exchange_eq (operation : String) (method : Method) (path : String) (content : Content) :
    exchange s operation method path content =
      Query.ask ⟨.ok ⟨method, path, content⟩, judged operation (s.applianceUrl ++ path)⟩ := by
  unfold exchange Query.ask
  simp only [unwrap_eq]
  rfl

/-- a request whose content is written first, and a reading of the result -/
def query {α : Type} (operation : String) (method : Method) (path : String) (content : Except Failure Content)
    (read : Value → Except Failure α) : Query α where
  request := content >>= fun content => .ok ⟨method, path, content⟩
  read reply := judged operation (s.applianceUrl ++ path) reply >>= read

theorem query_eq {α : Type} (operation : String) (method : Method) (path : String)
    (content : Except Failure Content) (read : Value → Except Failure α) :
    (query s operation method path content read).ask = (do
      let content ← Action.ofExcept content
      let result ← exchange s operation method path content
      Action.ofExcept (read result)) := by
  simp only [query, exchange_eq, Query.ask_bind, Query.andThen, Query.bind_ask]

theorem method_path_of_written {content : Except Failure Content} {method : Method} {path : String} {r : Request}
    (h : (content >>= fun content => Except.ok ⟨method, path, content⟩) = .ok r) : r.method = method ∧ r.path = path := by
  obtain ⟨content, -, h⟩ := bind_eq_ok.1 h
  cases h
  exact ⟨rfl, rfl⟩

theorem query_read {α : Type} {operation : String} {method : Method} {path : String}
    {content : Except Failure Content} {read : Value → Except Failure α} {reply : Reply} {a : α} :
    (query s operation method path content read).read reply = .ok a ↔
      ∃ v, resultOf reply = some v ∧ read v = .ok a := by
  unfold query
  simp only [bind_eq_ok, judged_eq_ok]

def downloadQuery (urls : List Value) (downloads name : Value) : Query Int :=
  query s "add download task" .post "/downloads/add"
    (do
      let urls ← urls.mapM Value.toText
      return .form [("download_url_list", .string ("\n".intercalate urls)),
        ("download_dir", ← pathValue downloads), ("filename", name)])
    (fun result => result.member "id" >>= Value.toInt)

def downloadPoll (task : Value) : Query DownloadTask :=
  query s "get download task" .get ("/downloads/" ++ task.text) (.ok .none) (DownloadTask.ofResult task)

def directoryIn (result : Value) : Except Failure String := do
  let encoded ← (result.orElse (.object [])).get "download_dir" (.string "")
  let fault (message : String) : Failure :=
    .fault (.appliance ⟨.string "get download config", .string message, .null, .null⟩)
  match decodePath encoded with
  | .ok dir => if dir == "" then throw (fault "download_dir is empty") else return dir
  | .error (.wrongType use) => throw (.wrongType use)
  | .error _ => throw (fault "download_dir is not base64")

def directoryQuery : Query String :=
  query s "get download config" .get "/downloads/config/" (.ok .none) directoryIn

def fileQuery (operation path : String) (fields : Except Failure Fields) : Query FileTask :=
  query s operation .post path (.json <$> fields) FileTask.ofResult

def extractQuery (src dst : Value) : Query FileTask :=
  fileQuery s "extract file" "/fs/extract/" do
    return [("src", ← pathValue src), ("dst", ← pathValue dst), ("delete_archive", .bool false),
      ("overwrite", .bool true)]

def transferQuery (operation path : String) (files : List Value) (dst mode : Value) : Query FileTask :=
  fileQuery s operation path do
    return [("files", ← pathValues files), ("dst", ← pathValue dst), ("mode", mode)]

def removeQuery (files : List Value) : Query FileTask :=
  fileQuery s "remove files" "/fs/rm/" do return [("files", ← pathValues files)]

def filePoll (task : Value) : Query FileTask :=
  query s "get filesystem task" .get ("/fs/tasks/" ++ task.text) (.ok .none) FileTask.ofResult

def resizeQuery (path size shrink : Value) : Query Int :=
  query s "resize virtual disk" .post "/vm/disk/resize/"
    (do return .json [("disk_path", ← pathValue path), ("size", size), ("shrink_allow", shrink)])
    (fun result => result.member "id" >>= Value.toInt)

def diskPoll (task : Value) : Query DiskTask :=
  query s "get virtual disk task" .get ("/vm/disk/task/" ++ task.text) (.ok .none) (DiskTask.ofResult task)

def createQuery (order : VmOrder) : Query KnownVm :=
  query s "create virtual machine" .post "/vm/" (.json <$> order.toFields) KnownVm.ofResult

def vmQuery (id : Value) : Query KnownVm :=
  query s "get virtual machine" .get (vmPath id) (.ok .none) KnownVm.ofResult

def command (operation : String) (method : Method) (path : String) : Query Unit :=
  query s operation method path (.ok .none) fun _ => .ok ()

def startCommand (id : Value) : Query Unit := command s "start virtual machine" .post (vmPath id ++ "/start")

def killCommand (id : Value) : Query Unit := command s "kill virtual machine" .post (vmPath id ++ "/stop")

def deleteCommand (id : Value) : Query Unit := command s "delete virtual machine" .delete (vmPath id)

def hostsQuery (interface : String) : Query (List LanHost) :=
  query s "list LAN hosts" .get ("/lan/browser/" ++ interface ++ "/") (.ok .none) fun result => do
    (← (result.orElse (.array [])).items).mapM LanHost.ofResult

def LanHost.AllSet (host : LanHost) : Prop := ∀ a ∈ host.addresses, a.isTruthy = true

theorem LanHost.allSet_of_ofResult {data : Value} {host : LanHost} (read : ofResult data = .ok host) : host.AllSet := by
  obtain ⟨link, -, read⟩ := bind_eq_ok.1 read
  obtain ⟨entries, -, read⟩ := bind_eq_ok.1 read
  obtain ⟨found, each, read⟩ := bind_eq_ok.1 read
  obtain ⟨mac, -, read⟩ := bind_eq_ok.1 read
  obtain ⟨named, -, read⟩ := bind_eq_ok.1 read
  cases read
  have set : ∀ as ∈ found, ∀ a ∈ as, Value.isTruthy a = true := by
    refine forall_of_mapM_eq_ok (fun entry as given => ?_) each
    obtain ⟨family, -, given⟩ := bind_eq_ok.1 given
    split at given
    · obtain ⟨address, -, given⟩ := bind_eq_ok.1 given
      cases given
      split
      · rename_i set
        exact List.forall_mem_singleton.2 set
      · nofun
    · cases given
      nofun
  intro a mem
  obtain ⟨as, found, mem⟩ := List.mem_flatten.1 mem
  exact set as found a mem

theorem hostsQuery_set {interface : String} {reply : Reply} {hosts : List LanHost}
    (read : (hostsQuery s interface).read reply = .ok hosts) : ∀ host ∈ hosts, host.AllSet := by
  obtain ⟨v, -, read⟩ := (query_read s).1 read
  obtain ⟨items, -, read⟩ := bind_eq_ok.1 read
  exact forall_of_mapM_eq_ok (fun _ _ => LanHost.allSet_of_ofResult) read

section Operations

variable (id src dst mode task path size shrink : Value) (files : List Value)

theorem addDownload_eq (urls : List Value) (downloads name : Value) :
    addDownload s urls downloads name = (downloadQuery s urls downloads name).ask := by
  simp only [addDownload, downloadQuery, query_eq, Action.liftM_eq, Action.mapM_ofExcept, Action.ofExcept_bind,
    bind_assoc]
  rfl

theorem getDownload_eq : getDownload s task = (downloadPoll s task).ask := by
  rw [downloadPoll, query_eq]; rfl

theorem downloadDirectory_eq : downloadDirectory s = (directoryQuery s).ask := by
  rw [directoryQuery, query_eq]
  refine congrArg (exchange s _ _ _ >>= ·) (funext fun result => ?_)
  rw [directoryIn, Action.ofExcept_bind]
  refine congrArg (_ >>= ·) (funext fun encoded => ?_)
  dsimp only
  cases decodePath encoded with
  | ok dir =>
    dsimp only
    split <;> rfl
  | error e => cases e <;> rfl

theorem fileTask_eq (operation path : String) (fields : Except Failure Fields) :
    (Action.ofExcept fields >>= fileTask s operation path) = (fileQuery s operation path fields).ask := by
  rw [fileQuery, query_eq]
  cases fields <;> rfl

theorem extractFile_eq : extractFile s src dst = (extractQuery s src dst).ask := by
  rw [extractQuery, ← fileTask_eq]
  simp only [extractFile, Action.liftM_eq, Action.ofExcept_bind, bind_assoc]
  rfl

theorem copyFiles_eq : copyFiles s files dst mode = (transferQuery s "copy files" "/fs/cp/" files dst mode).ask := by
  rw [transferQuery, ← fileTask_eq]
  simp only [copyFiles, Action.liftM_eq, Action.ofExcept_bind, bind_assoc]
  rfl

theorem moveFiles_eq : moveFiles s files dst mode = (transferQuery s "move files" "/fs/mv/" files dst mode).ask := by
  rw [transferQuery, ← fileTask_eq]
  simp only [moveFiles, Action.liftM_eq, Action.ofExcept_bind, bind_assoc]
  rfl

theorem removeFiles_eq : removeFiles s files = (removeQuery s files).ask := by
  rw [removeQuery, ← fileTask_eq]
  simp only [removeFiles, Action.liftM_eq, Action.ofExcept_bind, bind_assoc]
  rfl

theorem getFileTask_eq : getFileTask s task = (filePoll s task).ask := by
  rw [filePoll, query_eq]; rfl

theorem resizeDisk_eq : resizeDisk s path size shrink = (resizeQuery s path size shrink).ask := by
  simp only [resizeDisk, resizeQuery, query_eq, Action.liftM_eq, Action.ofExcept_bind, bind_assoc]
  rfl

theorem getDiskTask_eq : getDiskTask s task = (diskPoll s task).ask := by
  rw [diskPoll, query_eq]; rfl

theorem createVm_eq (order : VmOrder) : createVm s order = (createQuery s order).ask := by
  rw [createQuery, query_eq]
  simp only [createVm, Action.liftM_eq]
  cases order.toFields <;> rfl

theorem getVm_eq : getVm s id = (vmQuery s id).ask := by
  rw [vmQuery, query_eq]; rfl

theorem command_eq (operation : String) (method : Method) (path : String) :
    discard (exchange s operation method path) = (command s operation method path).ask := by
  rw [command, query_eq]
  rfl

theorem startVm_eq : startVm s id = (startCommand s id).ask := command_eq ..

theorem killVm_eq : killVm s id = (killCommand s id).ask := command_eq ..

theorem deleteVm_eq : deleteVm s id = (deleteCommand s id).ask := command_eq ..

theorem lanHosts_eq (interface : String) : lanHosts s interface = (hostsQuery s interface).ask := by
  rw [hostsQuery, query_eq]
  simp only [lanHosts, Action.liftM_eq, Action.ofExcept_bind, ← Action.mapM_ofExcept]
  rfl

end Operations

end Appliance
end VmOperator
