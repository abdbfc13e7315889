import VmOperator.Proofs.Reconcile.Requests

/-! An appliance that does as it is asked. What a request is about is seen from its method and its path; `grants` says
which results are no refusal, and `pends` which of them ask for patience. -/

namespace VmOperator

namespace Appliance

inductive Matter where
  | download
  | files
  | resize
  | order
  | downloading
  | moving
  | resizing
  | listing
  | looking
  | other
deriving DecidableEq

def filePaths : List String := ["/fs/extract/", "/fs/cp/", "/fs/mv/"]

def matter : Method → String → Matter
  | .post, path =>
    if path = "/downloads/add" then .download
    else if path ∈ filePaths then .files
    else if path = "/vm/disk/resize/" then .resize
    else if path = "/vm/" then .order
    else .other
  | .get, path =>
    if "/downloads/".toList.isPrefixOf path.toList then .downloading
    else if "/fs/tasks/".toList.isPrefixOf path.toList then .moving
    else if "/vm/disk/task/".toList.isPrefixOf path.toList then .resizing
    else if "/lan/browser/".toList.isPrefixOf path.toList then .listing
    else if "/vm/".toList.isPrefixOf path.toList then .looking
    else .other
  | .delete, _ => .other

def addressesFor (mac : String) (listing : Value) : Except Failure (List Value) := do
  let hosts ← (← (listing.orElse (.array [])).items).mapM LanHost.ofResult
  Discovery.addressesIn (Text.lower mac) hosts

/-- the result is what was asked for; a virtual machine is seen under its hardware address -/
def Matter.grants (mac : String) : Matter → Value → Bool
  | .download, v | .resize, v => (v.member "id" >>= Value.toInt).isOk
  | .files, v => (FileTask.ofResult v).isOk
  | .order, v => (KnownVm.ofResult v).toOption.any fun known => !known.vm.mac.isTruthy || known.vm.mac = .string mac
  | .downloading, v => (DownloadTask.ofResult (.int 0) v).toOption.any fun task => !task.isError
  | .moving, v => (FileTask.ofResult v).toOption.any fun task => !task.isError
  | .resizing, v => (DiskTask.ofResult (.int 0) v).toOption.any fun task => !(task.done && task.error)
  | .listing, v => (addressesFor mac v).isOk
  | .looking, v => (KnownVm.ofResult v).toOption.any fun known => known.vm.mac = .string mac
  | .other, _ => true

/-- what was asked about is not done yet, or not listed yet -/
def Matter.pends (mac : String) : Matter → Value → Bool
  | .downloading, v => (DownloadTask.ofResult (.int 0) v).toOption.any fun task => !task.isDone
  | .moving, v => (FileTask.ofResult v).toOption.any fun task => !task.isDone
  | .resizing, v => (DiskTask.ofResult (.int 0) v).toOption.any fun task => !task.done
  | .listing, v => (addressesFor mac v).toOption.any List.isEmpty
  | _, _ => false

theorem matter_downloading (task : String) : matter .get ("/downloads/" ++ task) = .downloading := by
  rw [matter, String.toList_append]
  rfl

theorem matter_moving (task : String) : matter .get ("/fs/tasks/" ++ task) = .moving := by
  rw [matter, String.toList_append]
  rfl

theorem matter_resizing (task : String) : matter .get ("/vm/disk/task/" ++ task) = .resizing := by
  rw [matter, String.toList_append]
  rfl

theorem matter_listing (interface : String) : matter .get ("/lan/browser/" ++ interface ++ "/") = .listing := by
  rw [String.append_assoc, matter, String.toList_append]
  rfl

theorem not_prefix_task {first : Char} (rest : List Char) (apart : first ≠ 'd') :
    "/vm/disk/task/".toList.isPrefixOf ("/vm/".toList ++ first :: rest) = false := by
  have task : "/vm/disk/task/".toList = "/vm/".toList ++ 'd' :: "isk/task/".toList := rfl
  rw [Bool.eq_false_iff, ne_eq, List.isPrefixOf_iff_prefix, task, List.prefix_append_right_inj]
  rintro ⟨more, same⟩
  cases same
  exact apart rfl

theorem matter_looking (id : Int) : matter .get (vmPath (.int id)) = .looking := by
  have apart := Value.head_text_int id
  rw [matter, vmPath, String.toList_append]
  cases digits : (Value.int id).text.toList with
  | nil => rfl
  | cons first rest =>
    rw [digits, List.head?_cons, ne_eq, Option.some.injEq] at apart
    rw [not_prefix_task rest apart]
    rfl

theorem matter_start (id : Int) : matter .post (vmPath (.int id) ++ "/start") = .other := by
  have apart {path : String} (mem : path ∈ ImagePipeline.submissionPaths) : vmPath (.int id) ++ "/start" ≠ path :=
    command_ne_submission _ (.inl rfl) mem
  have files : vmPath (.int id) ++ "/start" ∉ filePaths := by
    intro mem
    exact apart (List.mem_cons_of_mem _ (List.mem_append_left ["/vm/disk/resize/"] mem)) rfl
  rw [matter, if_neg (apart (by decide)), if_neg files, if_neg (apart (by decide)),
    if_neg (vmPath_append_ne _ (by decide))]

variable {v : Value}

/-- a task that a reply does not name is the one that was asked for -/
theorem exists_named {n m : Int} (named : (v.get "id" (.int n) >>= Value.toInt) = .ok m) (task : Int) :
    ∃ id, (v.get "id" (.int task) >>= Value.toInt) = .ok id := by
  obtain ⟨found, asked, read⟩ := bind_eq_ok.1 named
  obtain ⟨field, there, same⟩ := bind_eq_ok.1 asked
  cases same
  have again : v.get "id" (.int task) = .ok (field.getD (.int task)) := by rw [Value.get, there]; rfl
  cases field with
  | none => exact ⟨task, by rw [again]; rfl⟩
  | some w => exact ⟨m, by rw [again]; exact read⟩

theorem DownloadTask.ofResult_task {n : Int} {t : DownloadTask} (read : ofResult (.int n) v = .ok t) (task : Int) :
    ∃ t', ofResult (.int task) v = .ok t' ∧ t'.status = t.status := by
  obtain ⟨found, asked, read⟩ := bind_eq_ok.1 read
  obtain ⟨id, named, read⟩ := bind_eq_ok.1 read
  obtain ⟨status, hs, read⟩ := bind_eq_ok.1 read
  obtain ⟨received, hr, read⟩ := bind_eq_ok.1 read
  obtain ⟨size, hz, read⟩ := bind_eq_ok.1 read
  cases read
  obtain ⟨id', named⟩ := exists_named (bind_eq_ok.2 ⟨found, asked, named⟩) task
  obtain ⟨found', asked', named⟩ := bind_eq_ok.1 named
  refine ⟨{ id := .int id', status, received := .int received, size := .int size }, ?_, rfl⟩
  simp only [ofResult, asked', named, hs, hr, hz, ok_bind]
  rfl

theorem DiskTask.ofResult_task {n : Int} {t : DiskTask} (read : ofResult (.int n) v = .ok t) (task : Int) :
    ∃ t', ofResult (.int task) v = .ok t' ∧ t'.done = t.done ∧ t'.error = t.error := by
  obtain ⟨found, asked, read⟩ := bind_eq_ok.1 read
  obtain ⟨id, named, read⟩ := bind_eq_ok.1 read
  obtain ⟨done, hd, read⟩ := bind_eq_ok.1 read
  obtain ⟨error, he, read⟩ := bind_eq_ok.1 read
  cases read
  obtain ⟨id', named⟩ := exists_named (bind_eq_ok.2 ⟨found, asked, named⟩) task
  obtain ⟨found', asked', named⟩ := bind_eq_ok.1 named
  refine ⟨{ id := id', done := done.isTruthy, error := error.isTruthy }, ?_, rfl, rfl⟩
  simp only [ofResult, asked', named, hd, he, ok_bind]
  rfl

end Appliance

end VmOperator
