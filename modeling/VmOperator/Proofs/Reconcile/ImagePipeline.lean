import VmOperator.Proofs.Appliance.Query
import VmOperator.Proofs.Image.Phase
import VmOperator.Reconcile.ImagePipeline

/-! A step of the pipeline is one query, fixed by the phase, and one thing to do about its reply
(`advance_eq`). The phase that is entered is the one that the recorded phase leads to (`query_leads`). -/

namespace VmOperator.ImagePipeline

open Appliance (Query Reply)

inductive Verdict where
  | wait
  | enter (next : Phase) (message : String) (outcome : Outcome)
  | fail (step reason message : String) (detail : Value)
  | finish

def entering (c : Context) (next : Phase) (message : String) (m : Machine) : Machine :=
  { m with status.progress := .object next.encode }.setCondition c.now .imageReady .no next.tag message

def failing (c : Context) (reason message : String) (detail : Value) (m : Machine) : Machine :=
  m.setCondition c.now .imageReady .no reason
    (if detail.isTruthy then message ++ ": " ++ detail.text else message)

def finishing (c : Context) (m : Machine) : Machine :=
  m.setCondition c.now .imageReady .yes "ImageReady" "Image downloaded, extracted, renamed, and resized"

def Verdict.carryOut (c : Context) (m : Machine) : Verdict → Action Advance
  | .wait => return .ends c.poll
  | .enter next message outcome => do
    discard (Checkout.saveStatus (entering c next message m))
    return .ends outcome
  | .fail step reason message detail => do
    discard (Checkout.saveStatus (failing c reason message detail m))
    return .ends (.failed (.task (.string step) (.string reason) detail))
  | .finish => do
    match ← Checkout.saveStatus (finishing c m) with
    | some saved => return .ready saved
    | none => return .ends c.step

def Verdict.restated (c : Context) (m : Machine) : Verdict → Option MachineStatus
  | .wait => none
  | .enter next message _ => some (entering c next message m).status
  | .fail _ reason message detail => some (failing c reason message detail m).status
  | .finish => some (finishing c m).status

/-- what is told once a verdict was written, or came second -/
def Verdict.told (c : Context) : Verdict → Option Machine → Advance
  | .wait, _ => .ends c.poll
  | .enter _ _ outcome, _ => .ends outcome
  | .fail step reason _ detail, _ => .ends (.failed (.task (.string step) (.string reason) detail))
  | .finish, some saved => .ready saved
  | .finish, none => .ends c.step

theorem Verdict.carryOut_eq {c : Context} {m : Machine} {v : Verdict} {s : MachineStatus} (restated : v.restated c m = some s) :
    v.carryOut c m = v.told c <$> Checkout.saveStatus { m with status := s } := by
  cases v with
  | wait => cases restated
  | enter | fail =>
    cases restated
    rw [map_eq_pure_bind]
    simp only [carryOut, discard, Functor.discard, map_const, Function.comp_apply, bind_map_left]
    rfl
  | finish =>
    cases restated
    rw [map_eq_pure_bind]
    refine bind_congr fun saved => ?_
    cases saved <;> rfl

variable (c : Context) (m : Machine)

/-- the phase with its task, which was just submitted -/
def started (current next : Phase) : Verdict := .enter next (current.tag ++ " image") c.poll

/-- a phase without a task, after the one before is over -/
def opened (next : Phase) : Verdict := .enter next (next.tag ++ " image") c.step

def judgeDownload (name : Option String) (polled : Appliance.DownloadTask) : Verdict :=
  if polled.isError then .fail "download" "DownloadFailed" "Image download failed" (.string "")
  else if !polled.isDone then .wait
  else opened c (Phase.afterDownload (name.getD blankName) c.layout.downloads (.string c.layout.storage))

def judgeFiles (step reason message : String) (next : Except Failure Phase) (polled : Appliance.FileTask) :
    Except Failure Verdict :=
  if polled.isError then .ok (.fail step reason message polled.error)
  else if !polled.isDone then .ok .wait
  else next >>= fun next => .ok (opened c next)

def judgeResize (polled : Appliance.DiskTask) : Verdict :=
  if !polled.done then .wait
  else if polled.error then .fail "resize" "ResizeFailed" "Disk resize failed" (.string "")
  else .finish

def growQuery : Query Int where
  request := do (Appliance.resizeQuery c.settings (.string (← finalPath c m)) (.int m.diskSizeBytes) (.bool false)).request
  read := (Appliance.resizeQuery c.settings .null (.int m.diskSizeBytes) (.bool false)).read

def query (name : Option String) (current : Phase) : Query Verdict :=
  match current with
  | .notStarted =>
    (Appliance.downloadQuery c.settings [m.spec.imageUrl] (.string c.layout.downloads)
      (.string (name.getD ""))).andThen fun task => .ok (.enter (.downloading task) "Downloading image" c.poll)
  | .downloading task => (Appliance.downloadPoll c.settings (.int task)).andThen fun polled => .ok (judgeDownload c name polled)
  | .extracting src dst none =>
    (Appliance.extractQuery c.settings src dst).andThen fun task =>
      .ok (started c current (.extracting src dst (some task.id)))
  | .extracting _ _ (some task) =>
    (Appliance.filePoll c.settings (.int task)).andThen
      (judgeFiles c "extraction" "ExtractionFailed" "Image extraction failed" (afterTransfer c m current name))
  | .copying src dst none =>
    (Appliance.transferQuery c.settings "copy files" "/fs/cp/" [src] dst Appliance.overwrite).andThen fun task =>
      .ok (started c current (.copying src dst (some task.id)))
  | .copying _ _ (some task) =>
    (Appliance.filePoll c.settings (.int task)).andThen
      (judgeFiles c "copy" "CopyFailed" "Image copy failed" (afterTransfer c m current name))
  | .renaming src dst none =>
    (Appliance.transferQuery c.settings "move files" "/fs/mv/" [src] dst Appliance.overwrite).andThen fun task =>
      .ok (started c current (.renaming src dst (some task.id)))
  | .renaming _ _ (some task) =>
    (Appliance.filePoll c.settings (.int task)).andThen
      (judgeFiles c "rename" "RenameFailed" "Image rename failed" (.ok Phase.afterRename))
  | .resizing none => (growQuery c m).andThen fun task => .ok (started c current (.resizing (some task)))
  | .resizing (some task) =>
    (Appliance.diskPoll c.settings (.int task)).andThen fun polled => .ok (judgeResize polled)

def route : Phase → Appliance.Method × String
  | .notStarted => (.post, "/downloads/add")
  | .downloading task => (.get, "/downloads/" ++ (Value.int task).text)
  | .extracting _ _ none => (.post, "/fs/extract/")
  | .copying _ _ none => (.post, "/fs/cp/")
  | .renaming _ _ none => (.post, "/fs/mv/")
  | .extracting _ _ (some task) | .copying _ _ (some task) | .renaming _ _ (some task) =>
    (.get, "/fs/tasks/" ++ (Value.int task).text)
  | .resizing none => (.post, "/vm/disk/resize/")
  | .resizing (some task) => (.get, "/vm/disk/task/" ++ (Value.int task).text)

def submissionPaths : List String := ["/downloads/add", "/fs/extract/", "/fs/cp/", "/fs/mv/", "/vm/disk/resize/"]

def pollPaths : List String := ["/downloads/", "/fs/tasks/", "/vm/disk/task/"]

theorem route_cases (p : Phase) : (∃ path ∈ submissionPaths, route p = (.post, path)) ∨
    ∃ path ∈ pollPaths, ∃ task : Int, route p = (.get, path ++ (Value.int task).text) := by
  rcases p with _ | task | ⟨src, dst, _ | task⟩ | ⟨src, dst, _ | task⟩ | ⟨src, dst, _ | task⟩ | _ | task
  case notStarted | extracting.none | copying.none | renaming.none | resizing.none =>
    exact .inl ⟨_, by decide, rfl⟩
  all_goals exact .inr ⟨_, by decide, _, rfl⟩

theorem query_route {name : Option String} {p : Phase} {r : Appliance.Request}
    (h : (query c m name p).request = .ok r) : (r.method, r.path) = route p := by
  have routed : ∀ {method : Appliance.Method} {path : String}, r.method = method ∧ r.path = path →
      (r.method, r.path) = (method, path) := fun h => Prod.ext h.1 h.2
  rcases p with _ | task | ⟨src, dst, _ | task⟩ | ⟨src, dst, _ | task⟩ | ⟨src, dst, _ | task⟩ | _ | task
  case resizing.none =>
    obtain ⟨path, -, h⟩ := bind_eq_ok.1 h
    exact routed (Appliance.method_path_of_written h)
  all_goals exact routed (Appliance.method_path_of_written h)

theorem ask_andThen_bind {α β γ : Type} (q : Query α) (f : α → Except Failure β) (k : β → Action γ) :
    ((q.andThen f).ask >>= k) = q.ask >>= fun a => Action.ofExcept (f a) >>= k := by
  rw [← Query.ask_bind, bind_assoc]

theorem pollFiles_eq (task : Int) (step reason message : String) (next : Except Failure Phase) :
    pollFiles c m task step reason message next =
      ((Appliance.filePoll c.settings (.int task)).andThen (judgeFiles c step reason message next)).ask >>=
        Verdict.carryOut c m := by
  rw [ask_andThen_bind, ← Appliance.getFileTask_eq]
  refine congrArg _ (funext fun polled => ?_)
  unfold judgeFiles
  split
  · rfl
  · split
    · rfl
    · cases next <;> rfl

theorem growDisk_eq : (do
    let path ← Action.ofExcept (finalPath c m)
    Appliance.resizeDisk c.settings (.string path) (.int m.diskSizeBytes)) = (growQuery c m).ask := by
  simp only [Appliance.resizeDisk_eq]
  exact Query.bind_ask (finalPath c m) _ _

theorem advance_eq : advance c m = (do
    let name ← Action.ofExcept (imageName? m)
    let current ← Action.ofExcept (Phase.decode m.status.progress)
    (← (query c m name current).ask).carryOut c m) := by
  refine congrArg _ (funext fun name => congrArg _ (funext fun current => ?_))
  rcases current with _ | task | ⟨src, dst, _ | task⟩ | ⟨src, dst, _ | task⟩ | ⟨src, dst, _ | task⟩ | _ | task
  case extracting.some | copying.some | renaming.some => exact pollFiles_eq ..
  all_goals dsimp only [query]; rw [ask_andThen_bind]
  case notStarted => rw [← Appliance.addDownload_eq]; rfl
  case extracting.none => rw [← Appliance.extractFile_eq]; rfl
  case copying.none => rw [← Appliance.copyFiles_eq]; rfl
  case renaming.none => rw [← Appliance.moveFiles_eq]; rfl
  case downloading =>
    rw [← Appliance.getDownload_eq]
    refine congrArg _ (funext fun polled => ?_)
    unfold judgeDownload
    dsimp only
    split
    · rfl
    · split <;> rfl
  case resizing.none => rw [← growDisk_eq, bind_assoc]; rfl
  case resizing.some =>
    rw [← Appliance.getDiskTask_eq]
    refine congrArg _ (funext fun polled => ?_)
    unfold judgeResize
    dsimp only
    split
    · rfl
    · split <;> rfl

/-- the phases that a reply may open or start -/
inductive Enters (name : Option String) : Phase → Phase → Prop
  | download (task : Int) : Enters name .notStarted (.downloading task)
  | downloaded (task : Int) :
      Enters name (.downloading task)
        (Phase.afterDownload (name.getD blankName) c.layout.downloads (.string c.layout.storage))
  | extract (src dst : Value) (task : Int) : Enters name (.extracting src dst none) (.extracting src dst (some task))
  | copy (src dst : Value) (task : Int) : Enters name (.copying src dst none) (.copying src dst (some task))
  | move (src dst : Value) (task : Int) : Enters name (.renaming src dst none) (.renaming src dst (some task))
  | renamed (src dst : Value) (task : Int) : Enters name (.renaming src dst (some task)) (.resizing none)
  | resize (task : Int) : Enters name (.resizing none) (.resizing (some task))
  | transferred {p next : Phase} (moved : p.Transfers) (after : afterTransfer c m p name = .ok next) : Enters name p next

theorem Enters.leads {c : Context} {m : Machine} {name : Option String} {p next : Phase}
    (h : Enters c m name p next) : p.Leads next := by
  cases h with
  | downloaded task => exact Phase.afterDownload_leads ..
  | transferred moved after =>
    obtain ⟨_, -, after⟩ := bind_eq_ok.1 after
    obtain ⟨_, -, after⟩ := bind_eq_ok.1 after
    cases after
    exact Phase.afterTransfer_leads moved ..
  | renamed src dst task => exact .renamed ..
  | _ => constructor

section Verdicts

variable {c m} {name : Option String} {p next : Phase} {reply : Reply} {message : String} {outcome : Outcome}

theorem judgeFiles_enters {step reason text : String} {after : Except Failure Phase} {polled : Appliance.FileTask}
    (h : judgeFiles c step reason text after polled = .ok (.enter next message outcome)) : after = .ok next := by
  unfold judgeFiles at h
  split at h
  · cases h
  · split at h
    · cases h
    · obtain ⟨n, hn, h⟩ := bind_eq_ok.1 h
      cases h
      exact hn

theorem judgeFiles_ne_finish {step reason text : String} {after : Except Failure Phase} {polled : Appliance.FileTask} :
    judgeFiles c step reason text after polled ≠ .ok .finish := by
  intro h
  unfold judgeFiles at h
  split at h
  · cases h
  · split at h
    · cases h
    · obtain ⟨_, -, h⟩ := bind_eq_ok.1 h
      cases h

theorem query_enters (h : (query c m name p).read reply = .ok (.enter next message outcome)) :
    Enters c m name p next := by
  rcases p with _ | task | ⟨src, dst, _ | task⟩ | ⟨src, dst, _ | task⟩ | ⟨src, dst, _ | task⟩ | _ | task <;>
    obtain ⟨polled, -, h⟩ := bind_eq_ok.1 h
  case notStarted | extracting.none | copying.none | renaming.none | resizing.none => cases h; constructor
  case extracting.some => exact .transferred (.extracting ..) (judgeFiles_enters h)
  case copying.some => exact .transferred (.copying ..) (judgeFiles_enters h)
  case renaming.some => cases judgeFiles_enters h; constructor
  case downloading =>
    unfold judgeDownload at h
    split at h
    · cases h
    · split at h
      · cases h
      · simp only [opened, Except.ok.injEq, Verdict.enter.injEq] at h
        obtain ⟨rfl, -, -⟩ := h
        exact .downloaded task
  case resizing.some =>
    unfold judgeResize at h
    split at h
    · cases h
    · split at h <;> cases h

theorem judgeFiles_requeues {step reason text : String} {after : Except Failure Phase} {polled : Appliance.FileTask}
    (h : judgeFiles c step reason text after polled = .ok (.enter next message outcome)) : outcome = c.step := by
  unfold judgeFiles at h
  split at h
  · cases h
  · split at h
    · cases h
    · obtain ⟨_, -, h⟩ := bind_eq_ok.1 h
      cases h
      rfl

/-- a phase that was entered is looked at again -/
theorem query_requeues (h : (query c m name p).read reply = .ok (.enter next message outcome)) :
    outcome = c.poll ∨ outcome = c.step := by
  rcases p with _ | task | ⟨src, dst, _ | task⟩ | ⟨src, dst, _ | task⟩ | ⟨src, dst, _ | task⟩ | _ | task <;>
    obtain ⟨polled, -, h⟩ := bind_eq_ok.1 h
  case notStarted | extracting.none | copying.none | renaming.none | resizing.none => cases h; exact .inl rfl
  case extracting.some | copying.some | renaming.some => exact .inr (judgeFiles_requeues h)
  case downloading =>
    unfold judgeDownload at h
    split at h
    · cases h
    · split at h
      · cases h
      · simp only [opened, Except.ok.injEq, Verdict.enter.injEq] at h
        exact .inr h.2.2.symm
  case resizing.some =>
    unfold judgeResize at h
    split at h
    · cases h
    · split at h <;> cases h

/-- the image is ready once the resize is done without an error -/
theorem query_finishes (h : (query c m name p).read reply = .ok .finish) : ∃ task polled,
    p = .resizing (some task) ∧ (Appliance.diskPoll c.settings (.int task)).read reply = .ok polled ∧
      polled.done = true ∧ polled.error = false := by
  rcases p with _ | task | ⟨src, dst, _ | task⟩ | ⟨src, dst, _ | task⟩ | ⟨src, dst, _ | task⟩ | _ | task <;>
    obtain ⟨polled, hp, h⟩ := bind_eq_ok.1 h
  case resizing.some =>
    refine ⟨task, polled, rfl, hp, ?_⟩
    unfold judgeResize at h
    grind
  case notStarted | extracting.none | copying.none | renaming.none | resizing.none =>
    simp only [started, Except.ok.injEq, reduceCtorEq] at h
  case downloading => unfold judgeDownload at h; grind [opened]
  all_goals exact absurd h judgeFiles_ne_finish

def failures : List String := ["DownloadFailed", "ExtractionFailed", "CopyFailed", "RenameFailed", "ResizeFailed"]

theorem judgeFiles_fails {step reason text step' reason' text' : String} {after : Except Failure Phase} {detail : Value}
    {polled : Appliance.FileTask} (h : judgeFiles c step reason text after polled = .ok (.fail step' reason' text' detail)) :
    reason' = reason := by
  unfold judgeFiles at h
  split at h
  · cases h
    rfl
  · split at h
    · cases h
    · obtain ⟨_, -, h⟩ := bind_eq_ok.1 h
      cases h

theorem query_fails {step reason message : String} {detail : Value}
    (h : (query c m name p).read reply = .ok (.fail step reason message detail)) : reason ∈ failures := by
  rcases p with _ | task | ⟨src, dst, _ | task⟩ | ⟨src, dst, _ | task⟩ | ⟨src, dst, _ | task⟩ | _ | task <;>
    obtain ⟨polled, -, h⟩ := bind_eq_ok.1 h
  case notStarted | extracting.none | copying.none | renaming.none | resizing.none =>
    simp only [started, Except.ok.injEq, reduceCtorEq] at h
  case downloading =>
    unfold judgeDownload at h
    split at h
    · cases h
      decide
    · split at h <;> cases h
  case resizing.some =>
    unfold judgeResize at h
    split at h
    · cases h
    · split at h
      · cases h
        decide
      · cases h
  all_goals
    rw [judgeFiles_fails h]
    decide

end Verdicts

end VmOperator.ImagePipeline
