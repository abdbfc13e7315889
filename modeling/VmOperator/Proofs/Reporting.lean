import VmOperator.Proofs.Reconcile.Reports
import VmOperator.Proofs.Rehearsal

/-! What goes wrong is reported, never raised: as long as what the store keeps and what the appliance grants have the
types that they are documented with, an invocation ends with an outcome, and as failed where a refusal was none that the
operator has a way to go on from (`misbehavior_is_reported`). A result of another type is raised (`not_reported`). -/

namespace VmOperator

section Steps

open Appliance

variable {c : Context} {m : Machine}

theorem imageName_gives (typed : m.Typed) : Gives (ImagePipeline.imageName? m) fun name => ∃ n, name = some n := by
  obtain ⟨url, name, same, read⟩ := typed.imageUrl
  unfold ImagePipeline.imageName?
  rw [same]
  dsimp only
  rw [read]
  exact .ok ⟨name, rfl⟩

theorem finalPath_gives (typed : m.Typed) : Gives (ImagePipeline.finalPath c m) fun _ => True := by
  refine .bind ((imageName_gives typed).mono fun name ⟨n, named⟩ => ?_)
  subst named
  exact .bind (.ok (.bind ((Value.toText_gives typed.vmName).mono fun _ _ => .ok trivial)))

theorem afterTransfer_gives (typed : m.Typed) (current : Phase) (name : String) :
    Gives (ImagePipeline.afterTransfer c m current (some name)) fun _ => True :=
  .bind (.ok (.bind ((Value.toText_gives typed.vmName).mono fun _ _ => .ok trivial)))

theorem judgeFiles_gives {step reason message : String} {next : Except Failure Phase} (after : Gives next fun _ => True)
    (polled : FileTask) : Gives (ImagePipeline.judgeFiles c step reason message next polled) fun _ => True := by
  unfold ImagePipeline.judgeFiles
  split
  · exact .ok trivial
  · split
    · exact .ok trivial
    · exact .bind (after.mono fun _ _ => .ok trivial)

theorem filePoll_answered (task : Int) : Answered (filePoll c.settings (.int task)) fun _ => True := by
  refine answered_query fun v documented => FileTask.ofResult_gives ?_
  rwa [documents_get, matter_moving] at documented

theorem fileQuery_answered {operation path : String} {fields : Except Failure Fields} (mem : path ∈ filePaths) :
    Answered (fileQuery c.settings operation path fields) fun _ => True := by
  refine answered_query fun v documented => FileTask.ofResult_gives ?_
  rcases List.mem_cons.1 mem with rfl | mem
  · exact documented
  rcases List.mem_cons.1 mem with rfl | mem
  · exact documented
  · rw [List.mem_singleton.1 mem] at documented
    exact documented

theorem growQuery_answered : Answered (ImagePipeline.growQuery c m) fun _ => True := by
  intro r reply written documented
  obtain ⟨path, -, written⟩ := bind_eq_ok.1 written
  have answered : Answered (resizeQuery c.settings (.string path) (.int m.diskSizeBytes) (.bool false)) fun _ => True :=
    answered_query fun v documented => number_gives (v := v) documented
  exact answered r reply written documented

theorem query_reports (typed : m.Typed) (name : String) {p : Phase} (textual : p.Textual) :
    Reports (ImagePipeline.query c m (some name) p).ask fun _ => True := by
  have polled {step reason message : String} {next : Except Failure Phase} (after : Gives next fun _ => True) (task : Int) :
      Reports ((filePoll c.settings (.int task)).andThen (ImagePipeline.judgeFiles c step reason message next)).ask
        fun _ => True :=
    .ask ⟨_, rfl⟩ ((filePoll_answered task).andThen fun polled _ => judgeFiles_gives after polled)
  rcases p with _ | task | ⟨src, dst, _ | task⟩ | ⟨src, dst, _ | task⟩ | ⟨src, dst, _ | task⟩ | _ | task
  case notStarted =>
    have submitted (v : Value) (documented : documents .post "/downloads/add" v = true) := number_gives (v := v) documented
    obtain ⟨url, -, same, -⟩ := typed.imageUrl
    have written : ∃ r, (downloadQuery c.settings [m.spec.imageUrl] (.string c.layout.downloads)
        (.string ((some name).getD ""))).request = .ok r := by
      rw [same]
      exact ⟨_, rfl⟩
    exact .ask written ((answered_query submitted).andThen fun _ _ => .ok trivial)
  case downloading =>
    have polled : Answered (downloadPoll c.settings (.int task)) fun _ => True := by
      refine answered_query fun v documented => DownloadTask.ofResult_gives task ?_
      rwa [documents_get, matter_downloading] at documented
    exact .ask ⟨_, rfl⟩ (polled.andThen fun _ _ => .ok trivial)
  case extracting.none | copying.none | renaming.none =>
    obtain ⟨source, target⟩ := textual src dst rfl
    obtain ⟨src, rfl⟩ := Value.eq_of_isText source
    obtain ⟨dst, rfl⟩ := Value.eq_of_isText target
    exact .ask ⟨_, rfl⟩ ((fileQuery_answered (by decide)).andThen fun _ _ => .ok trivial)
  case extracting.some | copying.some => exact polled (afterTransfer_gives typed _ name) task
  case renaming.some => exact polled (.ok trivial) task
  case resizing.none =>
    obtain ⟨path, final, -⟩ := finalPath_gives (c := c) typed
    have written : ∃ r, (ImagePipeline.growQuery c m).request = .ok r := by
      unfold ImagePipeline.growQuery
      dsimp only
      rw [final]
      exact ⟨_, rfl⟩
    exact .ask written (growQuery_answered.andThen fun _ _ => .ok trivial)
  case resizing.some =>
    have polled : Answered (diskPoll c.settings (.int task)) fun _ => True := by
      refine answered_query fun v documented => DiskTask.ofResult_gives task ?_
      rwa [documents_get, matter_resizing] at documented
    exact .ask ⟨_, rfl⟩ (polled.andThen fun _ _ => .ok trivial)

end Steps

section Invocation

open Appliance Reconcile

variable {c : Context} {m : Machine}

theorem Machine.Typed.nameProvider (typed : m.Typed) (known : Int) : (nameProvider known m).Typed :=
  ⟨typed.name, ⟨typed.spec.name, typed.spec.image⟩, typed.status, typed.owners, typed.writable⟩

theorem ensureProviderId_reports (typed : m.Typed) : Reports (Boot.ensureProviderId m) Machine.Typed := by
  unfold Boot.ensureProviderId
  split
  · rename_i known _ _
    have named := typed.nameProvider known
    refine .bind ((save_reports .whole (named.exists_written rfl)).mono fun saved read => .pure ?_)
    cases saved with
    | none => exact named
    | some saved => exact read saved rfl
  · exact .pure typed

theorem existing_reports (typed : m.Typed) (number : Int) : Reports (Boot.existing c m number) fun _ => True := by
  unfold Boot.existing
  refine .bind ((ensureProviderId_reports typed).mono fun latest typed => ?_)
  split
  · exact .pure trivial
  · refine .bind ((getVm_reports number).mono fun known text => ?_)
    have found : Reports (Discovery.discover c latest (some known.vm)) fun _ => True :=
      discover_reports typed fun vm same => by cases same; exact text
    dsimp only
    split
    · exact .bind ((startVm_reports _).mono fun _ _ => found)
    · exact found

theorem create_reports (typed : m.Typed) (path userData : String) : Reports (Boot.create c m path userData) fun _ => True := by
  unfold Boot.create
  refine .bind (createVm_reports.mono fun created text => ?_)
  have kept (m : Machine) : (Boot.record c created.number path m).stored = m.stored := rfl
  refine .bind ((saveStatusSurely_reports kept typed).mono fun recorded typed => ?_)
  refine .bind ((ensureProviderId_reports typed).mono fun latest typed => ?_)
  refine .bind ((startVm_reports _).mono fun _ _ => ?_)
  exact discover_reports typed fun vm same => by cases same; exact text

theorem boot_reports (typed : m.Typed) : Reports (boot c m) fun _ => True := by
  refine .bind (.lift ((finalPath_gives typed).mono fun path _ => ?_))
  unfold Boot.ensure
  split
  · exact existing_reports typed _
  · refine .bind ((userData_reports typed).mono fun found _ => ?_)
    split
    · exact .pure trivial
    · exact .bind (.lift (.ok (create_reports typed _ _)))

theorem carryOut_reports (typed : m.Typed) (verdict : ImagePipeline.Verdict) :
    Reports (verdict.carryOut c m) fun ended => ∀ m', ended = .ready m' → m'.Typed := by
  have restated (change : Machine → Machine) (kept : (change m).stored = m.stored) (o : Outcome) :
      Reports (do
        discard (Checkout.saveStatus (change m))
        return ImagePipeline.Advance.ends o) fun ended => ∀ m', ended = .ready m' → m'.Typed :=
    .bind (.bind ((saveStatus_reports typed kept).mono fun _ _ => .pure (.pure fun _ same => by cases same)))
  cases verdict with
  | wait => exact .pure fun _ same => by cases same
  | enter next message outcome => exact restated (ImagePipeline.entering c next message) rfl outcome
  | fail step reason message detail => exact restated (ImagePipeline.failing c reason message detail) rfl _
  | finish =>
    have kept : (ImagePipeline.finishing c m).stored = m.stored := rfl
    refine .bind ((saveStatus_reports typed kept).mono fun saved read => ?_)
    cases saved with
    | none => exact .pure fun _ same => by cases same
    | some saved => exact .pure fun m' same => by cases same; exact read saved rfl

theorem advance_reports (typed : m.Typed) :
    Reports (ImagePipeline.advance c m) fun ended => ∀ m', ended = .ready m' → m'.Typed := by
  rw [ImagePipeline.advance_eq]
  refine .bind (.lift ((imageName_gives typed).mono fun name ⟨n, named⟩ => ?_))
  subst named
  rcases Phase.decode_cases typed.status.progress with ⟨p, decoded, textual⟩ | ⟨f, failed⟩
  · refine .bind (.lift ⟨p, decoded, .bind ((query_reports typed n textual).mono fun verdict _ => ?_)⟩)
    exact carryOut_reports typed verdict
  · exact .bind (.faulty failed)

theorem provision_reports (typed : m.Typed) : Reports (provision c m) fun _ => True := by
  unfold provision
  split
  · exact .pure trivial
  · refine .bind (.lift (typed.failedImageReason_gives.mono fun failed _ => ?_))
    split
    · exact .pure trivial
    · split
      · exact boot_reports typed
      · refine .bind ((advance_reports typed).mono fun ended read => ?_)
        cases ended with
        | ends o => exact .pure trivial
        | ready m => exact boot_reports (read m rfl)

theorem removeVm_reports (typed : m.Typed) (number : Int) :
    Reports (Teardown.removeVm c m number) fun progress => ∀ m', progress = .gone m' → m'.Typed := by
  have forgets : Reports (Teardown.forgetVm c m) fun progress => ∀ m', progress = .gone m' → m'.Typed := by
    have kept : (forget m).stored = m.stored := rfl
    refine .bind ((saveStatus_reports typed kept).mono fun saved read => ?_)
    cases saved with
    | none => exact .pure fun _ same => by cases same
    | some saved => exact .pure fun m' same => by cases same; exact read saved rfl
  have waits : Reports (Teardown.awaitStop c m number) fun progress => ∀ m', progress = .gone m' → m'.Typed := by
    have kept : (await m).stored = m.stored := rfl
    have counts := saveStatus_reports typed kept
    rw [awaitStop_eq]
    dsimp only
    split
    · exact .bind ((tryKill_reports number).mono fun _ _ => .bind (counts.mono fun _ _ => .pure fun _ same => by cases same))
    · exact .bind (counts.mono fun _ _ => .pure fun _ same => by cases same)
  unfold Teardown.removeVm
  refine .bind ((lookFor_reports number).mono fun known _ => ?_)
  cases known with
  | none => exact forgets
  | some known =>
    dsimp only
    split
    · exact waits
    · exact .bind ((deleteVm_reports _).mono fun _ _ => forgets)

theorem removeDisk_reports (typed : m.Typed) : Reports (Teardown.removeDisk c m) fun _ => True := by
  unfold Teardown.removeDisk
  split
  · exact .bind (.lift ((Value.toText_gives typed.status.diskPath).mono fun path _ => .map (removeFiles_reports _ _)))
  · exact .pure trivial

theorem run_reports (typed : m.Typed) : Reports (Teardown.run c m) fun _ => True := by
  have releases {m : Machine} (typed : m.Typed) : Reports (do
      Teardown.removeDisk c m
      Teardown.release c m) fun _ => True := by
    have kept : (dropFinalizer m).stored = m.stored := rfl
    refine .bind ((removeDisk_reports typed).mono fun _ _ => ?_)
    refine .bind ((save_reports .whole (typed.exists_written kept)).mono fun saved _ => ?_)
    cases saved <;> exact .pure trivial
  unfold Teardown.run
  split
  · exact .pure trivial
  · dsimp only
    split
    · refine .bind ((removeVm_reports typed _).mono fun progress read => ?_)
      cases progress with
      | ends o => exact .pure trivial
      | gone m => exact releases (read m rfl)
    · exact releases typed

theorem settle_reports (typed : m.Typed) : Reports (settle c m) fun _ => True := by
  unfold settle
  split
  · exact run_reports typed
  · unfold ensureFinalizer
    split
    · exact provision_reports typed
    · have kept : (holdFinalizer m).stored = m.stored := rfl
      refine .bind ((save_reports .whole (typed.exists_written kept)).mono fun saved read => ?_)
      cases saved with
      | none => exact .pure trivial
      | some saved => exact provision_reports (read saved rfl)

/-- an invocation of which nothing is said against the documented types ends with an outcome -/
theorem machine_reports (c : Context) (ns name : String) (h : Held) : World.documented.Yields h (machine c ns name)
    (fun es o _ => Behaved es ∨ o.isFailed = true) fun _ _ _ => False := by
  refine machine_ends c ns name fun es r h' looks => ?_
  have found := looks_reports looks
  rcases r with e | _ | m
  · exact ⟨fun _ _ => .inr rfl, fun plain => plain _ found.1.choose_spec⟩
  · exact .inl found.1
  · refine ((settle_reports (found.2 m rfl)).reported h').mono (fun _ _ _ ended => .inl (found.1.append ended.1)) ?_
    exact fun _ e _ ⟨f, fault⟩ => ⟨fun _ _ => .inr rfl, fun plain => plain f fault⟩

variable {ns name : String} {h h' : Held} {es : List Event} {r : Except Failure Outcome}

/-- Nothing is raised: whatever the store and the appliance answer, as long as the objects of the one and the results of
the other have the types that they are documented with, an invocation ends with an outcome. Transport errors, bodies that
are no JSON, refusals with any status or message and secrets that are no text are all covered. The outcome is a failure
where one of the refusals was none that the operator goes on from. -/
theorem misbehavior_is_reported (plays : World.any.Plays h (machine c ns name).run es r h')
    (documented : ∀ e ∈ es, e.said.documented = true) :
    ∃ o, r = .ok o ∧ ((∃ e ∈ es, e.said.misbehaves = true) → o.isFailed = true) := by
  have ended := machine_reports c ns name h es r h' (plays.within fun _ e mem _ => documented e mem)
  cases r with
  | error => exact ended.elim
  | ok o =>
    refine ⟨o, rfl, fun ⟨e, mem, wrong⟩ => ended.resolve_left fun behaved => ?_⟩
    rw [behaved e mem] at wrong
    cases wrong

/-- the appliance cannot be reached when the download is submitted -/
theorem misbehavior_is_reported_unreachable : ∃ es r h', World.any.Plays Sample.held
      (machine Sample.context "default" "worker").run es r h' ∧ (∀ e ∈ es, e.said.documented = true) ∧
    (∃ e ∈ es, e.said.misbehaves = true) ∧ ∃ o, r = .ok o ∧ o.isFailed = true := by
  obtain ⟨es, r, h', plays, seen⟩ := Sample.alone.exists_plays (machine Sample.context "default" "worker").run Sample.held
    [.gives, .reply (.unreachable "timed out")]
    (fun played => played.1.all (·.said.documented) && played.1.any (·.said.misbehaves)) (by decide +kernel)
  obtain ⟨documented, wrong⟩ := Bool.and_eq_true_iff.1 seen
  have documented := List.all_eq_true.1 documented
  have wrong := List.any_eq_true.1 wrong
  have plays := plays.inWorld.anywhere
  obtain ⟨o, outcome, failed⟩ := misbehavior_is_reported plays documented
  exact ⟨es, r, h', plays, documented, wrong, o, outcome, failed wrong⟩

def Exchange.heard (answer : Appliance.Reply) : Exchange → Bool
  | .sent _ reply => reply = answer
  | .called .. => false

def grantedNull : Appliance.Reply := .answer (.int 200) (some (.object [("success", .bool true), ("result", .null)]))

/-- a submission that is granted with null for a result is raised, and not reported -/
theorem not_reported : ∃ es e h', World.any.Plays Sample.held
      (machine Sample.context "default" "worker").run es (.error e) h' ∧
    Machine.shape Sample.object = true ∧ ∃ event ∈ es, event.said.heard grantedNull = true := by
  obtain ⟨es, r, h', plays, seen⟩ := Sample.alone.exists_plays (machine Sample.context "default" "worker").run Sample.held
    [.gives, .result .null] (fun played => !played.2.1.isOk && played.1.any (·.said.heard grantedNull)) (by decide +kernel)
  obtain ⟨raised, answered⟩ := Bool.and_eq_true_iff.1 seen
  cases r with
  | ok => cases raised
  | error e => exact ⟨es, e, h', plays.inWorld.anywhere, by decide +kernel, List.any_eq_true.1 answered⟩

end Invocation

end VmOperator
