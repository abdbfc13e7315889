import VmOperator.Proofs.Reconcile.Endings
import VmOperator.Proofs.Reconcile.ImagePipeline

/-! What only asks: the queries of the appliance and the fetches of other objects write nothing and do not report a failed
task, nor does what is put together from them (`OnlyAsks`). What is told of the result of any other action, whoever
answers, comes with the same of its failures (`Tells`). -/

namespace VmOperator

/-- whatever is answered and whatever comes of it, nothing is written, and no failed task is reported -/
structure OnlyAsks {α : Type} (p : Action α) : Prop where
  silent : ∀ (W : World) (h : Held), W.Yields h p (fun es _ _ => ∀ e ∈ es, e.said.content? = none) fun es f _ =>
    (∀ e ∈ es, e.said.content? = none) ∧ f.isTask = false

theorem Store.fetched_untasked (action key : String) (reply : Reply) : Untasked (fetched action key reply) := by
  cases reply with
  | ok => exact .ok _
  | refused status reason =>
    unfold fetched
    dsimp only
    split
    · exact .ok _
    · exact .error (refusal_isTask ..)

namespace OnlyAsks

variable {α β : Type} {p : Action α}

theorem pure (a : α) : OnlyAsks (Pure.pure a : Action α) := ⟨fun _ _ => .pure (List.forall_mem_nil _)⟩

theorem throw {f : Failure} (other : f.isTask = false) : OnlyAsks (MonadExcept.throw f : Action α) :=
  ⟨fun _ _ => .throw ⟨List.forall_mem_nil _, other⟩⟩

theorem lift {r : Except Failure α} (untasked : Untasked r) : OnlyAsks (Action.ofExcept r) :=
  ⟨fun _ _ => .lift (fun _ _ => List.forall_mem_nil _) fun f failed =>
    ⟨List.forall_mem_nil _, untasked.other f failed⟩⟩

theorem bind {f : α → Action β} (first : OnlyAsks p) (rest : ∀ a, OnlyAsks (f a)) : OnlyAsks (p >>= f) := by
  refine ⟨fun W h => .bind ((first.silent W h).mono (fun es a h' silent => ?_) fun _ _ _ silent => silent)⟩
  exact ((rest a).silent W h').mono (fun _ _ _ more => List.forall_mem_append.2 ⟨silent, more⟩) fun _ _ _ more =>
    ⟨List.forall_mem_append.2 ⟨silent, more.1⟩, more.2⟩

theorem map {f : α → β} (first : OnlyAsks p) : OnlyAsks (f <$> p) := by
  rw [map_eq_pure_bind]
  exact first.bind fun _ => .pure _

/-- what handles a failure need not handle the report of a failed task, for there is none -/
theorem tryCatch {handle : Failure → Action α} (first : OnlyAsks p)
    (rest : ∀ f, f.isTask = false → OnlyAsks (handle f)) :
    OnlyAsks (MonadExcept.tryCatch p handle) := by
  refine ⟨fun W h => .tryCatch ((first.silent W h).mono (fun _ _ _ silent => silent) ?_)⟩
  intro es f h' ⟨silent, other⟩
  exact ((rest f other).silent W h').mono (fun _ _ _ more => List.forall_mem_append.2 ⟨silent, more⟩) fun _ _ _ more =>
    ⟨List.forall_mem_append.2 ⟨silent, more.1⟩, more.2⟩

theorem ask {q : Appliance.Query α} (untasked : q.Untasked) : OnlyAsks q.ask := by
  have silent {e : Event} {r : Appliance.Request} {reply : Appliance.Reply} (said : e.said = .sent r reply) :
      ∀ e' ∈ [e], e'.said.content? = none := List.forall_mem_singleton.2 (by rw [said]; rfl)
  refine ⟨fun W h => .ask (fun f failed => ⟨List.forall_mem_nil _, untasked.request.other f failed⟩) ?_ ?_⟩
  · exact fun _ _ _ _ _ said _ _ => silent said
  · exact fun _ _ reply f _ said _ failed => ⟨silent said, (untasked.read reply).other f failed⟩

theorem fetch (action : String) (kind : Store.Kind) (ns name : Value) : OnlyAsks (Store.fetch action kind ns name) := by
  have silent {e : Event} {reply : Store.Reply} (said : e.said = .called (.get kind ns name) reply) :
      ∀ e' ∈ [e], e'.said.content? = none := List.forall_mem_singleton.2 (by rw [said]; rfl)
  refine ⟨fun W h => .call (Store.fetch_eq ..) ?_ ?_⟩
  · exact fun _ _ _ said _ _ => silent said
  · exact fun _ reply f said _ failed => ⟨silent said, (Store.fetched_untasked _ _ reply).other f failed⟩

end OnlyAsks

namespace Appliance

variable (s : Settings) (id : Value)

theorem getVm_onlyAsks : OnlyAsks (getVm s id) := getVm_eq s id ▸ .ask (vmQuery_untasked ..)

theorem startVm_onlyAsks : OnlyAsks (startVm s id) := startVm_eq s id ▸ .ask (command_untasked ..)

theorem killVm_onlyAsks : OnlyAsks (killVm s id) := killVm_eq s id ▸ .ask (command_untasked ..)

theorem deleteVm_onlyAsks : OnlyAsks (deleteVm s id) := deleteVm_eq s id ▸ .ask (command_untasked ..)

theorem createVm_onlyAsks (order : VmOrder) : OnlyAsks (createVm s order) :=
  createVm_eq s order ▸ .ask (createQuery_untasked ..)

theorem removeFiles_onlyAsks (files : List Value) : OnlyAsks (removeFiles s files) :=
  removeFiles_eq s files ▸ .ask (removeQuery_untasked ..)

theorem lanHosts_onlyAsks (interface : String) : OnlyAsks (lanHosts s interface) :=
  lanHosts_eq s interface ▸ .ask (hostsQuery_untasked ..)

end Appliance

/-- what may be said of the events and the result, whoever answers; no failed task is reported as a failure -/
structure Tells {α : Type} (p : Action α) (Q : List Event → α → Prop) : Prop where
  told : ∀ (W : World) (h : Held), W.Yields h p (fun es a _ => Q es a) fun _ f _ => f.isTask = false

namespace Tells

variable {α β : Type} {p : Action α} {Q : List Event → α → Prop}

theorem pure {a : α} (hQ : Q [] a) : Tells (Pure.pure a) Q := ⟨fun _ _ => .pure hQ⟩

theorem lift {r : Except Failure α} (untasked : Untasked r) (hQ : ∀ a, r = .ok a → Q [] a) :
    Tells (Action.ofExcept r) Q :=
  ⟨fun _ _ => .lift hQ untasked.other⟩

theorem mono {Q' : List Event → α → Prop} (tells : Tells p Q) (hQ : ∀ es a, Q es a → Q' es a) : Tells p Q' :=
  ⟨fun W h => (tells.told W h).mono (fun es a _ => hQ es a) fun _ _ _ => id⟩

theorem bind {f : α → Action β} {Q : List Event → β → Prop}
    (tells : Tells p fun es a => Tells (f a) fun es' => Q (es ++ es')) :
    Tells (p >>= f) Q := by
  refine ⟨fun W h => .bind ((tells.told W h).mono (fun es a h' next => ?_) fun _ _ _ => id)⟩
  exact (next.told W h').mono (fun _ _ _ => id) fun _ _ _ => id

theorem map {f : α → β} {Q : β → Prop} (tells : Tells p fun _ a => Q (f a)) : Tells (f <$> p) fun _ => Q := by
  rw [map_eq_pure_bind]
  exact .bind (tells.mono fun _ _ told => .pure told)

theorem tryCatch {handle : Failure → Action α} {Q : α → Prop} (tells : Tells p fun _ => Q)
    (rest : ∀ f, f.isTask = false → Tells (handle f) fun _ => Q) :
    Tells (MonadExcept.tryCatch p handle) fun _ => Q := by
  refine ⟨fun W h => .tryCatch ((tells.told W h).mono (fun _ _ _ => id) fun _ f h' other => ?_)⟩
  exact ((rest f other).told W h').mono (fun _ _ _ => id) fun _ _ _ => id

theorem throw {f : Failure} (other : f.isTask = false) : Tells (MonadExcept.throw f : Action α) Q :=
  ⟨fun _ _ => .throw other⟩

theorem asks (asks : OnlyAsks p) : Tells p fun es _ => ∀ e ∈ es, e.said.content? = none :=
  ⟨fun W h => (asks.silent W h).mono (fun _ _ _ => id) fun _ _ _ => And.right⟩

theorem ask {q : Appliance.Query α} (untasked : q.Untasked)
    (hQ : ∀ es reply a, (∀ e ∈ es, e.said.content? = none) → q.read reply = .ok a → Q es a) : Tells q.ask Q := by
  refine ⟨fun W h => .ask untasked.request.other (fun e r reply a _ said _ read => ?_) fun _ _ reply f _ _ _ => ?_⟩
  · exact hQ [e] reply a (List.forall_mem_singleton.2 (by rw [said]; rfl)) read
  · exact (untasked.read reply).other f

end Tells

namespace Store

theorem bootstrapSecret_plain (owner : Value) : Plain (bootstrapSecret owner) :=
  .bind (Value.plain_section? _ _) fun _ => .bind (Value.plain_section? _ _) fun _ => Value.plain_field _ _ _ fun _ => .ok _

theorem bootstrapEntry_untasked (secret : String) (data : Value) : Untasked (bootstrapEntry secret data) := by
  unfold bootstrapEntry
  dsimp only
  split
  · cases Fields.get? _ "value" with
    | none => exact .error rfl
    | some => exact .ok _
  all_goals
    refine .error ?_
    try split
    all_goals rfl

end Store

theorem Appliance.plain_decodeBytes (v : Value) : Plain (decodeBytes v) := by
  unfold decodeBytes
  cases v with
  | string s =>
    dsimp only
    split
    · nofun
    · cases Base64.decode s.toList <;> nofun
  | _ => nofun

theorem OwnerReference.plain_group (o : OwnerReference) : Plain o.group := by
  unfold group
  split
  · nofun
  · split <;> nofun
  · split <;> nofun
  · nofun

theorem Machine.plain_ownerName (m : Machine) : Plain m.ownerName := by
  unfold ownerName
  generalize m.owners = owners
  induction owners with
  | nil => exact .ok _
  | cons o rest ih =>
    unfold ownerName.go
    split
    · refine .bind o.plain_group fun _ => ?_
      split
      · exact .ok _
      · exact ih
    · exact ih

theorem Machine.plain_failedImageReason? (m : Machine) : Plain m.failedImageReason? := by
  unfold failedImageReason?
  split
  · exact .ok _
  · split
    · exact .ok _
    · exact .bind (Value.plain_toText _) fun _ => .ok _

theorem ApplianceFault.plain_notFound (f : ApplianceFault) : Plain f.notFound := by
  unfold notFound
  split
  · nofun
  · split <;> nofun

namespace Phase

theorem decodeTask_untasked (tag : String) (recorded : Value) : Untasked (decodeTask tag recorded) := by
  unfold decodeTask
  split
  · exact .ok _
  · split
    · exact .ok _
    · exact .error rfl
    · exact .error rfl

theorem decodeKind_untasked (kind : Kind) (tag : String) (progress : Value) (fs : Fields) (task : Option Int) :
    Untasked (decodeKind kind tag progress fs task) := by
  unfold decodeKind
  split
  case h_2 => exact .error rfl
  case h_5 =>
    dsimp only
    split
    · exact .ok _
    · exact .error rfl
  all_goals exact .ok _

theorem decode_untasked (progress : Value) : Untasked (decode progress) := by
  unfold decode
  split
  · exact .ok _
  · refine .bind (Value.plain_fields _).untasked fun fs => ?_
    dsimp only
    split
    · split
      · exact .error rfl
      · exact .bind (decodeTask_untasked ..) fun _ => decodeKind_untasked ..
    · exact .error rfl

end Phase

namespace ImagePipeline

open Appliance

variable (c : Context) (m : Machine)

theorem plain_imageName? : Plain (imageName? m) := by
  unfold imageName?
  split
  · split <;> nofun
  · split <;> nofun

theorem plain_named (name : Option String) : Plain (named name) := by
  cases name <;> nofun

theorem plain_finalPath : Plain (finalPath c m) :=
  .bind (plain_imageName? m) fun name => .bind (plain_named name) fun _ => .bind (Value.plain_toText _) fun _ => .ok _

theorem plain_afterTransfer (current : Phase) (name : Option String) : Plain (afterTransfer c m current name) :=
  .bind (plain_named name) fun _ => .bind (Value.plain_toText _) fun _ => .ok _

theorem judgeFiles_untasked {step reason message : String} {next : Except Failure Phase} (after : Plain next)
    (polled : FileTask) : Untasked (judgeFiles c step reason message next polled) := by
  unfold judgeFiles
  split
  · exact .ok _
  · split
    · exact .ok _
    · exact .bind after.untasked fun _ => .ok _

theorem growQuery_untasked : (growQuery c m).Untasked where
  request := .bind (plain_finalPath c m).untasked fun _ => (resizeQuery_untasked ..).request
  read := (resizeQuery_untasked c.settings .null (.int m.diskSizeBytes) (.bool false)).read

/-- that a task failed is a verdict, no failure of the query -/
theorem query_untasked (name : Option String) (p : Phase) : (query c m name p).Untasked := by
  rcases p with _ | task | ⟨src, dst, _ | task⟩ | ⟨src, dst, _ | task⟩ | ⟨src, dst, _ | task⟩ | _ | task
  case notStarted => exact (downloadQuery_untasked ..).andThen fun _ => .ok _
  case downloading => exact (downloadPoll_untasked ..).andThen fun _ => .ok _
  case extracting.none => exact (extractQuery_untasked ..).andThen fun _ => .ok _
  case copying.none | renaming.none => exact (transferQuery_untasked ..).andThen fun _ => .ok _
  case extracting.some | copying.some =>
    exact (filePoll_untasked ..).andThen (judgeFiles_untasked c (plain_afterTransfer _ _ _ _))
  case renaming.some => exact (filePoll_untasked ..).andThen (judgeFiles_untasked c (.ok _))
  case resizing.none => exact (growQuery_untasked c m).andThen fun _ => .ok _
  case resizing.some => exact (diskPoll_untasked ..).andThen fun _ => .ok _

end ImagePipeline

section Machine

variable (c : Context) (m : Machine)

theorem Discovery.current_onlyAsks (id : Int) (known : Option Appliance.Vm) :
    OnlyAsks (Discovery.current c id known) := by
  have anew : OnlyAsks (do return (← Appliance.getVm c.settings (.int id)).vm) :=
    (Appliance.getVm_onlyAsks ..).bind fun _ => .pure _
  unfold Discovery.current
  split
  · split
    · exact .pure _
    · exact anew
  · exact anew

theorem Discovery.plain_addressesIn (wanted : String) (hosts : List Appliance.LanHost) :
    Plain (Discovery.addressesIn wanted hosts) := by
  induction hosts with
  | nil => exact .ok _
  | cons host rest ih =>
    refine .bind (Value.plain_toText _) fun _ => ?_
    split
    · exact .ok _
    · exact ih

theorem Discovery.tryAddresses_onlyAsks (mac : Value) : OnlyAsks (Discovery.tryAddresses c.settings mac) := by
  have found : OnlyAsks (Discovery.findAddresses c.settings mac) :=
    .bind (.lift (Value.plain_toText _).untasked) fun _ => .bind (Appliance.lanHosts_onlyAsks ..) fun _ =>
      .lift (plain_addressesIn _ _).untasked
  refine .tryCatch (.map found) fun f other => ?_
  split
  · exact .pure _
  · exact .throw other

theorem Store.getOwner_onlyAsks : OnlyAsks (Store.getOwner c.settings m) := by
  refine .bind (.lift m.plain_ownerName.untasked) fun owner => ?_
  split
  · exact .pure _
  · exact .bind (.fetch ..) fun _ => .pure _

theorem Store.getBootstrapData_onlyAsks (ns secret : Value) : OnlyAsks (Store.getBootstrapData ns secret) := by
  refine .bind (.fetch ..) fun found => ?_
  cases found with
  | none => exact .pure _
  | some object =>
    refine .bind (.lift (Value.plain_get _ _ _).untasked) fun _ => .bind (.lift (bootstrapEntry_untasked ..)) fun _ => ?_
    exact .bind (.lift (Appliance.plain_decodeBytes _).untasked) fun _ => .pure _

theorem Boot.userData_onlyAsks : OnlyAsks (Boot.userData c m) := by
  refine .bind (Store.getOwner_onlyAsks c m) fun owner => ?_
  cases owner with
  | none => exact .pure _
  | some owner =>
    refine .bind (.lift (Store.bootstrapSecret_plain _).untasked) fun secret => ?_
    split
    · exact .pure _
    · refine .bind (Store.getBootstrapData_onlyAsks ..) fun bytes => ?_
      cases bytes with
      | none => exact .pure _
      | some bytes =>
        dsimp only
        split
        · exact .pure _
        · exact .throw rfl

theorem Teardown.tryKill_onlyAsks (number : Int) : OnlyAsks (Teardown.tryKill c number) := by
  refine .tryCatch (Appliance.killVm_onlyAsks ..) fun f other => ?_
  split
  · exact .pure _
  · exact .throw other

theorem Teardown.lookFor_onlyAsks (number : Int) : OnlyAsks (Teardown.lookFor c number) := by
  refine .tryCatch (.map (Appliance.getVm_onlyAsks ..)) fun f other => ?_
  split
  · rename_i fault
    refine .bind (.lift fault.plain_notFound.untasked) fun missing => ?_
    split
    · exact .pure _
    · exact .throw other
  · exact .throw other

theorem Teardown.removeDisk_onlyAsks : OnlyAsks (Teardown.removeDisk c m) := by
  unfold Teardown.removeDisk
  split
  · exact .bind (.lift (Value.plain_toText _).untasked) fun _ => .map (Appliance.removeFiles_onlyAsks ..)
  · exact .pure _

end Machine

end VmOperator
