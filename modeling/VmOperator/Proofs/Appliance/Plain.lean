import VmOperator.Proofs.Appliance.Query

/-! What a query can fail with. What cannot be written of a request or read of a result is never a fault, and a refusal is
a fault of the appliance; that a task failed is never said in this way (`query_untasked`). -/

namespace VmOperator

/-- the report that a task of the appliance failed -/
def Failure.isTask : Failure → Bool
  | .fault (.task ..) => true
  | _ => false

/-- whatever this fails with, it is not the report of a failed task -/
structure Untasked {α : Type} (x : Except Failure α) : Prop where
  other : ∀ e, x = .error e → e.isTask = false

namespace Untasked

variable {α β : Type} {x : Except Failure α}

theorem ok (a : α) : Untasked (.ok a) := ⟨nofun⟩

theorem error {e : Failure} (other : e.isTask = false) : Untasked (.error e : Except Failure α) := by
  refine ⟨fun e' same => ?_⟩
  cases same
  exact other

theorem bind {f : α → Except Failure β} (first : Untasked x) (rest : ∀ a, Untasked (f a)) : Untasked (x >>= f) := by
  cases x with
  | ok a => exact rest a
  | error e => exact error (first.other e rfl)

end Untasked

theorem Plain.untasked {α : Type} {x : Except Failure α} (plain : Plain x) : Untasked x := by
  refine ⟨fun e failed => ?_⟩
  cases e with
  | fault f => exact absurd failed (plain f)
  | _ => rfl

namespace Appliance

open Value

theorem plain_pathValue (path : Value) : Plain (pathValue path) := .bind (plain_toText _) fun _ => .ok _

theorem plain_pathValues (files : List Value) : Plain (pathValues files) := .bind (.mapM plain_pathValue _) fun _ => .ok _

theorem VmOrder.plain_toFields (order : VmOrder) : Plain order.toFields := .bind (plain_pathValue _) fun _ => .ok _

/-- the number of a task or of a virtual machine -/
theorem plain_number (result : Value) : Plain (result.member "id" >>= Value.toInt) :=
  .bind (plain_member _ _) plain_toInt

theorem DownloadTask.plain_ofResult (task result : Value) : Plain (DownloadTask.ofResult task result) := by
  refine plain_field _ _ _ fun _ => .bind (plain_toInt _) fun _ => plain_field _ _ _ fun _ => ?_
  exact .bind (plain_intOf _ _) fun _ => .bind (plain_intOf _ _) fun _ => .ok _

theorem FileTask.plain_ofResult (result : Value) : Plain (FileTask.ofResult result) := by
  refine .bind (plain_member _ _) fun _ => .bind (plain_toInt _) fun _ => ?_
  iterate 3 refine plain_field _ _ _ fun _ => ?_
  exact .ok _

theorem DiskTask.plain_ofResult (task result : Value) : Plain (DiskTask.ofResult task result) := by
  refine plain_field _ _ _ fun _ => .bind (plain_toInt _) fun _ => ?_
  iterate 2 refine plain_field _ _ _ fun _ => ?_
  exact .ok _

theorem KnownVm.plain_ofResult (result : Value) : Plain (KnownVm.ofResult result) := by
  refine .bind (plain_member _ _) fun _ => .bind (plain_toInt _) fun _ => ?_
  iterate 3 refine plain_field _ _ _ fun _ => ?_
  exact .ok _

theorem LanHost.plain_addressOf (entry : Value) : Plain (LanHost.addressOf entry) := by
  refine plain_field _ _ _ fun _ => ?_
  split
  · exact plain_field _ _ _ fun _ => .ok _
  · exact .ok _

theorem LanHost.plain_ofResult (data : Value) : Plain (LanHost.ofResult data) := by
  refine .bind (plain_section? _ _) fun _ => .bind (plain_itemsOf _ _) fun _ => ?_
  refine .bind (.mapM LanHost.plain_addressOf _) fun _ => ?_
  iterate 2 refine plain_field _ _ _ fun _ => ?_
  exact .ok _

theorem judged_untasked (operation url : String) (reply : Reply) : Untasked (judged operation url reply) := by
  unfold judged
  split
  · exact .ok _
  · exact .error rfl

structure Query.Untasked {α : Type} (q : Query α) : Prop where
  request : VmOperator.Untasked q.request
  read : ∀ reply, VmOperator.Untasked (q.read reply)

theorem Query.Untasked.andThen {α β : Type} {q : Query α} {f : α → Except Failure β} (first : q.Untasked)
    (rest : ∀ a, VmOperator.Untasked (f a)) : (q.andThen f).Untasked :=
  ⟨first.request, fun reply => .bind (first.read reply) rest⟩

variable (s : Settings)

theorem query_untasked {α : Type} {operation : String} {method : Method} {path : String} {content : Except Failure Content}
    {read : Value → Except Failure α} (written : Plain content) (readable : ∀ v, Plain (read v)) :
    (query s operation method path content read).Untasked where
  request := .bind written.untasked fun _ => .ok _
  read _ := .bind (judged_untasked ..) fun v => (readable v).untasked

variable (id src dst mode task path size shrink : Value) (files : List Value)

theorem downloadQuery_untasked (urls : List Value) (downloads name : Value) :
    (downloadQuery s urls downloads name).Untasked :=
  query_untasked s (.bind (.mapM plain_toText _) fun _ => .bind (plain_pathValue _) fun _ => .ok _) plain_number

theorem downloadPoll_untasked : (downloadPoll s task).Untasked :=
  query_untasked s (.ok _) (DownloadTask.plain_ofResult task)

theorem fileQuery_untasked {operation path : String} {fields : Except Failure Fields} (written : Plain fields) :
    (fileQuery s operation path fields).Untasked :=
  query_untasked s (.map _ written) FileTask.plain_ofResult

theorem extractQuery_untasked : (extractQuery s src dst).Untasked :=
  fileQuery_untasked s (.bind (plain_pathValue _) fun _ => .bind (plain_pathValue _) fun _ => .ok _)

theorem transferQuery_untasked (operation path : String) : (transferQuery s operation path files dst mode).Untasked :=
  fileQuery_untasked s (.bind (plain_pathValues _) fun _ => .bind (plain_pathValue _) fun _ => .ok _)

theorem removeQuery_untasked : (removeQuery s files).Untasked :=
  fileQuery_untasked s (.bind (plain_pathValues _) fun _ => .ok _)

theorem filePoll_untasked : (filePoll s task).Untasked := query_untasked s (.ok _) FileTask.plain_ofResult

theorem resizeQuery_untasked : (resizeQuery s path size shrink).Untasked :=
  query_untasked s (.bind (plain_pathValue _) fun _ => .ok _) plain_number

theorem diskPoll_untasked : (diskPoll s task).Untasked := query_untasked s (.ok _) (DiskTask.plain_ofResult task)

theorem createQuery_untasked (order : VmOrder) : (createQuery s order).Untasked :=
  query_untasked s (.map _ order.plain_toFields) KnownVm.plain_ofResult

theorem vmQuery_untasked : (vmQuery s id).Untasked := query_untasked s (.ok _) KnownVm.plain_ofResult

theorem command_untasked (operation : String) (method : Method) (path : String) :
    (command s operation method path).Untasked :=
  query_untasked s (.ok _) fun _ => .ok _

theorem hostsQuery_untasked (interface : String) : (hostsQuery s interface).Untasked :=
  query_untasked s (.ok _) fun _ => .bind (plain_items _) fun _ => .mapM LanHost.plain_ofResult _

end Appliance

end VmOperator
