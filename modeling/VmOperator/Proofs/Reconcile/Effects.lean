import VmOperator.Proofs.Reconcile.Deed
import VmOperator.Proofs.Store.World

/-! What an event of an invocation leaves behind: the stored status is as it was or as the table changes
it (`Deed.impact`), the deletion mark stays, and the finalizer stays until it is released. -/

namespace VmOperator

namespace Stored

def Holds (o : Value) : Prop := ∃ fs, finalizers o = .ok fs ∧ Machine.finalizerValue ∈ fs

theorem isReleased_iff {ns name : String} {o : Value} (shaped : Shaped ns name o) :
    Bench.Table.isReleased o = true ↔
      (deletion o).isTruthy = true ∧ (((metadataOf o).get? "finalizers").getD .null).isTruthy = false := by
  simp [Bench.Table.isReleased, metadata_eq shaped, deletion]

/-- an object with a finalizer is not released -/
theorem finalizers_of_released {ns name : String} {o : Value} (shaped : Shaped ns name o)
    (released : Bench.Table.isReleased o = true) : finalizers o = .ok [] := by
  have unset := ((isReleased_iff shaped).1 released).2
  rw [finalizers, Value.itemsOf_object, Value.orElse_of_unset unset]
  rfl

end Stored

namespace Held

def vmId (h : Held) : Option Int := h.status.bind (·.vmId)

/-- marked for deletion, or gone -/
def Doomed (h : Held) : Prop := ∀ o, h.object = some o → (Stored.deletion o).isTruthy = true

/-- there, with the machine's finalizer -/
def Armed (h : Held) : Prop := ∃ o, h.object = some o ∧ Stored.Holds o

end Held

namespace Machine

theorem hasFinalizer_iff (m : Machine) : m.hasFinalizer = true ↔ finalizerValue ∈ m.finalizers := by
  simp [hasFinalizer]

theorem CopyOf.holds_iff {S : Scene} {o : Value} {m : Machine} (copy : m.CopyOf S o) :
    Stored.Holds o ↔ m.hasFinalizer = true := by
  rw [hasFinalizer_iff]
  constructor
  · rintro ⟨fs, hfs, mem⟩
    rw [copy.finalizers] at hfs
    cases hfs
    exact mem
  · exact fun mem => ⟨_, copy.finalizers, mem⟩

theorem CopyOf.isBeingDeleted_iff {S : Scene} {o : Value} {m : Machine} (copy : m.CopyOf S o) :
    (Stored.deletion o).isTruthy = true ↔ m.isBeingDeleted = true := by
  rw [isBeingDeleted, copy.deletion]

end Machine

namespace Event

def route? (e : Event) : Option (Appliance.Method × String) :=
  match e.said with
  | .sent r _ => some (r.method, r.path)
  | .called .. => none

def Clears (e : Event) : Prop := ∃ number, e.before.vmId = some number ∧ e.after.vmId ≠ some number

def acceptsStatus (e : Event) : Bool :=
  match e.said with
  | .called (.replaceStatus ..) (.ok _) => true
  | _ => false

theorem acceptsStatus_of_idle {call : Store.Call} {reply : Store.Reply}
    (idle : (Exchange.called call reply).accepts = false) (h h' : Held) :
    acceptsStatus ⟨.called call reply, h, h'⟩ = false := by
  cases call <;> cases reply <;> first | rfl | cases idle

end Event

section Status

variable {S : Scene} {h h' : Held} {e : Event}

/-- the status stays where none is accepted -/
theorem Scene.Happens.status_of_rejected (happens : S.Happens h e) (rejected : e.acceptsStatus = false)
    {s : MachineStatus} (after : e.after.status = some s) : h.status = some s := by
  cases happens with
  | sent _ _ drift => exact (Held.status_drift drift).symm.trans after
  | called _ _ drift answer =>
    refine (Held.status_drift drift).symm.trans ?_
    cases answer with
    | refused | elsewhere | got => exact after
    | replaced x o v object =>
      dsimp only at after
      unfold Held.status at after ⊢
      rcases Scene.left_eq (Stored.replaced v x o) with gone | left
      · rw [gone] at after
        cases after
      · rw [left, Option.bind_some, Reconcile.status_replaced] at after
        rw [object, Option.bind_some]
        exact after
    | restated => cases rejected

/-- what holds of the stored status and of every one that is accepted holds of it throughout -/
theorem World.Plays.status_of_accepted {W : World} {α : Type} {p : Program α} {es : List Event} {a : α}
    {Q : MachineStatus → Prop} (plays : W.Plays h p es a h') (allowed : ∀ h e, W h e → S.Happens h e)
    (first : ∀ s, h.status = some s → Q s)
    (accepted : ∀ e ∈ es, e.acceptsStatus = true → ∀ s, e.after.status = some s → Q s) :
    (∀ e ∈ es, ∀ s, e.after.status = some s → Q s) ∧ ∀ s, h'.status = some s → Q s := by
  induction plays with
  | done => exact ⟨List.forall_mem_nil _, first⟩
  | @send _ _ _ _ _ e _ _ _ happens _ ih | @call _ _ _ _ _ e _ _ _ happens _ ih =>
    obtain ⟨now, later⟩ := List.forall_mem_cons.1 accepted
    have after : ∀ s, e.after.status = some s → Q s := by
      intro s status
      cases rejected : e.acceptsStatus with
      | true => exact now rejected s status
      | false => exact first s ((allowed _ _ happens).status_of_rejected rejected status)
    obtain ⟨each, last⟩ := ih after later
    exact ⟨List.forall_mem_cons.2 ⟨after, each⟩, last⟩

end Status

namespace Scene

/-- others do not take back the mark for deletion, nor the finalizer -/
structure Preserves (S : Scene) : Prop where
  deletion : ∀ o o', S.allows o o' → (Stored.deletion o).isTruthy = true → (Stored.deletion o').isTruthy = true
  finalizer : ∀ o o', S.allows o o' → Stored.Holds o → Stored.Holds o'

variable {S : Scene} {h h' : Held}

theorem Preserves.doomed (preserves : S.Preserves) (drift : S.Drifts h h') (doomed : h.Doomed) : h'.Doomed :=
  drift.keeps (P := fun o => (Stored.deletion o).isTruthy = true)
    (fun o o' edit => preserves.deletion o o' edit.allowed) doomed

theorem Preserves.armed (preserves : S.Preserves) (drift : S.Drifts h h') (armed : h.Armed) : h'.Armed := by
  obtain ⟨o, ho, holds⟩ := armed
  have still := drift.keeps (P := Stored.Holds) (fun o o' edit => preserves.finalizer o o' edit.allowed)
    (fun o' ho' => by rw [ho] at ho'; cases ho'; exact holds)
  obtain ⟨o', ho'⟩ := Option.isSome_iff_exists.1 (drift.isSome.trans (by rw [ho]; rfl))
  exact ⟨o', ho', still o' ho'⟩

end Scene

namespace Reconcile

variable {S : Scene} {c : Context} {st st' : Stage} {e : Event}

inductive Impact (S : Scene) (c : Context) (st : Stage) (e : Event) (st' : Stage) : Prop
  | same (status : e.after.status = e.before.status)
  | released {change : Machine → Machine} {kept : Machine → Stage} {refused : Stage} {m : Machine}
      (table : Replaces st change kept refused) (copy : st.copy? = some m) (copied : Copied S e.before m)
      (object : e.before.object = some (.object m.stored)) (bare : (change m).finalizers = [])
      (gone : e.after.object = none) (next : st' = .ended ∨ ∃ m', st' = kept m')
  | restated {change : Machine → Machine} {kept : Machine → Stage} {refused : Stage} {m : Machine}
      (table : Restates c st change kept refused) (copy : st.copy? = some m) (before : e.before.status = some m.status)
      (after : e.after.status = some (change m).status.rendered) (accepted : e.acceptsStatus = true)
      (next : st' = .ended ∨ ∃ m', st' = kept m')

theorem GoesOn.imp {kept : Machine → Stage} {o : Value} (next : GoesOn S kept o st') :
    st' = .ended ∨ ∃ m, st' = kept m :=
  next.imp_right fun ⟨m, _, same⟩ => ⟨m, same⟩

theorem Deed.impact (deed : Deed S c st e st') : Impact S c st e st' := by
  cases deed with
  | sent | vain | fetched | reread => exact .same rfl
  | restated table copy copied object written _ _ next =>
    refine .restated table copy (copied.status object) ?_ rfl next.imp
    rw [Held.status, Option.bind_some, status_restated table copied written]
    rfl
  | @replaced _ _ _ change _ m x v h table copy copied object written set _ next =>
    have finalizers := (Stored.finalizers_replaced v x (.object m.stored)).trans written.finalizers
    by_cases released : Bench.Table.isReleased (Stored.replaced v x (.object m.stored)) = true
    · have bare := Stored.finalizers_of_released (Stored.shaped_replaced written.shaped set _) released
      refine .released table copy copied object (Except.ok.inj (finalizers.symm.trans bare)) ?_
        next.imp
      simp only [Scene.left, released, reduceIte]
    · refine .same ?_
      have kept : Scene.left (Stored.replaced v x (.object m.stored)) = some _ := if_neg released
      dsimp only
      rw [kept, Held.status, Held.status, object, Option.bind_some, Option.bind_some, status_replaced]

theorem Deed.deletion (deed : Deed S c st e st') {o' : Value} (object : e.after.object = some o') :
    ∃ o, e.before.object = some o ∧ Stored.deletion o' = Stored.deletion o := by
  cases deed with
  | sent | vain | fetched | reread => exact ⟨o', object, rfl⟩
  | restated _ _ _ held => 
    cases object
    exact ⟨_, held, Stored.deletion_restated ..⟩
  | @replaced _ _ _ _ _ m x v h _ _ _ held written =>
    rcases Scene.left_eq (Stored.replaced v x (.object m.stored)) with gone | kept
    · rw [gone] at object
      cases object
    · rw [kept] at object
      cases object
      exact ⟨_, held, (Stored.deletion_replaced ..).trans written.deletion⟩

inductive Side where
  | up
  | down
deriving DecidableEq

def Stage.side? : Stage → Option Side
  | .start | .ended => none
  | .bare _ | .imaging _ | .judged .. | .ordering _ | .created .. | .naming .. | .running .. => some .up
  | .doomed .. | .looked .. | .forgetting _ | .gone _ | .cleared _ => some .down

/-- no way leads from one side to the other -/
def Sided (st st' : Stage) : Prop := st' = .ended ∨ ∃ side, st.side? = some side ∧ st'.side? = some side

theorem side_recorded (m : Machine) (number : Int) : (Stage.recorded m number).side? = some .up :=
  Stage.recorded_cases (Q := fun st => st.side? = some .up) (fun _ => rfl) fun _ => rfl

theorem side_booting (m : Machine) : (Stage.booting m).side? = some .up :=
  Stage.booting_cases (Q := fun st => st.side? = some .up) (fun number _ => side_recorded m number) fun _ => rfl

theorem side_provisioning (m : Machine) : (Stage.provisioning m).side? = some .up :=
  Stage.provisioning_cases (Q := fun st => st.side? = some .up) (fun _ => side_booting m) fun _ => rfl

theorem side_fetched (m : Machine) :
    Stage.fetched m = .ended ∨ (Stage.fetched m).side? = some (if m.isBeingDeleted then .down else .up) := by
  refine Stage.fetched_cases (Q := fun st => st = .ended ∨ st.side? = some (if m.isBeingDeleted then .down else .up))
    (.inl rfl) ?doomed ?gone ?held ?bare
  case doomed => exact fun deleted _ _ => .inr (by rw [deleted]; rfl)
  case gone => exact fun deleted _ => .inr (by rw [deleted]; rfl)
  case held => exact fun kept _ => .inr (by rw [kept]; exact side_provisioning m)
  case bare => exact fun kept _ => .inr (by rw [kept]; rfl)

theorem fetched_up {m : Machine} (up : (Stage.fetched m).side? = some .up) :
    (∃ m', Stage.fetched m = .bare m') ∨ m.hasFinalizer = true := by
  unfold Stage.fetched at *
  cases held : m.hasFinalizer with
  | true => exact .inr rfl
  | false =>
    rw [held] at up
    split at up
    · cases up
    · exact .inl ⟨m, by simp [*]⟩

theorem fetched_down {m : Machine} (down : (Stage.fetched m).side? = some .down) : m.isBeingDeleted = true := by
  rcases side_fetched m with ended | side
  · rw [ended] at down
    cases down
  · rw [side] at down
    split at down
    · assumption
    · cases down

variable {change : Machine → Machine} {kept : Machine → Stage} {refused : Stage}

theorem Restates.sided (table : Restates c st change kept refused) (m : Machine) : Sided st (kept m) := by
  cases table with
  | finish => exact .inr ⟨_, rfl, side_booting m⟩
  | record _ number => exact .inr ⟨_, rfl, side_recorded m number⟩
  | forget => exact .inr ⟨_, rfl, rfl⟩
  | _ => exact .inl rfl

theorem Replaces.sided (table : Replaces st change kept refused) (m : Machine) : Sided st (kept m) := by
  cases table with
  | hold => exact .inr ⟨_, rfl, side_provisioning m⟩
  | name => exact .inr ⟨_, rfl, rfl⟩
  | _ => exact .inl rfl

theorem Sends.sided {request : Except Failure Appliance.Request} {heard : Appliance.Reply → Stage}
    (table : Sends c st request heard) (reply : Appliance.Reply) : Sided st (heard reply) := by
  cases table with
  | look => exact Stage.lookedFor_cases (.inr ⟨_, rfl, rfl⟩) (fun _ _ _ => .inr ⟨_, rfl, rfl⟩) (.inl rfl)
  | kill => exact .inr ⟨_, rfl, rfl⟩
  | _ => exact Stage.heard_cases (fun _ _ => .inr ⟨_, rfl, rfl⟩) (.inl rfl)

theorem Stays.sided {said : Exchange} (stays : Stays said st st') : Sided st st' := by
  cases stays with
  | ended => exact .inl rfl
  | named => exact .inr ⟨_, rfl, rfl⟩
  | same _ begun =>
    cases st with
    | start => exact absurd rfl begun
    | ended => exact .inl rfl
    | _ => exact .inr ⟨_, rfl, rfl⟩

/-- an invocation takes its side when it has fetched the machine, and keeps to it -/
theorem Deed.sided (deed : Deed S c st e st') :
    Sided st st' ∨ st = .start ∧ e.after = e.before ∧ ∃ o m, e.before.object = some o ∧ m.CopyOf S o ∧
      e.said = .called (.get .machines (.string S.ns) (.string S.name)) (.ok o) ∧ st' = .fetched m := by
  cases deed with
  | sent table _ reply => exact .inl (table.sided reply)
  | vain stays => exact .inl stays.sided
  | fetched object next =>
    rcases next with rfl | ⟨m, copy, rfl⟩
    · exact .inl (.inl rfl)
    · exact .inr ⟨rfl, rfl, _, m, object, copy.toCopyOf, rfl, rfl⟩
  | reread object next => exact .inl (next.cases (.inl rfl) fun _ _ => .inr ⟨_, rfl, rfl⟩)
  | restated table _ _ _ _ _ _ next => exact .inl (next.cases (.inl rfl) fun m _ => table.sided m)
  | replaced table _ _ _ _ _ _ next => exact .inl (next.cases (.inl rfl) fun m _ => table.sided m)

/-- the invocation began with a machine that is being deleted -/
def Tears (S : Scene) (es : List Event) : Prop :=
  ∃ e rest o, es = e :: rest ∧ (Stored.deletion o).isTruthy = true ∧
    e.said = .called (.get .machines (.string S.ns) (.string S.name)) (.ok o)

theorem Tears.snoc {es : List Event} (tears : Tears S es) (e : Event) : Tears S (es ++ [e]) := by
  obtain ⟨first, rest, o, rfl, deleted, said⟩ := tears
  exact ⟨first, rest ++ [e], o, rfl, deleted, said⟩

/-- no other invocation takes a machine down -/
theorem Deed.tears {es : List Event} (deed : Deed S c st e st') (begun : st = .start → es = [])
    (tears : st.side? = some .down → Tears S es) (down : st'.side? = some .down) : Tears S (es ++ [e]) := by
  rcases deed.sided with (rfl | ⟨side, was, is⟩) | ⟨start, -, o, m, -, copy, said, rfl⟩
  · cases down
  · obtain rfl := Option.some.inj (is.symm.trans down)
    exact (tears was).snoc e
  · rw [begun start]
    exact ⟨e, [], o, rfl, copy.isBeingDeleted_iff.2 (fetched_down down), said⟩

theorem Deed.begun (deed : Deed S c st e st') : st' ≠ .start := by
  rintro rfl
  rcases deed.sided with (h | ⟨_, -, h⟩) | ⟨-, -, -, m, -, -, -, h⟩
  · cases h
  · cases h
  · have side := side_fetched m
    rw [← h] at side
    rcases side with ended | side
    · cases ended
    · cases side

theorem Deed.doomed (deed : Deed S c st e st') (doomed : e.before.Doomed) : e.after.Doomed := by
  intro o' object
  obtain ⟨o, before, same⟩ := deed.deletion object
  rw [same]
  exact doomed o before

theorem Deed.not_up (deed : Deed S c st e st') (doomed : e.before.Doomed) (h : st.side? ≠ some .up) :
    st'.side? ≠ some .up := by
  rcases deed.sided with (rfl | ⟨side, before, after⟩) | ⟨-, -, o, m, object, copy, -, rfl⟩
  · nofun
  · rw [after]
    rwa [before] at h
  · have deleted := copy.isBeingDeleted_iff.1 (doomed o object)
    rcases side_fetched m with ended | side
    · rw [ended]; nofun
    · rw [side, if_pos deleted]; nofun

/-- a machine that is built up has the finalizer, once it was given it -/
theorem Deed.armed (deed : Deed S c st e st') (up : st.side? = some .up) (armed : (∃ m, st = .bare m) ∨ e.before.Armed)
    (up' : st'.side? = some .up) : (∃ m, st' = .bare m) ∨ e.after.Armed := by
  have before (h : ∀ m, st ≠ .bare m) : e.before.Armed := armed.resolve_left fun ⟨m, hm⟩ => h m hm
  cases deed with
  | sent table => exact .inr (before (by cases table <;> intro _ bare <;> cases bare))
  | vain stays =>
    cases stays with
    | ended => cases up'
    | same => exact armed
    | named => exact .inr (before fun _ bare => by cases bare)
  | fetched => cases up
  | reread => exact .inr (before fun _ bare => by cases bare)
  | restated table _ _ object =>
    obtain ⟨o, ho, holds⟩ := before (by cases table <;> intro _ bare <;> cases bare)
    rw [object] at ho
    cases ho
    refine .inr ⟨_, rfl, ?_⟩
    rw [Stored.Holds, Stored.finalizers_restated]
    exact holds
  | @replaced _ _ _ change _ m x v h table copy copied object written set =>
    have holds : Machine.finalizerValue ∈ (change m).finalizers := by
      cases table with
      | hold => simp [holdFinalizer]
      | name m number =>
        obtain rfl := Option.some.inj copy
        obtain ⟨o, ho, holds⟩ := before fun _ bare => by cases bare
        rw [object] at ho
        cases ho
        exact m.hasFinalizer_iff.1 (copied.copy.holds_iff.1 holds)
      | release | releaseCleared => cases up
    have finalizers := (Stored.finalizers_replaced v x (.object m.stored)).trans written.finalizers
    refine .inr ⟨_, ?_, _, finalizers, holds⟩
    apply if_neg
    intro released
    have bare := Stored.finalizers_of_released (Stored.shaped_replaced written.shaped set _) released
    rw [finalizers] at bare
    rw [Except.ok.inj bare] at holds
    cases holds

inductive Renumbers (st : Stage) (e : Event) : Prop
  | same (number : e.after.vmId = e.before.vmId)
  | recorded (m : Machine) (number : Int) (path : String) (stage : st = .created m number path)
      (before : e.before.vmId = none) (after : e.after.vmId = some number) (accepted : e.acceptsStatus = true)
  | forgotten (m : Machine) (stage : st = .forgetting m) (before : e.before.vmId = m.status.vmId)
      (after : e.after.vmId = none) (accepted : e.acceptsStatus = true)

theorem vmId_of_status {h : Held} {s : MachineStatus} (status : h.status = some s) : h.vmId = s.vmId := by
  rw [Held.vmId, status, Option.bind_some]

/-- a machine that is built up is not released: it holds the finalizer, or gets it -/
theorem Deed.renumbers (deed : Deed S c st e st') (agrees : st.Agrees)
    (armed : ∀ m number, st = .naming m number → e.before.Armed) : Renumbers st e := by
  cases deed.impact with
  | same status => exact .same (by rw [Held.vmId, status, Held.vmId])
  | released table copy copied object bare gone =>
    have before := vmId_of_status (copied.status object)
    have after : e.after.vmId = none := by rw [Held.vmId, Held.status, gone]; rfl
    cases table with
    | hold => simp [holdFinalizer] at bare
    | name m number =>
      obtain rfl := Option.some.inj copy
      obtain ⟨o, ho, holds⟩ := armed m number rfl
      rw [object] at ho
      cases ho
      have mem := m.hasFinalizer_iff.1 (copied.copy.holds_iff.1 holds)
      rw [show m.finalizers = [] from bare] at mem
      cases mem
    | release | releaseCleared =>
      obtain rfl := Option.some.inj copy
      exact .same (by rw [after, before, agrees])
  | restated table copy before after accepted =>
    have before := vmId_of_status before
    have after := vmId_of_status after
    cases table with
    | record m number path =>
      obtain rfl := Option.some.inj copy
      exact .recorded m number path rfl (before.trans agrees) after accepted
    | forget m =>
      obtain rfl := Option.some.inj copy
      exact .forgotten m rfl before after accepted
    | _ =>
      obtain rfl := Option.some.inj copy
      exact .same (after.trans before.symm)

end Reconcile

end VmOperator
