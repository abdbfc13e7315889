import VmOperator.Proofs.Reconcile.Simulation
import VmOperator.Proofs.Store.Copy

/-! What the exchanges of an invocation amount to in a scene. An accepted write changes exactly the object
that the copy in hand was read from, and its answer is the next copy (`deed_of_step`). -/

namespace VmOperator

open Stored (Shaped)

namespace Reconcile

variable {S : Scene} {h h' : Held} {m : Machine}

/-- what may follow on an exchange that changed nothing; a conflict over the provider id names the copy alone -/
inductive Stays : Exchange → Stage → Stage → Prop
  | ended {said : Exchange} (st : Stage) : Stays said st .ended
  | same {said : Exchange} (st : Stage) (begun : st ≠ .start) : Stays said st st
  | named (m : Machine) (number known : Int) {place name x status reason : Value}
      (written : (nameProvider known m).toValue = .ok x) (lost : status.isNumber 409 = true) :
      Stays (.called (.replace .machines place name x) (.refused status reason)) (.naming m number)
        (.running (nameProvider known m) number)

def Has (st : Stage) (m : Machine) : Prop := ∀ m', st.copy? = some m' → m' = m

theorem has_of_copy? (copy : st.copy? = some m) : Has st m := fun _ same => Option.some.inj (same.symm.trans copy)

theorem has_recorded (m : Machine) (number : Int) : Has (.recorded m number) m :=
  Stage.recorded_cases (Q := fun st => Has st m) (fun _ => has_of_copy? rfl) fun _ => has_of_copy? rfl

theorem has_booting (m : Machine) : Has (.booting m) m :=
  Stage.booting_cases (Q := fun st => Has st m) (fun number _ => has_recorded m number) fun _ => has_of_copy? rfl

theorem has_provisioning (m : Machine) : Has (.provisioning m) m :=
  Stage.provisioning_cases (Q := fun st => Has st m) (fun _ => has_booting m) fun _ => has_of_copy? rfl

theorem has_fetched (m : Machine) : Has (.fetched m) m :=
  Stage.fetched_cases (Q := fun st => Has st m) (fun _ copy => by cases copy) (fun _ _ _ => has_of_copy? rfl)
    (fun _ _ => has_of_copy? rfl) (fun _ _ => has_provisioning m) fun _ _ => has_of_copy? rfl

variable {c : Context} {st st' refused : Stage} {change : Machine → Machine} {kept : Machine → Stage}

theorem Restates.amends (table : Restates c st change kept refused) (m : Machine) : m.Amends (change m) := by
  cases table <;> exact ⟨rfl, rfl, rfl, rfl⟩

theorem Replaces.amends (table : Replaces st change kept refused) (m : Machine) : m.Amends (change m) := by
  cases table <;> exact ⟨rfl, rfl, rfl, rfl⟩

theorem Restates.has (table : Restates c st change kept refused) (m : Machine) : Has (kept m) m := by
  cases table with
  | finish => exact has_booting m
  | record _ number => exact has_recorded m number
  | _ => simp [Has, Stage.copy?]

theorem Replaces.has (table : Replaces st change kept refused) (m : Machine) : Has (kept m) m := by
  cases table with
  | hold => exact has_provisioning m
  | _ => simp [Has, Stage.copy?]

theorem stays_told {said : Exchange} {status reason : Value} (stays : status.isNumber 409 = true → Stays said st refused) :
    Stays said st (.told kept refused (.refused status reason)) := by
  unfold Stage.told
  dsimp only
  split
  · exact stays (by assumption)
  · exact .ended _

theorem Restates.stays (table : Restates c st change kept refused) {said : Exchange} : Stays said st refused := by
  cases table <;> first | exact .ended _ | exact .same _ nofun

theorem Replaces.stays (table : Replaces st change kept refused) (copy : st.copy? = some m)
    {place name x status reason : Value} (written : (change m).toValue = .ok x) (lost : status.isNumber 409 = true) :
    Stays (.called (.replace .machines place name x) (.refused status reason)) st refused := by
  cases table with
  | name m number known =>
    obtain rfl := Option.some.inj copy
    exact .named _ number known written lost
  | _ => exact .ended _

/-- the next copy is one of the object that was given back, unless that cannot be read -/
def GoesOn (S : Scene) (kept : Machine → Stage) (o : Value) (st : Stage) : Prop :=
  st = .ended ∨ ∃ m, m.ReadOf S o ∧ st = kept m

theorem GoesOn.read_cases {Q : Stage → Prop} {o : Value} (next : GoesOn S kept o st) (ended : Q .ended)
    (goes : ∀ m, m.ReadOf S o → Q (kept m)) : Q st := by
  rcases next with rfl | ⟨m, copy, rfl⟩
  · exact ended
  · exact goes m copy

theorem GoesOn.cases {Q : Stage → Prop} {o : Value} (next : GoesOn S kept o st) (ended : Q .ended)
    (goes : ∀ m, m.CopyOf S o → Q (kept m)) : Q st :=
  next.read_cases ended fun m copy => goes m copy.toCopyOf

/-- what an exchange amounts to in a scene; every accepted write is one of the object in hand -/
inductive Deed (S : Scene) (c : Context) : Stage → Event → Stage → Prop
  | sent {st : Stage} {request : Except Failure Appliance.Request} {r : Appliance.Request}
      {heard : Appliance.Reply → Stage} (table : Sends c st request heard) (written : request = .ok r)
      (reply : Appliance.Reply) (h : Held) : Deed S c st ⟨.sent r reply, h, h⟩ (heard reply)
  | vain {st st' : Stage} {call : Store.Call} {reply : Store.Reply} (stays : Stays (.called call reply) st st')
      (idle : (Exchange.called call reply).accepts = false) (h : Held) :
      Deed S c st ⟨.called call reply, h, h⟩ st'
  | fetched {h : Held} {o : Value} {st' : Stage} (object : h.object = some o) (next : GoesOn S .fetched o st') :
      Deed S c .start ⟨.called (.get .machines (.string S.ns) (.string S.name)) (.ok o), h, h⟩ st'
  | reread {m : Machine} {number : Int} {path : String} {h : Held} {o : Value} {st' : Stage}
      (object : h.object = some o) (next : GoesOn S (.created · number path) o st') :
      Deed S c (.created m number path) ⟨.called (.get .machines (.string S.ns) (.string S.name)) (.ok o), h, h⟩ st'
  | restated {st refused st' : Stage} {change : Machine → Machine} {kept : Machine → Stage} {m : Machine} {x v : Value}
      {h : Held} (table : Restates c st change kept refused) (copy : st.copy? = some m) (copied : Copied S h m)
      (object : h.object = some (.object m.stored)) (written : (change m).WrittenOver S (.object m.stored) x)
      (set : v.isTruthy = true) (fresh : v ∉ h.versions)
      (next : GoesOn S kept (Stored.restated v x (.object m.stored)) st') :
      Deed S c st ⟨.called (.replaceStatus .machines (.string S.ns) (.string S.name) x)
        (.ok (Stored.restated v x (.object m.stored))), h,
        ⟨some (Stored.restated v x (.object m.stored)), v :: h.versions⟩⟩ st'
  | replaced {st refused st' : Stage} {change : Machine → Machine} {kept : Machine → Stage} {m : Machine} {x v : Value}
      {h : Held} (table : Replaces st change kept refused) (copy : st.copy? = some m) (copied : Copied S h m)
      (object : h.object = some (.object m.stored)) (written : (change m).WrittenOver S (.object m.stored) x)
      (set : v.isTruthy = true) (fresh : v ∉ h.versions)
      (next : GoesOn S kept (Stored.replaced v x (.object m.stored)) st') :
      Deed S c st ⟨.called (.replace .machines (.string S.ns) (.string S.name) x)
        (.ok (Stored.replaced v x (.object m.stored))), h,
        ⟨Scene.left (Stored.replaced v x (.object m.stored)), v :: h.versions⟩⟩ st'

/-- what is stored is sound, and the stage's copy one of it -/
structure Tracks (S : Scene) (h : Held) (st : Stage) : Prop where
  sound : h.Sound S
  copied : ∀ m, st.copy? = some m → Copied S h m

theorem Tracks.drift (tracks : Tracks S h st) (drift : S.Drifts h h') : Tracks S h' st :=
  ⟨tracks.sound.drift drift, fun m hm => (tracks.copied m hm).drift drift⟩

theorem goesOn_told {o : Value} (shaped : Shaped S.ns S.name o) (kept : Machine → Stage) (refused : Stage) :
    GoesOn S kept o (.told kept refused (.ok o)) := by
  unfold Stage.told
  dsimp only
  split
  · rename_i m hm
    exact .inr ⟨m, Machine.readOf_of_ofValue shaped hm, rfl⟩
  · exact .inl rfl

theorem deed_of_called {call : Store.Call} {reply : Store.Reply} (tracks : Tracks S h st)
    (answer : S.Answers h call reply h') (step : Step c S.ns S.name st (.called call reply) st') :
    Deed S c st ⟨.called call reply, h, h'⟩ st' := by
  cases step with
  | fetch =>
    cases answer with
    | refused => exact .vain (stays_told fun _ => .ended _) rfl _
    | elsewhere _ _ other => exact absurd ⟨rfl, rfl, rfl⟩ other
    | got o object => exact .fetched object (goesOn_told (tracks.sound o object).1 _ _)
  | reread m number path =>
    have copied := tracks.copied m rfl
    rw [copied.copy.ns, copied.copy.name] at answer ⊢
    cases answer with
    | refused => exact .vain (stays_told fun _ => .same (.created m number path) nofun) rfl _
    | elsewhere _ _ other => exact absurd ⟨rfl, rfl, rfl⟩ other
    | got o object => exact .reread object (goesOn_told (tracks.sound o object).1 _ _)
  | consult m kind place name' reply other =>
    cases answer with
    | refused | elsewhere => exact .vain (.same (.ordering m) nofun) rfl _
    | got => exact absurd rfl other
  | restate table copy written =>
    rename_i m x
    have copied := tracks.copied _ copy
    rw [copied.copy.ns, copied.copy.name] at answer ⊢
    have written := Machine.writtenOver copied.copy (table.amends m) written
    cases answer with
    | refused => exact .vain (stays_told fun _ => table.stays) rfl _
    | elsewhere _ _ other => exact absurd ⟨rfl, rfl, rfl⟩ other
    | restated _ o v object version set fresh =>
      have current := copied.current o object (by rw [← version, written.version, copied.copy.version])
      subst current
      exact .restated table copy copied object written set fresh
        (goesOn_told (Stored.shaped_restated copied.copy.shaped set x) _ _)
  | replace table copy sent =>
    rename_i m x
    have copied := tracks.copied _ copy
    rw [copied.copy.ns, copied.copy.name] at answer ⊢
    have written := Machine.writtenOver copied.copy (table.amends m) sent
    cases answer with
    | refused => exact .vain (stays_told (table.stays copy sent)) rfl _
    | elsewhere _ _ other => exact absurd ⟨rfl, rfl, rfl⟩ other
    | replaced _ o v object version set fresh =>
      have current := copied.current o object (by rw [← version, written.version, copied.copy.version])
      subst current
      exact .replaced table copy copied object written set fresh
        (goesOn_told (Stored.shaped_replaced written.shaped set _) _ _)

theorem deed_of_step {e : Event} (tracks : Tracks S h st) (happens : S.Happens h e)
    (step : Step c S.ns S.name st e.said st') : Tracks S e.before st ∧ Deed S c st e st' := by
  cases happens with
  | sent r reply drift =>
    refine ⟨tracks.drift drift, ?_⟩
    cases step with
    | send table written => exact .sent table written _ _
  | called call reply drift answer => exact ⟨tracks.drift drift, deed_of_called (tracks.drift drift) answer step⟩

theorem Tracks.ended (sound : h.Sound S) : Tracks S h .ended := ⟨sound, nofun⟩

theorem Tracks.of_goesOn {o : Value} (sound : h.Sound S) (has : ∀ m, Has (kept m) m) (next : GoesOn S kept o st)
    (copied : ∀ m, m.CopyOf S o → Copied S h m) : Tracks S h st := by
  refine next.cases (.ended sound) fun m copy => ⟨sound, fun m' hm' => ?_⟩
  rw [has m m' hm']
  exact copied m copy

/-- after an accepted write, whether the object is still there or was released with it -/
theorem Tracks.of_written {o v : Value} {object : Option Value} {versions : List Value} (shaped : Shaped S.ns S.name o)
    (version : Stored.version o = v) (remains : ∀ o', object = some o' → o' = o) (has : ∀ m, Has (kept m) m)
    (next : GoesOn S kept o st) : Tracks S ⟨object, v :: versions⟩ st := by
  have known : Stored.version o ∈ v :: versions := by rw [version]; exact List.mem_cons_self ..
  refine .of_goesOn ?_ has next fun m copy => ?_
  · intro o' ho'
    rw [remains o' ho']
    exact ⟨shaped, known⟩
  · have stored := copy.stored
    subst stored
    exact ⟨copy, by rw [copy.version]; exact known, fun o' ho' _ => remains o' ho',
      fun o' ho' => by rw [remains o' ho']⟩

/-- the next stage has no copy of its own -/
def Carries (st st' : Stage) : Prop := ∀ m, st'.copy? = some m → st.copy? = some m

theorem carries_ended : Carries st .ended := by
  intro m copy
  cases copy

theorem carries_of_same (same : st'.copy? = st.copy?) : Carries st st' := fun _ copy => same.symm.trans copy

theorem Sends.carries {request : Except Failure Appliance.Request} {heard : Appliance.Reply → Stage}
    (table : Sends c st request heard) (reply : Appliance.Reply) : Carries st (heard reply) := by
  cases table with
  | look => exact Stage.lookedFor_cases (carries_of_same rfl) (fun _ _ _ => carries_of_same rfl) carries_ended
  | kill => exact carries_of_same rfl
  | _ => exact Stage.heard_cases (fun _ _ => carries_of_same rfl) carries_ended

theorem Tracks.deed {e : Event} (tracks : Tracks S e.before st) (deed : Deed S c st e st') : Tracks S e.after st' := by
  cases deed with
  | sent table _ reply => exact ⟨tracks.sound, fun m hm => tracks.copied m (table.carries reply m hm)⟩
  | vain stays =>
    cases stays with
    | ended => exact .ended tracks.sound
    | same => exact tracks
    | named m number known =>
      refine ⟨tracks.sound, ?_⟩
      rintro _ ⟨⟩
      have copied := tracks.copied m rfl
      exact { copied with copy := { copied.copy with } }
  | fetched object next =>
    exact .of_goesOn tracks.sound has_fetched next fun m copy => copied_of_copyOf tracks.sound object copy
  | reread object next =>
    exact .of_goesOn tracks.sound (fun m => by simp [Has, Stage.copy?]) next fun m copy =>
      copied_of_copyOf tracks.sound object copy
  | restated table _ copied _ written set _ next =>
    exact .of_written (Stored.shaped_restated copied.copy.shaped set _) (Stored.version_restated ..)
      (fun o' ho' => (Option.some.inj ho').symm) table.has next
  | replaced table _ _ _ written set _ next =>
    refine .of_written (Stored.shaped_replaced written.shaped set _) (Stored.version_replaced ..) ?_ table.has next
    intro o' ho'
    unfold Scene.left at ho'
    split at ho' <;> cases ho'
    rfl

theorem Restates.isObject (table : Restates c st change kept refused) (m : Machine) (h : m.status.progress.IsObject) :
    (change m).status.progress.IsObject := by
  cases table with
  | enter => trivial
  | _ => exact h

/-- an accepted status is the one that is read next -/
theorem status_restated {v x : Value} (table : Restates c st change kept refused) (copied : Copied S h m)
    (written : (change m).WrittenOver S (.object m.stored) x) :
    Stored.status (Stored.restated v x (.object m.stored)) = .ok (change m).status.rendered :=
  written.status_restated (table.isObject m (MachineStatus.isObject_of_ofValue copied.copy.status)) _

/-- the status outlives every other write -/
theorem status_replaced (v x o : Value) : Stored.status (Stored.replaced v x o) = Stored.status o :=
  Stored.status_congr (Stored.statusField_replaced ..)

def Stage.Agrees : Stage → Prop
  | .ordering m | .created m _ _ | .gone m | .cleared m => m.status.vmId = none
  | .naming m number | .running m number | .doomed m number | .looked m number => m.status.vmId = some number
  | .forgetting m => m.status.vmId ≠ none
  | _ => True

theorem agrees_recorded {number : Int} (same : m.status.vmId = some number) : (Stage.recorded m number).Agrees :=
  Stage.recorded_cases (fun _ => same) fun _ => same

theorem agrees_booting (m : Machine) : (Stage.booting m).Agrees := Stage.booting_cases (fun _ => agrees_recorded) id

theorem agrees_provisioning (m : Machine) : (Stage.provisioning m).Agrees :=
  Stage.provisioning_cases (fun _ => agrees_booting m) fun _ => trivial

theorem agrees_fetched (m : Machine) : (Stage.fetched m).Agrees :=
  Stage.fetched_cases trivial (fun _ _ same => same) (fun _ same => same) (fun _ _ => agrees_provisioning m)
    fun _ _ => trivial

theorem Sends.agrees {request : Except Failure Appliance.Request} {heard : Appliance.Reply → Stage}
    (table : Sends c st request heard) (agrees : st.Agrees) (reply : Appliance.Reply) : (heard reply).Agrees := by
  cases table with
  | look => exact Stage.lookedFor_cases agrees (fun _ _ _ unset => by cases unset.symm.trans agrees) trivial
  | kill => exact agrees
  | delete => exact Stage.heard_cases (fun _ _ unset => by cases unset.symm.trans agrees) trivial
  | image => exact Stage.heard_cases (fun _ _ => trivial) trivial
  | _ => exact Stage.heard_cases (fun _ _ => agrees) trivial

theorem Deed.agrees {e : Event} (deed : Deed S c st e st') (tracks : Tracks S e.before st) (agrees : st.Agrees) :
    st'.Agrees := by
  cases deed with
  | sent table _ reply => exact table.agrees agrees reply
  | vain stays => cases stays <;> first | exact agrees | trivial
  | fetched _ next => exact next.cases trivial fun m _ => agrees_fetched m
  | reread object next =>
    refine next.cases trivial fun m copy => ?_
    have synced := (tracks.copied _ rfl).status object
    rw [(copied_of_copyOf tracks.sound object copy).status object] at synced
    rw [Stage.Agrees, Option.some.inj synced]
    exact agrees
  | restated table copy copied _ written _ _ next =>
    refine next.cases trivial fun m' copy' => ?_
    have status := copy'.status_eq (status_restated table copied written)
    cases table with
    | finish => exact agrees_booting m'
    | record => exact agrees_recorded (by rw [status]; rfl)
    | forget => rw [Stage.Agrees, status]; rfl
    | _ => trivial
  | replaced table copy copied _ _ _ _ next =>
    refine next.cases trivial fun m' copy' => ?_
    have status := copy'.status_eq ((status_replaced ..).trans copied.copy.status)
    cases table with
    | hold => exact agrees_provisioning m'
    | name =>
      cases copy
      rw [Stage.Agrees, status]
      exact agrees
    | _ => trivial

end Reconcile

end VmOperator
