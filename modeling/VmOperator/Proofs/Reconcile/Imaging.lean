import VmOperator.Proofs.Run
import VmOperator.Proofs.Reconcile.Requests
import VmOperator.Proofs.Resource.Conditions

/-! The image pipeline inside an invocation. Its one request is the one of the stored phase and comes before
anything else but the finalizer (`Deed.pipelined`, `Deed.early`); what is written after it follows from its
reply (`Deed.founded`). -/

namespace VmOperator

namespace Held

def progress? (h : Held) : Option Value := h.status.map (·.progress)

def phase? (h : Held) : Option Phase := h.status.bind fun s => (Phase.decode s.progress).toOption

variable {h : Held} {s : MachineStatus} {p : Phase}

theorem phase?_of_decode (status : h.status = some s) (decoded : Phase.decode s.progress = .ok p) : h.phase? = some p := by
  rw [phase?, status, Option.bind_some, decoded]
  rfl

/-- the phase that is read of a written one -/
theorem phase?_of_encode (status : h.status = some s) (progress : s.progress = .object p.encode) {q : Phase}
    (read : h.phase? = some q) : q = p := by
  rw [phase?, status, Option.bind_some, progress] at read
  exact Phase.eq_of_decode_encode (ok_of_toOption read)

end Held

namespace Event

/-- the task is found done, without an error -/
structure Finds (task : Int) (e : Event) : Prop where
  route : e.route? = some (.get, "/vm/disk/task/" ++ (Value.int task).text)
  done : ∃ r reply v polled, e.said = .sent r reply ∧ Appliance.resultOf reply = some v ∧
    Appliance.DiskTask.ofResult (.int task) v = .ok polled ∧ polled.done = true ∧ polled.error = false

end Event

namespace ImagePipeline

structure Asked (c : Context) (m : Machine) (name : Option String) (p : Phase) (e : Event) (r : Appliance.Request)
    (reply : Appliance.Reply) : Prop where
  decoded : Phase.decode m.status.progress = .ok p
  written : (query c m name p).request = .ok r
  said : e.said = .sent r reply

end ImagePipeline

namespace Reconcile

variable {S : Scene} {c : Context} {st st' : Stage} {e : Event} {es : List Event} {h h' : Held} {m : Machine}

structure Asks (c : Context) (m : Machine) (name : Option String) (p : Phase) (e : Event) (r : Appliance.Request)
    (reply : Appliance.Reply) : Prop where
  sound : m.failedImageReason? = .ok none
  unready : m.imageReady = false
  named : ImagePipeline.imageName? m = .ok name
  decoded : Phase.decode m.status.progress = .ok p
  written : (ImagePipeline.query c m name p).request = .ok r
  said : e.said = .sent r reply

theorem Asks.route {name : Option String} {p : Phase} {r : Appliance.Request} {reply : Appliance.Reply}
    (asks : Asks c m name p e r reply) : e.route? = some (ImagePipeline.route p) := by
  rw [Event.route?, asks.said]
  exact congrArg some (ImagePipeline.query_route c m asks.written)

/-- the image is made ready by what the poll of the resize found -/
theorem Asks.finds {name : Option String} {p : Phase} {r : Appliance.Request} {reply : Appliance.Reply}
    (asks : Asks c m name p e r reply) (read : (ImagePipeline.query c m name p).read reply = .ok .finish) :
    ∃ task, p = .resizing (some task) ∧ e.Finds task := by
  obtain ⟨task, polled, rfl, found, done, error⟩ := ImagePipeline.query_finishes read
  obtain ⟨v, result, found⟩ := (Appliance.query_read c.settings).1 found
  exact ⟨task, rfl, asks.route, r, reply, v, polled, asks.said, result, found, done, error⟩

/-- why the pipeline stands where it does: the image is not ready, and its reply was read so -/
def Founded (c : Context) (es : List Event) (h : Held) : Stage → Prop
  | .imaging m => m.imageReady = false ∧ h.status = some m.status
  | .judged m v => h.status = some m.status ∧ ∃ name p r reply,
    (∃ e ∈ es, Asks c m name p e r reply) ∧ (ImagePipeline.query c m name p).read reply = .ok v
  | _ => True

/-- before the pipeline's request -/
def Stage.Early : Stage → Prop
  | .start | .bare _ | .imaging _ => True
  | _ => False

/-- before anything is written of the image -/
def Stage.Unmoved : Stage → Prop
  | .start | .bare _ | .imaging _ | .judged .. => True
  | _ => False

theorem Stage.Early.unmoved (early : st.Early) : st.Unmoved := by
  cases st with
  | start | bare | imaging => trivial
  | _ => exact early.elim

theorem Founded.drift (founded : Founded c es h st) (drift : S.Drifts h h') : Founded c es h' st := by
  have status := Held.status_drift drift
  cases st with
  | imaging => exact ⟨founded.1, status.trans founded.2⟩
  | judged => exact ⟨status.trans founded.1, founded.2⟩
  | _ => trivial

theorem founded_recorded (m : Machine) (number : Int) : Founded c es h (.recorded m number) :=
  Stage.recorded_cases (fun _ => trivial) fun _ => trivial

theorem founded_booting (m : Machine) : Founded c es h (.booting m) :=
  Stage.booting_cases (fun number _ => founded_recorded m number) fun _ => trivial

theorem founded_provisioning (status : h.status = some m.status) : Founded c es h (.provisioning m) :=
  Stage.provisioning_cases (fun _ => founded_booting m) fun unready => ⟨unready, status⟩

theorem founded_fetched (status : h.status = some m.status) : Founded c es h (.fetched m) :=
  Stage.fetched_cases trivial (fun _ _ _ => trivial) (fun _ _ => trivial) (fun _ _ => founded_provisioning status)
    fun _ _ => trivial

variable {request : Except Failure Appliance.Request} {heard : Appliance.Reply → Stage}

theorem Sends.unmoved (table : Sends c st request heard) {reply : Appliance.Reply} (unmoved : (heard reply).Unmoved) :
    st.Unmoved ∧ ¬(heard reply).Early := by
  cases table with
  | image => exact ⟨trivial, Stage.heard_cases (Q := fun st => ¬st.Early) (fun _ _ => id) id⟩
  | look => exact absurd unmoved (Stage.lookedFor_cases (Q := fun st => ¬st.Unmoved) id (fun _ _ _ => id) id)
  | kill => exact unmoved.elim
  | _ => exact absurd unmoved (Stage.heard_cases (Q := fun st => ¬st.Unmoved) (fun _ _ => id) id)

/-- only the pipeline's own table sends such a request -/
theorem Deed.pipelined (deed : Deed S c st e st') (tracks : Tracks S e.before st) (founded : Founded c es e.before st)
    (h : e.Pipelined) : ∃ m name p r reply, st = .imaging m ∧ e.before.status = some m.status ∧
      Asks c m name p e r reply ∧ e.after = e.before ∧
      st' = .heard (ImagePipeline.query c m name p) (.judged m) reply := by
  obtain ⟨q, route⟩ := h
  cases deed with
  | vain | fetched | reread | restated | replaced => cases route
  | @sent _ _ r _ table written reply held =>
    have routed : (r.method, r.path) = ImagePipeline.route q := Option.some.inj route
    have submits {path : String} (same : r.method = .post ∧ r.path = path) : path ∈ ImagePipeline.submissionPaths := by
      rw [same.1, same.2] at routed
      rcases ImagePipeline.route_cases q with ⟨path', mem, target⟩ | ⟨path', -, task, target⟩ <;> rw [target] at routed <;>
        cases routed
      exact mem
    have polls {path : String} (same : r.method = .get ∧ r.path = path) :
        ∃ front ∈ ImagePipeline.pollPaths, ∃ task : Int, path = front ++ (Value.int task).text := by
      rw [same.1, same.2] at routed
      rcases ImagePipeline.route_cases q with ⟨path', -, target⟩ | ⟨path', mem, task, target⟩ <;> rw [target] at routed <;>
        cases routed
      exact ⟨path', mem, task, rfl⟩
    cases table with
    | image m name p asked sound named decoded =>
      exact ⟨m, name, p, r, reply, rfl, founded.2, ⟨sound, founded.1, named, decoded, written, rfl⟩, rfl, rfl⟩
    | create | remove => exact absurd (submits (Appliance.method_path_of_written written)) (by decide)
    | start =>
      exact absurd rfl (Appliance.command_ne_submission _ (.inl rfl) (submits (Appliance.method_path_of_written written)))
    | kill =>
      exact absurd rfl (Appliance.command_ne_submission _ (.inr rfl) (submits (Appliance.method_path_of_written written)))
    | ask | look =>
      obtain ⟨front, mem, task, same⟩ := polls (Appliance.method_path_of_written written)
      exact absurd same (Appliance.vmPath_ne_poll _ mem _)
    | hosts =>
      obtain ⟨front, mem, task, same⟩ := polls (Appliance.method_path_of_written written)
      exact absurd same (Appliance.hosts_ne_poll _ mem _)
    | delete =>
      rw [(Appliance.method_path_of_written written).1] at routed
      rcases ImagePipeline.route_cases q with ⟨_, -, target⟩ | ⟨_, -, _, target⟩ <;> rw [target] at routed <;> cases routed

theorem GoesOn.moved {kept : Machine → Stage} {o : Value} (next : GoesOn S kept o st') (hkept : ∀ m, ¬(kept m).Unmoved) :
    ¬st'.Unmoved := next.cases (Q := fun st => ¬st.Unmoved) id fun m _ => hkept m

theorem moved_recorded (m : Machine) (number : Int) : ¬(Stage.recorded m number).Unmoved :=
  Stage.recorded_cases (Q := fun st => ¬st.Unmoved) (fun _ => id) fun _ => id

theorem moved_booting (m : Machine) : ¬(Stage.booting m).Unmoved :=
  Stage.booting_cases (Q := fun st => ¬st.Unmoved) (fun number _ => moved_recorded m number) fun _ => id

/-- the finalizer is all that is written of a machine without it -/
theorem Deed.status_bare (deed : Deed S c (.bare m) e st') : e.after.status = e.before.status := by
  cases deed.impact with
  | same status => exact status
  | released table _ _ _ bare =>
    cases table
    simp [holdFinalizer] at bare
  | restated table => cases table

theorem Deed.unmoved (deed : Deed S c st e st') (unmoved : st'.Unmoved) :
    st.Unmoved ∧ e.after.status = e.before.status ∧ (st'.Early → st.Early ∧ e.route? = none) := by
  have bare : (∃ m, st = .bare m) → e.after.status = e.before.status := by
    rintro ⟨m, rfl⟩
    exact deed.status_bare
  cases deed with
  | sent table =>
    obtain ⟨before, late⟩ := table.unmoved unmoved
    exact ⟨before, rfl, fun early => absurd early late⟩
  | vain stays =>
    cases stays with
    | ended | named => exact unmoved.elim
    | same => exact ⟨unmoved, rfl, fun early => ⟨early, rfl⟩⟩
  | fetched => exact ⟨trivial, rfl, fun _ => ⟨trivial, rfl⟩⟩
  | reread _ next => exact absurd unmoved (next.moved fun _ => id)
  | restated table _ _ _ _ _ _ next =>
    refine absurd unmoved (next.moved fun m => ?_)
    cases table with
    | finish => exact moved_booting m
    | record _ number => exact moved_recorded m number
    | _ => exact id
  | replaced table _ _ _ _ _ _ next =>
    cases table with
    | hold m => exact ⟨trivial, bare ⟨m, rfl⟩, fun _ => ⟨trivial, rfl⟩⟩
    | _ => exact absurd unmoved (next.moved fun _ => id)

theorem Deed.early (deed : Deed S c st e st') (early : st'.Early) : st.Early ∧ e.route? = none :=
  (deed.unmoved early.unmoved).2.2 early

theorem Founded.snoc (founded : Founded c es h st) : Founded c (es ++ [e]) h st := by
  cases st with
  | imaging => exact founded
  | judged =>
    obtain ⟨status, name, p, r, reply, ⟨e', mem, asks⟩, read⟩ := founded
    exact ⟨status, name, p, r, reply, ⟨e', List.mem_append_left _ mem, asks⟩, read⟩
  | _ => trivial

theorem provisioning_ne_bare (m m' : Machine) : Stage.provisioning m ≠ .bare m' := by
  unfold Stage.provisioning Stage.booting Stage.recorded
  repeat' split
  all_goals nofun

theorem Deed.founded (deed : Deed S c st e st') (tracks : Tracks S e.before st) (founded : Founded c es e.before st) :
    Founded c (es ++ [e]) e.after st' := by
  have after := tracks.deed deed
  have armed := deed.armed
  cases deed with
  | @sent _ _ r _ table written reply h =>
    cases table with
    | image m name p asked sound named decoded =>
      refine Stage.heard_cases (fun v read => ?_) trivial
      exact ⟨founded.2, name, p, r, reply, ⟨_, List.mem_append_right _ (List.mem_singleton.2 rfl),
        sound, founded.1, named, decoded, written, rfl⟩, read⟩
    | look => exact Stage.lookedFor_cases trivial (fun _ _ _ => trivial) trivial
    | kill => trivial
    | _ => exact Stage.heard_cases (fun _ _ => trivial) trivial
  | vain stays =>
    cases stays with
    | ended | named => trivial
    | same => exact founded.snoc
  | fetched object next =>
    exact next.cases trivial fun m copy => founded_fetched ((copied_of_copyOf tracks.sound object copy).status object)
  | reread _ next => exact next.cases trivial fun _ _ => trivial
  | restated table _ _ _ _ _ _ next =>
    refine next.cases trivial fun m _ => ?_
    cases table with
    | finish => exact founded_booting m
    | record _ number => exact founded_recorded m number
    | _ => trivial
  | @replaced _ _ _ _ _ m x v _ table _ _ _ _ _ _ next =>
    cases table with
    | hold =>
      rcases next with rfl | ⟨m', copy, rfl⟩
      · trivial
      rcases armed rfl (.inl ⟨_, rfl⟩) (side_provisioning m') with ⟨m'', same⟩ | ⟨o, object, -⟩
      · exact absurd same (provisioning_ne_bare m' m'')
      rcases Scene.left_eq (Stored.replaced v x (.object m.stored)) with gone | kept
      · exact absurd (gone.symm.trans object) nofun
      · exact founded_provisioning ((copied_of_copyOf after.sound kept copy.toCopyOf).status kept)
    | _ => exact next.cases trivial fun _ _ => trivial

/-- what is stored of the progress was written for a phase -/
def Encoded (h : Held) : Prop := ∀ s, h.status = some s → ∃ p : Phase, s.progress = .object p.encode

theorem encoded_of_empty (empty : h.status = some {}) : Encoded h := by
  intro s hs
  obtain rfl := Option.some.inj (empty.symm.trans hs)
  exact ⟨.notStarted, rfl⟩

inductive Advances (st : Stage) (e : Event) (st' : Stage) : Prop
  | same (progress : ∀ s', e.after.status = some s' → ∃ s, e.before.status = some s ∧ s'.progress = s.progress)
  | moved (m : Machine) (next : Phase) (message : String) (outcome : Outcome)
      (stage : st = .judged m (.enter next message outcome)) (before : e.before.status = some m.status)
      (after : ∃ s', e.after.status = some s' ∧ s'.progress = .object next.encode) (accepted : e.acceptsStatus = true)
      (ended : st' = .ended)

theorem progress_rendered {s : MachineStatus} {fs : Fields} (h : s.progress = .object fs) :
    s.rendered.progress = .object fs := by
  rw [MachineStatus.rendered, h]
  exact Value.orElse_object fs

/-- the progress is changed only by the phase that the pipeline enters -/
theorem Restates.progress {change : Machine → Machine} {kept : Machine → Stage} {refused : Stage}
    (table : Restates c st change kept refused) (copy : st.copy? = some m) :
    (change m).status.progress = m.status.progress ∨ ∃ next message outcome,
      st = .judged m (.enter next message outcome) ∧ (change m).status.progress = .object next.encode := by
  cases table with
  | enter m next message outcome =>
    obtain rfl := Option.some.inj copy
    exact .inr ⟨next, message, outcome, rfl, rfl⟩
  | _ => exact .inl rfl

theorem Restates.ready {change : Machine → Machine} {kept : Machine → Stage} {refused : Stage}
    (table : Restates c st change kept refused) (ready : (change m).imageReady = true) :
    (∃ m, st = .judged m .finish) ∨ m.imageReady = true := by
  have other {m' : Machine} (same : (change m).imageCondition? = m'.imageCondition?) : m'.imageReady = true := by
    rw [Machine.imageReady, ← same]
    exact ready
  cases table with
  | enter | fail => exact absurd ((Machine.imageReady_setCondition ..).symm.trans ready) (by decide)
  | finish m => exact .inl ⟨m, rfl⟩
  | record => exact .inr (other (Machine.imageCondition?_setCondition _ _ (by decide) ..))
  | publish =>
    refine .inr (other ?_)
    refine (Machine.imageCondition?_setCondition _ _ (by decide) ..).trans ?_
    refine (Machine.imageCondition?_setCondition _ _ (by decide) ..).trans ?_
    exact Machine.imageCondition?_setCondition _ _ (by decide) ..
  | await | forget => exact .inr ready

theorem Deed.advances (deed : Deed S c st e st') (encoded : Encoded e.before) : Advances st e st' := by
  cases deed.impact with
  | same status => exact .same fun s' hs' => ⟨s', by rw [← status, hs'], rfl⟩
  | released _ _ _ _ _ gone => exact .same fun s' hs' => by rw [Held.status, gone] at hs'; cases hs'
  | @restated change kept _ m table copy before after accepted next =>
    obtain ⟨p, progress⟩ := encoded _ before
    rcases table.progress copy with same | ⟨phase, message, outcome, rfl, written⟩
    · refine .same fun s' hs' => ⟨_, before, ?_⟩
      obtain rfl := Option.some.inj (after.symm.trans hs')
      rw [progress_rendered (same.trans progress), progress]
    · refine .moved m phase message outcome rfl before ⟨_, after, progress_rendered written⟩ accepted ?_
      cases table
      rcases next with ended | ⟨_, ended⟩ <;> exact ended

theorem Encoded.drift (encoded : Encoded h) (drift : S.Drifts h h') : Encoded h' := by
  intro s hs
  rw [Held.status_drift drift] at hs
  exact encoded s hs

theorem Deed.encoded (deed : Deed S c st e st') (encoded : Encoded e.before) : Encoded e.after := by
  intro s' hs'
  cases deed.advances encoded with
  | same progress =>
    obtain ⟨s, before, same⟩ := progress s' hs'
    obtain ⟨p, hp⟩ := encoded s before
    exact ⟨p, same.trans hp⟩
  | moved m next _ _ _ _ after =>
    obtain ⟨s, status, progress⟩ := after
    obtain rfl := Option.some.inj (status.symm.trans hs')
    exact ⟨next, progress⟩

/-- the rule for runs, with what the pipeline's stages rest on -/
theorem Run.keeps_founded {start : Held} {past : List Invocation} {P : Context → Prop} {J : List Invocation → Held → Prop}
    {I : List Invocation → Context → List Event → Stage → Held → Prop} (sound : start.Sound S) (encoded : Encoded start)
    (first : J [] start) (begins : ∀ past c h, P c → J past h → I past c [] .start h)
    (step : ∀ past c es st h e st', P c → I past c es st h → S.Drifts h e.before → Tracks S e.before st →
      Founded c es e.before st → Encoded e.before → Deed S c st e st' → I past c (es ++ [e]) st' e.after)
    (ends : ∀ past c es st h r, P c → I past c es st h → J (past ++ [⟨c, es, r⟩]) h)
    (run : Run S start past h) (contexts : ∀ i ∈ past, P i.context) : J past h := by
  have kept := run.keeps (P := P) (J := fun past h => Encoded h ∧ J past h)
    (I := fun past c es st h => (Encoded h ∧ Founded c es h st) ∧ I past c es st h) sound ⟨encoded, first⟩
    (fun past c h known ⟨encoded, hJ⟩ => ⟨⟨encoded, trivial⟩, begins past c h known hJ⟩)
    (fun past c es st h e st' known ⟨⟨encoded, founded⟩, hI⟩ drift tracks deed => by
      have encoded := encoded.drift drift
      have founded := founded.drift drift
      exact ⟨⟨deed.encoded encoded, deed.founded tracks founded⟩,
        step past c es st h e st' known hI drift tracks founded encoded deed⟩)
    (fun past c es st h r known ⟨⟨encoded, _⟩, hI⟩ => ⟨encoded, ends past c es st h r known hI⟩) contexts
  exact kept.2.2

/-- what every invocation begins with and every event keeps holds at the end of each invocation -/
theorem Run.each {start : Held} {past : List Invocation} {I : Context → List Event → Stage → Held → Prop}
    (sound : start.Sound S) (encoded : Encoded start) (begins : ∀ c h, I c [] .start h)
    (step : ∀ c es st h e st', I c es st h → S.Drifts h e.before → Tracks S e.before st → Founded c es e.before st →
      Encoded e.before → Deed S c st e st' → I c (es ++ [e]) st' e.after)
    (run : Run S start past h) : ∀ i ∈ past, ∃ st h, I i.context i.events st h := by
  refine run.keeps_founded (P := fun _ => True) (J := fun past _ => ∀ i ∈ past, ∃ st h, I i.context i.events st h)
    (I := fun past c es st h => I c es st h ∧ ∀ i ∈ past, ∃ st h, I i.context i.events st h) sound encoded (by simp)
    (fun past c h _ each => ⟨begins c h, each⟩) ?step ?ends fun _ _ => trivial
  case step =>
    intro past c es st h e st' _ ⟨kept, each⟩ drift tracks founded encoded deed
    exact ⟨step c es st h e st' kept drift tracks founded encoded deed, each⟩
  case ends => exact fun past c es st h r _ ⟨kept, each⟩ => forall_snoc each ⟨st, h, kept⟩

end Reconcile

end VmOperator
