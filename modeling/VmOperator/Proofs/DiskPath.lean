import VmOperator.Proofs.Image.Name
import VmOperator.Proofs.Rehearsal
import VmOperator.Proofs.Reconcile.Imaging
import VmOperator.Proofs.Reconcile.Wishes

/-! One disk path. The path of a machine's disk is computed anew wherever it is needed, from what is wished for
and what was stored; as long as nobody changes the wishes it is the same everywhere, and a virtual machine is
ordered for it only after a resize of it is done. -/

namespace VmOperator

/-- where the image of a machine is to go -/
structure Plan where
  image : String
  vm : String
  layout : Image.Layout

namespace Plan

variable {P : Plan} {m : Machine} {c : Context} {p next : Phase} {s : MachineStatus}

def output (P : Plan) : String :=
  if Image.isCompressed P.image then Image.extractedPath P.layout.storage P.image
  else Image.copiedPath P.layout.storage P.image

def final (P : Plan) : String := Image.finalPath P.layout.storage P.vm P.image

def source (P : Plan) : String := Path.trimSlashes P.layout.downloads ++ "/" ++ P.image

inductive Fits (P : Plan) : Phase → Prop
  | notStarted : Fits P .notStarted
  | downloading (task : Int) : Fits P (.downloading task)
  | extracting (task : Option Int) (compressed : Image.isCompressed P.image = true) :
      Fits P (.extracting (.string P.source) (.string P.layout.storage) task)
  | copying (task : Option Int) (plain : Image.isCompressed P.image = false) :
      Fits P (.copying (.string P.source) (.string P.layout.storage) task)
  | renaming (task : Option Int) (other : P.output ≠ P.final) :
      Fits P (.renaming (.string P.output) (.string P.final) task)
  | resizing (task : Option Int) : Fits P (.resizing task)

theorem Fits.placed (fits : P.Fits p) (set : P.layout.storage ≠ "") : p.Placed := by
  have output : P.output ≠ "" := by
    unfold output
    split <;> exact Path.join_ne_empty (.inl set)
  have final : P.final ≠ "" := Path.join_ne_empty (.inl set)
  have source : P.source ≠ "" := by simp [source]
  intro src dst paths
  cases fits <;> cases paths <;> simp [Value.isTruthy, *]

structure Wanted (P : Plan) (m : Machine) : Prop where
  image : ∃ url, m.spec.imageUrl = .string url ∧ Image.nameOfUrl url = .ok P.image
  vm : m.vmName = .string P.vm

structure Wished (P : Plan) (S : Scene) (wanted : Option Value × Option Value) : Prop where
  image : ∃ url, wanted.1 = some (.string url) ∧ Image.nameOfUrl url = .ok P.image
  vm : (wanted.2.getD (.string "")).orElse (.string S.name) = .string P.vm

theorem Wished.wanted {S : Scene} {o : Value} (wished : P.Wished S (Stored.wishes o)) (copy : m.CopyOf S o) : P.Wanted m := by
  obtain ⟨url, asked, named⟩ := wished.image
  refine ⟨⟨url, ?_, named⟩, ?_⟩
  · rw [copy.imageUrl, show Stored.wish o "imageURL" = _ from asked, Option.getD_some]
  · rw [Machine.vmName, copy.specName, copy.name]
    exact wished.vm

theorem Wanted.imageName (wanted : P.Wanted m) : ImagePipeline.imageName? m = .ok (some P.image) := by
  obtain ⟨url, asked, named⟩ := wanted.image
  simp only [ImagePipeline.imageName?, asked, named]

theorem Wanted.finalPath (wanted : P.Wanted m) (layout : c.layout = P.layout) :
    ImagePipeline.finalPath c m = .ok P.final := by
  rw [ImagePipeline.finalPath, wanted.imageName, wanted.vm, layout]
  rfl

theorem Wanted.afterTransfer (wanted : P.Wanted m) (layout : c.layout = P.layout) :
    ImagePipeline.afterTransfer c m p (some P.image) = .ok (p.afterTransfer P.image P.layout.storage P.vm) := by
  rw [ImagePipeline.afterTransfer, wanted.vm, layout]
  rfl

theorem Fits.transferOutput (fits : P.Fits p) (moved : p.Transfers) :
    p.transferOutput P.image P.layout.storage = P.output := by
  cases fits <;> cases moved <;> simp [output, Phase.transferOutput, *]

theorem fits_afterTransfer (moved : p.Transfers) (fits : P.Fits p) :
    P.Fits (p.afterTransfer P.image P.layout.storage P.vm) := by
  unfold Phase.afterTransfer
  dsimp only
  rw [fits.transferOutput moved]
  split
  · exact .renaming none (by assumption)
  · exact .resizing none

/-- a phase that the pipeline enters fits where the phase before did -/
theorem Fits.enters (fits : P.Fits p) (wanted : P.Wanted m) (layout : c.layout = P.layout)
    (enters : ImagePipeline.Enters c m (some P.image) p next) : P.Fits next := by
  cases enters with
  | downloaded =>
    rw [layout]
    unfold Phase.afterDownload
    dsimp only
    split
    · exact .extracting none (by assumption)
    · exact .copying none (Bool.eq_false_iff.2 (by assumption))
  | transferred moved after =>
    rw [wanted.afterTransfer layout] at after
    obtain rfl := Except.ok.inj after
    exact fits_afterTransfer moved fits
  | extract | copy | move =>
    cases fits
    constructor
    assumption
  | _ => constructor

theorem disk_rendered (disk : s.diskPath = .string "" ∨ s.diskPath = .string P.final) :
    s.rendered.diskPath = .string "" ∨ s.rendered.diskPath = .string P.final := by
  change s.diskPath.orElse (.string "") = _ ∨ s.diskPath.orElse (.string "") = _
  unfold Value.orElse
  split
  · exact disk
  · exact .inl rfl

structure Keeps (P : Plan) (s : MachineStatus) : Prop where
  phase : ∃ p : Phase, Phase.decode s.progress = .ok p ∧ s.progress = .object p.encode ∧ P.Fits p
  disk : s.diskPath = .string "" ∨ s.diskPath = .string P.final

theorem Keeps.rendered {s' : MachineStatus} (keeps : P.Keeps s) (progress : s'.progress = s.progress)
    (disk : s'.diskPath = s.diskPath ∨ s'.diskPath = .string P.final) : P.Keeps s'.rendered := by
  obtain ⟨p, decoded, written, fits⟩ := keeps.phase
  have same : s'.rendered.progress = s.progress := by
    rw [Reconcile.progress_rendered (progress.trans written), written]
  refine ⟨⟨p, by rw [same, decoded], by rw [same, written], fits⟩, ?_⟩
  have disk : s'.diskPath = .string "" ∨ s'.diskPath = .string P.final := by
    rcases disk with disk | disk
    · rw [disk]
      exact keeps.disk
    · exact .inr disk
  exact disk_rendered disk

theorem keeps_empty (set : P.layout.storage ≠ "") : P.Keeps {} where
  phase := ⟨.notStarted, Phase.decode_encode (Fits.notStarted.placed set), rfl, .notStarted⟩
  disk := .inl rfl

/-- the store holds a status, and one that goes by the plan -/
def Stored (P : Plan) (h : Held) : Prop := ∀ o, h.object = some o → ∃ s, h.status = some s ∧ P.Keeps s

end Plan

namespace Event

def disk? (e : Event) : Option Value :=
  match e.said with
  | .sent ⟨_, _, .json fs⟩ _ => fs.get? "disk_path"
  | _ => none

/-- a disk is to grow, or to be that of a new virtual machine -/
def UsesDisk (e : Event) : Prop := e.route? = some (.post, "/vm/disk/resize/") ∨ e.orders = true

def Names (path : String) (e : Event) : Prop := e.disk? = some (.string (Appliance.encodePath path))

structure Grows (path : String) (task : Int) (e : Event) : Prop where
  route : e.route? = some (.post, "/vm/disk/resize/")
  names : e.Names path
  given : ∃ r reply v, e.said = .sent r reply ∧ Appliance.resultOf reply = some v ∧
    (v.member "id" >>= Value.toInt) = .ok task

end Event

/-- a resize of the disk was submitted, and its task found done -/
def Grown (path : String) (es : List Event) : Prop :=
  ∃ task e e', [e, e'].Sublist es ∧ e.Grows path task ∧ e'.Finds task

theorem Grown.append {path : String} {es : List Event} (grown : Grown path es) (more : List Event) :
    Grown path (es ++ more) := by
  obtain ⟨task, e, e', within, grows, finds⟩ := grown
  exact ⟨task, e, e', within.trans (List.sublist_append_left ..), grows, finds⟩

namespace ImagePipeline

variable {c : Context} {m : Machine} {name : Option String} {p : Phase} {reply : Appliance.Reply} {r : Appliance.Request}
  {path : String}

theorem growQuery_content (final : finalPath c m = .ok path) (written : (growQuery c m).request = .ok r) :
    ∃ fs : Fields, r.content = .json fs ∧ fs.get? "disk_path" = some (.string (Appliance.encodePath path)) := by
  rw [growQuery, final] at written
  obtain rfl := Except.ok.inj written
  exact ⟨_, rfl, rfl⟩

theorem order_content {text : String} (written : (Appliance.createQuery c.settings (Boot.order m path text)).request = .ok r) :
    ∃ fs : Fields, r.content = .json fs ∧ fs.get? "disk_path" = some (.string (Appliance.encodePath path)) := by
  obtain rfl := Except.ok.inj written
  exact ⟨_, rfl, rfl⟩

theorem resizing_of_route (routed : route p = (.post, "/vm/disk/resize/")) : p = .resizing none := by
  rcases p with _ | task | ⟨src, dst, _ | task⟩ | ⟨src, dst, _ | task⟩ | ⟨src, dst, _ | task⟩ | _ | task <;>
    first | rfl | simp [route] at routed

/-- only the submission of a resize enters its task -/
theorem query_grows {task : Int} {message : String} {outcome : Outcome}
    (read : (query c m name p).read reply = .ok (.enter (.resizing (some task)) message outcome)) :
    p = .resizing none ∧ ∃ v, Appliance.resultOf reply = some v ∧ (v.member "id" >>= Value.toInt) = .ok task := by
  cases (query_enters read).leads
  obtain ⟨task', given, entered⟩ := bind_eq_ok.1 read
  simp only [started, Except.ok.injEq, Verdict.enter.injEq, Phase.resizing.injEq, Option.some.injEq] at entered
  obtain ⟨rfl, -⟩ := entered
  have read : (Appliance.resizeQuery c.settings .null (.int m.diskSizeBytes) (.bool false)).read reply = .ok task' := given
  exact ⟨rfl, (Appliance.query_read c.settings).1 read⟩

end ImagePipeline

namespace Reconcile

variable {P : Plan} {S : Scene} {c : Context} {st st' : Stage} {e : Event} {es all : List Event} {past : List Invocation}
  {h h' start : Held} {m : Machine}

def Charts (P : Plan) (all : List Event) : Stage → Prop
  | .judged _ (.enter next _ _) =>
    P.Fits next ∧ ∀ task, next = .resizing (some task) → ∃ e ∈ all, e.Grows P.final task
  | .judged _ .finish | .ordering _ => Grown P.final all
  | .created _ _ path => path = P.final
  | _ => True

theorem Charts.append (charts : Charts P all st) (more : List Event) : Charts P (all ++ more) st := by
  cases st with
  | judged m v =>
    cases v with
    | enter =>
      refine ⟨charts.1, fun task same => ?_⟩
      obtain ⟨e, mem, grows⟩ := charts.2 task same
      exact ⟨e, List.mem_append_left _ mem, grows⟩
    | finish => exact Grown.append charts more
    | _ => trivial
  | ordering => exact Grown.append charts more
  | _ => exact charts

theorem names_of_content {r : Appliance.Request} {reply : Appliance.Reply} {fs : Fields} {path : String}
    (said : e.said = .sent r reply) (content : r.content = .json fs)
    (named : fs.get? "disk_path" = some (.string (Appliance.encodePath path))) : e.Names path := by
  obtain ⟨method, target, _⟩ := r
  obtain rfl : _ = Appliance.Content.json fs := content
  rw [Event.Names, Event.disk?, said]
  exact named

theorem Asks.names {r : Appliance.Request} {reply : Appliance.Reply} {path : String} {name : Option String}
    (asks : Asks c m name (.resizing none) e r reply) (final : ImagePipeline.finalPath c m = .ok path) : e.Names path := by
  obtain ⟨fs, content, named⟩ := ImagePipeline.growQuery_content final asks.written
  exact names_of_content asks.said content named

/-- what was asked and stored so far goes by the plan -/
structure Charted (P : Plan) (all : List Event) (st : Stage) (h : Held) : Prop where
  stored : P.Stored h
  submitted : ∀ task, h.phase? = some (.resizing (some task)) → ∃ e ∈ all, e.Grows P.final task
  ready : ∀ s, h.status = some s → ({ status := s } : Machine).imageReady = true → Grown P.final all
  stage : Charts P all st
  names : ∀ e ∈ all, e.UsesDisk → e.Names P.final
  ordered : Preceded (fun e before => e.orders = true → Grown P.final before) all
  kept : ∀ e ∈ all, P.Stored e.before ∧ P.Stored e.after

theorem stored_of_status (same : h'.status = h.status) (there : ∀ o', h'.object = some o' → ∃ o, h.object = some o)
    (stored : P.Stored h) : P.Stored h' := by
  intro o' object
  obtain ⟨o, before⟩ := there o' object
  obtain ⟨s, status, keeps⟩ := stored o before
  exact ⟨s, same.trans status, keeps⟩

theorem Charted.drift (charted : Charted P all st h) (drift : S.Drifts h h') : Charted P all st h' := by
  have same := Held.status_drift drift
  have there : ∀ o', h'.object = some o' → ∃ o, h.object = some o := fun o' object =>
    Option.isSome_iff_exists.1 (drift.isSome.symm.trans (by rw [object]; rfl))
  refine { charted with
    stored := stored_of_status same there charted.stored
    submitted := fun task read => charted.submitted task ?_
    ready := fun s status => charted.ready s (same.symm.trans status) }
  rw [← read, Held.phase?, Held.phase?, same]

theorem Charted.keeps (charted : Charted P all st h) {s : MachineStatus} (status : h.status = some s) : P.Keeps s := by
  obtain ⟨o, object, -⟩ := Option.bind_eq_some_iff.1 status
  obtain ⟨s', same, keeps⟩ := charted.stored o object
  obtain rfl := Option.some.inj (same.symm.trans status)
  exact keeps

theorem Charted.judged {name : Option String} {r : Appliance.Request} {reply : Appliance.Reply} {v : ImagePipeline.Verdict}
    (charted : Charted P all st e.before) (wanted : P.Wanted m) (layout : c.layout = P.layout)
    (status : e.before.status = some m.status) {p : Phase} (asks : Asks c m name p e r reply)
    (read : (ImagePipeline.query c m name p).read reply = .ok v) : Charts P (all ++ [e]) (.judged m v) := by
  have last : e ∈ all ++ [e] := List.mem_append_right _ (List.mem_singleton.2 rfl)
  cases v with
  | enter next message outcome =>
    obtain ⟨p', decoded, -, fits⟩ := (charted.keeps status).phase
    obtain rfl := Except.ok.inj (decoded.symm.trans asks.decoded)
    obtain rfl := Except.ok.inj (wanted.imageName.symm.trans asks.named)
    refine ⟨fits.enters wanted layout (ImagePipeline.query_enters read), ?_⟩
    rintro task rfl
    obtain ⟨rfl, v, result, given⟩ := ImagePipeline.query_grows read
    exact ⟨e, last, asks.route, asks.names (wanted.finalPath layout), r, reply, v, asks.said, result, given⟩
  | finish =>
    obtain ⟨task, rfl, finds⟩ := asks.finds read
    obtain ⟨e', mem, grows⟩ := charted.submitted task (Held.phase?_of_decode status asks.decoded)
    exact ⟨task, e', e, (List.singleton_sublist.2 mem).append (List.Sublist.refl [e]), grows, finds⟩
  | _ => trivial

theorem Charted.names_snoc (charted : Charted P all st e.before) (deed : Deed S c st e st') (tracks : Tracks S e.before st)
    (founded : Founded c es e.before st) (wanted : ∀ m, st.copy? = some m → P.Wanted m) (layout : c.layout = P.layout)
    (uses : e.UsesDisk) : e.Names P.final := by
  rcases uses with route | orders
  · obtain ⟨m, name, p, r, reply, rfl, -, asks, -⟩ := deed.pipelined tracks founded ⟨.resizing none, route⟩
    obtain rfl := ImagePipeline.resizing_of_route (Option.some.inj (asks.route.symm.trans route))
    exact asks.names ((wanted m rfl).finalPath layout)
  · obtain ⟨m, path, text, r, reply, rfl, orders, -⟩ := deed.ordering orders
    obtain rfl := Except.ok.inj (orders.final.symm.trans ((wanted m rfl).finalPath layout))
    obtain ⟨fs, content, named⟩ := ImagePipeline.order_content orders.written
    exact names_of_content orders.said content named

theorem charts_recorded (m : Machine) (number : Int) : Charts P all (.recorded m number) :=
  Stage.recorded_cases (fun _ => trivial) fun _ => trivial

theorem charts_booting (grown : Grown P.final all) (m : Machine) : Charts P all (.booting m) :=
  Stage.booting_cases (fun number _ => charts_recorded m number) fun _ => grown

theorem charts_provisioning (ready : m.imageReady = true → Grown P.final all) : Charts P all (.provisioning m) :=
  Stage.provisioning_cases (fun set => charts_booting (ready set) m) fun _ => trivial

theorem charts_fetched (ready : m.imageReady = true → Grown P.final all) : Charts P all (.fetched m) :=
  Stage.fetched_cases trivial (fun _ _ _ => trivial) (fun _ _ => trivial) (fun _ _ => charts_provisioning ready)
    fun _ _ => trivial

theorem Charted.stage_snoc (charted : Charted P all st e.before) (deed : Deed S c st e st') (tracks : Tracks S e.before st)
    (founded : Founded c es e.before st) (wanted : ∀ m, st.copy? = some m → P.Wanted m) (layout : c.layout = P.layout) :
    Charts P (all ++ [e]) st' := by
  have after := tracks.deed deed
  have ready {m : Machine} (status : e.before.status = some m.status) (ready : m.imageReady = true) :
      Grown P.final (all ++ [e]) := (charted.ready m.status status ready).append [e]
  cases deed with
  | @sent _ _ r _ table written reply h =>
    cases table with
    | image m name p asked sound named decoded =>
      refine Stage.heard_cases (fun v read => ?_) trivial
      exact charted.judged (wanted m rfl) layout founded.2 ⟨sound, founded.1, named, decoded, written, rfl⟩ read
    | create m path text final =>
      refine Stage.heard_cases (fun _ _ => ?_) trivial
      exact Except.ok.inj (final.symm.trans ((wanted m rfl).finalPath layout))
    | look => exact Stage.lookedFor_cases trivial (fun _ _ _ => trivial) trivial
    | kill => trivial
    | _ => exact Stage.heard_cases (fun _ _ => trivial) trivial
  | vain stays =>
    cases stays with
    | ended | named => trivial
    | same => exact charted.stage.append _
  | fetched object next =>
    exact next.cases trivial fun m copy => charts_fetched (ready ((copied_of_copyOf tracks.sound object copy).status object))
  | reread _ next => exact next.cases trivial fun _ _ => charted.stage
  | restated table _ _ _ _ _ _ next =>
    refine next.cases trivial fun m _ => ?_
    cases table with
    | finish => exact charts_booting (Grown.append charted.stage _) m
    | record _ number => exact charts_recorded m number
    | _ => trivial
  | @replaced _ _ _ _ _ m x v _ table copy copied object _ _ _ next =>
    refine next.cases trivial fun m' copy' => ?_
    have status := copy'.status_eq ((status_replaced ..).trans copied.copy.status)
    cases table with
    | hold =>
      obtain rfl := Option.some.inj copy
      refine charts_provisioning fun set => ready (copied.status object) ?_
      rw [Machine.imageReady, Machine.imageCondition?, ← status]
      exact set
    | _ => trivial

/-- what a status says of the disk is changed only by the record of the virtual machine -/
theorem Restates.disk {change : Machine → Machine} {kept : Machine → Stage} {refused : Stage}
    (table : Restates c st change kept refused) (copy : st.copy? = some m) :
    (change m).status.diskPath = m.status.diskPath ∨
      ∃ number path, st = .created m number path ∧ (change m).status.diskPath = .string path := by
  cases table with
  | record m number path =>
    obtain rfl := Option.some.inj copy
    exact .inr ⟨number, path, rfl, rfl⟩
  | _ => exact .inl rfl

/-- what is written of the status goes by the plan, too -/
theorem Charted.stored_snoc (charted : Charted P all st e.before) (deed : Deed S c st e st')
    (set : P.layout.storage ≠ "") : P.Stored e.after := by
  cases deed.impact with
  | same status =>
    refine stored_of_status status (fun o' object => ?_) charted.stored
    obtain ⟨o, object, -⟩ := deed.deletion object
    exact ⟨o, object⟩
  | released _ _ _ _ _ gone =>
    intro o' object
    cases gone.symm.trans object
  | @restated change kept _ m table copy before after =>
    have keeps := charted.keeps before
    have disk : (change m).status.diskPath = m.status.diskPath ∨ (change m).status.diskPath = .string P.final := by
      refine (table.disk copy).imp_right ?_
      rintro ⟨number, path, rfl, disk⟩
      obtain rfl : path = P.final := charted.stage
      exact disk
    refine fun _ _ => ⟨_, after, ?_⟩
    rcases table.progress copy with progress | ⟨next, message, outcome, rfl, progress⟩
    · exact keeps.rendered progress disk
    · have fits := charted.stage.1
      have written := progress_rendered progress
      refine ⟨⟨next, ?_, written, fits⟩, Plan.disk_rendered ?_⟩
      · rw [written, Phase.decode_encode (fits.placed set)]
      · rcases disk with disk | disk
        · rw [disk]
          exact keeps.disk
        · exact .inr disk

theorem Charted.submitted_snoc (charted : Charted P all st e.before) (deed : Deed S c st e st') (encoded : Encoded e.before)
    {task : Int} (read : e.after.phase? = some (.resizing (some task))) : ∃ e' ∈ all, e'.Grows P.final task := by
  cases deed.advances encoded with
  | same progress =>
    obtain ⟨s', status', decoded⟩ := Option.bind_eq_some_iff.1 read
    obtain ⟨s, status, same⟩ := progress s' status'
    rw [same] at decoded
    exact charted.submitted task (Held.phase?_of_decode status (ok_of_toOption decoded))
  | moved m next message outcome stage status written =>
    subst stage
    obtain ⟨s, status, progress⟩ := written
    exact charted.stage.2 task (Held.phase?_of_encode status progress read).symm

theorem Charted.ready_snoc (charted : Charted P all st e.before) (deed : Deed S c st e st') {s : MachineStatus}
    (status : e.after.status = some s) (ready : ({ status := s } : Machine).imageReady = true) : Grown P.final all := by
  cases deed.impact with
  | same same => exact charted.ready s (same.symm.trans status) ready
  | released _ _ _ _ _ gone =>
    rw [Held.status, gone] at status
    cases status
  | @restated _ _ _ m table _ before after =>
    obtain rfl := Option.some.inj (after.symm.trans status)
    rcases table.ready (m := m) ready with ⟨m', rfl⟩ | ready
    · exact charted.stage
    · exact charted.ready _ before ready

theorem Charted.snoc (charted : Charted P all st e.before) (deed : Deed S c st e st') (tracks : Tracks S e.before st)
    (founded : Founded c es e.before st) (encoded : Encoded e.before) (wanted : ∀ m, st.copy? = some m → P.Wanted m)
    (layout : c.layout = P.layout) (set : P.layout.storage ≠ "") : Charted P (all ++ [e]) st' e.after := by
  have stored := charted.stored_snoc deed set
  constructor
  case stored => exact stored
  case submitted =>
    intro task read
    obtain ⟨e', mem, grows⟩ := charted.submitted_snoc deed encoded read
    exact ⟨e', List.mem_append_left _ mem, grows⟩
  case ready => exact fun s status ready => (charted.ready_snoc deed status ready).append [e]
  case stage => exact charted.stage_snoc deed tracks founded wanted layout
  case names => exact forall_snoc charted.names (charted.names_snoc deed tracks founded wanted layout)
  case ordered =>
    apply charted.ordered.snoc
    intro orders
    obtain ⟨m, path, text, r, reply, rfl, -⟩ := deed.ordering orders
    exact charted.stage
  case kept => exact forall_snoc charted.kept ⟨charted.stored, stored⟩

/-- in every run from an empty status in which nobody changes what is wished for, whatever the appliance and
the store answer: what is stored of the image goes by one plan, every disk that is named is that of the plan,
and a virtual machine is ordered only after a resize of the disk was found done -/
theorem one_disk_path (steady : S.Steady) (wished : ∀ o, start.object = some o → P.Wished S (Stored.wishes o))
    (set : P.layout.storage ≠ "") (sound : start.Sound S) (empty : start.status = some {}) (run : Run S start past h)
    (layouts : ∀ i ∈ past, i.context.layout = P.layout) :
    (∀ e ∈ events past, P.Stored e.before ∧ P.Stored e.after) ∧ P.Stored h ∧
      (∀ e ∈ events past, e.UsesDisk → e.Names P.final) ∧
      Preceded (fun e before => e.orders = true → Grown P.final before) (events past) := by
  obtain ⟨o, object, -⟩ := Option.bind_eq_some_iff.1 empty
  have first : Charted P [] .start start := by
    refine ⟨fun _ _ => ⟨{}, empty, Plan.keeps_empty set⟩, fun task read => ?_,
      fun s status ready => ?_, trivial, by simp, .nil, by simp⟩
    · cases Held.phase?_of_encode (p := .notStarted) empty rfl read
    · obtain rfl := Option.some.inj (empty.symm.trans status)
      cases ready
  have kept := run.keeps_founded (P := fun c => c.layout = P.layout)
    (J := fun past h => Charted P (events past) .start h ∧ Wishing (Stored.wishes o) h .start)
    (I := fun past _ es st h => Charted P (events past ++ es) st h ∧ Wishing (Stored.wishes o) h st) sound
    (encoded_of_empty empty) ⟨first, fun o' object' => by rw [Option.some.inj (object'.symm.trans object)], nofun⟩
    (fun past c h _ kept => by rwa [List.append_nil]) ?step ?ends layouts
  case step =>
    intro past c es st h e st' layout ⟨charted, wishing⟩ drift tracks founded encoded deed
    have wishing := wishing.drift steady drift
    refine ⟨?_, deed.wishes wishing⟩
    rw [← List.append_assoc]
    refine (charted.drift drift).snoc deed tracks founded encoded (fun m copy => ?_) layout set
    refine Plan.Wished.wanted ?_ (tracks.copied m copy).copy
    rw [wishing.copied m copy]
    exact wished o object
  case ends =>
    intro past c es st h r _ ⟨charted, wishing⟩
    refine ⟨?_, wishing.stored, nofun⟩
    rw [events_snoc]
    exact { charted with stage := trivial }
  exact ⟨kept.1.kept, kept.1.stored, kept.1.names, kept.1.ordered⟩

/-- others leave the wishes alone -/
def steadfast : Scene where
  ns := "default"
  name := "worker"
  allows o o' := Stored.wishes o' = Stored.wishes o

def placed : Plan := ⟨"disk.raw", "worker", ⟨"/downloads", "/disks"⟩⟩

/-- a whole run of the sample, with two orders -/
theorem one_disk_path_provisioning : steadfast.Steady ∧ placed.layout.storage ≠ "" ∧ Sample.held.status = some {} ∧
    placed.final = "/disks/worker.raw" ∧ ∃ past h, Run steadfast Sample.held past h ∧
      ((events past).countP Event.orders = 2 ∧ ∀ i ∈ past, i.context.layout = placed.layout) ∧ placed.Stored h ∧
      (∀ e ∈ events past, e.UsesDisk → e.Names placed.final) ∧
      Preceded (fun e before => e.orders = true → Grown placed.final before) (events past) := by
  have steady : steadfast.Steady := fun _ _ same => same
  have set : placed.layout.storage ≠ "" := by decide
  have empty : Sample.held.status = some {} := by decide +kernel
  have wished : ∀ o, Sample.held.object = some o → placed.Wished steadfast (Stored.wishes o) := by
    intro o ho
    obtain rfl := Option.some.inj ho
    exact ⟨⟨"http://images/disk.raw", by decide +kernel, by rfl⟩, by decide +kernel⟩
  refine ⟨steady, set, empty, by decide +kernel, ?_⟩
  obtain ⟨past, h, run, seen⟩ := steadfast.exists_run Sample.held Sample.provisioning
    (fun r => decide ((events r.1).countP Event.orders = 2 ∧ ∀ i ∈ r.1, i.context.layout = placed.layout))
    (by decide +kernel)
  have seen := of_decide_eq_true seen
  obtain ⟨-, stored, names, ordered⟩ := one_disk_path steady wished set (Sample.sound _) empty run seen.2
  exact ⟨past, h, run, seen, stored, names, ordered⟩

end Reconcile

end VmOperator
