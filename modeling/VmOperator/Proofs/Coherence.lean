import VmOperator.Proofs.Image.Name
import VmOperator.Proofs.Reconcile.Imaging
import VmOperator.Proofs.Rehearsal
import VmOperator.Proofs.Resource.Conditions

/-! What is stored of a machine agrees with itself until the machine is to be deleted: a number comes with a disk and
a ready image, the signs of readiness come together and not before the number and the provider id, and a provider
id stays. A refused provider id is let go, and only the version of the copy keeps that invocation from publishing
addresses (`Stale`). -/

namespace VmOperator

open Reconcile

def Stored.providerId (o : Value) : Value := (wish o "providerID").getD (.string "")

def Condition.Fails (c : Condition) : Prop := ∃ reason : String, c.reason = .string reason ∧ "Failed".toList <:+ reason.toList

namespace MachineStatus

/-- the signs of readiness come together -/
structure Signed (s : MachineStatus) : Prop where
  provisioned : s.provisioned = true ↔ s.ready = true
  addresses : s.addresses ≠ [] ↔ s.ready = true
  condition : s.Meets .ready ↔ s.ready = true
  set : ∀ a ∈ s.addresses, a.address.isTruthy = true

structure Coherent (s : MachineStatus) : Prop where
  numbered : s.vmId ≠ none → (∃ path, s.diskPath = .string path ∧ path ≠ "") ∧ s.Meets .imageReady
  signed : s.Signed
  progress : ∀ c, s.condition? .imageReady = some c → c.status = .string ConditionStatus.no.text → ¬c.Fails →
    ∃ p : Phase, s.progress = .object p.encode ∧ c.reason = .string p.tag

variable {s s' : MachineStatus}

theorem Signed.congr (signed : s.Signed) (ready : s'.ready = s.ready) (provisioned : s'.provisioned = s.provisioned)
    (addresses : s'.addresses = s.addresses) (condition : s'.condition? .ready = s.condition? .ready) : s'.Signed where
  provisioned := by rw [provisioned, ready]; exact signed.provisioned
  addresses := by rw [addresses, ready]; exact signed.addresses
  condition := by rw [Meets.congr condition, ready]; exact signed.condition
  set := by rw [addresses]; exact signed.set

theorem coherent_empty (v : Value) : ({ providerId := v } : MachineStatus).Coherent where
  numbered := absurd rfl
  signed := {
    provisioned := Iff.rfl
    addresses := by simp
    condition := by simp [Meets, condition?, Condition.find?]
    set := nofun }
  progress c found := by simp [condition?, Condition.find?] at found

theorem Coherent.rendered (coherent : s.Coherent) : s.rendered.Coherent where
  numbered known := by
    obtain ⟨⟨path, disk, named⟩, ready⟩ := coherent.numbered known
    refine ⟨⟨path, ?_, named⟩, ready⟩
    rw [MachineStatus.rendered, disk]
    exact Value.orElse_eq_self (by simpa [Value.isTruthy] using named)
  signed := coherent.signed.congr rfl rfl (List.filter_eq_self.2 coherent.signed.set) rfl
  progress c found refused reason := by
    obtain ⟨p, progress, tagged⟩ := coherent.progress c found refused reason
    exact ⟨p, progress_rendered progress, tagged⟩

end MachineStatus

namespace Held

def providerId (h : Held) : Value := (h.object.map Stored.providerId).getD (.string "")

/-- the provider id in the stored status -/
def mirror (h : Held) : Value := (h.status.map (·.providerId)).getD (.string "")

structure Persists (h h' : Held) : Prop where
  providerId : h.providerId.isTruthy = true → h'.providerId = h.providerId
  mirror : h.mirror.isTruthy = true → h'.mirror = h.mirror

/-- a provider id is the one that was there at first, or that of the stored number -/
def Explains (first v : Value) (s : MachineStatus) : Prop :=
  v.isTruthy = true → v = first ∨ ∃ number, s.vmId = some number ∧ v = .string (Boot.providerId (.int number))

/-- what is stored, with status `s`, agrees with itself and with what was stored at first -/
structure Coherent (h start : Held) (s : MachineStatus) : Prop where
  status : h.status = some s
  coherent : s.Coherent
  providerId : Explains start.providerId h.providerId s
  mirror : Explains start.mirror s.providerId s
  reachable : s.ready = true → s.vmId ≠ none ∧ h.providerId.isTruthy = true

variable {h h' h'' start : Held} {s s' : MachineStatus}

theorem Persists.refl (h : Held) : h.Persists h := ⟨fun _ => rfl, fun _ => rfl⟩

theorem Persists.trans (first : h.Persists h') (second : h'.Persists h'') : h.Persists h'' where
  providerId set := by rw [second.providerId (by rw [first.providerId set]; exact set), first.providerId set]
  mirror set := by rw [second.mirror (by rw [first.mirror set]; exact set), first.mirror set]

theorem mirror_of_status (status : h.status = some s) : h.mirror = s.providerId := by
  rw [mirror, status, Option.map_some, Option.getD_some]

theorem Explains.imp {first v : Value} (explains : Explains first v s)
    (lasts : ∀ number, s.vmId = some number → s'.vmId = some number) : Explains first v s' :=
  fun set => (explains set).imp_right fun ⟨number, known, same⟩ => ⟨number, lasts number known, same⟩

/-- a copy whose write is never accepted -/
structure Stale (h : Held) (m : Machine) : Prop where
  known : m.resourceVersion ∈ h.versions
  differs : ∀ o, h.object = some o → Stored.version o ≠ m.resourceVersion

theorem Stale.drift {S : Scene} {m : Machine} (stale : h.Stale m) (drift : S.Drifts h h') : h'.Stale m := by
  refine ⟨drift.versions stale.known, fun o object same => ?_⟩
  exact stale.differs o (drift.same object (same ▸ stale.known)) same

end Held

def Scene.Respects (S : Scene) : Prop := ∀ o o', S.allows o o' → Stored.wish o' "providerID" = Stored.wish o "providerID"

theorem Scene.Respects.providerId {S : Scene} {h h' : Held} (respects : S.Respects) (drift : S.Drifts h h') :
    h'.providerId = h.providerId := by
  induction drift with
  | still => rfl
  | edited _ object edit _ ih =>
    rw [← ih, Held.providerId, Held.providerId, object, Option.map_some, Option.map_some, Stored.providerId,
      Stored.providerId, respects _ _ edit.allowed]

/-- a replacement is in conflict only where it was not made from the stored version -/
def Event.Fair (e : Event) : Prop :=
  e.said.refusedWith 409 = true → ∀ x o, e.said.content? = some x → e.before.object = some o →
    Stored.version o ≠ Stored.version x

/-- what was stored around each event, in order -/
def stored (es : List Event) : List Held := es.flatMap fun e => [e.before, e.after]

theorem stored_snoc (es : List Event) (e : Event) : stored (es ++ [e]) = stored es ++ [e.before, e.after] := by
  simp [stored]

namespace Reconcile

variable {S : Scene} {c : Context} {st st' refused : Stage} {e : Event} {es : List Event} {h h' start : Held} {m : Machine}
  {change : Machine → Machine} {kept : Machine → Stage} {s : MachineStatus}

section Statuses

open MachineStatus

variable {now : String}

/-- an image that is not ready has no virtual machine to it -/
theorem unnumbered (coherent : m.status.Coherent) (unready : m.imageReady = false) : m.status.vmId = none := by
  cases known : m.status.vmId with
  | none => rfl
  | some number =>
    have ready := m.imageReady_iff.2 (coherent.numbered (by rw [known]; nofun)).2
    rw [unready] at ready
    cases ready

/-- the image's condition and progress are written together, of a machine without a virtual machine -/
theorem coherent_image (coherent : m.status.Coherent) (unset : m.status.vmId = none) (progress : Value)
    (status : ConditionStatus) (reason message : String)
    (told : status = .no → ¬"Failed".toList <:+ reason.toList →
      ∃ p : Phase, progress = .object p.encode ∧ reason = p.tag) :
    ({ m with status.progress := progress }.setCondition now .imageReady status reason message).status.Coherent where
  numbered := absurd unset
  signed := coherent.signed.congr rfl rfl rfl
    (Machine.condition?_setCondition_of_ne { m with status.progress := progress } now (by decide) ..)
  progress c found refused sound := by
    obtain ⟨c', found', status', reason'⟩ := Machine.condition?_setCondition_self { m with status.progress := progress }
      now .imageReady status reason message
    obtain rfl := Option.some.inj (found.symm.trans found')
    have no : status = .no := by
      rw [status'] at refused
      cases status <;> first | rfl | exact absurd (Value.string.inj refused) (by decide)
    obtain ⟨p, encoded, tagged⟩ := told no fun failed => sound ⟨reason, reason', failed⟩
    exact ⟨p, encoded, by rw [reason', tagged]⟩

theorem coherent_entering (coherent : m.status.Coherent) (unset : m.status.vmId = none) (next : Phase) (message : String) :
    (ImagePipeline.entering c next message m).status.Coherent :=
  coherent_image coherent unset _ _ _ _ fun _ _ => ⟨next, rfl, rfl⟩

theorem coherent_failing (coherent : m.status.Coherent) (unset : m.status.vmId = none) {reason : String}
    (fails : reason ∈ ImagePipeline.failures) (message : String) (detail : Value) :
    (ImagePipeline.failing c reason message detail m).status.Coherent := by
  have failed : "Failed".toList <:+ reason.toList :=
    (by decide : ∀ reason ∈ ImagePipeline.failures, "Failed".toList <:+ reason.toList) reason fails
  exact coherent_image coherent unset m.status.progress _ _ _ fun _ sound => absurd failed sound

theorem coherent_finishing (coherent : m.status.Coherent) (unset : m.status.vmId = none) :
    (ImagePipeline.finishing c m).status.Coherent :=
  coherent_image coherent unset m.status.progress _ _ _ nofun

theorem coherent_record (coherent : m.status.Coherent) (ready : m.status.Meets .imageReady) {path : String} (named : path ≠ "")
    (number : Int) : (Boot.record c number path m).status.Coherent := by
  have image : (Boot.record c number path m).status.condition? .imageReady = m.status.condition? .imageReady :=
    Machine.condition?_setCondition_of_ne _ _ (by decide) ..
  exact {
    numbered := fun _ => ⟨⟨path, rfl, named⟩, (Meets.congr image).2 ready⟩
    signed := coherent.signed.congr rfl rfl rfl (Machine.condition?_setCondition_of_ne _ _ (by decide) ..)
    progress := fun c found => coherent.progress c (image.symm.trans found) }

theorem imageCondition?_markReady (m : Machine) (addresses : List Value) :
    (Discovery.markReady c m addresses).status.condition? .imageReady = m.status.condition? .imageReady := by
  rw [Discovery.markReady, Machine.condition?_setCondition_of_ne _ _ (by decide),
    Machine.condition?_setCondition_of_ne _ _ (by decide), Machine.condition?_setCondition_of_ne _ _ (by decide)]
  rfl

theorem meets_markReady (m : Machine) (addresses : List Value) : (Discovery.markReady c m addresses).status.Meets .ready := by
  rw [Discovery.markReady, Meets.congr (Machine.condition?_setCondition_of_ne _ _ (by decide) ..),
    Meets.congr (Machine.condition?_setCondition_of_ne _ _ (by decide) ..)]
  obtain ⟨c, found, set, -⟩ := Machine.condition?_setCondition_self _ _ _ _ _ _
  exact ⟨c, found, set⟩

theorem coherent_markReady (coherent : m.status.Coherent) {addresses : List Value} (found : addresses ≠ [])
    (set : ∀ a ∈ addresses, a.isTruthy = true) : (Discovery.markReady c m addresses).status.Coherent := by
  have image := imageCondition?_markReady (c := c) m addresses
  exact {
    numbered := fun known => (coherent.numbered known).imp_right (Meets.congr image).2
    signed := {
      provisioned := Iff.rfl
      addresses := iff_of_true (fun none => found (List.map_eq_nil_iff.1 none)) rfl
      condition := iff_of_true (meets_markReady m addresses) rfl
      set := List.forall_mem_map.2 set }
    progress := fun c' found' => coherent.progress c' (image.symm.trans found') }

end Statuses

section Stages

structure Current (S : Scene) (h : Held) (m : Machine) : Prop where
  read : ∃ o, h.object = some o ∧ m.ReadOf S o
  status : h.status = some m.status

theorem current_of_read {o : Value} (sound : h.Sound S) (object : h.object = some o) (read : m.ReadOf S o) : Current S h m :=
  ⟨⟨o, object, read⟩, (copied_of_copyOf sound object read.toCopyOf).status object⟩

theorem Current.providerId (current : Current S h m) : m.spec.providerId = h.providerId := by
  obtain ⟨o, object, read⟩ := current.read
  rw [read.providerId, Held.providerId, object]
  rfl

theorem Current.plain (current : Current S h m) : m.spec.providerId = Stored.providerId (.object m.stored) := by
  obtain ⟨o, object, read⟩ := current.read
  rw [read.providerId, Stored.providerId, ← read.stored]

/-- what a stage rests on: where addresses may be published, the spec is named or the copy is out of date -/
def Stands (h : Held) : Stage → Prop
  | .bare m | .naming m _ => m.spec.providerId = Stored.providerId (.object m.stored)
  | .ordering _ => ∀ s, h.status = some s → s.Meets .imageReady
  | .created _ _ path => (∀ s, h.status = some s → s.Meets .imageReady) ∧ path ≠ ""
  | .running m _ => h.providerId.isTruthy = true ∨ h.Stale m
  | _ => True

theorem Stands.drift (stands : Stands h st) (respects : S.Respects) (drift : S.Drifts h h') : Stands h' st := by
  have status := Held.status_drift drift
  cases st with
  | bare | naming => exact stands
  | ordering => exact fun s same => stands s (status.symm.trans same)
  | created => exact ⟨fun s same => stands.1 s (status.symm.trans same), stands.2⟩
  | running =>
    refine stands.imp (fun set => ?_) fun stale => stale.drift drift
    rw [respects.providerId drift]
    exact set
  | _ => trivial

theorem stands_recorded (current : Current S h m) (known : m.status.vmId ≠ none) (number : Int) :
    Stands h (.recorded m number) := by
  refine Stage.recorded_cases (fun settled => .inl ?_) fun _ => current.plain
  rw [← current.providerId]
  exact settled.resolve_right known

theorem stands_booting (current : Current S h m) (ready : m.status.Meets .imageReady) : Stands h (.booting m) := by
  refine Stage.booting_cases (fun number known => stands_recorded current (by rw [known]; nofun) number) ?_
  intro _ s status
  obtain rfl := Option.some.inj (current.status.symm.trans status)
  exact ready

theorem stands_provisioning (current : Current S h m) : Stands h (.provisioning m) :=
  Stage.provisioning_cases (fun ready => stands_booting current (m.imageReady_iff.1 ready)) fun _ => trivial

theorem stands_fetched (current : Current S h m) : Stands h (.fetched m) :=
  Stage.fetched_cases trivial (fun _ _ _ => trivial) (fun _ _ => trivial) (fun _ _ => stands_provisioning current)
    fun _ _ => current.plain

theorem providerId_restated (v x o : Value) : Stored.providerId (Stored.restated v x o) = Stored.providerId o := by
  rw [Stored.providerId, Stored.wish, Stored.specOf_restated]
  rfl

theorem providerId_replaced (v x o : Value) : Stored.providerId (Stored.replaced v x o) = Stored.providerId x := by
  rw [Stored.providerId, Stored.wish, Stored.specOf_replaced]
  rfl

theorem providerId_held {x : Value} (plain : m.spec.providerId = Stored.providerId (.object m.stored))
    (written : (holdFinalizer m).WrittenOver S (.object m.stored) x) :
    Stored.providerId x = Stored.providerId (.object m.stored) := by
  rw [Stored.providerId, Machine.wish_written written
    (MachineSpec.get?_toFields _ (by simp [MachineSpec.entries, holdFinalizer])) plain]
  rfl

theorem providerId_set (id : Value) : (Value.string (Boot.providerId id)).isTruthy = true := by
  simp [Value.isTruthy, Boot.providerId]

theorem providerId_named {known : Int} {o x : Value} (written : (nameProvider known m).WrittenOver S o x) :
    Stored.providerId x = .string (Boot.providerId (.int known)) := by
  have named : ("providerID", .string (Boot.providerId (.int known))) ∈ (nameProvider known m).spec.entries := by
    simp [MachineSpec.entries, nameProvider]
  rw [Stored.providerId, Stored.wish, written.spec, Fields.get?_update, MachineSpec.get?_toFields _ named,
    if_pos (providerId_set _)]
  rfl

/-- a machine that is not to be deleted is not released -/
theorem kept_of_left {o : Value} {versions : List Value} (alive : ¬Held.Doomed ⟨Scene.left o, versions⟩) :
    Scene.left o = some o := by
  refine (Scene.left_eq o).resolve_left fun gone => alive fun o' object => ?_
  cases gone.symm.trans object

theorem finalPath_ne_empty {path : String} (final : ImagePipeline.finalPath c m = .ok path) : path ≠ "" := by
  obtain ⟨_, -, final⟩ := bind_eq_ok.1 final
  obtain ⟨_, -, final⟩ := bind_eq_ok.1 final
  obtain ⟨_, -, final⟩ := bind_eq_ok.1 final
  cases final
  exact Image.finalPath_ne_empty _ _ _

theorem Deed.stands (deed : Deed S c st e st') (tracks : Tracks S e.before st) (stands : Stands e.before st) (fair : e.Fair)
    (alive : ¬e.after.Doomed) : Stands e.after st' := by
  have sound := (tracks.deed deed).sound
  cases deed with
  | sent table written reply h =>
    cases table with
    | image => exact Stage.heard_cases (fun _ _ => trivial) trivial
    | create m path text final =>
      exact Stage.heard_cases (fun _ _ => ⟨stands, finalPath_ne_empty final⟩) trivial
    | start | ask | hosts => exact Stage.heard_cases (fun _ _ => stands) trivial
    | look => exact Stage.lookedFor_cases trivial (fun _ _ _ => trivial) trivial
    | kill => trivial
    | delete | remove => exact Stage.heard_cases (fun _ _ => trivial) trivial
  | vain stays idle h =>
    cases stays with
    | ended => trivial
    | same => exact stands
    | named m number known written lost =>
      have copied := tracks.copied m rfl
      have amends : m.Amends (nameProvider known m) := ⟨rfl, rfl, rfl, rfl⟩
      have sent := Machine.writtenOver copied.copy amends written
      refine .inr ⟨copied.known, fun o object same => ?_⟩
      refine fair lost _ o rfl object ?_
      rw [sent.version, ← copied.copy.version]
      exact same
  | fetched object next => exact next.read_cases trivial fun m read => stands_fetched (current_of_read sound object read)
  | reread object next => exact next.cases trivial fun _ _ => stands
  | restated table copy copied _ written _ _ next =>
    refine next.read_cases trivial fun m' read => ?_
    have current := current_of_read sound rfl read
    have status := read.status_eq (status_restated table copied written)
    cases table with
    | finish =>
      refine stands_booting current ?_
      rw [status]
      obtain ⟨c, found, set, -⟩ := Machine.condition?_setCondition_self _ _ _ _ _ _
      exact ⟨c, found, set⟩
    | record m number => exact stands_recorded current (by rw [status]; nofun) number
    | _ => trivial
  | replaced table copy copied object written _ _ next =>
    have kept := kept_of_left alive
    refine next.read_cases trivial fun m' read => ?_
    have current := current_of_read sound kept read
    cases table with
    | hold => exact stands_provisioning current
    | name =>
      refine .inl ?_
      rw [← current.providerId, read.providerId]
      change (Stored.providerId _).isTruthy = true
      rw [providerId_replaced, providerId_named written]
      exact providerId_set _
    | _ => trivial

end Stages

section Runs

theorem orElse_set {v : Value} (set : (v.orElse (.string "")).isTruthy = true) : v.isTruthy = true := by
  cases unset : v.isTruthy with
  | true => rfl
  | false =>
    rw [Value.orElse_of_unset unset] at set
    cases set

/-- an accepted status agrees with itself, and with the spec and the status before -/
structure Restated (h : Held) (s s' : MachineStatus) : Prop where
  coherent : s'.Coherent
  lasts : ∀ number, s.vmId = some number → s'.vmId = some number
  mirror : s'.providerId = s.providerId ∨ s.providerId.isTruthy = false ∧
    ∃ number, s'.vmId = some number ∧ s'.providerId = .string (Boot.providerId (.int number))
  reachable : s'.ready = true → s'.vmId ≠ none ∧ h.providerId.isTruthy = true

theorem Restates.restated (table : Restates c st change kept refused) (copy : st.copy? = some m) (copied : Copied S h m)
    (object : h.object = some (.object m.stored)) (founded : Founded c es h st) (agrees : st.Agrees) (stands : Stands h st)
    (up : st.side? ≠ some .down) (coherent : h.Coherent start m.status) : Restated h m.status (change m).status := by
  have status := copied.status object
  have judged {v : ImagePipeline.Verdict} (founded : Founded c es h (.judged m v)) : m.status.vmId = none := by
    obtain ⟨-, _, _, _, _, ⟨_, _, asks⟩, _⟩ := founded
    exact unnumbered coherent.coherent asks.unready
  cases table with
  | enter =>
    obtain rfl := Option.some.inj copy
    exact ⟨coherent_entering coherent.coherent (judged founded) _ _, fun _ => id, .inl rfl, coherent.reachable⟩
  | fail =>
    obtain rfl := Option.some.inj copy
    have unset := judged founded
    obtain ⟨-, _, _, _, _, _, read⟩ := founded
    exact ⟨coherent_failing coherent.coherent unset (ImagePipeline.query_fails read) _ _, fun _ => id, .inl rfl,
      coherent.reachable⟩
  | finish =>
    obtain rfl := Option.some.inj copy
    exact ⟨coherent_finishing coherent.coherent (judged founded), fun _ => id, .inl rfl, coherent.reachable⟩
  | record m number path =>
    obtain rfl := Option.some.inj copy
    have unset : m.status.vmId = none := agrees
    refine ⟨coherent_record coherent.coherent (stands.1 _ status) stands.2 number, ?_, ?_, ?_⟩
    · intro other known
      rw [unset] at known
      cases known
    · by_cases set : m.status.providerId.isTruthy = true
      · exact .inl (Value.orElse_eq_self set)
      · have unset := Bool.eq_false_iff.2 set
        exact .inr ⟨unset, number, rfl, Value.orElse_of_unset unset⟩
    · exact fun ready => absurd unset (coherent.reachable ready).1
  | publish m number addresses found set =>
    obtain rfl := Option.some.inj copy
    refine ⟨coherent_markReady coherent.coherent found set, fun _ => id, .inl rfl, fun _ => ⟨?_, ?_⟩⟩
    · change m.status.vmId ≠ none
      rw [show m.status.vmId = some number from agrees]
      nofun
    · exact stands.resolve_right fun stale => stale.differs _ object copied.copy.version.symm
  | await | forget => exact absurd rfl up

theorem Restated.held (restated : Restated h s s') (coherent : h.Coherent start s) (named : h'.providerId = h.providerId)
    (after : h'.status = some s'.rendered) : h'.Coherent start s'.rendered ∧ h.Persists h' := by
  have rendered : ∀ {v : Value}, (v.orElse (.string "")).isTruthy = true → v.orElse (.string "") = v := fun set =>
    Value.orElse_eq_self (orElse_set set)
  constructor
  · refine ⟨after, restated.coherent.rendered, ?_, ?_, ?_⟩
    · rw [named]
      exact coherent.providerId.imp restated.lasts
    · intro set
      rw [show s'.rendered.providerId = s'.providerId from rendered set]
      rcases restated.mirror with same | ⟨-, recorded⟩
      · rw [same]
        refine (coherent.mirror.imp restated.lasts) ?_
        rw [← same]
        exact orElse_set set
      · exact .inr recorded
    · rw [named]
      exact restated.reachable
  · refine ⟨fun _ => named, fun set => ?_⟩
    rw [Held.mirror_of_status coherent.status] at set ⊢
    rw [Held.mirror_of_status after]
    rcases restated.mirror with same | ⟨unset, -⟩
    · change s'.providerId.orElse (.string "") = _
      rw [same, Value.orElse_eq_self set]
    · rw [unset] at set
      cases set

theorem Deed.coherent (deed : Deed S c st e st') (tracks : Tracks S e.before st) (founded : Founded c es e.before st)
    (agrees : st.Agrees) (stands : Stands e.before st) (up : st.side? ≠ some .down) (alive : ¬e.after.Doomed)
    (coherent : e.before.Coherent start s) : (∃ s', e.after.Coherent start s') ∧ e.before.Persists e.after := by
  cases deed with
  | sent | vain | fetched | reread => exact ⟨⟨s, coherent⟩, .refl _⟩
  | @restated _ _ _ change _ m x v h table copy copied object written =>
    obtain rfl : m.status = s := Option.some.inj ((copied.status object).symm.trans coherent.status)
    have restated := table.restated copy copied object founded agrees stands up coherent
    have after : Held.status ⟨some (Stored.restated v x (.object m.stored)), v :: h.versions⟩ =
        some (change m).status.rendered := by
      rw [Held.status, Option.bind_some, status_restated table copied written]
      rfl
    have named : Held.providerId ⟨some (Stored.restated v x (.object m.stored)), v :: h.versions⟩ = h.providerId := by
      rw [Held.providerId, Held.providerId, object, Option.map_some, Option.map_some, providerId_restated]
    obtain ⟨coherent', persists⟩ := restated.held coherent named after
    exact ⟨⟨_, coherent'⟩, persists⟩
  | @replaced _ _ _ change _ m x v h table copy copied object written =>
    have kept := kept_of_left alive
    have status : Held.status ⟨Scene.left (Stored.replaced v x (.object m.stored)), v :: h.versions⟩ = h.status := by
      rw [Held.status, Held.status, kept, object, Option.bind_some, Option.bind_some, status_replaced]
    have before : h.providerId = Stored.providerId (.object m.stored) := by
      rw [Held.providerId, object]
      rfl
    have after : Held.providerId ⟨Scene.left (Stored.replaced v x (.object m.stored)), v :: h.versions⟩ =
        Stored.providerId x := by
      rw [Held.providerId, kept, Option.map_some, providerId_replaced]
      rfl
    have mirror : h.mirror.isTruthy = true → Held.mirror ⟨Scene.left (Stored.replaced v x (.object m.stored)), v :: h.versions⟩ =
        h.mirror := fun _ => by rw [Held.mirror, status, Held.mirror]
    cases table with
    | hold =>
      obtain rfl := Option.some.inj copy
      have same := after.trans ((providerId_held stands written).trans before.symm)
      refine ⟨⟨s, status.trans coherent.status, coherent.coherent, ?_, coherent.mirror, ?_⟩, fun _ => same, mirror⟩
      · rw [same]
        exact coherent.providerId
      · rw [same]
        exact coherent.reachable
    | name m number known recorded unnamed =>
      obtain rfl := Option.some.inj copy
      have same := after.trans (providerId_named written)
      obtain rfl : m.status = s := Option.some.inj ((copied.status object).symm.trans coherent.status)
      refine ⟨⟨_, status.trans coherent.status, coherent.coherent, ?_, coherent.mirror, ?_⟩, fun set => ?_, mirror⟩
      · exact fun _ => .inr ⟨known, recorded, same⟩
      · rw [same]
        exact fun ready => ⟨(coherent.reachable ready).1, providerId_set _⟩
      · rw [before, ← stands, unnamed] at set
        cases set
    | release | releaseCleared => exact absurd rfl up

structure Coherence (start : Held) (es : List Event) (st : Stage) (h : Held) : Prop where
  agrees : st.Agrees
  up : st.side? ≠ some .down
  stands : Stands h st
  now : ∃ s, h.Coherent start s
  before : ∀ h' ∈ start :: stored es, (∃ s, h'.Coherent start s) ∧ h'.Persists h
  order : (start :: stored es).Pairwise Held.Persists

theorem Held.Coherent.drift (coherent : h.Coherent start s) (respects : S.Respects) (drift : S.Drifts h h') :
    h'.Coherent start s := by
  have named := respects.providerId drift
  exact {
    status := (Held.status_drift drift).trans coherent.status
    coherent := coherent.coherent
    providerId := by rw [named]; exact coherent.providerId
    mirror := coherent.mirror
    reachable := by rw [named]; exact coherent.reachable }

theorem persists_of_drift (respects : S.Respects) (drift : S.Drifts h h') : h.Persists h' :=
  ⟨fun _ => respects.providerId drift, fun _ => by rw [Held.mirror, Held.status_drift drift, Held.mirror]⟩

theorem Coherence.snoc (coherence : Coherence start es st h) (respects : S.Respects) (drift : S.Drifts h e.before)
    (tracks : Tracks S e.before st) {es' : List Event} (founded : Founded c es' e.before st) (deed : Deed S c st e st')
    (fair : e.Fair) (alive : ¬e.before.Doomed) (alive' : ¬e.after.Doomed) : Coherence start (es ++ [e]) st' e.after := by
  have stands := coherence.stands.drift respects drift
  obtain ⟨s, now⟩ := coherence.now
  have now := Held.Coherent.drift now respects drift
  have drifted := persists_of_drift respects drift
  obtain ⟨after, persists⟩ := deed.coherent tracks founded coherence.agrees stands coherence.up alive' now
  have snoc : start :: stored (es ++ [e]) = start :: stored es ++ [e.before] ++ [e.after] := by
    rw [stored_snoc]
    simp
  constructor
  case agrees => exact deed.agrees tracks coherence.agrees
  case up =>
    rcases deed.sided with (rfl | ⟨side, was, is⟩) | ⟨-, -, o, m, object, copy, -, rfl⟩
    · nofun
    · rw [is, ← was]
      exact coherence.up
    · intro down
      refine alive fun o' object' => ?_
      obtain rfl := Option.some.inj (object.symm.trans object')
      exact copy.isBeingDeleted_iff.2 (fetched_down down)
  case stands => exact deed.stands tracks stands fair alive'
  case now => exact after
  case before =>
    rw [snoc]
    refine forall_snoc (forall_snoc (fun h' mem => ?_) ⟨⟨s, now⟩, persists⟩) ⟨after, .refl _⟩
    obtain ⟨coherent, kept⟩ := coherence.before h' mem
    exact ⟨coherent, kept.trans (drifted.trans persists)⟩
  case order =>
    have before : ∀ h' ∈ start :: stored es, h'.Persists e.before := fun h' mem =>
      (coherence.before h' mem).2.trans drifted
    rw [snoc]
    refine pairwise_snoc (pairwise_snoc coherence.order before) (forall_snoc (fun h' mem => ?_) persists)
    exact (before h' mem).trans persists

theorem Coherence.first {v : Value} (empty : start.status = some { providerId := v }) :
    Coherence start [] .start start := by
  have now : start.Coherent start { providerId := v } := {
    status := empty
    coherent := MachineStatus.coherent_empty v
    providerId := fun _ => .inl rfl
    mirror := fun _ => .inl (Held.mirror_of_status empty).symm
    reachable := nofun }
  exact {
    agrees := trivial
    up := nofun
    stands := trivial
    now := ⟨_, now⟩
    before := List.forall_mem_singleton.2 ⟨⟨_, now⟩, .refl _⟩
    order := List.pairwise_singleton .. }

end Runs

/-- every beginning of a run has its coherence, as long as the machine is not to be deleted -/
def Coheres (start : Held) (all : List Event) : Prop :=
  ∀ es, es <+: all → (∀ e ∈ es, e.Fair) → (∀ h ∈ start :: stored es, ¬h.Doomed) → ∃ st h, Coherence start es st h

theorem Coheres.snoc {all : List Event} (coheres : Coheres start all)
    (last : (∀ e' ∈ all ++ [e], e'.Fair) → (∀ h ∈ start :: stored (all ++ [e]), ¬h.Doomed) →
      ∃ st h, Coherence start (all ++ [e]) st h) : Coheres start (all ++ [e]) := by
  intro es fore fair alive
  rcases List.prefix_concat_iff.1 fore with rfl | fore
  · exact last fair alive
  · exact coheres es fore fair alive

/-- in every run of one machine, whatever the appliance and the store answer, with conflicts only over versions that
are out of date, and whatever others change but the status and the provider id: as long as the machine is not to be
deleted, what is stored is coherent, also after others changed it, and no provider id that is stored is changed -/
theorem coherent_until_deleted {past : List Invocation} (respects : S.Respects) (sound : start.Sound S) {v : Value}
    (empty : start.status = some { providerId := v }) (run : Run S start past h) (fair : ∀ e ∈ events past, e.Fair) :
    ∀ es, es <+: events past → (∀ h ∈ start :: stored es, ¬h.Doomed) →
      (∀ h ∈ start :: stored es, ∀ h', S.Drifts h h' → (∃ s, h'.Coherent start s) ∧ h.Persists h') ∧
        (start :: stored es).Pairwise Held.Persists := by
  have encoded : Encoded start := by
    intro s status
    obtain rfl := Option.some.inj (empty.symm.trans status)
    exact ⟨.notStarted, rfl⟩
  -- a prefix may be fair and not to be deleted where the whole run is not, so both are asked for within what is kept
  have kept := run.keeps_founded (P := fun _ => True)
    (J := fun past h => Coheres start (events past) ∧ ((∀ e ∈ events past, e.Fair) →
      (∀ h ∈ start :: stored (events past), ¬h.Doomed) → Coherence start (events past) .start h))
    (I := fun past _ es st h => Coheres start (events past ++ es) ∧ ((∀ e ∈ events past ++ es, e.Fair) →
      (∀ h ∈ start :: stored (events past ++ es), ¬h.Doomed) → Coherence start (events past ++ es) st h))
    sound encoded ?first (fun past c h _ before => by rw [List.append_nil]; exact before) ?step ?ends fun _ _ => trivial
  case first =>
    have first := Coherence.first empty
    refine ⟨fun es fore _ _ => ⟨.start, start, ?_⟩, fun _ _ => first⟩
    rw [List.prefix_nil.1 fore]
    exact first
  case step =>
    rintro past c es st h e st' - ⟨coheres, coherence⟩ drift tracks founded - deed
    rw [← List.append_assoc]
    have last : (∀ e' ∈ events past ++ es ++ [e], e'.Fair) → (∀ h ∈ start :: stored (events past ++ es ++ [e]), ¬h.Doomed) →
        Coherence start (events past ++ es ++ [e]) st' e.after := by
      intro fair alive
      rw [stored_snoc, ← List.cons_append] at alive
      obtain ⟨fair, fair'⟩ := List.forall_mem_append.1 fair
      obtain ⟨alive, alive'⟩ := List.forall_mem_append.1 alive
      exact (coherence fair alive).snoc respects drift tracks founded deed (fair' e (by simp)) (alive' _ (by simp))
        (alive' _ (by simp))
    exact ⟨coheres.snoc fun fair alive => ⟨st', e.after, last fair alive⟩, last⟩
  case ends =>
    rintro past c es st h r - ⟨coheres, coherence⟩
    rw [events_snoc]
    exact ⟨coheres, fun fair alive => { coherence fair alive with agrees := trivial, up := nofun, stands := trivial }⟩
  intro es fore alive
  obtain ⟨st, h, coherence⟩ := kept.1 es fore (fun e mem => fair e (fore.subset mem)) alive
  refine ⟨fun h mem h' drift => ⟨?_, persists_of_drift respects drift⟩, coherence.order⟩
  obtain ⟨⟨s, coherent⟩, -⟩ := coherence.before h mem
  exact ⟨s, Held.Coherent.drift coherent respects drift⟩

/-- others may do all but change the provider id -/
def bystanders : Scene where
  ns := "default"
  name := "worker"
  allows o o' := Stored.wish o' "providerID" = Stored.wish o "providerID"

def publishing : List (Context × List Cue) :=
  Sample.imaging (Sample.ordering 11 ++ [.takes "10", .takes "11", .result .null,
    .numbered 11 [("mac", .string "02:00:00:00:00:01")],
    .result (.array [.object [("l2ident", .object [("id", .string "02:00:00:00:00:01")]),
      ("l3connectivities", .array [.object [("af", .string "ipv4"), ("addr", .string "192.168.1.7")]])]]),
    .takes "12"])

def alive (h : Held) : Bool := h.object.any fun o => !(Stored.deletion o).isTruthy

theorem not_doomed_of_alive (there : alive h = true) : ¬h.Doomed := by
  intro doomed
  obtain ⟨o, object, kept⟩ := (Option.any_eq_true ..).1 there
  rw [doomed o object] at kept
  cases kept

/-- a machine comes up, and its readiness rests on its number and provider id -/
theorem coherent_until_deleted_publishing : bystanders.Respects ∧ Sample.held.Sound bystanders ∧
    Sample.held.status = some { providerId := .string "" } ∧ ∃ past h, Run bystanders Sample.held past h ∧
      (∀ e ∈ events past, e.Fair) ∧ (∀ h ∈ Sample.held :: stored (events past), ¬h.Doomed) ∧
      (∃ h ∈ Sample.held :: stored (events past), ∃ s, h.status = some s ∧ s.ready = true ∧ h.Coherent Sample.held s) ∧
      (Sample.held :: stored (events past)).Pairwise Held.Persists := by
  have respects : bystanders.Respects := fun _ _ same => same
  have sound : Sample.held.Sound bystanders := Sample.sound _
  have empty : Sample.held.status = some { providerId := .string "" } := by decide +kernel
  refine ⟨respects, sound, empty, ?_⟩
  obtain ⟨past, h, run, seen⟩ := bystanders.exists_run Sample.held publishing
    (fun r => (events r.1).all (fun e => !e.said.refusedWith 409) &&
      (Sample.held :: stored (events r.1)).all alive &&
      (stored (events r.1)).any fun h => h.status.any (·.ready)) (by decide +kernel)
  simp only [Bool.and_eq_true, List.all_eq_true, List.any_eq_true, Bool.not_eq_true'] at seen
  obtain ⟨⟨quiet, there⟩, h', mem, ready⟩ := seen
  have fair : ∀ e ∈ events past, e.Fair := by
    intro e mem refused
    rw [quiet e mem] at refused
    cases refused
  have alive : ∀ h ∈ Sample.held :: stored (events past), ¬h.Doomed := fun h mem => not_doomed_of_alive (there h mem)
  obtain ⟨coherent, order⟩ := coherent_until_deleted respects sound empty run fair _ (List.prefix_refl _) alive
  have mem := List.mem_cons_of_mem Sample.held mem
  obtain ⟨⟨s, coherent⟩, -⟩ := coherent h' mem h' .still
  rw [coherent.status] at ready
  exact ⟨past, h, run, fair, alive, ⟨h', mem, s, coherent.status, ready, coherent⟩, order⟩

end Reconcile

end VmOperator
