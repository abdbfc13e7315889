import VmOperator.Proofs.Rehearsal
import VmOperator.Proofs.Reconcile.Effects

/-! The finalizer goes last. A machine that is being deleted forgets its virtual machine only once the appliance
deleted it or does not know it, and loses its finalizer only after that and after its disk was removed. -/

namespace VmOperator

def Machine.others (fs : List Value) : List Value := fs.filter (· ≠ finalizerValue)

namespace Held

/-- the finalizers are these, with the machine's own or without it; the object goes only with the last of them -/
structure Remains (fs : List Value) (h : Held) : Prop where
  kept : ∀ o, h.object = some o → Stored.finalizers o = .ok fs ∨ Stored.finalizers o = .ok (Machine.others fs)
  released : h.object = none → Machine.others fs = []

end Held

namespace Event

def Releases (e : Event) : Prop := e.before.Armed ∧ ¬e.after.Armed

/-- the appliance does not know the virtual machine -/
def Misses (number : Int) (e : Event) : Prop :=
  ∃ s reply f, e.said = .sent ⟨.get, Appliance.vmPath (.int number), .none⟩ reply ∧
    (Appliance.vmQuery s (.int number)).read reply = .error (.fault (.appliance f)) ∧ f.notFound = .ok true

def Deletes (number : Int) (e : Event) : Prop :=
  ∃ reply v, e.said = .sent ⟨.delete, Appliance.vmPath (.int number), .none⟩ reply ∧ Appliance.resultOf reply = some v

def Removes (path : String) (e : Event) : Prop :=
  ∃ reply v task, e.said = .sent ⟨.post, "/fs/rm/", .json [("files", .array [.string (Appliance.encodePath path),
      .string (Appliance.encodePath (path ++ Teardown.efiSuffix))])]⟩ reply ∧
    Appliance.resultOf reply = some v ∧ Appliance.FileTask.ofResult v = .ok task

def CallsVm (e : Event) : Prop := ∃ method path, e.route? = some (method, path) ∧ "/vm/".toList <+: path.toList

/-- where the finalizer goes, no virtual machine is stored and the stored disk was removed before -/
def ReleasesLast (e : Event) (before : List Event) : Prop :=
  e.Releases → ∃ s, e.before.status = some s ∧ s.vmId = none ∧
    (s.diskPath.isTruthy = true → ∃ path, s.diskPath = .string path ∧ ∃ e' ∈ before, e'.Removes path)

/-- where the number of a virtual machine goes, the virtual machine was gone before -/
def ForgetsGone (e : Event) (before : List Event) : Prop :=
  ∀ number, e.before.vmId = some number → e.after.vmId ≠ some number →
    ∃ e' ∈ before, e'.Misses number ∨ e'.Deletes number

end Event

namespace Scene

/-- others leave the finalizers and the mark for deletion alone -/
structure Spares (S : Scene) : Prop where
  finalizers : ∀ o o', S.allows o o' → Stored.finalizers o' = Stored.finalizers o
  deletion : ∀ o o', S.allows o o' → Stored.deletion o' = Stored.deletion o

variable {S : Scene} {h h' : Held}

theorem Spares.preserves (spares : S.Spares) : S.Preserves where
  deletion o o' allowed set := by rwa [spares.deletion o o' allowed]
  finalizer o o' allowed holds := by rwa [Stored.Holds, spares.finalizers o o' allowed]

theorem Spares.remains {fs : List Value} (spares : S.Spares) (drift : S.Drifts h h') (remains : h.Remains fs) : h'.Remains fs := by
  refine ⟨?_, fun gone => remains.released ?_⟩
  · exact drift.keeps (P := fun o => Stored.finalizers o = .ok fs ∨ Stored.finalizers o = .ok (Machine.others fs))
      (fun o o' edit kept => by rwa [spares.finalizers o o' edit.allowed]) remains.kept
  · rw [← Option.isNone_iff_eq_none, ← Option.not_isSome] at gone ⊢
    rwa [← drift.isSome]

end Scene

namespace Reconcile

variable {S : Scene} {c : Context} {st st' : Stage} {e : Event} {es : List Event} {past : List Invocation}
  {h h' start : Held} {m : Machine} {fs : List Value}

/-- what was answered before a stage that takes the machine down -/
def Grounds (es : List Event) : Stage → Prop
  | .forgetting m => ∃ number, m.status.vmId = some number ∧ ∃ e ∈ es, e.Misses number ∨ e.Deletes number
  | .cleared m => ∃ path, m.status.diskPath = .string path ∧ ∃ e ∈ es, e.Removes path
  | _ => True

theorem Grounds.snoc (grounds : Grounds es st) : Grounds (es ++ [e]) st := by
  cases st with
  | forgetting =>
    obtain ⟨number, stored, e', mem, gone⟩ := grounds
    exact ⟨number, stored, e', List.mem_append_left _ mem, gone⟩
  | cleared =>
    obtain ⟨path, stored, e', mem, removes⟩ := grounds
    exact ⟨path, stored, e', List.mem_append_left _ mem, removes⟩
  | _ => trivial

theorem grounds_recorded (m : Machine) (number : Int) : Grounds es (.recorded m number) :=
  Stage.recorded_cases (fun _ => trivial) fun _ => trivial

theorem grounds_booting (m : Machine) : Grounds es (.booting m) :=
  Stage.booting_cases (fun number _ => grounds_recorded m number) fun _ => trivial

theorem grounds_provisioning (m : Machine) : Grounds es (.provisioning m) :=
  Stage.provisioning_cases (fun _ => grounds_booting m) fun _ => trivial

theorem grounds_fetched (m : Machine) : Grounds es (.fetched m) :=
  Stage.fetched_cases trivial (fun _ _ _ => trivial) (fun _ _ => trivial) (fun _ _ => grounds_provisioning m)
    fun _ _ => trivial

theorem Deed.grounds (deed : Deed S c st e st') (agrees : st.Agrees) (grounds : Grounds es st) : Grounds (es ++ [e]) st' := by
  have last : e ∈ es ++ [e] := List.mem_append_right _ (List.mem_singleton.2 rfl)
  cases deed with
  | sent table written reply h =>
    cases table with
    | look m number =>
      obtain rfl := Except.ok.inj written
      refine Stage.lookedFor_cases trivial (fun f read missing => ?_) trivial
      exact ⟨number, agrees, _, last, .inl ⟨c.settings, reply, f, rfl, read, missing⟩⟩
    | delete m number =>
      obtain rfl := Except.ok.inj written
      refine Stage.heard_cases (fun _ read => ?_) trivial
      obtain ⟨v, result, -⟩ := (Appliance.query_read c.settings).1 read
      exact ⟨number, agrees, _, last, .inr ⟨reply, v, rfl, result⟩⟩
    | remove m path used disk =>
      obtain rfl := Except.ok.inj written
      refine Stage.heard_cases (fun task read => ?_) trivial
      obtain ⟨v, result, read⟩ := (Appliance.query_read c.settings).1 read
      exact ⟨path, disk, _, last, reply, v, task, rfl, result, read⟩
    | kill => trivial
    | _ => exact Stage.heard_cases (fun _ _ => trivial) trivial
  | vain stays =>
    cases stays with
    | ended | named => trivial
    | same => exact grounds.snoc
  | fetched _ next => exact next.cases trivial fun m _ => grounds_fetched m
  | reread _ next => exact next.cases trivial fun _ _ => trivial
  | restated table _ _ _ _ _ _ next =>
    refine next.cases trivial fun m _ => ?_
    cases table with
    | finish => exact grounds_booting m
    | record _ number => exact grounds_recorded m number
    | _ => trivial
  | replaced table _ _ _ _ _ _ next =>
    refine next.cases trivial fun m _ => ?_
    cases table with
    | hold => exact grounds_provisioning m
    | _ => trivial

/-- of a machine that is taken down only the finalizer is written beside the status -/
theorem Replaces.releases {change : Machine → Machine} {kept : Machine → Stage} {refused : Stage}
    (table : Replaces st change kept refused) (side : st.side? ≠ some .up) (copy : st.copy? = some m) :
    change = dropFinalizer ∧ (st = .gone m ∧ m.status.diskPath.isTruthy = false ∨ st = .cleared m) := by
  cases table with
  | hold | name => exact absurd rfl side
  | release m bare =>
    obtain rfl := Option.some.inj copy
    exact ⟨rfl, .inl ⟨rfl, bare⟩⟩
  | releaseCleared =>
    obtain rfl := Option.some.inj copy
    exact ⟨rfl, .inr rfl⟩

theorem Deed.releases (deed : Deed S c st e st') (side : st.side? ≠ some .up) (releases : e.Releases) :
    ∃ m, e.before.status = some m.status ∧ (st = .gone m ∧ m.status.diskPath.isTruthy = false ∨ st = .cleared m) := by
  cases deed with
  | sent | vain | fetched | reread => exact absurd releases.1 releases.2
  | restated _ _ _ object =>
    obtain ⟨⟨o, ho, holds⟩, bare⟩ := releases
    obtain rfl := Option.some.inj (object.symm.trans ho)
    refine absurd ⟨_, rfl, ?_⟩ bare
    rw [Stored.Holds, Stored.finalizers_restated]
    exact holds
  | @replaced _ _ _ _ _ m _ _ _ table copy copied object =>
    exact ⟨m, copied.status object, (table.releases side copy).2⟩

theorem others_others (fs : List Value) : Machine.others (Machine.others fs) = Machine.others fs := by
  simp [Machine.others]

theorem Deed.remains (deed : Deed S c st e st') (side : st.side? ≠ some .up) (remains : e.before.Remains fs) :
    e.after.Remains fs := by
  cases deed with
  | sent | vain | fetched | reread => exact remains
  | restated _ _ _ object =>
    refine ⟨fun o ho => ?_, fun gone => by cases gone⟩
    obtain rfl := Option.some.inj ho
    rw [Stored.finalizers_restated]
    exact remains.kept _ object
  | @replaced _ _ _ change _ m x v h table copy copied object written set =>
    obtain ⟨rfl, -⟩ := table.releases side copy
    have bare : Stored.finalizers (Stored.replaced v x (.object m.stored)) = .ok (Machine.others fs) := by
      have same : m.finalizers = fs ∨ m.finalizers = Machine.others fs :=
        (remains.kept _ object).imp (fun kept => Except.ok.inj (copied.copy.finalizers.symm.trans kept))
          fun kept => Except.ok.inj (copied.copy.finalizers.symm.trans kept)
      rw [Stored.finalizers_replaced, written.finalizers]
      change Except.ok (Machine.others m.finalizers) = _
      rcases same with same | same <;> rw [same]
      rw [others_others]
    dsimp only
    by_cases released : Bench.Table.isReleased (Stored.replaced v x (.object m.stored)) = true
    · have none := Stored.finalizers_of_released (Stored.shaped_replaced written.shaped set _) released
      rw [Scene.left, if_pos released]
      exact ⟨fun o ho => (by cases ho), fun _ => Except.ok.inj (bare.symm.trans none)⟩
    · rw [Scene.left, if_neg released]
      refine ⟨fun o ho => ?_, fun gone => by cases gone⟩
      obtain rfl := Option.some.inj ho
      exact .inr bare

def Stage.Quiet : Stage → Prop
  | .start | .gone _ | .cleared _ | .ended => True
  | _ => False

theorem quiet_fetched (deleted : m.isBeingDeleted = true) (unset : m.status.vmId = none) : (Stage.fetched m).Quiet :=
  Stage.fetched_cases trivial (fun _ _ known => by cases unset.symm.trans known) (fun _ _ => trivial)
    (fun kept => by cases deleted.symm.trans kept) fun kept => by cases deleted.symm.trans kept

theorem Deed.quiet (deed : Deed S c st e st') (tracks : Tracks S e.before st) (doomed : e.before.Doomed)
    (unset : e.before.vmId = none) (quiet : st.Quiet) : st'.Quiet ∧ ¬e.CallsVm := by
  have silent (call : e.route? = none) : ¬e.CallsVm := by
    rintro ⟨method, path, route, -⟩
    cases call.symm.trans route
  cases deed with
  | sent table written reply =>
    cases table with
    | remove =>
      obtain rfl := Except.ok.inj written
      refine ⟨Stage.heard_cases (fun _ _ => trivial) trivial, ?_⟩
      · rintro ⟨method, path, route, under⟩
        cases route
        change "/vm/".toList <+: "/fs/rm/".toList at under
        exact absurd under (by decide)
    | _ => exact quiet.elim
  | vain stays =>
    refine ⟨?_, silent rfl⟩
    cases stays with
    | ended => trivial
    | same => exact quiet
    | named => exact quiet.elim
  | fetched object next =>
    refine ⟨?_, silent rfl⟩
    refine next.cases trivial fun m copy => ?_
    have status := (copied_of_copyOf tracks.sound object copy).status object
    exact quiet_fetched (copy.isBeingDeleted_iff.1 (doomed _ object)) ((vmId_of_status status).symm.trans unset)
  | reread => exact quiet.elim
  | restated table => cases table <;> exact quiet.elim
  | replaced table _ _ _ _ _ _ next =>
    refine ⟨?_, silent rfl⟩
    cases table with
    | hold | name => exact quiet.elim
    | release | releaseCleared => exact next.cases trivial fun _ _ => trivial

/-- where a machine that is taken down loses its number, it was to forget it -/
theorem Deed.forgets (deed : Deed S c st e st') (agrees : st.Agrees) (side : st.side? ≠ some .up) :
    e.after.vmId = e.before.vmId ∨
      e.after.vmId = none ∧ ∃ m, st = .forgetting m ∧ e.before.vmId = m.status.vmId ∧ (st' = .ended ∨ ∃ m', st' = .gone m') := by
  cases deed.impact with
  | same status => exact .inl (by rw [Held.vmId, status, Held.vmId])
  | released table copy copied object _ gone =>
    have after : e.after.vmId = none := by rw [Held.vmId, Held.status, gone]; rfl
    refine .inl (after.trans (Eq.symm ((vmId_of_status (copied.status object)).trans ?_)))
    rcases (table.releases side copy).2 with ⟨rfl, -⟩ | rfl <;> exact agrees
  | restated table copy before after accepted next =>
    have before := vmId_of_status before
    have after := vmId_of_status after
    cases table with
    | enter | fail | finish | record | publish => exact absurd rfl side
    | await m =>
      obtain rfl := Option.some.inj copy
      exact .inl (after.trans before.symm)
    | forget m =>
      obtain rfl := Option.some.inj copy
      exact .inr ⟨after, m, rfl, before, next⟩

/-- why the finalizer and the number may go when they go -/
def Event.Warranted (e : Event) (before : List Event) : Prop := e.ReleasesLast before ∧ e.ForgetsGone before

/-- a machine that is taken down, as far as a run of it went -/
structure Dismantled (fs : List Value) (past : List Invocation) (es : List Event) (st : Stage) (h : Held) : Prop where
  doomed : h.Doomed
  side : st.side? ≠ some .up
  agrees : st.Agrees
  grounds : Grounds es st
  remains : h.Remains fs
  quiet : (∃ e ∈ events past ++ es, e.Clears) → h.vmId = none ∧ st.Quiet
  closed : (events past ++ es).Pairwise fun e e' => e.Clears → ¬e'.CallsVm
  kept : ∀ e ∈ events past ++ es, e.before.Remains fs ∧ e.after.Remains fs
  warranted : Preceded Event.Warranted es
  past : ∀ i ∈ past, Preceded Event.Warranted i.events

theorem Dismantled.drift (dismantled : Dismantled fs past es st h) (spares : S.Spares) (drift : S.Drifts h h') :
    Dismantled fs past es st h' := by
  have same : h'.vmId = h.vmId := by rw [Held.vmId, Held.status_drift drift, Held.vmId]
  refine { dismantled with
    doomed := spares.preserves.doomed drift dismantled.doomed
    remains := spares.remains drift dismantled.remains
    quiet := fun cleared => ?_ }
  rw [same]
  exact dismantled.quiet cleared

theorem Dismantled.warranted_last (dismantled : Dismantled fs past es st e.before) (deed : Deed S c st e st') :
    Event.Warranted e es := by
  constructor
  · intro releases
    obtain ⟨m, status, stage⟩ := deed.releases dismantled.side releases
    have agrees := dismantled.agrees
    have grounds := dismantled.grounds
    rcases stage with ⟨rfl, bare⟩ | rfl
    · exact ⟨m.status, status, agrees, fun used => absurd (bare.symm.trans used) nofun⟩
    · exact ⟨m.status, status, agrees, fun _ => grounds⟩
  · intro number before after
    have grounds := dismantled.grounds
    rcases deed.forgets dismantled.agrees dismantled.side with same | ⟨-, m, rfl, stored, -⟩
    · exact absurd (same.trans before) after
    · obtain ⟨number', known, gone⟩ := grounds
      obtain rfl := Option.some.inj (before.symm.trans (stored.trans known))
      exact gone

theorem Dismantled.snoc (dismantled : Dismantled fs past es st e.before) (deed : Deed S c st e st')
    (tracks : Tracks S e.before st) : Dismantled fs past (es ++ [e]) st' e.after := by
  have remains := deed.remains dismantled.side dismantled.remains
  constructor
  case doomed => exact deed.doomed dismantled.doomed
  case side => exact deed.not_up dismantled.doomed dismantled.side
  case agrees => exact deed.agrees tracks dismantled.agrees
  case grounds => exact deed.grounds dismantled.agrees dismantled.grounds
  case remains => exact remains
  case warranted => exact dismantled.warranted.snoc (dismantled.warranted_last deed)
  case past => exact dismantled.past
  all_goals rw [← List.append_assoc]
  case quiet =>
    intro cleared
    rcases exists_of_snoc cleared with old | clears
    · obtain ⟨unset, quiet⟩ := dismantled.quiet old
      refine ⟨?_, (deed.quiet tracks dismantled.doomed unset quiet).1⟩
      rcases deed.forgets dismantled.agrees dismantled.side with same | ⟨after, -⟩
      · exact same.trans unset
      · exact after
    · obtain ⟨number, before, after⟩ := clears
      rcases deed.forgets dismantled.agrees dismantled.side with same | ⟨unset, m, -, -, next⟩
      · exact absurd (same.trans before) after
      · exact ⟨unset, by rcases next with rfl | ⟨m', rfl⟩ <;> trivial⟩
  case closed =>
    apply pairwise_snoc dismantled.closed
    intro e' mem clears
    obtain ⟨unset, quiet⟩ := dismantled.quiet ⟨e', mem, clears⟩
    exact (deed.quiet tracks dismantled.doomed unset quiet).2
  case kept => exact forall_snoc dismantled.kept ⟨dismantled.remains, remains⟩

/-- in every run of a machine that is marked for deletion, whatever the appliance and the store answer and
others write beside the status, the finalizers and the mark: the finalizer goes only where no virtual machine
is stored and after the stored disk was removed; the number of a virtual machine goes only after the appliance
deleted it or did not know it, and nothing is asked of virtual machines after that; the finalizers of others
stay, in order -/
theorem finalizer_last {o : Value} (spares : S.Spares) (sound : start.Sound S) (object : start.object = some o)
    (deleted : (Stored.deletion o).isTruthy = true) (finalizers : Stored.finalizers o = .ok fs) (run : Run S start past h) :
    (∀ i ∈ past, Preceded (fun e before => e.ReleasesLast before ∧ e.ForgetsGone before) i.events) ∧
      ((events past).Pairwise fun e e' => e.Clears → ¬e'.CallsVm) ∧
      (∀ e ∈ events past, e.before.Remains fs ∧ e.after.Remains fs) ∧ h.Remains fs := by
  have first : Dismantled fs [] [] .start start := by
    have same {o' : Value} (ho : start.object = some o') : o' = o := Option.some.inj (ho.symm.trans object)
    refine ⟨fun o' ho => ?_, nofun, trivial, trivial, ⟨fun o' ho => .inl ?_, fun gone => ?_⟩, ?_, .nil, ?_, .nil, ?_⟩
    · rwa [same ho]
    · rwa [same ho]
    · cases gone.symm.trans object
    all_goals simp [events]
  have kept := run.keeps (P := fun _ => True) (J := fun past h => Dismantled fs past [] .start h)
    (I := fun past _ es st h => Dismantled fs past es st h) sound first (fun _ _ _ _ dismantled => dismantled)
    (fun past c es st h e st' _ dismantled drift tracks deed => (dismantled.drift spares drift).snoc deed tracks)
    ?ends fun _ _ => trivial
  case ends =>
    intro past c es st h r _ dismantled
    constructor
    all_goals try rw [events_snoc, List.append_nil]
    case doomed => exact dismantled.doomed
    case side => nofun
    case agrees | grounds => trivial
    case remains => exact dismantled.remains
    case quiet => exact fun cleared => ⟨(dismantled.quiet cleared).1, trivial⟩
    case closed => exact dismantled.closed
    case kept => exact dismantled.kept
    case warranted => exact .nil
    case past => exact forall_snoc dismantled.past dismantled.warranted
  obtain ⟨-, dismantled⟩ := kept
  have closed := dismantled.closed
  have all := dismantled.kept
  rw [List.append_nil] at closed all
  exact ⟨dismantled.past, closed, all, dismantled.remains⟩

def respectful : Scene where
  ns := "default"
  name := "worker"
  allows o o' := Stored.finalizers o' = Stored.finalizers o ∧ Stored.deletion o' = Stored.deletion o

/-- a machine with a virtual machine and a disk that is marked for deletion -/
def retired : Value := .object [
  ("metadata", .object [("namespace", .string "default"), ("name", .string "worker"), ("resourceVersion", .string "1"),
    ("deletionTimestamp", .string "2024-01-01T00:00:00Z"),
    ("finalizers", .array [Machine.finalizerValue, .string "backup"])]),
  ("status", .object [("vmId", .int 12), ("diskPath", .string "/disks/worker.raw")])]

/-- the virtual machine is stopped, then it and the disk are deleted; the first release is lost -/
def retiring : List (Context × List Cue) := [
  (Sample.context, [.gives, .numbered 12 [("status", .string "running")], .result .null, .takes "2"]),
  (Sample.context, [.gives, .numbered 12 [("status", .string "stopped")], .result .null, .takes "3", .numbered 13,
    .refusal (.int 409) .null]),
  (Sample.context, [.gives, .numbered 14, .takes "4"])]

/-- a whole run that takes a machine down -/
theorem finalizer_last_retiring : respectful.Spares ∧ (Stored.deletion retired).isTruthy = true ∧
    Stored.finalizers retired = .ok [Machine.finalizerValue, .string "backup"] ∧
    ∃ past h, Run respectful ⟨some retired, [.string "1"]⟩ past h ∧
      (past.length = 3 ∧ h.status.map (·.vmId) = some none ∧
        (h.object.bind fun o => (Stored.finalizers o).toOption) = some [.string "backup"]) ∧
      (∀ i ∈ past, Preceded (fun e before => e.ReleasesLast before ∧ e.ForgetsGone before) i.events) ∧
      ((events past).Pairwise fun e e' => e.Clears → ¬e'.CallsVm) ∧
      h.Remains [Machine.finalizerValue, .string "backup"] := by
  have spares : respectful.Spares := ⟨fun _ _ same => same.1, fun _ _ same => same.2⟩
  have deleted : (Stored.deletion retired).isTruthy = true := by decide +kernel
  have finalizers : Stored.finalizers retired = .ok [Machine.finalizerValue, .string "backup"] := by rfl
  have sound : Held.Sound respectful ⟨some retired, [.string "1"]⟩ := Held.sound_single ⟨rfl, rfl, rfl, rfl, rfl⟩
  refine ⟨spares, deleted, finalizers, ?_⟩
  obtain ⟨past, h, run, seen⟩ := respectful.exists_run ⟨some retired, [.string "1"]⟩ retiring
    (fun r => decide (r.1.length = 3 ∧ r.2.status.map (·.vmId) = some none ∧
      (r.2.object.bind fun o => (Stored.finalizers o).toOption) = some [.string "backup"])) (by decide +kernel)
  obtain ⟨warranted, closed, -, remains⟩ := finalizer_last spares sound rfl deleted finalizers run
  exact ⟨past, h, run, of_decide_eq_true seen, warranted, closed, remains⟩

end Reconcile

end VmOperator
