import VmOperator.Proofs.Reconcile.OrderRecord
import VmOperator.Proofs.Rehearsal

/-! A machine gets one virtual machine. Its number is stored once and never changed; no virtual machine is
ordered after that, and none is started whose number is not stored. Only a lost write leaves an ordered
virtual machine without a record, and each such loss allows for one more order. -/

namespace VmOperator

namespace Event

def starts (e : Event) : Bool :=
  match e.said with
  | .sent r _ => r.method = .post && "/start".toList.isSuffixOf r.path.toList
  | .called .. => false

/-- the number is stored before or after the event -/
def Knows (e : Event) (number : Int) : Prop := e.before.vmId = some number ∨ e.after.vmId = some number

/-- after a number is stored: no orders, no other number, and none at all once it is cleared -/
def Lasting (e e' : Event) : Prop :=
  (∀ number, e.Knows number → e'.orders = false ∧ ∀ other, e'.Knows other → other = number) ∧
    (e.Clears → ∀ other, ¬e'.Knows other)

/-- orders and starts go by the stored number -/
def Guarded (e : Event) : Prop :=
  (e.orders = true → e.before.vmId = none) ∧ (e.starts = true →
    ∃ number, e.before.vmId = some number ∧ e.route? = some (.post, Appliance.vmPath (.int number) ++ "/start"))

end Event

namespace Reconcile

variable {S : Scene} {c : Context} {st st' : Stage} {e : Event}

/-- only a machine without a recorded number is ordered for -/
theorem Deed.orders (deed : Deed S c st e st') (h : e.orders = true) :
    ∃ m path, st = .ordering m ∧ e.after = e.before ∧ st' = e.created?.elim .ended (.created m · path) := by
  obtain ⟨m, path, text, r, reply, rfl, orders, same, rfl⟩ := deed.ordering h
  refine ⟨m, path, rfl, same, ?_⟩
  rw [Event.created?_eq orders.written orders.said, Stage.heard]
  cases (Appliance.createQuery c.settings (Boot.order m path text)).read reply <;> rfl

theorem Deed.starts (deed : Deed S c st e st') (h : e.starts = true) :
    ∃ m number, st = .running m number ∧ e.route? = some (.post, Appliance.vmPath (.int number) ++ "/start") := by
  cases deed with
  | vain | fetched | reread | restated | replaced => cases h
  | @sent _ _ r _ table written reply held =>
    obtain ⟨post, suffix⟩ : r.method = .post ∧ "/start".toList.isSuffixOf r.path.toList = true := by
      simpa [Event.starts] using h
    have away : ∀ {method : Appliance.Method} {p : String}, r.method = method ∧ r.path = p →
        method = .post ∧ "/start".toList.isSuffixOf p.toList = true :=
      fun routed => ⟨routed.1.symm.trans post, by rw [← routed.2]; exact suffix⟩
    cases table with
    | start m number =>
      obtain ⟨method, path⟩ := Appliance.method_path_of_written written
      exact ⟨m, number, rfl, congrArg some (Prod.ext method path)⟩
    | image m name p =>
      have submission := ImagePipeline.submission_of_post (ImagePipeline.query_route c m written) post
      exact absurd suffix ((by decide : ∀ path ∈ ImagePipeline.submissionPaths,
        ¬"/start".toList.isSuffixOf path.toList = true) _ submission)
    | kill =>
      obtain ⟨front, ends⟩ := List.isSuffixOf_iff_suffix.1 (away (Appliance.method_path_of_written written)).2
      have last := congrArg List.getLast? ends
      rw [String.toList_append, List.getLast?_append, List.getLast?_append] at last
      cases last
    | create | remove => exact absurd (away (Appliance.method_path_of_written written)).2 (by decide)
    | ask | hosts | look | delete => cases (away (Appliance.method_path_of_written written)).1

/-- an ordered virtual machine waits for its record -/
def Stage.Waits : Stage → Prop
  | .created .. | .ended => True
  | _ => False

theorem Deed.waits (deed : Deed S c st e st') (waits : st.Waits) :
    st'.Waits ∧ e.acceptsStatus = false ∨ e.acceptsStatus = true ∧
      ∃ m number path, st = .created m number path ∧ e.after.vmId = some number := by
  cases deed with
  | sent table => cases table <;> exact waits.elim
  | vain stays idle held =>
    have quiet := Event.acceptsStatus_of_idle idle held held
    cases stays with
    | ended => exact .inl ⟨trivial, quiet⟩
    | same => exact .inl ⟨waits, quiet⟩
    | named => exact waits.elim
  | fetched => exact waits.elim
  | reread _ next =>
    rcases next with rfl | ⟨m, -, rfl⟩
    · exact .inl ⟨trivial, rfl⟩
    · exact .inl ⟨trivial, rfl⟩
  | restated table copy copied object written =>
    cases table with
    | record m number path =>
      refine .inr ⟨rfl, m, number, path, rfl, ?_⟩
      obtain rfl := Option.some.inj copy
      rw [Held.vmId, Held.status, Option.bind_some, status_restated (.record m number path) copied written]
      rfl
    | _ => exact waits.elim
  | replaced table => cases table <;> exact waits.elim

/-- the number is still stored, or it was cleared for good -/
def Lasts (number : Int) (st : Stage) (h : Held) : Prop :=
  h.vmId = some number ∨ h.vmId = none ∧ h.Doomed ∧ st.side? ≠ some .up

theorem Deed.lasts {number : Int} (deed : Deed S c st e st') (renumbers : Renumbers st e)
    (down : st.side? = some .down → e.before.Doomed) (lasts : Lasts number st e.before) :
    Lasts number st' e.after := by
  cases renumbers with
  | same same =>
    rcases lasts with stored | ⟨unset, doomed, side⟩
    · exact .inl (same.trans stored)
    · exact .inr ⟨same.trans unset, deed.doomed doomed, deed.not_up doomed side⟩
  | recorded m _ path stage before =>
    rcases lasts with stored | ⟨-, -, side⟩
    · rw [before] at stored
      cases stored
    · exact absurd (by rw [stage]; rfl) side
  | forgotten m stage _ after =>
    have doomed := down (by rw [stage]; rfl)
    exact .inr ⟨after, deed.doomed doomed, deed.not_up doomed (by rw [stage]; nofun)⟩

theorem Tracks.vmId {h : Held} {m : Machine} (tracks : Tracks S h st) (copy : st.copy? = some m) :
    h.vmId = m.status.vmId ∨ h.object = none := by
  cases object : h.object with
  | none => exact .inr rfl
  | some o => exact .inl (vmId_of_status ((tracks.copied m copy).status object))

theorem vmId_of_absent {h : Held} (absent : h.object = none) : h.vmId = none := by
  rw [Held.vmId, Held.status, absent]
  rfl

/-- what the events of a run and the rest of it agree on: the number is one, and every order but one was lost -/
structure Identity (S : Scene) (past : List Invocation) (es : List Event) (st : Stage) (h : Held) : Prop where
  agrees : st.Agrees
  begun : st = .start → es = []
  armed : st.side? = some .up → (∃ m, st = .bare m) ∨ h.Armed
  down : st.side? = some .down → h.Doomed ∧ Tears S es
  lasts : ∀ e ∈ events past ++ es, ∀ number, e.Knows number → Lasts number st h
  cleared : ∀ e ∈ events past ++ es, e.Clears → h.vmId = none
  lasting : (events past ++ es).Pairwise Event.Lasting
  guarded : ∀ e ∈ events past ++ es, e.Guarded
  torn : ∀ e ∈ es, e.Clears → e.after.vmId = none ∧ Tears S es
  waits : unsaved Event.creates es = true → st.Waits
  counted : Counted Event.creates past es (∃ e ∈ events past ++ es, ∃ number, e.Knows number)

variable {past : List Invocation} {es : List Event} {h h' : Held}

theorem Identity.drift (identity : Identity S past es st h) (preserves : S.Preserves) (drift : S.Drifts h h') :
    Identity S past es st h' := by
  have same : h'.vmId = h.vmId := by rw [Held.vmId, Held.status_drift drift, Held.vmId]
  refine { identity with
    armed := fun up => (identity.armed up).imp_right (preserves.armed drift)
    down := fun side => ⟨preserves.doomed drift (identity.down side).1, (identity.down side).2⟩
    lasts := fun e he number knows => ?_
    cleared := fun e he clears => same.trans (identity.cleared e he clears) }
  rcases identity.lasts e he number knows with stored | ⟨unset, doomed, side⟩
  · exact .inl (same.trans stored)
  · exact .inr ⟨same.trans unset, preserves.doomed drift doomed, side⟩

/-- the number of any two events is one, whichever knows it first -/
theorem Identity.lasting_snoc (identity : Identity S past es st e.before) (tracks : Tracks S e.before st)
    (deed : Deed S c st e st') (renumbers : Renumbers st e) {e' : Event} (mem : e' ∈ events past ++ es) :
    e'.Lasting e := by
  refine ⟨fun number knows => ⟨?_, fun other known => ?_⟩, fun clears other known => ?_⟩
  · cases orders : e.orders with
    | false => rfl
    | true =>
      obtain ⟨m, path, rfl, -⟩ := deed.orders orders
      have unset : e.before.vmId = none := by
        rcases tracks.vmId rfl with same | absent
        · exact same.trans identity.agrees
        · exact vmId_of_absent absent
      rcases identity.lasts e' mem number knows with stored | ⟨-, -, side⟩
      · rw [unset] at stored
        cases stored
      · exact absurd rfl side
  · have before := identity.lasts e' mem number knows
    have after := deed.lasts renumbers (fun side => (identity.down side).1) before
    rcases known with known | known
    · rcases before with stored | ⟨unset, -⟩
      · exact Option.some.inj (known.symm.trans stored)
      · rw [unset] at known
        cases known
    · rcases after with stored | ⟨unset, -⟩
      · exact Option.some.inj (known.symm.trans stored)
      · rw [unset] at known
        cases known
  · have unset := identity.cleared e' mem clears
    obtain ⟨number, knows, -⟩ := clears
    rcases known with known | known
    · rw [unset] at known
      cases known
    · cases renumbers with
      | same same =>
        rw [same, unset] at known
        cases known
      | recorded m _ path stage =>
        rcases identity.lasts e' mem number (.inl knows) with stored | ⟨-, -, side⟩
        · rw [unset] at stored
          cases stored
        · exact side (by rw [stage]; rfl)
      | forgotten m stage _ after =>
        rw [after] at known
        cases known

theorem Renumbers.clears (renumbers : Renumbers st e)
    (down : st.side? = some .down → Tears S es) (clears : e.Clears) : e.after.vmId = none ∧ Tears S (es ++ [e]) := by
  obtain ⟨number, before, after⟩ := clears
  cases renumbers with
  | same same =>
    rw [same] at after
    exact absurd before after
  | recorded m _ path stage unset =>
    rw [unset] at before
    cases before
  | forgotten m stage _ unset => exact ⟨unset, (down (by rw [stage]; rfl)).snoc e⟩

theorem Deed.guarded (deed : Deed S c st e st') (tracks : Tracks S e.before st) (agrees : st.Agrees)
    (armed : ∀ m number, st = .running m number → e.before.Armed) : e.Guarded := by
  constructor
  · intro orders
    obtain ⟨m, path, rfl, -⟩ := deed.orders orders
    rcases tracks.vmId rfl with same | absent
    · exact same.trans agrees
    · exact vmId_of_absent absent
  · intro starts
    obtain ⟨m, number, rfl, route⟩ := deed.starts starts
    obtain ⟨o, object, -⟩ := armed m number rfl
    refine ⟨number, ?_, route⟩
    rcases tracks.vmId rfl with same | absent
    · exact same.trans agrees
    · rw [absent] at object
      cases object

theorem Identity.unknown (identity : Identity S past es st h) (up : st.side? = some .up) (unset : h.vmId = none) :
    ¬∃ e ∈ events past ++ es, ∃ number, e.Knows number := by
  rintro ⟨e, he, number, knows⟩
  rcases identity.lasts e he number knows with stored | ⟨-, -, side⟩
  · rw [unset] at stored
    cases stored
  · exact side up

theorem Identity.waits_snoc (identity : Identity S past es st e.before) (deed : Deed S c st e st')
    (waiting : unsaved Event.creates (es ++ [e]) = true) : st'.Waits := by
  rcases unsaved_of_snoc waiting with ⟨lost, quiet⟩ | creates
  · rcases deed.waits (identity.waits lost) with ⟨waits, -⟩ | ⟨accepted, -⟩
    · exact waits
    · rw [quiet] at accepted
      cases accepted
  · obtain ⟨m, path, -, -, rfl⟩ := deed.orders (creates_orders creates)
    obtain ⟨number, hnumber⟩ := Option.isSome_iff_exists.1 creates
    rw [hnumber]
    trivial

/-- an order is made only while no number is known and none waits for its record -/
theorem Identity.count (identity : Identity S past es st e.before) (deed : Deed S c st e st') (guarded : e.Guarded)
    (unset : ∀ m number path, st = .created m number path → e.before.vmId = none) :
    Counted Event.creates past (es ++ [e]) (∃ e' ∈ events past ++ (es ++ [e]), ∃ number, e'.Knows number) := by
  refine identity.counted.snoc ?_ (fun creates => ?_) fun waiting accepted => ?_
  · rintro ⟨e', mem, knows⟩
    exact ⟨e', by rw [← List.append_assoc]; exact List.mem_append_left _ mem, knows⟩
  · have orders := creates_orders creates
    obtain ⟨m, path, rfl, -⟩ := deed.orders orders
    exact ⟨identity.unknown rfl (guarded.1 orders), Bool.eq_false_iff.2 fun lost => identity.waits lost⟩
  · rcases deed.waits (identity.waits waiting) with ⟨-, quiet⟩ | ⟨-, m, number, path, rfl, after⟩
    · rw [quiet] at accepted
      cases accepted
    · exact ⟨identity.unknown rfl (unset m number path rfl), e, by simp, number, .inr after⟩

theorem Identity.snoc (identity : Identity S past es st e.before) (tracks : Tracks S e.before st)
    (deed : Deed S c st e st') : Identity S past (es ++ [e]) st' e.after := by
  have there : (∀ m, st ≠ .bare m) → st.side? = some .up → e.before.Armed := fun furnished up =>
    (identity.armed up).resolve_left fun ⟨m, bare⟩ => furnished m bare
  have unset : ∀ m number path, st = .created m number path → e.before.vmId = none := by
    rintro m number path rfl
    rcases tracks.vmId rfl with same | absent
    · exact same.trans identity.agrees
    · exact vmId_of_absent absent
  have renumbers := deed.renumbers identity.agrees fun m number naming => there (by simp [naming]) (by rw [naming]; rfl)
  have guarded := deed.guarded tracks identity.agrees fun m number running =>
    there (by simp [running]) (by rw [running]; rfl)
  have doomed := fun side => (identity.down side).1
  have all : events past ++ (es ++ [e]) = events past ++ es ++ [e] := (List.append_assoc ..).symm
  constructor
  case agrees => exact deed.agrees tracks identity.agrees
  case begun => exact fun start => absurd start deed.begun
  case armed =>
    intro up
    rcases deed.sided with (rfl | ⟨side, was, is⟩) | ⟨-, after, o, m, object, copy, -, rfl⟩
    · cases up
    · obtain rfl := Option.some.inj (is.symm.trans up)
      exact deed.armed was (identity.armed was) is
    · apply (fetched_up up).imp_right
      intro held
      rw [after]
      exact ⟨o, object, copy.holds_iff.2 held⟩
  case down =>
    intro down
    refine ⟨?_, deed.tears identity.begun (fun side => (identity.down side).2) down⟩
    rcases deed.sided with (rfl | ⟨side, was, is⟩) | ⟨-, after, o, m, object, copy, -, rfl⟩
    · cases down
    · obtain rfl := Option.some.inj (is.symm.trans down)
      exact deed.doomed (identity.down was).1
    · intro o' ho'
      rw [after, object] at ho'
      cases ho'
      exact copy.isBeingDeleted_iff.2 (fetched_down down)
  case lasts =>
    rw [all]
    refine forall_snoc (fun e' mem number knows => ?_) fun number knows => ?_
    · exact deed.lasts renumbers doomed (identity.lasts e' mem number knows)
    · rcases knows with before | after
      · exact deed.lasts renumbers doomed (.inl before)
      · exact .inl after
  case cleared =>
    rw [all]
    refine forall_snoc (fun e' mem clears => ?_) fun clears => ?_
    · cases known : e.after.vmId with
      | none => rfl
      | some other => exact absurd (.inr known) ((identity.lasting_snoc tracks deed renumbers mem).2 clears other)
    · exact (renumbers.clears (fun side => (identity.down side).2) clears).1
  case lasting =>
    rw [all]
    exact pairwise_snoc identity.lasting fun e' mem => identity.lasting_snoc tracks deed renumbers mem
  case guarded =>
    rw [all]
    exact forall_snoc identity.guarded guarded
  case torn =>
    refine forall_snoc (fun e' mem clears => ?_) fun clears => ?_
    · exact ⟨(identity.torn e' mem clears).1, (identity.torn e' mem clears).2.snoc e⟩
    · exact renumbers.clears (fun side => (identity.down side).2) clears
  case waits => exact identity.waits_snoc deed
  case counted => exact identity.count deed guarded unset

theorem Identity.first (S : Scene) (start : Held) : Identity S [] [] .start start where
  agrees := trivial
  begun _ := rfl
  armed := nofun
  down := nofun
  lasts := nofun
  cleared := nofun
  lasting := .nil
  guarded := nofun
  torn := nofun
  waits := nofun
  counted := .first

theorem Identity.ends (identity : Identity S past es st h) (r : Except Failure Outcome) :
    Identity S (past ++ [⟨c, es, r⟩]) [] .start h := by
  have all : events (past ++ [⟨c, es, r⟩]) ++ [] = events past ++ es := by rw [List.append_nil, events_snoc]
  constructor
  case agrees => trivial
  case begun => exact fun _ => rfl
  case armed | down => nofun
  case torn | waits => nofun
  case lasts =>
    rw [all]
    intro e mem number knows
    exact (identity.lasts e mem number knows).imp_right fun ⟨unset, doomed, _⟩ => ⟨unset, doomed, nofun⟩
  case cleared => rw [all]; exact identity.cleared
  case lasting => rw [all]; exact identity.lasting
  case guarded => rw [all]; exact identity.guarded
  case counted => exact (identity.counted.ends c r).imp (by rw [all]; exact id)

/-- in every run of one machine, whatever the appliance and the store answer and others write: for all virtual machines
that were ordered but one, the write of the number raised; a number that is stored stays, but for a teardown, after
which none is stored again; and a virtual machine is started only under the stored number -/
theorem single_virtual_machine {start : Held} (preserves : S.Preserves) (sound : start.Sound S)
    (run : Run S start past h) :
    (events past).countP Event.creates ≤ losses (Unrecorded S) past + 1 ∧
    (events past).Pairwise Event.Lasting ∧
    (∀ i ∈ past, ∀ e ∈ i.events, e.Clears → e.after.vmId = none ∧ Tears S i.events) ∧
    ∀ e ∈ events past, e.Guarded := by
  have kept := run.keeps (P := fun _ => True)
    (J := fun past h => Identity S past [] .start h ∧
      ∀ i ∈ past, ∀ e ∈ i.events, e.Clears → e.after.vmId = none ∧ Tears S i.events)
    (I := fun past _ es st h => Identity S past es st h ∧
      ∀ i ∈ past, ∀ e ∈ i.events, e.Clears → e.after.vmId = none ∧ Tears S i.events)
    sound ⟨.first S start, by simp⟩ (fun _ _ _ _ => id) ?step ?ends (fun _ _ => trivial)
  -- a teardown is told of its own invocation, so what is torn is only gathered where one ends
  case step =>
    rintro past c es st h e st' - ⟨identity, torn⟩ drift tracks deed
    exact ⟨(identity.drift preserves drift).snoc tracks deed, torn⟩
  case ends =>
    rintro past c es st h r - ⟨identity, torn⟩
    exact ⟨identity.ends r, forall_snoc torn identity.torn⟩
  obtain ⟨identity, torn⟩ := kept.2
  have lasting := identity.lasting
  have guarded := identity.guarded
  rw [List.append_nil] at lasting guarded
  have few := identity.counted.few_of_lost fun i mem => unrecorded_of_unsaved (run.registered i mem)
  exact ⟨few, lasting, torn, guarded⟩

/-- others may do all but take back the mark for deletion or the finalizer -/
def lenient : Scene where
  ns := "default"
  name := "worker"
  allows o o' := ((Stored.deletion o).isTruthy = true → (Stored.deletion o').isTruthy = true) ∧
    (Stored.Holds o → Stored.Holds o')

/-- the number of the first of two virtual machines is lost, the second one is recorded and started -/
theorem single_virtual_machine_provisioning : lenient.Preserves ∧ Sample.held.Sound lenient ∧
    ∃ past h, Run lenient Sample.held past h ∧
      ((events past).countP Event.creates = 2 ∧ (events past).any Event.starts = true) ∧
      (∃ i ∈ past, Unrecorded lenient i) ∧
      (events past).Pairwise Event.Lasting ∧ ∀ e ∈ events past, e.Guarded := by
  have preserves : lenient.Preserves := ⟨fun _ _ h => h.1, fun _ _ h => h.2⟩
  have sound : Sample.held.Sound lenient := Sample.sound _
  refine ⟨preserves, sound, ?_⟩
  obtain ⟨past, h, run, seen⟩ := lenient.exists_run Sample.held Sample.provisioning
    (fun r => decide ((events r.1).countP Event.creates = 2 ∧ (events r.1).any Event.starts = true)) (by decide +kernel)
  obtain ⟨twice, started⟩ : (events past).countP Event.creates = 2 ∧ (events past).any Event.starts = true :=
    of_decide_eq_true seen
  obtain ⟨few, lasting, -, guarded⟩ := single_virtual_machine preserves sound run
  have lost : 0 < losses (Unrecorded lenient) past := by omega
  exact ⟨past, h, run, ⟨twice, started⟩, exists_of_losses lost, lasting, guarded⟩

end Reconcile

end VmOperator
