import VmOperator.Proofs.Reconcile.Looking
import VmOperator.Proofs.Reporting

/-! What becomes of a write that came second. An invocation that lost one does not end as done, for done waits for the
next change: it asks to be called again, or fails. There are two exceptions: the record of a new virtual machine that
was written again, and the provider id, whose loss is not looked at (`lost_write_asks_again`, `done_unnamed`). -/

namespace VmOperator

namespace Event

/-- a write that came second -/
def loses (e : Event) : Bool := e.said.content?.isSome && e.said.refusedWith 409

end Event

namespace Reconcile

open World

def Records (c : Context) (number : Int) (path : String) (e : Event) (reply : Store.Reply) : Prop :=
  ∃ m x, (Boot.record c number path m).toValue = .ok x ∧ e.said = .called (.replaceStatus .machines m.ns m.name x) reply

def Names (m : Machine) (known : Int) (e : Event) (reply : Store.Reply) : Prop :=
  m.spec.providerId.isTruthy = false ∧ m.status.vmId = some known ∧
    ∃ x, (nameProvider known m).toValue = .ok x ∧ e.said = .called (.replace .machines m.ns m.name x) reply

/-- why an invocation may end as done although this write was lost -/
inductive Excused (c : Context) (e : Event) (after : List Event) : Prop
  | recorded {number : Int} {path : String} {status reason : Value} (lost : Records c number path e (.refused status reason))
      (again : ∃ e' ∈ after, ∃ o, Records c number path e' (.ok o))
  | unnamed {m : Machine} {known : Int} {status reason : Value} (lost : Names m known e (.refused status reason))
      (found : m.status.addresses ≠ [] ∨ ∃ e' ∈ after, e'.acceptsStatus = true)

def Settled (c : Context) (es : List Event) : Prop :=
  ∀ before e after, es = before ++ e :: after → e.loses = true → Excused c e after

def Lossless (es : List Event) : Prop := ∀ e ∈ es, e.loses = false

section Lists

variable {c : Context} {e : Event} {es es' after : List Event}

theorem Excused.append (excused : Excused c e after) (more : List Event) : Excused c e (after ++ more) := by
  cases excused with
  | recorded lost again =>
    obtain ⟨e', mem, accepted⟩ := again
    exact .recorded lost ⟨e', List.mem_append_left _ mem, accepted⟩
  | unnamed lost found =>
    exact .unnamed lost (found.imp_right fun ⟨e', mem, accepted⟩ => ⟨e', List.mem_append_left _ mem, accepted⟩)

theorem Lossless.settled (lossless : Lossless es) : Settled c es := by
  intro before e after split lost
  rw [lossless e (by simp [split])] at lost
  cases lost

theorem Lossless.append (first : Lossless es) (second : Lossless es') : Lossless (es ++ es') :=
  List.forall_mem_append.2 ⟨first, second⟩

theorem Lossless.nil : Lossless [] := List.forall_mem_nil _

theorem Lossless.single (kept : e.loses = false) : Lossless [e] := List.forall_mem_singleton.2 kept

theorem lossless_of_silent (silent : ∀ e ∈ es, e.said.content? = none) : Lossless es := by
  intro e mem
  rw [Event.loses, silent e mem]
  rfl

theorem Settled.cons (excused : e.loses = true → Excused c e es) (rest : Settled c es) : Settled c (e :: es) := by
  intro before e' after split lost
  cases before with
  | nil =>
    obtain ⟨rfl, rfl⟩ := List.cons.inj split
    exact excused lost
  | cons _ before => exact rest before e' after (List.cons.inj split).2 lost

theorem Settled.append (first : Settled c es) (second : Settled c es') : Settled c (es ++ es') := by
  induction es with
  | nil => exact second
  | cons e es ih =>
    refine .cons (fun lost => (first [] e es rfl lost).append es') (ih fun before e' after split lost => ?_)
    exact first (e :: before) e' after (by rw [split]; rfl) lost

end Lists

theorem lossless_tells {α : Type} {p : Action α} (asks : OnlyAsks p) : Tells p fun es _ => Lossless es :=
  (Tells.asks asks).mono fun _ _ => lossless_of_silent

section Steps

variable {c : Context} {m : Machine}

/-- what a write comes to, told by whether it is given up -/
def Wrote (part : Checkout.Part) (m : Machine) (es : List Event) (saved : Option Machine) : Prop :=
  ∃ e x, es = [e] ∧ m.toValue = .ok x ∧
    match saved with
    | some _ => ∃ o, e.said = .called (part.on m x) (.ok o)
    | none => ∃ status reason, e.said = .called (part.on m x) (.refused status reason)

theorem save_tells (part : Checkout.Part) (m : Machine) : Tells (part.save m) (Wrote part m) := by
  refine ⟨fun W h => (Checkout.save_ends part m).mono fun es r h' ended => ?_⟩
  cases ended with
  | accepted written said => exact ⟨_, _, rfl, written, _, said⟩
  | lost written said => exact ⟨_, _, rfl, written, _, _, said⟩
  | unwritable failed => exact m.plain_toValue.untasked.other _ failed
  | unreadable _ _ _ read => exact (Machine.plain_ofValue _).untasked.other _ read
  | refused => rfl

theorem Wrote.lossless {part : Checkout.Part} {es : List Event} {saved : Machine} (wrote : Wrote part m es (some saved)) :
    Lossless es := by
  obtain ⟨e, x, rfl, -, o, said⟩ := wrote
  exact .single (by rw [Event.loses, said]; exact Bool.and_false _)

theorem saveStatus_tells (m : Machine) : Tells (Checkout.saveStatus m) (Wrote .status m) := save_tells .status m

/-- what is left of a record that was written again and again: the last write was accepted -/
structure Recorded (c : Context) (number : Int) (path : String) (es : List Event) : Prop where
  settled : Settled c es
  kept : ∃ e ∈ es, ∃ o, Records c number path e (.ok o)

variable {number : Int} {path : String}

/-- a lost record is excused by what comes after it -/
theorem Recorded.cons {e : Event} {looks es : List Event} {status reason : Value}
    (lost : Records c number path e (.refused status reason)) (looked : Lossless looks)
    (recorded : Recorded c number path es) : Recorded c number path (e :: (looks ++ es)) := by
  obtain ⟨settled, e', mem, accepted⟩ := recorded
  have later : e' ∈ looks ++ es := List.mem_append_right _ mem
  refine ⟨.cons (fun _ => .recorded lost ⟨e', later, accepted⟩) (looked.settled.append settled), e', ?_, accepted⟩
  exact List.mem_cons_of_mem _ later

theorem recorded_of_rewrites {W : World} {more : Nat} {h h' : Held} {m m' : Machine} {es : List Event}
    (rewrites : Checkout.Rewrites W (Boot.record c number path) more h m es (m', .ok ()) h') :
    Recorded c number path es := by
  generalize same : (m', Except.ok ()) = r at rewrites
  induction rewrites with
  | @accepted _ _ m _ e x o written said =>
    refine ⟨Lossless.settled (.single ?_), e, List.mem_singleton.2 rfl, o, m, x, written, said⟩
    rw [Event.loses, said]
    exact Bool.and_false _
  | @again _ _ _ _ m _ e x _ _ looks es _ _ written said _ _ looked _ _ ih =>
    exact .cons ⟨m, x, written, said⟩ (lossless_of_silent looked.silent) (ih same)
  | unwritable | unreadable | refused | stopped => cases same

theorem saveStatusSurely_tells (m : Machine) :
    Tells (Checkout.saveStatusSurely (Boot.record c number path) m) fun es _ => Settled c es := by
  refine ⟨fun W h => Ensures.bind ((Checkout.writeRefreshing_ends 4 m).mono fun es r h' rewrites => Ensures.done ?_)⟩
  obtain ⟨m', r⟩ := r
  rw [List.append_nil]
  cases r with
  | ok => exact (recorded_of_rewrites rewrites).settled
  | error => exact rewrites.untasked.other _ rfl

/-- what naming the provider comes to, with what was asked since: a write that was lost leaves the name in the copy -/
inductive Naming (m : Machine) : List Event → Machine → Prop
  | kept {es : List Event} {m' : Machine} (lossless : Lossless es) : Naming m es m'
  | lost {e : Event} {es : List Event} {known : Int} {status reason : Value}
      (lost : Names m known e (.refused status reason)) (since : Lossless es) : Naming m (e :: es) (nameProvider known m)

theorem Naming.append {es es' : List Event} {m m' : Machine} (naming : Naming m es m') (more : Lossless es') :
    Naming m (es ++ es') m' := by
  cases naming with
  | kept lossless => exact .kept (lossless.append more)
  | lost lost since => exact .lost lost (since.append more)

theorem ensureProviderId_tells (m : Machine) : Tells (Boot.ensureProviderId m) (Naming m) := by
  unfold Boot.ensureProviderId
  split
  · rename_i known unnamed recorded
    refine .bind ((save_tells .whole _).mono fun es saved wrote => .pure ?_)
    rw [List.append_nil]
    cases saved with
    | some saved => exact .kept wrote.lossless
    | none =>
      obtain ⟨e, x, rfl, written, status, reason, said⟩ := wrote
      exact .lost ⟨unnamed, recorded, x, written, said⟩ .nil
  · exact .pure (.kept .nil)

/-- what ends a running machine as done also excuses that it could not be named -/
theorem Naming.settled {es es' : List Event} {m m' : Machine} (naming : Naming m es m') (rest : Lossless es')
    (found : m.status.addresses ≠ [] ∨ m'.status.addresses ≠ [] ∨ ∃ e ∈ es', e.acceptsStatus = true) :
    Settled c (es ++ es') := by
  cases naming with
  | kept lossless => exact (lossless.append rest).settled
  | lost lost since =>
    refine .cons (fun _ => .unnamed lost ((found.elim .inl id).imp_right fun ⟨e, mem, accepted⟩ => ?_))
      (since.append rest).settled
    exact ⟨e, List.mem_append_right _ mem, accepted⟩

theorem discover_tells (m : Machine) (vm : Option Appliance.Vm) : Tells (Discovery.discover c m vm) fun es o =>
    o.isFailed = false ∧
      (o = .done → Lossless es ∧ (m.status.addresses ≠ [] ∨ ∃ e ∈ es, e.acceptsStatus = true)) := by
  unfold Discovery.discover
  split
  · rename_i found
    refine .pure ⟨rfl, fun _ => ⟨.nil, .inl fun none => ?_⟩⟩
    rw [none] at found
    cases found
  · split
    · exact .pure ⟨rfl, nofun⟩
    · rename_i id _
      refine .bind ((lossless_tells (Discovery.current_onlyAsks c id vm)).mono fun es vm looked => ?_)
      split
      · exact .pure ⟨rfl, nofun⟩
      · refine .bind ((lossless_tells (Discovery.tryAddresses_onlyAsks c vm.mac)).mono fun es' found listed => ?_)
        split
        · exact .pure ⟨rfl, nofun⟩
        · exact .pure ⟨rfl, nofun⟩
        · refine .bind ((saveStatus_tells _).mono fun es'' saved wrote => ?_)
          cases saved with
          | none => exact .pure ⟨rfl, nofun⟩
          | some saved =>
            refine .pure ⟨rfl, fun _ => ⟨looked.append (listed.append (wrote.lossless.append .nil)), .inr ?_⟩⟩
            obtain ⟨e, x, rfl, -, o, said⟩ := wrote
            exact ⟨e, by simp, by rw [Event.acceptsStatus, said]; rfl⟩

/-- done only where every lost write is excused, and never failed -/
structure Told (c : Context) (es : List Event) (o : Outcome) : Prop where
  unfailed : o.isFailed = false
  settled : o = .done → Settled c es

theorem Told.after {es es' : List Event} {o : Outcome} (told : Told c es' o) (before : Lossless es) : Told c (es ++ es') o :=
  ⟨told.unfailed, fun done => before.settled.append (told.settled done)⟩

theorem Told.requeue (es : List Event) (after : Number) : Told c es (.requeue after) := ⟨rfl, nofun⟩

/-- from the name to the addresses -/
theorem Naming.discover {m latest : Machine} {vm : Option Appliance.Vm} {es : List Event} (naming : Naming m es latest) :
    Tells (Discovery.discover c latest vm) fun es' => Told c (es ++ es') := by
  refine (discover_tells latest vm).mono fun es' o ⟨unfailed, ended⟩ => ⟨unfailed, fun done => ?_⟩
  obtain ⟨lossless, found⟩ := ended done
  exact naming.settled lossless (.inr found)

theorem existing_tells (m : Machine) (number : Int) : Tells (Boot.existing c m number) (Told c) := by
  unfold Boot.existing
  refine .bind ((ensureProviderId_tells m).mono fun es latest naming => ?_)
  split
  · rename_i found
    refine .pure ⟨rfl, fun _ => naming.settled .nil (.inl fun none => ?_)⟩
    rw [none] at found
    cases found
  · refine .bind ((lossless_tells (Appliance.getVm_onlyAsks ..)).mono fun es' known asked => ?_)
    have looked := naming.append asked
    simp only [← List.append_assoc]
    split
    · refine .bind ((lossless_tells (Appliance.startVm_onlyAsks ..)).mono fun es'' _ started => ?_)
      simp only [← List.append_assoc]
      exact (looked.append started).discover
    · exact looked.discover

theorem create_tells (m : Machine) (path userData : String) : Tells (Boot.create c m path userData) (Told c) := by
  unfold Boot.create
  refine .bind ((lossless_tells (Appliance.createVm_onlyAsks ..)).mono fun es created ordered => ?_)
  refine .bind ((saveStatusSurely_tells m).mono fun es' recorded settled => ?_)
  refine .bind ((ensureProviderId_tells recorded).mono fun es'' latest naming => ?_)
  refine .bind ((lossless_tells (Appliance.startVm_onlyAsks ..)).mono fun more _ started => ?_)
  refine (naming.append started).discover.mono fun last o told => ⟨told.unfailed, fun done => ?_⟩
  rw [← List.append_assoc es'']
  exact ordered.settled.append (settled.append (told.settled done))

theorem ensure_tells (m : Machine) (path : Value) : Tells (Boot.ensure c m path) (Told c) := by
  unfold Boot.ensure
  split
  · exact existing_tells ..
  · refine .bind ((lossless_tells (Boot.userData_onlyAsks c m)).mono fun es text asked => ?_)
    split
    · exact .pure (.requeue ..)
    · refine .bind (.lift (Value.plain_toText _).untasked fun path _ => ?_)
      exact (create_tells ..).mono fun _ _ told => told.after asked

theorem boot_tells (m : Machine) : Tells (boot c m) (Told c) :=
  .bind (.lift (ImagePipeline.plain_finalPath c m).untasked fun _ _ => ensure_tells ..)

theorem carryOut_tells (m : Machine) (verdict : ImagePipeline.Verdict)
    (requeues : ∀ next message outcome, verdict = .enter next message outcome → outcome ≠ .done) :
    Tells (verdict.carryOut c m) fun es ended =>
      match ended with
      | .ends o => o ≠ .done
      | .ready _ => Lossless es := by
  cases verdict with
  | wait => exact .pure nofun
  | enter next message outcome =>
    exact .bind (.bind ((saveStatus_tells _).mono fun _ _ _ => .pure (.pure (requeues _ _ _ rfl))))
  | fail => exact .bind (.bind ((saveStatus_tells _).mono fun _ _ _ => .pure (.pure nofun)))
  | finish =>
    refine .bind ((saveStatus_tells _).mono fun es saved wrote => ?_)
    cases saved with
    | none => exact .pure nofun
    | some saved => exact .pure (wrote.lossless.append .nil)

theorem advance_tells (m : Machine) : Tells (ImagePipeline.advance c m) fun es ended =>
    match ended with
    | .ends o => o ≠ .done
    | .ready _ => Lossless es := by
  rw [ImagePipeline.advance_eq]
  refine .bind (.lift (ImagePipeline.plain_imageName? m).untasked fun name _ => ?_)
  refine .bind (.lift (Phase.decode_untasked _) fun current _ => ?_)
  refine .bind (.ask (ImagePipeline.query_untasked ..) fun es reply verdict silent read => ?_)
  refine (carryOut_tells m verdict fun next message outcome same => ?_).mono fun es' ended told => ?_
  · subst same
    rcases ImagePipeline.query_requeues read with rfl | rfl <;> exact nofun
  · cases ended with
    | ends o => exact told
    | ready m => exact (lossless_of_silent silent).append told

theorem provision_tells (m : Machine) : Tells (provision c m) fun es o => o = .done → Settled c es := by
  unfold provision
  split
  · exact .pure fun _ => Lossless.nil.settled
  · refine .bind (.lift m.plain_failedImageReason?.untasked fun failed _ => ?_)
    split
    · exact .pure fun _ => Lossless.nil.settled
    · split
      · exact (boot_tells m).mono fun _ _ told => told.settled
      · refine .bind ((advance_tells m).mono fun es ended told => ?_)
        cases ended with
        | ends o => exact .pure fun done => absurd done told
        | ready m => exact (boot_tells m).mono fun _ _ told' => (told'.after told).settled

/-- what a step of the teardown comes to: it waits, or goes on and has lost nothing -/
def Goes (es : List Event) : Teardown.Progress → Prop
  | .ends o => ∃ after, o = .requeue after
  | .gone _ => Lossless es

theorem removeVm_tells (m : Machine) (number : Int) : Tells (Teardown.removeVm c m number) Goes := by
  have forgets {es : List Event} (before : Lossless es) :
      Tells (Teardown.forgetVm c m) fun es' => Goes (es ++ es') := by
    refine .bind ((saveStatus_tells _).mono fun es' saved wrote => ?_)
    cases saved with
    | none => exact .pure ⟨_, rfl⟩
    | some saved => exact .pure (before.append (wrote.lossless.append .nil))
  have waits {es : List Event} : Tells (Teardown.awaitStop c m number) fun es' => Goes (es ++ es') := by
    have requeued (saved : Option Machine) :
        ∃ after, (if saved.isSome then .requeue c.settings.stopPollInterval else c.step) = Outcome.requeue after := by
      split <;> exact ⟨_, rfl⟩
    rw [awaitStop_eq]
    dsimp only
    split
    · refine .bind ((lossless_tells (Teardown.tryKill_onlyAsks c number)).mono fun _ _ _ => ?_)
      exact .bind ((saveStatus_tells _).mono fun _ saved _ => .pure (requeued saved))
    · exact .bind ((saveStatus_tells _).mono fun _ saved _ => .pure (requeued saved))
  unfold Teardown.removeVm
  refine .bind ((lossless_tells (Teardown.lookFor_onlyAsks c number)).mono fun es known looked => ?_)
  cases known with
  | none => exact forgets looked
  | some known =>
    dsimp only
    split
    · exact waits
    · refine .bind ((lossless_tells (Appliance.deleteVm_onlyAsks ..)).mono fun es' _ removed => ?_)
      simp only [← List.append_assoc]
      exact forgets (looked.append removed)

theorem run_tells (m : Machine) : Tells (Teardown.run c m) (Told c) := by
  have releases (m : Machine) {es : List Event} (before : Lossless es) : Tells (do
      Teardown.removeDisk c m
      Teardown.release c m) fun es' => Told c (es ++ es') := by
    refine .bind ((lossless_tells (Teardown.removeDisk_onlyAsks c m)).mono fun es' _ removed => ?_)
    refine .bind ((save_tells .whole _).mono fun es'' saved wrote => ?_)
    cases saved with
    | none => exact .pure (.requeue ..)
    | some saved => exact .pure ⟨rfl, fun _ => (before.append (removed.append (wrote.lossless.append .nil))).settled⟩
  unfold Teardown.run
  split
  · exact .pure ⟨rfl, fun _ => Lossless.nil.settled⟩
  · dsimp only
    split
    · refine .bind ((removeVm_tells ..).mono fun es progress goes => ?_)
      cases progress with
      | ends o =>
        obtain ⟨after, rfl⟩ := goes
        exact .pure (.requeue ..)
      | gone m => exact releases m goes
    · exact releases m .nil

theorem settle_tells (m : Machine) : Tells (settle c m) fun es o => o = .done → Settled c es := by
  unfold settle
  split
  · exact (run_tells m).mono fun _ _ told => told.settled
  · unfold ensureFinalizer
    split
    · exact provision_tells m
    · refine .bind ((save_tells .whole _).mono fun es saved wrote => ?_)
      cases saved with
      | none => exact .pure nofun
      | some saved => exact (provision_tells saved).mono fun _ _ told done => wrote.lossless.settled.append (told done)

theorem machine_told (ns name : String) : Tells (machine c ns name) fun es o => o = .done → Settled c es := by
  refine ⟨fun W h => machine_ends c ns name fun es r h' looks => ?_⟩
  have settled := (lossless_of_silent looks.silent).settled (c := c)
  cases looks with
  | found said =>
    refine ((settle_tells _).told W _).mono (fun _ _ _ told done => settled.append (told done)) fun _ _ _ other => ?_
    exact ⟨fun _ _ => nofun, fun _ => other⟩
  | missing said => exact fun _ => settled
  | unreadable _ _ read =>
    exact ⟨fun _ _ => nofun, fun _ => (Machine.plain_ofValue _).untasked.other _ read⟩
  | refused said => exact ⟨fun _ _ => nofun, fun other => absurd rfl (other _)⟩

end Steps

section Invocation

variable {W : World} {c : Context} {ns name : String} {h h' : Held} {es before after : List Event} {e : Event}
  {r : Except Failure Outcome}

/-- Whatever the store and the appliance answer, an invocation of which a write came second asks to be called again or
fails, unless the write was the record of a new virtual machine and a later one of it was accepted, or it was the provider
id of a machine that is reachable, or becomes so. (It may also be raised that something was said against the documented
types.) -/
theorem lost_write_asks_again (plays : W.Plays h (machine c ns name).run es r h') (split : es = before ++ e :: after)
    (lost : e.loses = true) :
    Excused c e after ∨ (∃ delay, r = .ok (.requeue delay)) ∨ (∃ f, r = .ok (.failed f)) ∨
      (∃ f, r = .error f) ∧ ∃ e' ∈ es, e'.said.documented = false := by
  have told := (machine_told ns name).told W h es r h' plays
  cases r with
  | error f =>
    refine .inr (.inr (.inr ⟨⟨f, rfl⟩, ?_⟩))
    refine Classical.byContradiction fun never => ?_
    refine machine_reports c ns name h es _ h' (plays.within fun _ e mem _ => ?_)
    cases said : e.said.documented with
    | true => exact said
    | false => exact absurd ⟨e, mem, said⟩ never
  | ok o =>
    cases o with
    | done => exact .inl (told rfl before e after split lost)
    | requeue delay => exact .inr (.inl ⟨delay, rfl⟩)
    | failed f => exact .inr (.inr (.inl ⟨f, rfl⟩))

/-- the record of a download comes second -/
theorem lost_write_asks_again_downloading : ∃ before e after r h', World.any.Plays Sample.held
      (machine Sample.context "default" "worker").run (before ++ e :: after) r h' ∧ e.loses = true ∧
    (Excused Sample.context e after ∨ (∃ delay, r = .ok (.requeue delay)) ∨ (∃ f, r = .ok (.failed f)) ∨
      (∃ f, r = .error f) ∧ ∃ e' ∈ before ++ e :: after, e'.said.documented = false) := by
  obtain ⟨es, r, h', plays, seen⟩ := Sample.alone.exists_plays (machine Sample.context "default" "worker").run Sample.held
    [.gives, .numbered 7, .refusal (.int 409) .null] (fun played => played.1.any Event.loses) (by decide +kernel)
  obtain ⟨e, mem, lost⟩ := List.any_eq_true.1 seen
  obtain ⟨before, after, split⟩ := List.append_of_mem mem
  have plays := plays.inWorld.anywhere
  exact ⟨before, e, after, r, h', split ▸ plays, lost, split ▸ lost_write_asks_again plays split lost⟩

def unnamed : Value := .object [
  ("metadata", .object [("namespace", .string "default"), ("name", .string "worker"), ("resourceVersion", .string "1"),
    ("finalizers", .array [Machine.finalizerValue])]),
  ("spec", .object [("imageURL", .string "http://images/disk.raw")]),
  ("status", .object [("vmId", .int 5), ("diskPath", .string "/disks/worker.raw"),
    ("addresses", .array [.object [("type", .string "InternalIP"), ("address", .string "192.168.1.2")]]),
    ("conditions", .array [.object [("type", .string "ImageReady"), ("status", .string "True"),
      ("reason", .string "ImageReady")]])])]

/-- the provider id comes second, and the invocation is done -/
theorem done_unnamed : ∃ es h', World.any.Plays ⟨some unnamed, [.string "1"]⟩
      (machine Sample.context "default" "worker").run es (.ok .done) h' ∧
    ∃ e ∈ es, e.loses = true ∧
      ∃ x reply, e.said = .called (.replace .machines (.string "default") (.string "worker") x) reply := by
  obtain ⟨es, r, h', plays, seen⟩ := Sample.alone.exists_plays (machine Sample.context "default" "worker").run
    ⟨some unnamed, [.string "1"]⟩ [.gives, .refusal (.int 409) (.string "Conflict")]
    (fun played => played.2.1.toOption = some .done && played.1.any fun e => e.loses &&
      e.said = .called (.replace .machines (.string "default") (.string "worker") (e.said.content?.getD .null))
        (.refused (.int 409) (.string "Conflict")))
    (by decide +kernel)
  obtain ⟨done, found⟩ := Bool.and_eq_true_iff.1 seen
  obtain rfl := ok_of_toOption (of_decide_eq_true done)
  obtain ⟨e, mem, holds⟩ := List.any_eq_true.1 found
  obtain ⟨lost, said⟩ := Bool.and_eq_true_iff.1 holds
  exact ⟨es, h', plays.inWorld.anywhere, e, mem, lost, _, _, of_decide_eq_true said⟩

end Invocation

end Reconcile

end VmOperator
