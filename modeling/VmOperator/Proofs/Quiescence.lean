import VmOperator.Proofs.Coherence
import VmOperator.Proofs.Conflicts
import VmOperator.Proofs.Reconcile.Leaving

/-! Done means done. A machine rests where the next invocation finds nothing to do: it only looks at the machine
(`settle_of_rests`). An invocation that ends as done leaves the machine at rest if all of its writes were taken
(`machine_leaves`), and so does one that reports a failed task and could record that (`machine_sticks`). As long as nobody
else writes, the machine is then left alone for good (`quiescence`). -/

namespace VmOperator

namespace Event

/-- the machine is said to be missing where nothing is stored, and is given where it is stored -/
structure Faithful (S : Scene) (e : Event) : Prop where
  missing : ∀ status reason, e.said = .called (.get .machines (.string S.ns) (.string S.name)) (.refused status reason) →
    status.isNumber 404 = true ∧ e.before.object = none

def blind (e : Event) : Bool :=
  match e.said with
  | .called (.get ..) (.refused ..) => true
  | _ => false

variable {S : Scene} {e : Event}

theorem Faithful.candid (faithful : e.Faithful S) : e.Candid S :=
  ⟨fun status reason said _ => (faithful.missing status reason said).2⟩

theorem faithful_of_seeing (sees : e.blind = false) : e.Faithful S := by
  refine ⟨fun status reason said => ?_⟩
  rw [blind, said] at sees
  cases sees

end Event

namespace Machine

structure Located (m : Machine) : Prop where
  final : ∀ c, ∃ path, ImagePipeline.finalPath c m = .ok path

/-- a machine that is to be there, with its image in place -/
structure Imaged (m : Machine) : Prop where
  kept : m.isBeingDeleted = false
  held : m.hasFinalizer = true
  asked : m.spec.imageUrl.isTruthy = true
  ready : m.imageReady = true

inductive Rests (m : Machine) : Prop
  | bare (deleted : m.isBeingDeleted = true) (released : m.hasFinalizer = false)
  | unasked (kept : m.isBeingDeleted = false) (held : m.hasFinalizer = true) (unasked : m.spec.imageUrl.isTruthy = false)
  | failed (reason : String) (kept : m.isBeingDeleted = false) (held : m.hasFinalizer = true)
      (failed : m.failedImageReason? = .ok (some reason))
  | reached {number : Int} (imaged : m.Imaged) (located : m.Located) (numbered : m.status.vmId = some number)
      (named : m.spec.providerId.isTruthy = true) (reached : m.status.addresses ≠ [])

/-- machines that are asked for the same and have come as far with their image -/
structure Akin (m m' : Machine) : Prop where
  deletion : m'.isBeingDeleted = m.isBeingDeleted
  finalizer : m'.hasFinalizer = m.hasFinalizer
  imageUrl : m'.spec.imageUrl = m.spec.imageUrl
  vmName : m'.vmName = m.vmName
  image : m'.imageCondition? = m.imageCondition?

variable {m m' : Machine}

theorem unfailed_of_imageReady (ready : m.imageReady = true) : m.failedImageReason? = .ok none :=
  m.unfailed_of_ready (m.imageReady_iff.1 ready)

theorem located_of_finalPath {c : Context} {path : String} (final : ImagePipeline.finalPath c m = .ok path) :
    m.Located := by
  obtain ⟨name, named, final⟩ := bind_eq_ok.1 final
  obtain ⟨image, given, final⟩ := bind_eq_ok.1 final
  obtain ⟨text, called, -⟩ := bind_eq_ok.1 final
  exact ⟨fun c' => ⟨Image.finalPath c'.layout.storage text image,
    bind_eq_ok.2 ⟨name, named, bind_eq_ok.2 ⟨image, given, bind_eq_ok.2 ⟨text, called, rfl⟩⟩⟩⟩⟩

theorem Imaged.akin (imaged : m.Imaged) (akin : m.Akin m') : m'.Imaged where
  kept := akin.deletion.trans imaged.kept
  held := akin.finalizer.trans imaged.held
  asked := by rw [akin.imageUrl, imaged.asked]
  ready := by rw [imageReady, akin.image]; exact imaged.ready

theorem Located.akin (located : m.Located) (akin : m.Akin m') : m'.Located := by
  refine ⟨fun c => ?_⟩
  obtain ⟨path, final⟩ := located.final c
  refine ⟨path, ?_⟩
  rw [← final, ImagePipeline.finalPath, ImagePipeline.finalPath, ImagePipeline.imageName?, ImagePipeline.imageName?,
    akin.imageUrl, akin.vmName]

/-- a status that was written, with the same of the image -/
theorem Stamps.akin_restated {s : MachineStatus} (stamps : { m with status := s.rendered }.Stamps m')
    (image : s.condition? .imageReady = m.status.condition? .imageReady) : m.Akin m' := by
  cases stamps
  exact ⟨rfl, rfl, rfl, rfl, image⟩

theorem Stamps.akin_amended {id : Value} (stamps : (m.amended m.finalizers id).Stamps m') : m.Akin m' := by
  cases stamps
  exact ⟨rfl, rfl, rfl, rfl, rfl⟩

end Machine

structure Held.Rests (h : Held) : Prop where
  machine : ∀ o, h.object = some o → ∃ m, Machine.ofValue o = .ok m ∧ m.Rests

theorem InHand.rests {S : Scene} {h : Held} {m : Machine} (inHand : InHand S h m) (rests : m.Rests) : h.Rests := by
  refine ⟨fun o object => ⟨m, ?_, rests⟩⟩
  obtain rfl := Option.some.inj (inHand.object.symm.trans object)
  exact inHand.read

theorem Held.rests_of_none {h : Held} (gone : h.object = none) : h.Rests :=
  ⟨fun o object => by rw [gone] at object; cases object⟩

namespace Reconcile

/-- for a machine at rest there is nothing to do -/
theorem settle_of_rests {m : Machine} (rests : m.Rests) (c : Context) : settle c m = pure .done := by
  cases rests with
  | bare deleted released =>
    unfold settle Teardown.run
    rw [deleted, released]
    rfl
  | unasked kept held unasked =>
    unfold settle ensureFinalizer
    rw [kept, held]
    show provision c m = _
    unfold provision
    rw [unasked]
    rfl
  | failed reason kept held failed =>
    unfold settle ensureFinalizer
    rw [kept, held]
    show provision c m = _
    unfold provision
    rw [failed]
    split <;> rfl
  | reached imaged located numbered named reached =>
    obtain ⟨path, final⟩ := located.final c
    have there : m.status.addresses.isEmpty = false := by
      rw [List.isEmpty_eq_false_iff]
      exact reached
    have booted : boot c m = pure .done := by
      unfold boot
      rw [final]
      show Boot.ensure c m (.string path) = _
      unfold Boot.ensure
      rw [numbered]
      show Boot.existing c m _ = _
      unfold Boot.existing Boot.ensureProviderId
      rw [named, there]
      rfl
    unfold settle ensureFinalizer
    rw [imaged.kept, imaged.held]
    show provision c m = _
    unfold provision
    rw [imaged.asked, Machine.unfailed_of_imageReady imaged.ready, imaged.ready]
    exact booted

section Leaving

variable {S : Scene} {h : Held} {c : Context} {m : Machine}

/-- a machine in hand with its image in place, its virtual machine recorded and its provider id given -/
structure Running (S : Scene) (h : Held) (m : Machine) : Prop where
  inHand : InHand S h m
  imaged : m.Imaged
  located : m.Located
  numbered : ∃ number, m.status.vmId = some number
  named : m.spec.providerId.isTruthy = true

theorem Running.rests (running : Running S h m) (reached : m.status.addresses ≠ []) : h.Rests := by
  obtain ⟨number, numbered⟩ := running.numbered
  exact running.inHand.rests (.reached running.imaged running.located numbered running.named reached)

/-- what is found is kept -/
theorem addresses_markReady_ne {addresses : List Value} (found : addresses ≠ [])
    (set : ∀ a ∈ addresses, a.isTruthy = true) :
    (Discovery.markReady c m addresses).status.rendered.addresses ≠ [] := by
  obtain ⟨a, mem⟩ := List.exists_mem_of_ne_nil _ found
  refine List.ne_nil_of_mem (a := ({ address := a } : Address)) (List.mem_filter.2 ⟨?_, set a mem⟩)
  exact List.mem_map_of_mem mem

theorem publish_leaves (quiet : S.Quiet) (running : Running S h m) {addresses : List Value} (found : addresses ≠ [])
    (set : ∀ a ∈ addresses, a.isTruthy = true) :
    Leaves S h (Discovery.publish c m addresses) fun o h' => o = .done → h'.Rests := by
  have shape : (Discovery.markReady c m addresses).status.progress.IsObject := running.inHand.shape
  refine .bind ((saveStatus_leaves quiet running.inHand shape).mono fun saved h' ⟨m', same, stamps, inHand⟩ => ?_)
  subst same
  have akin := stamps.akin_restated (imageCondition?_markReady m addresses)
  have reached := addresses_markReady_ne (c := c) (m := m) found set
  refine .pure fun _ => Running.rests ⟨inHand, running.imaged.akin akin, running.located.akin akin, ?_, ?_⟩ ?_ <;>
    cases stamps
  · exact running.numbered
  · exact running.named
  · exact reached

theorem tryAddresses_tells (mac : Value) : Tells (Discovery.tryAddresses c.settings mac) fun _ found =>
    ∀ addresses, found = some addresses → ∀ a ∈ addresses, a.isTruthy = true := by
  have listed : Tells (Discovery.findAddresses c.settings mac) fun _ addresses =>
      ∀ a ∈ addresses, a.isTruthy = true := by
    unfold Discovery.findAddresses
    rw [Appliance.lanHosts_eq]
    refine .bind (.lift (Value.plain_toText _).untasked fun wanted _ => ?_)
    refine .bind (.ask (Appliance.hostsQuery_untasked ..) fun _ reply hosts _ read => ?_)
    refine .lift (Discovery.plain_addressesIn _ _).untasked fun addresses found => ?_
    exact addressesIn_set (Appliance.hostsQuery_set _ read) found
  refine .tryCatch (.map (listed.mono fun _ found set addresses same => ?_)) fun f other => ?_
  · cases same
    exact set
  · split
    · exact .pure nofun
    · exact .throw other

theorem discover_leaves (quiet : S.Quiet) (running : Running S h m) (vm : Option Appliance.Vm) :
    Leaves S h (Discovery.discover c m vm) fun o h' => o = .done → h'.Rests := by
  unfold Discovery.discover
  split
  · rename_i reached
    exact .pure fun _ => running.rests (by simpa using reached)
  · split
    · exact .pure nofun
    · rename_i id _
      refine .ask quiet (Discovery.current_onlyAsks c id vm) fun vm => ?_
      split
      · exact .pure nofun
      · have asks := Discovery.tryAddresses_onlyAsks c vm.mac
        refine .bind (((Leaves.asks quiet asks).tells (tryAddresses_tells vm.mac)).mono fun found h' ⟨same, _, set⟩ => ?_)
        subst same
        split
        · exact .pure nofun
        · exact .pure nofun
        · rename_i addresses nonempty _
          exact publish_leaves quiet running nonempty (set addresses rfl)

theorem ensureProviderId_leaves (quiet : S.Quiet) (inHand : InHand S h m) (imaged : m.Imaged) (located : m.Located)
    {number : Int} (numbered : m.status.vmId = some number) :
    Leaves S h (Boot.ensureProviderId m) fun m' h' => Running S h' m' ∧ m'.status.addresses = m.status.addresses := by
  unfold Boot.ensureProviderId
  rw [numbered]
  cases named : m.spec.providerId.isTruthy with
  | true => exact .pure ⟨⟨inHand, imaged, located, ⟨number, numbered⟩, named⟩, rfl⟩
  | false =>
    have given : (Value.string (Boot.providerId (.int number))).isTruthy = true := providerId_set (.int number)
    refine .bind ((save_leaves quiet inHand m.finalizers (.inr given)).mono fun saved h' ⟨m', same, stamps, after⟩ => ?_)
    subst same
    have akin := stamps.akin_amended
    rcases after with inHand' | ⟨deleted, -⟩
    · refine .pure ⟨⟨inHand', imaged.akin akin, located.akin akin, ⟨number, ?_⟩, ?_⟩, ?_⟩ <;> cases stamps
      · exact numbered
      · exact given
      · rfl
    · rw [imaged.kept] at deleted
      cases deleted

theorem existing_leaves (quiet : S.Quiet) (inHand : InHand S h m) (imaged : m.Imaged) (located : m.Located) {number : Int}
    (numbered : m.status.vmId = some number) :
    Leaves S h (Boot.existing c m number) fun o h' => o = .done → h'.Rests := by
  unfold Boot.existing
  refine .bind ((ensureProviderId_leaves quiet inHand imaged located numbered).mono fun latest h' ⟨running, same⟩ => ?_)
  split
  · rename_i reached
    rw [← same] at reached
    exact .pure fun _ => running.rests (by simpa using reached)
  · refine .ask quiet (Appliance.getVm_onlyAsks ..) fun known => ?_
    dsimp only
    split
    · refine .ask quiet (Appliance.startVm_onlyAsks ..) fun _ => ?_
      exact discover_leaves quiet running _
    · exact discover_leaves quiet running _

theorem create_leaves (quiet : S.Quiet) (inHand : InHand S h m) (imaged : m.Imaged) (located : m.Located)
    (path userData : String) : Leaves S h (Boot.create c m path userData) fun o h' => o = .done → h'.Rests := by
  unfold Boot.create
  refine .ask quiet (Appliance.createVm_onlyAsks ..) fun created => ?_
  have shape : (Boot.record c created.number path m).status.progress.IsObject := inHand.shape
  refine .bind ((saveStatusSurely_leaves quiet inHand rfl shape).mono fun recorded h' ⟨stamps, inHand'⟩ => ?_)
  have image : (Boot.record c created.number path m).status.condition? .imageReady = m.status.condition? .imageReady :=
    Machine.condition?_setCondition_of_ne _ _ (by decide) ..
  have akin := stamps.akin_restated image
  have numbered : recorded.status.vmId = some created.number := by
    cases stamps
    rfl
  refine .bind ((ensureProviderId_leaves quiet inHand' (imaged.akin akin) (located.akin akin) numbered).mono ?_)
  intro latest h' ⟨running, _⟩
  refine .ask quiet (Appliance.startVm_onlyAsks ..) fun _ => ?_
  exact discover_leaves quiet running _

theorem boot_leaves (quiet : S.Quiet) (inHand : InHand S h m) (imaged : m.Imaged) :
    Leaves S h (boot c m) fun o h' => o = .done → h'.Rests := by
  refine .bind (.lift fun path final => ?_)
  have located := Machine.located_of_finalPath final
  unfold Boot.ensure
  split
  · exact existing_leaves quiet inHand imaged located ‹_›
  · refine .ask quiet (Boot.userData_onlyAsks c m) fun text => ?_
    split
    · exact .pure nofun
    · exact .bind (.lift fun path _ => create_leaves quiet inHand imaged located path _)

/-- a verdict that the image is ready is stored -/
theorem carryOut_leaves (quiet : S.Quiet) (inHand : InHand S h m) (verdict : ImagePipeline.Verdict) :
    Leaves S h (verdict.carryOut c m) fun ended h' => ∀ m', ended = .ready m' →
      InHand S h' m' ∧ m'.isBeingDeleted = m.isBeingDeleted ∧ m'.hasFinalizer = m.hasFinalizer ∧
        m'.spec.imageUrl = m.spec.imageUrl ∧ m'.imageReady = true := by
  cases verdict with
  | wait => exact .pure fun _ same => by cases same
  | enter | fail => exact .bind (.bind (Leaves.any.mono fun _ _ _ => .pure (.pure fun _ same => by cases same)))
  | finish =>
    have shape : (ImagePipeline.finishing c m).status.progress.IsObject := inHand.shape
    refine .bind ((saveStatus_leaves quiet inHand shape).mono fun saved h' ⟨m', same, stamps, inHand'⟩ => ?_)
    subst same
    refine .pure fun _ same => ?_
    cases same
    refine ⟨inHand', ?_⟩
    cases stamps
    exact ⟨rfl, rfl, rfl, m.imageReady_setCondition c.now .yes ..⟩

theorem advance_leaves (quiet : S.Quiet) (inHand : InHand S h m) (kept : m.isBeingDeleted = false)
    (held : m.hasFinalizer = true) (asked : m.spec.imageUrl.isTruthy = true) :
    Leaves S h (ImagePipeline.advance c m) fun ended h' => ∀ m', ended = .ready m' → InHand S h' m' ∧ m'.Imaged := by
  rw [ImagePipeline.advance_eq]
  refine .bind (.lift fun name _ => .bind (.lift fun current _ => .bind ?_))
  refine (Leaves.asks quiet (.ask (ImagePipeline.query_untasked c m name current))).mono fun verdict h' same => ?_
  subst same
  refine (carryOut_leaves quiet inHand verdict).mono fun ended h' ready m' same => ?_
  obtain ⟨inHand', deletion, finalizer, imageUrl, ready⟩ := ready m' same
  exact ⟨inHand', deletion.trans kept, finalizer.trans held, by rw [imageUrl, asked], ready⟩

theorem provision_leaves (quiet : S.Quiet) (inHand : InHand S h m) (kept : m.isBeingDeleted = false)
    (held : m.hasFinalizer = true) : Leaves S h (provision c m) fun o h' => o = .done → h'.Rests := by
  unfold provision
  split
  · rename_i unasked
    exact .pure fun _ => inHand.rests (.unasked kept held (by simpa using unasked))
  · rename_i asked
    have asked : m.spec.imageUrl.isTruthy = true := by simpa using asked
    refine .bind (.lift fun failed found => ?_)
    split
    · rename_i isSome
      obtain ⟨reason, rfl⟩ := Option.isSome_iff_exists.1 isSome
      exact .pure fun _ => inHand.rests (.failed _ kept held found)
    · split
      · exact boot_leaves quiet inHand ⟨kept, held, asked, ‹_›⟩
      · refine .bind (((advance_leaves quiet inHand kept held asked).tells (advance_tells m)).mono ?_)
        intro ended h' ⟨ready, _, told⟩
        cases ended with
        | ends o => exact .pure fun done => absurd done told
        | ready m' =>
          obtain ⟨inHand', imaged⟩ := ready m' rfl
          exact boot_leaves quiet inHand' imaged

theorem forgetVm_leaves (quiet : S.Quiet) (inHand : InHand S h m) : Leaves S h (Teardown.forgetVm c m) fun ended h' =>
    ∀ m', ended = .gone m' → InHand S h' m' ∧ m'.isBeingDeleted = m.isBeingDeleted := by
  have shape : (forget m).status.progress.IsObject := inHand.shape
  refine .bind ((saveStatus_leaves quiet inHand shape).mono fun saved h' ⟨m', same, stamps, inHand'⟩ => ?_)
  subst same
  refine .pure fun _ same => ?_
  cases same
  refine ⟨inHand', ?_⟩
  cases stamps
  rfl

theorem awaitStop_leaves (number : Int) : Leaves S h (Teardown.awaitStop c m number) fun ended _ =>
    ∀ m', ended ≠ .gone m' := by
  rw [awaitStop_eq]
  dsimp only
  split
  · exact .bind (Leaves.any.mono fun _ _ _ => .bind (Leaves.any.mono fun _ _ _ => .pure fun _ same => by cases same))
  · exact .bind (Leaves.any.mono fun _ _ _ => .pure fun _ same => by cases same)

theorem removeVm_leaves (quiet : S.Quiet) (inHand : InHand S h m) (number : Int) :
    Leaves S h (Teardown.removeVm c m number) fun ended h' =>
      ∀ m', ended = .gone m' → InHand S h' m' ∧ m'.isBeingDeleted = m.isBeingDeleted := by
  unfold Teardown.removeVm
  refine .ask quiet (Teardown.lookFor_onlyAsks c number) fun known => ?_
  cases known with
  | none => exact forgetVm_leaves quiet inHand
  | some known =>
    dsimp only
    split
    · exact (awaitStop_leaves number).mono fun ended _ never m' same => absurd same (never m')
    · refine .ask quiet (Appliance.deleteVm_onlyAsks ..) fun _ => ?_
      exact forgetVm_leaves quiet inHand

/-- once the finalizer is gone, so is the object, or it is left to others -/
theorem release_leaves (quiet : S.Quiet) (inHand : InHand S h m) (deleted : m.isBeingDeleted = true) :
    Leaves S h (Teardown.release c m) fun _ h' => h'.Rests := by
  refine .bind ((save_leaves quiet inHand _ (.inl rfl)).mono fun saved h' ⟨m', same, stamps, after⟩ => ?_)
  subst same
  refine .pure ?_
  rcases after with inHand' | ⟨-, gone⟩
  · refine inHand'.rests (.bare ?_ ?_) <;> cases stamps
    · exact deleted
    · simp [Machine.hasFinalizer, Machine.amended]
  · exact Held.rests_of_none gone

theorem run_leaves (quiet : S.Quiet) (inHand : InHand S h m) (deleted : m.isBeingDeleted = true) :
    Leaves S h (Teardown.run c m) fun o h' => o = .done → h'.Rests := by
  have ends {h : Held} (m : Machine) (inHand : InHand S h m) (deleted : m.isBeingDeleted = true) :
      Leaves S h (do
        Teardown.removeDisk c m
        Teardown.release c m) fun o h' => o = .done → h'.Rests := by
    refine .ask quiet (Teardown.removeDisk_onlyAsks c m) fun _ => ?_
    exact (release_leaves quiet inHand deleted).mono fun _ _ rests _ => rests
  unfold Teardown.run
  split
  · rename_i released
    exact .pure fun _ => inHand.rests (.bare deleted (by simpa using released))
  · dsimp only
    split
    · rename_i number _
      refine .bind (((removeVm_leaves quiet inHand number).tells (removeVm_tells m number)).mono ?_)
      intro progress h' ⟨gone, _, told⟩
      cases progress with
      | ends o =>
        obtain ⟨after, rfl⟩ := told
        exact .pure nofun
      | gone m' =>
        obtain ⟨inHand', same⟩ := gone m' rfl
        exact ends m' inHand' (same.trans deleted)
    · exact ends m inHand deleted

theorem settle_leaves (quiet : S.Quiet) (inHand : InHand S h m) :
    Leaves S h (settle c m) fun o h' => o = .done → h'.Rests := by
  unfold settle
  cases kept : m.isBeingDeleted with
  | true => exact run_leaves quiet inHand kept
  | false =>
    unfold ensureFinalizer
    cases held : m.hasFinalizer with
    | true => exact provision_leaves quiet inHand kept held
    | false =>
      refine .bind ((save_leaves quiet inHand _ (.inl rfl)).mono fun saved h' ⟨m', same, stamps, after⟩ => ?_)
      subst same
      rcases after with inHand' | ⟨deleted, -⟩
      · refine provision_leaves quiet inHand' ?_ ?_ <;> cases stamps
        · exact kept
        · simp [Machine.hasFinalizer, Machine.amended]
      · rw [kept] at deleted
        cases deleted

/-- what was found is in hand -/
theorem inHand_of_found (quiet : S.Quiet) (sound : h.Sound S) {e : Event} {o : Value} (happens : S.Happens h e)
    (said : e.said = .called (.get .machines (.string S.ns) (.string S.name)) (.ok o)) (read : Machine.ofValue o = .ok m) :
    InHand S e.after m := by
  obtain ⟨same, object⟩ := happens.found quiet said
  rw [same]
  exact .of_ofValue sound object read

theorem machine_leaves (quiet : S.Quiet) (sound : h.Sound S) :
    Leaves S h (machine c S.ns S.name) fun o h' => o = .done → h'.Rests := by
  refine ⟨machine_ends c S.ns S.name fun es r h' looks => ?_⟩
  cases looks with
  | found said takes read =>
    have settled := (settle_leaves (c := c) quiet (inHand_of_found quiet sound takes.happens said read)).left
    exact settled.mono (fun _ _ _ => id) fun _ _ _ _ => ⟨fun _ _ => nofun, fun _ => trivial⟩
  | missing said takes gone =>
    obtain ⟨before, answer⟩ := takes.happens.of_called quiet said
    have none := takes.candid.missing _ _ said gone
    rw [answer.of_get, ← before]
    exact fun _ => Held.rests_of_none none
  | unreadable | refused => exact ⟨fun _ _ => nofun, fun _ => trivial⟩

end Leaving

section Failing

variable {S : Scene} {h : Held} {c : Context} {m : Machine}

/-- where this is the report of a failed task and a status was taken, that was its record -/
structure Sticks (es : List Event) (o : Outcome) (h' : Held) : Prop where
  rests : ∀ step reason detail, o = .failed (.task step reason detail) → (∃ e ∈ es, e.acceptsStatus = true) →
    h'.Rests

variable {es es' : List Event} {o : Outcome} {h' : Held}

theorem Sticks.of_unfailed (unfailed : o.isFailed = false) : Sticks es o h' := by
  refine ⟨fun _ _ _ same => ?_⟩
  rw [same] at unfailed
  cases unfailed

theorem Sticks.after (sticks : Sticks es' o h') (none : ∀ e ∈ es, e.acceptsStatus = false) : Sticks (es ++ es') o h' := by
  refine ⟨fun step reason detail same ⟨e, mem, accepted⟩ => sticks.rests step reason detail same ?_⟩
  rcases List.mem_append.1 mem with before | mem
  · rw [none e before] at accepted
    cases accepted
  · exact ⟨e, mem, accepted⟩

theorem acceptsStatus_of_silent (silent : ∀ e ∈ es, e.said.content? = none) : ∀ e ∈ es, e.acceptsStatus = false := by
  intro e mem
  have said := silent e mem
  unfold Event.acceptsStatus
  split
  · rename_i same
    rw [same] at said
    cases said
  · rfl

theorem suffix_of_failures : ∀ reason ∈ ImagePipeline.failures, "Failed".toList.isSuffixOf reason.toList = true := by
  decide

/-- the record of a failure that is taken lets the machine rest -/
theorem fail_sticks (quiet : S.Quiet) (inHand : InHand S h m) (kept : m.isBeingDeleted = false)
    (held : m.hasFinalizer = true) {step reason message : String} {detail : Value}
    (mem : reason ∈ ImagePipeline.failures) :
    World.Yields S.Happens h ((ImagePipeline.Verdict.fail step reason message detail).carryOut c m)
      (fun es ended h' => ∀ o, ended = .ends o → Sticks es o h') fun _ _ _ => True := by
  have shape : (ImagePipeline.failing c reason message detail m).status.progress.IsObject := inHand.shape
  refine .bind (.bind ((Checkout.save_ends .status _).mono fun es r h' ended => ?_))
  cases ended with
  | unwritable | unreadable | refused => trivial
  | lost _ said =>
    refine .pure (.pure fun o same => ⟨fun _ _ _ _ ⟨e, mem, accepted⟩ => ?_⟩)
    obtain rfl := List.mem_singleton.1 mem
    rw [Event.acceptsStatus, said] at accepted
    cases accepted
  | accepted written said happens read =>
    refine .pure (.pure fun o same => ⟨fun _ _ _ _ _ => ?_⟩)
    rw [inHand.on_eq_call .status (ImagePipeline.failing c reason message detail m) _ rfl rfl] at said
    obtain ⟨saved, -, stamps, inHand'⟩ := Checkout.restated_taken quiet inHand shape written happens said
    refine inHand'.rests (.failed reason ?_ ?_ ?_) <;> cases stamps
    · exact kept
    · exact held
    · exact m.failedImageReason?_setCondition c.now (suffix_of_failures reason mem) _

theorem yields_of_tells {α : Type} {W : World} {p : Action α} {Q : List Event → α → Prop}
    {Q' : List Event → α → Held → Prop} (tells : Tells p Q) (hQ : ∀ es a h', Q es a → Q' es a h') : W.Yields h p Q' fun _ _ _ => True :=
  (tells.told W h).mono hQ fun _ _ _ _ => trivial

theorem advance_sticks (quiet : S.Quiet) (inHand : InHand S h m) (kept : m.isBeingDeleted = false)
    (held : m.hasFinalizer = true) :
    World.Yields S.Happens h (ImagePipeline.advance c m) (fun es ended h' => ∀ o, ended = .ends o → Sticks es o h')
      fun _ _ _ => True := by
  rw [ImagePipeline.advance_eq]
  refine .bind (.lift (fun name _ => ?_) fun _ _ => trivial)
  refine .bind (.lift (fun current _ => ?_) fun _ _ => trivial)
  refine .bind (.ask (fun _ _ => trivial) (fun e r reply verdict _ said happens read => ?_) fun _ _ _ _ _ _ _ _ => trivial)
  rw [happens.of_sent quiet said]
  have none : ∀ e' ∈ [e], e'.acceptsStatus = false := List.forall_mem_singleton.2 (by rw [Event.acceptsStatus, said])
  cases verdict with
  | wait =>
    refine .pure fun o same => ?_
    cases same
    exact .of_unfailed rfl
  | enter next message outcome =>
    refine .bind (.bind (yields_of_tells (saveStatus_tells _) fun _ _ _ _ => .pure (.pure fun o same => ?_)))
    cases same
    refine .of_unfailed ?_
    rcases ImagePipeline.query_requeues read with rfl | rfl <;> rfl
  | fail step reason message detail =>
    refine (fail_sticks quiet inHand kept held (ImagePipeline.query_fails read)).mono ?_ fun _ _ _ => id
    exact fun es ended h' sticks o same => (sticks o same).after none
  | finish =>
    refine .bind (yields_of_tells (saveStatus_tells _) fun _ saved _ _ => ?_)
    cases saved with
    | none =>
      refine .pure fun o same => ?_
      cases same
      exact .of_unfailed rfl
    | some saved =>
      refine .pure fun o same => ?_
      cases same

theorem provision_sticks (quiet : S.Quiet) (inHand : InHand S h m) (kept : m.isBeingDeleted = false)
    (held : m.hasFinalizer = true) : World.Yields S.Happens h (provision c m) Sticks fun _ _ _ => True := by
  unfold provision
  split
  · exact .pure (.of_unfailed rfl)
  · refine .bind (.lift (fun failed _ => ?_) fun _ _ => trivial)
    split
    · exact .pure (.of_unfailed rfl)
    · split
      · exact yields_of_tells (boot_tells m) fun _ _ _ told => .of_unfailed told.unfailed
      · refine .bind ((advance_sticks quiet inHand kept held).mono (fun es ended h' sticks => ?_) fun _ _ _ => id)
        cases ended with
        | ends o =>
          refine .pure ?_
          rw [List.nil_append, List.append_nil]
          exact sticks o rfl
        | ready m' => exact yields_of_tells (boot_tells m') fun _ _ _ told => .of_unfailed told.unfailed

theorem settle_sticks (quiet : S.Quiet) (inHand : InHand S h m) :
    World.Yields S.Happens h (settle c m) Sticks fun _ _ _ => True := by
  unfold settle
  cases kept : m.isBeingDeleted with
  | true => exact yields_of_tells (run_tells m) fun _ _ _ told => .of_unfailed told.unfailed
  | false =>
    unfold ensureFinalizer
    cases held : m.hasFinalizer with
    | true => exact provision_sticks quiet inHand kept held
    | false =>
      refine .bind ((Checkout.save_ends .whole (holdFinalizer m)).mono fun es r h' ended => ?_)
      cases ended with
      | unwritable | unreadable | refused => trivial
      | lost => exact .pure (.of_unfailed rfl)
      | @accepted e _ _ _ written said happens read =>
        have none : ∀ e' ∈ [e], e'.acceptsStatus = false :=
          List.forall_mem_singleton.2 (by rw [Event.acceptsStatus, said]; rfl)
        rw [inHand.on_eq_call .whole (holdFinalizer m) _ rfl rfl] at said
        obtain ⟨saved, read', stamps, after⟩ := Checkout.amended_taken quiet inHand (.inl rfl) written happens said
        obtain rfl := Except.ok.inj (read.symm.trans read')
        rcases after with inHand' | ⟨deleted, -⟩
        · refine (provision_sticks quiet inHand' ?_ ?_).mono (fun _ _ _ sticks => sticks.after none) fun _ _ _ => id <;>
            cases stamps
          · exact kept
          · simp [Machine.hasFinalizer, Machine.amended]
        · rw [kept] at deleted
          cases deleted

theorem machine_sticks (quiet : S.Quiet) (sound : h.Sound S) :
    World.Yields S.Happens h (machine c S.ns S.name) Sticks fun _ _ _ => True := by
  have untasked {es : List Event} {f : Failure} {h' : Held} (other : f.isTask = false) :
      (∀ fault, f = .fault fault → Sticks es (.failed fault) h') ∧ ((∀ fault, f ≠ .fault fault) → True) := by
    refine ⟨fun fault same => ⟨fun _ _ _ reported => ?_⟩, fun _ => trivial⟩
    cases reported
    rw [same] at other
    cases other
  refine machine_ends c S.ns S.name fun es r h' looks => ?_
  have none := acceptsStatus_of_silent looks.silent
  rcases r with f | _ | m
  · exact untasked (looks.untasked.other f rfl)
  · exact .of_unfailed rfl
  · cases looks with
    | found said happens read =>
      have settled := settle_sticks (c := c) quiet (inHand_of_found quiet sound happens said read)
      refine (settled.and ((settle_tells m).told _ _)).mono (fun _ _ _ ⟨sticks, _⟩ => sticks.after none) ?_
      exact fun _ _ _ ⟨_, other⟩ => untasked other

end Failing

section Invocations

variable {S : Scene} {c : Context} {h h' h'' : Held} {es : List Event} {r : Except Failure Outcome}

/-- an invocation came to an end that is to last: it was done and all of its writes were taken, or a task failed and that
was recorded -/
inductive Concluded (es : List Event) : Except Failure Outcome → Prop
  | done (taken : ∀ e ∈ es, e.rejects = false) : Concluded es (.ok .done)
  | failed {step reason detail : Value} (recorded : ∃ e ∈ es, e.acceptsStatus = true) :
      Concluded es (.ok (.failed (.task step reason detail)))

theorem rests_of_concluded (quiet : S.Quiet) (sound : h.Sound S) (plays : S.Plays h (machine c S.ns S.name).run es r h')
    (candid : ∀ e ∈ es, e.Candid S) (concluded : Concluded es r) : h'.Rests := by
  cases concluded with
  | done taken =>
    have takes := plays.inWorld.within fun _ e mem happens => (⟨happens, candid e mem, taken e mem⟩ : S.Takes _ e)
    exact (machine_leaves quiet sound).left es _ h' takes rfl
  | failed recorded => exact (machine_sticks quiet sound es _ h' plays.inWorld).rests _ _ _ rfl recorded

/-- an invocation looked at the machine once, said nothing else, and was done -/
structure Invocation.Idle (S : Scene) (i : Invocation) : Prop where
  looks : ∃ e reply, i.events = [e] ∧ e.said = .called (.get .machines (.string S.ns) (.string S.name)) reply
  done : i.result = .ok .done

/-- an invocation for what is at rest looks and is done -/
theorem machine_idles (quiet : S.Quiet) (rests : h.Rests) :
    World.Yields (fun h e => S.Happens h e ∧ e.Faithful S) h (machine c S.ns S.name)
      (fun es o h' => h' = h ∧ Invocation.Idle S ⟨c, es, .ok o⟩) fun _ _ _ => False := by
  refine machine_ends c S.ns S.name fun es r h' looks => ?_
  cases looks with
  | found said happens read =>
    obtain ⟨same, object⟩ := happens.1.found quiet said
    obtain ⟨m, read', rests⟩ := rests.machine _ object
    obtain rfl := Except.ok.inj (read.symm.trans read')
    dsimp only
    rw [settle_of_rests rests c]
    exact .pure ⟨same, ⟨_, _, rfl, said⟩, rfl⟩
  | unreadable said happens read =>
    obtain ⟨-, object⟩ := happens.1.found quiet said
    obtain ⟨m, read', -⟩ := rests.machine _ object
    rw [read] at read'
    cases read'
  | missing said happens gone =>
    obtain ⟨-, answer⟩ := happens.1.of_called quiet said
    exact ⟨answer.of_get, ⟨_, _, rfl, said⟩, rfl⟩
  | refused said happens other =>
    rw [(happens.2.missing _ _ said).1] at other
    cases other

theorem idle_of_rests (quiet : S.Quiet) (rests : h.Rests) (plays : S.Plays h (machine c S.ns S.name).run es r h')
    (faithful : ∀ e ∈ es, e.Faithful S) : h' = h ∧ Invocation.Idle S ⟨c, es, r⟩ := by
  have idles := machine_idles (c := c) quiet rests es r h'
    (plays.inWorld.within fun _ e mem happens => ⟨happens, faithful e mem⟩)
  cases r with
  | ok o => exact idles
  | error => exact idles.elim

/-- Nobody else writes. After an invocation that was done with all of its writes taken, or that reported a failed task and
recorded that, the store stays as it is: however often the machine is looked at again, and whatever the appliance would
say, every invocation sends no request and writes nothing, it looks at the machine once and is done. -/
theorem quiescence (quiet : S.Quiet) (sound : h.Sound S) (plays : S.Plays h (machine c S.ns S.name).run es r h')
    (candid : ∀ e ∈ es, e.Candid S) (concluded : Concluded es r) {later : List Invocation} (run : Run S h' later h'')
    (faithful : ∀ e ∈ events later, e.Faithful S) : h'' = h' ∧ ∀ i ∈ later, i.Idle S := by
  have rests := rests_of_concluded quiet sound plays candid concluded
  induction run with
  | nil => exact ⟨rfl, List.forall_mem_nil _⟩
  | snoc _ next ih =>
    rw [events_snoc] at faithful
    obtain ⟨before, last⟩ := List.forall_mem_append.1 faithful
    obtain ⟨rfl, idle⟩ := ih before
    obtain ⟨rfl, now⟩ := idle_of_rests quiet rests next last
    exact ⟨rfl, forall_snoc idle now⟩

/-- the provider id of a machine that is reachable is written, and then the machine is left alone -/
theorem quiescence_named : ∃ es h' later h'', Sample.alone.Plays ⟨some unnamed, [.string "1"]⟩
      (machine Sample.context "default" "worker").run es (.ok .done) h' ∧ es.any (·.said.accepts) = true ∧
    Run Sample.alone h' later h'' ∧ later.length = 2 ∧ h'' = h' ∧ ∀ i ∈ later, i.Idle Sample.alone := by
  obtain ⟨es, r, h', plays, seen⟩ := Sample.alone.exists_plays (machine Sample.context "default" "worker").run
    ⟨some unnamed, [.string "1"]⟩ [.gives, .takes "2"]
    (fun played => played.2.1.toOption = some .done && played.1.any (·.said.accepts) &&
      (played.1.all fun e => !e.rejects && !e.blind) &&
      (Sample.alone.rehearseAll played.2.2 [(Sample.context, [.gives]), (Sample.context, [.gives])]).any fun next =>
        next.1.length = 2 && (events next.1).all fun e => !e.blind)
    (by decide +kernel)
  simp only [Bool.and_eq_true, Bool.not_eq_true', decide_eq_true_eq, List.all_eq_true] at seen
  obtain ⟨⟨⟨done, accepts⟩, taken⟩, next⟩ := seen
  obtain rfl := ok_of_toOption done
  obtain ⟨later, h'', run, seen⟩ := Sample.alone.exists_run _ _ _ next
  simp only [Bool.and_eq_true, Bool.not_eq_true', decide_eq_true_eq, List.all_eq_true] at seen
  obtain ⟨two, sees⟩ := seen
  have sound : Held.Sound Sample.alone ⟨some unnamed, [.string "1"]⟩ := Held.sound_single ⟨rfl, rfl, rfl, rfl, rfl⟩
  exact ⟨es, h', later, h'', plays, accepts, run, two, quiescence (fun _ _ => id) sound plays
    (fun e mem => (Event.faithful_of_seeing (taken e mem).2).candid) (.done fun e mem => (taken e mem).1) run
    fun e mem => Event.faithful_of_seeing (sees e mem)⟩

end Invocations

end Reconcile

end VmOperator
