import VmOperator.Proofs.Reconcile.Station

/-! A machine comes up where all goes well. Between two invocations it stands at a station; an invocation either goes
on by one station, or the appliance asked for patience once and it stays (`machine_succeeds`). So the number of
invocations is the number of stations and of waits (`provisioned_in_time`). -/

namespace VmOperator

/-- how an invocation ends that has a virtual machine to look for -/
inductive Station.Ends : Station → Nat → Outcome → Prop
  | looking (after : Number) : Ends .looking 1 (.requeue after)
  | there : Ends .there 0 .done

/-- the virtual machine is recorded and was looked for, after these submissions -/
def Plan.Boots (P : Plan) (S : Scene) (first : Value) (mac : String) (all : List Event) (paths : List String)
    (es : List Event) (o : Outcome) (h : Held) : Prop :=
  ∃ σ waits m, σ.Ends waits o ∧ Tally mac es paths waits ∧ P.Stands S first mac (all ++ es) σ h m

section Invocations

open World

variable {P : Plan} {S : Scene} {c : Context} {mac : String} {first : Value} {all es es' : List Event}
    {paths paths' : List String}
  {h h' : Held} {m : Machine} {o : Outcome} {number : Int} {p : Phase}
  (quiet : S.Quiet) (set : mac ≠ "") (stored : P.layout.storage ≠ "") (layout : c.layout = P.layout)
  (inHand : InHand S h m) (brings : P.Brings m)

namespace Plan

theorem Boots.after (tally : Tally mac es paths 0) (boots : P.Boots S first mac (all ++ es) paths' es' o h') :
    P.Boots S first mac all (paths ++ paths') (es ++ es') o h' := by
  obtain ⟨σ, waits, m, ends, tally', stands⟩ := boots
  rw [List.append_assoc] at stands
  have both := tally.append tally'
  rw [Nat.zero_add] at both
  exact ⟨σ, waits, m, ends, both, stands⟩

end Plan

namespace Discovery

include quiet set inHand brings

theorem discover_boots {known : Option Appliance.Vm}
    (numbered : P.Numbered first all number m.status m.spec.providerId) (unreached : m.status.addresses = [])
    (seen : ∀ vm, known = some vm → vm.mac.isTruthy = true → vm.mac = .string mac) :
    (S.serving mac).Succeeds h (discover c m known) (P.Boots S first mac all []) := by
  refine discover_succeeds quiet inHand brings.asked set numbered.vmId unreached seen
    fun es o m' h' looked inHand' => ?_
  cases looked with
  | waits tally =>
    exact ⟨.looking, 1, m, .looking _, tally, inHand', brings, ⟨number, numbered.append es⟩, unreached⟩
  | found addresses tally listed some stamps =>
    obtain ⟨e, mem, lists⟩ := listed
    have there := (numbered.append es).found (c := c) (List.mem_append_right all mem) lists some
    have brings' := (brings.restated (markReady c m addresses).status.rendered).stamps stamps
    refine ⟨.there, 0, m', .there, tally, inHand', brings', ?_⟩
    cases stamps
    exact there

end Discovery

namespace Boot

/-- the provider id is given once and stays -/
theorem lastingId_eq (given : m.spec.providerId = first ∨
    m.spec.providerId = first.orElse (.string (providerId (.int number)))) :
    lastingId m number = first.orElse (.string (providerId (.int number))) := by
  rw [lastingId]
  rcases given with given | given <;> rw [given]
  by_cases set : first.isTruthy = true
  · rw [Value.orElse_eq_self set, Value.orElse_eq_self set]
  · rw [Value.orElse_of_unset (Bool.eq_false_iff.2 set)]
    exact Value.orElse_eq_self (Reconcile.providerId_set _)

/-- the virtual machine is recorded first, and then the machine is named after it -/
theorem numbered_of_named {recorded latest : Machine} {id : Value} (blank : Plan.Blank first m.status m.spec.providerId)
    (ready : m.status.Meets .imageReady) (created : ∃ e ∈ es, e.created? = some number)
    (record : { m with status := (record c number P.final m).status.rendered }.Stamps recorded)
    (name : (recorded.amended recorded.finalizers id).Stamps latest)
    (given : id = first.orElse (.string (providerId (.int number)))) :
    P.Numbered first (all ++ es) number latest.status latest.spec.providerId ∧ latest.status.addresses = [] := by
  obtain ⟨e, mem, created⟩ := created
  obtain ⟨vmId, disk, image, mirror, unreached⟩ := blank.record (P := P) (c := c) ready number
  cases record
  cases name
  exact ⟨⟨⟨e, List.mem_append_right _ mem, created⟩, vmId, disk, image, mirror, given⟩, unreached⟩

include quiet inHand brings in
/-- a machine that is recorded has its provider id -/
theorem ensureProviderId_stays {Q : List Event → Machine → Held → Prop}
    (numbered : P.Numbered first all number m.status m.spec.providerId)
    (hQ : ∀ es latest h', Tally mac es [] 0 → m.Stamps latest → InHand S h' latest → Q es latest h') :
    (S.serving mac).Succeeds h (ensureProviderId m) Q := by
  refine ensureProviderId_succeeds quiet inHand brings.kept brings.asked numbered.vmId
    fun es latest h' tally stamps inHand' => ?_
  rw [lastingId_eq (.inr numbered.providerId), ← numbered.providerId] at stamps
  exact hQ es latest h' tally stamps inHand'

include quiet set inHand brings

theorem existing_boots (numbered : P.Numbered first all number m.status m.spec.providerId)
    (unreached : m.status.addresses = []) :
    (S.serving mac).Succeeds h (existing c m number) (P.Boots S first mac all []) := by
  unfold existing
  refine .bind (ensureProviderId_stays quiet inHand brings numbered fun es latest h' tally stamps inHand' => ?_)
  have brings' := brings.stamps stamps
  have numbered' : P.Numbered first (all ++ es) number latest.status latest.spec.providerId := by
    cases stamps
    exact numbered.append es
  have unreached' : latest.status.addresses = [] := by
    cases stamps
    exact unreached
  rw [unreached]
  refine .bind (Appliance.getVm_succeeds quiet fun es₁ known tally₁ mac_eq => ?_)
  have seen : ∀ vm, some known.vm = some vm → vm.mac.isTruthy = true → vm.mac = .string mac :=
    fun vm same _ => Option.some.inj same ▸ mac_eq
  have numbered' := numbered'.append es₁
  cases known.vm.isStopped with
  | false =>
    exact (Discovery.discover_boots quiet set inHand' brings' numbered' unreached' seen).mono fun es' o h' boots =>
      .after tally (.after tally₁ boots)
  | true =>
    refine .bind (Appliance.startVm_succeeds quiet fun es₂ tally₂ => ?_)
    exact (Discovery.discover_boots quiet set inHand' brings' (numbered'.append es₂) unreached' seen).mono
      fun es' o h' boots => .after tally (.after tally₁ (.after tally₂ boots))

theorem create_boots {text : String} (blank : Plan.Blank first m.status m.spec.providerId)
    (ready : m.status.Meets .imageReady) :
    (S.serving mac).Succeeds h (create c m P.final text) (P.Boots S first mac all ["/vm/"]) := by
  unfold create
  refine .bind (Appliance.createVm_succeeds quiet fun es known tally created seen => ?_)
  refine .bind (Checkout.saveStatusSurely_succeeds ?_)
  have shape : (record c known.number P.final m).status.progress.IsObject := inHand.shape
  refine Checkout.restate_succeeds quiet inHand brings.asked shape
    fun e call reply recorded h₁ said stamps inHand₁ => ?_
  have brings₁ := (brings.restated (record c known.number P.final m).status.rendered).stamps stamps
  have vmId : recorded.status.vmId = some known.number := by
    cases stamps
    rfl
  have asked : recorded.spec.providerId = first := by
    cases stamps
    exact blank.providerId
  refine .bind (ensureProviderId_succeeds quiet inHand₁ brings₁.kept brings₁.asked vmId
    fun es₁ latest h₂ tally₁ stamps₁ inHand₂ => ?_)
  have brings₂ := (brings₁.amended recorded.finalizers (lastingId recorded known.number)).stamps stamps₁
  obtain ⟨numbered, unreached⟩ : P.Numbered first (all ++ es) known.number latest.status latest.spec.providerId ∧
      latest.status.addresses = [] :=
    numbered_of_named blank ready created stamps stamps₁ (lastingId_eq (.inl asked))
  refine .bind (Appliance.startVm_succeeds quiet fun es₂ tally₂ => ?_)
  have numbered := ((numbered.append [e]).append es₁).append es₂
  exact (Discovery.discover_boots quiet set inHand₂ brings₂ numbered unreached fun vm same =>
    Option.some.inj same ▸ seen).mono fun es' o h' boots =>
      .after tally (.after (Tally.called said) (.after tally₁ (.after tally₂ boots)))

end Boot

namespace ImagePipeline

/-- what an invocation does for the image: it waits, it enters the next phase, or it goes on with the machine -/
inductive Advanced (P : Plan) (S : Scene) (first : Value) (mac : String) (p : Phase) (h : Held) (m : Machine) :
    List Event → Advance → Held → Prop
  | waits {es : List Event} {after : Number} (tally : Tally mac es [] 1) :
      Advanced P S first mac p h m es (.ends (.requeue after)) h
  | enters (next : Phase) (saved : Machine) {es : List Event} {after : Number} {h' : Held}
      (tally : Tally mac es (submits p) 0) (level : P.level (.imaging next) = P.level (.imaging p) + 1)
      (inHand : InHand S h' saved) (brings : P.Brings saved)
      (imaging : P.Imaging first next saved.status saved.spec.providerId) :
      Advanced P S first mac p h m es (.ends (.requeue after)) h'
  | finishes (task : Int) (saved : Machine) {es : List Event} {h' : Held} (resizing : p = .resizing (some task))
      (tally : Tally mac es [] 0) (inHand : InHand S h' saved) (brings : P.Brings saved)
      (blank : Plan.Blank first saved.status saved.spec.providerId) (ready : saved.status.Meets .imageReady) :
      Advanced P S first mac p h m es (.ready saved) h'

include quiet stored layout inHand brings in
theorem advance_succeeds (imaging : P.Imaging first p m.status m.spec.providerId) :
    (S.serving mac).Succeeds h (advance c m) (Advanced P S first mac p h m) := by
  have decoded : Phase.decode m.status.progress = .ok p := by
    rw [imaging.progress]
    exact Phase.decode_encode (imaging.fits.placed stored)
  obtain ⟨r, written⟩ := query_written imaging.fits brings.wanted layout
  rw [advance_eq]
  refine .bind (.lift brings.wanted.imageName (.bind (.lift decoded (.bind ?_))))
  refine Appliance.Query.ask_succeeds quiet written fun e reply v said result grants pends => ?_
  have tally : Tally mac [e] (submits p) (e.pends mac).toNat := tally_query written said
  rw [matter_query written] at grants pends
  rw [pends] at tally
  obtain ⟨verdict, read, granted⟩ := query_granted imaging.fits brings.wanted layout result grants
  refine ⟨verdict, read, ?_⟩
  generalize waits : (topic p).pends mac v = waits at granted tally
  cases granted with
  | wait =>
    rw [submits_of_pends waits] at tally
    exact .pure (.waits (tally.append .nil))
  | enter next message after =>
    have enters := query_enters read
    have fits := imaging.fits.enters brings.wanted layout enters
    have after := imaging.entering (c := c) fits message
    refine .bind (.map (Checkout.save_succeeds .status ?_))
    refine Checkout.restate_succeeds quiet inHand brings.asked
      (s := (entering c next message m).status) trivial
      fun e' call reply saved h' said' stamps inHand' => .pure ?_
    have both := tally.append (Tally.called said')
    rw [List.append_nil] at both
    refine .enters next saved both (Plan.level_enters imaging.fits brings.wanted layout enters) inHand'
      ((brings.restated _).stamps stamps) ?_
    cases stamps
    exact after
  | finish =>
    obtain ⟨task, -, resizing, -⟩ := query_finishes read
    have after := imaging.toBlank.finishing (c := c)
    refine .bind (Checkout.save_succeeds .status ?_)
    refine Checkout.restate_succeeds quiet inHand brings.asked (s := (finishing c m).status) inHand.shape
      fun e' call reply saved h' said' stamps inHand' => .pure ?_
    have nothing : submits p = [] := by rw [resizing]; rfl
    rw [nothing] at tally
    have brings' := (brings.restated _).stamps stamps
    have both := tally.append ((Tally.called said').append .nil)
    refine .finishes task saved resizing both inHand' brings' ?_ ?_ <;> cases stamps
    · exact after.1
    · exact after.2

end ImagePipeline

namespace Reconcile

open ImagePipeline (advance Advanced advance_succeeds)

/-- what an invocation makes of a station: it was left for the next one, or patience was asked for once -/
structure Passes (P : Plan) (S : Scene) (first : Value) (mac : String) (all : List Event) (σ : Station)
    (es : List Event) (o : Outcome) (h : Held) (σ' : Station) (m : Machine) (paths : List String) (waits : Nat) : Prop where
  stands : P.Stands S first mac (all ++ es) σ' h m
  tally : Tally mac es paths waits
  sofar : P.sofar σ' = P.sofar σ ++ paths
  goes : P.level σ < P.rounds → P.level σ' + waits = P.level σ + 1
  stays : P.level σ = P.rounds → P.level σ' = P.rounds ∧ waits = 0
  outcome : P.level σ' < P.rounds ∧ (∃ after, o = .requeue after) ∨ P.level σ' = P.rounds ∧ o = .done

def Passed (P : Plan) (S : Scene) (first : Value) (mac : String) (all : List Event) (σ : Station) (es : List Event)
    (o : Outcome) (h : Held) : Prop :=
  ∃ σ' m paths waits, Passes P S first mac all σ es o h σ' m paths waits

variable {σ : Station}

theorem Passed.after (tally : Tally mac es [] 0) (passed : Passed P S first mac (all ++ es) σ es' o h') :
    Passed P S first mac all σ (es ++ es') o h' := by
  obtain ⟨σ', m, paths, waits, passes⟩ := passed
  have stands := passes.stands
  have both := tally.append passes.tally
  rw [List.append_assoc] at stands
  rw [Nat.zero_add] at both
  exact ⟨σ', m, paths, waits, { passes with stands, tally := both }⟩

/-- whoever looks for a virtual machine stands at the last station but one -/
theorem passed_of_boots (before : P.level σ + 1 = P.rounds) (sofar : P.submissions = P.sofar σ ++ paths)
    (boots : P.Boots S first mac all paths es o h') : Passed P S first mac all σ es o h' := by
  obtain ⟨σ', waits, m, ends, tally, stands⟩ := boots
  have apart : P.level σ ≠ P.rounds := before ▸ Nat.ne_of_lt (Nat.lt_succ_self _)
  cases ends with
  | looking after =>
    refine ⟨.looking, m, paths, 1, stands, tally, sofar, fun _ => ?_, fun same => absurd same apart,
      .inl ⟨?_, after, rfl⟩⟩
    · rw [P.level_looking, before]
    · rw [← P.level_looking]
      exact Nat.lt_succ_self _
  | there =>
    refine ⟨.there, m, paths, 0, stands, tally, sofar, fun _ => ?_, fun same => absurd same apart,
      .inr ⟨P.level_there, rfl⟩⟩
    rw [P.level_there, before, Nat.add_zero]

section Boots

include quiet set layout inHand brings

theorem boot_boots (blank : Plan.Blank first m.status m.spec.providerId) (ready : m.status.Meets .imageReady) :
    (S.serving mac).Succeeds h (boot c m) (P.Boots S first mac all ["/vm/"]) := by
  unfold boot Boot.ensure
  refine .bind (.lift (brings.wanted.finalPath layout) ?_)
  rw [blank.unnumbered]
  refine .bind (Boot.userData_succeeds quiet brings.owned fun es text tally => ?_)
  refine .bind (.lift rfl ?_)
  exact (Boot.create_boots quiet set inHand brings blank ready).mono fun es' o h' boots => .after tally boots

theorem boot_looks (numbered : P.Numbered first all number m.status m.spec.providerId)
    (unreached : m.status.addresses = []) :
    (S.serving mac).Succeeds h (boot c m) (P.Boots S first mac all []) := by
  unfold boot Boot.ensure
  refine .bind (.lift (brings.wanted.finalPath layout) ?_)
  rw [numbered.vmId]
  exact Boot.existing_boots quiet set inHand brings numbered unreached

end Boots

include quiet layout inHand brings in
/-- a machine that is ready is left as it is -/
theorem boot_rests (numbered : P.Numbered first all number m.status m.spec.providerId)
    (reached : m.status.Reached mac all) :
    (S.serving mac).Succeeds h (boot c m) (Passed P S first mac all .there) := by
  unfold boot Boot.ensure Boot.existing
  refine .bind (.lift (brings.wanted.finalPath layout) ?_)
  rw [numbered.vmId]
  refine .bind (Boot.ensureProviderId_stays quiet inHand brings numbered fun es latest h' tally stamps inHand' => ?_)
  have brings' := brings.stamps stamps
  have here : P.At first mac (all ++ es) latest.status latest.spec.providerId .there := by
    cases stamps
    exact ⟨⟨number, numbered.append es⟩, reached.append es⟩
  have known : (!m.status.addresses.isEmpty) = true := by
    obtain ⟨addresses, some, -, same⟩ := reached.addresses
    rw [same]
    cases addresses with
    | nil => exact absurd rfl some
    | cons => rfl
  rw [known]
  refine .pure ⟨.there, latest, [], 0, ⟨inHand', brings', ?_⟩, tally.append .nil, (List.append_nil _).symm,
    fun below => ?_, fun _ => ⟨P.level_there, rfl⟩, .inr ⟨P.level_there, rfl⟩⟩
  · rw [List.append_nil]
    exact here
  · rw [P.level_there] at below
    exact absurd below (Nat.lt_irrefl _)

section Passes

include quiet set stored layout

include inHand brings in
theorem imaging_passes (imaging : P.Imaging first p m.status m.spec.providerId) :
    (S.serving mac).Succeeds h (provision c m) (Passed P S first mac all (.imaging p)) := by
  obtain ⟨unready, unfailed⟩ := imaging.pending
  have advances : (S.serving mac).Succeeds h (advance c m) (Advanced P S first mac p h m) :=
    advance_succeeds quiet stored layout inHand brings imaging
  have below := Plan.level_lt_rounds imaging.fits
  unfold provision
  rw [brings.asked]
  refine .bind (.lift unfailed ?_)
  rw [unready]
  refine .bind (advances.mono fun es a h' advanced => ?_)
  cases advanced with
  | waits tally =>
    exact .pure ⟨.imaging p, m, [], 1, ⟨inHand, brings, imaging⟩, tally.append .nil, (List.append_nil _).symm,
      fun _ => rfl, fun same => absurd same (Nat.ne_of_lt below), .inl ⟨below, _, rfl⟩⟩
  | enters next saved tally level inHand' brings' imaging' =>
    refine .pure ⟨.imaging next, saved, ImagePipeline.submits p, 0, ⟨inHand', brings', imaging'⟩, ?_, ?_,
      fun _ => level, fun same => absurd same (Nat.ne_of_lt below), .inl ⟨Plan.level_lt_rounds imaging'.fits, _, rfl⟩⟩
    · rw [List.append_nil]
      exact tally
    · rw [Plan.sofar, level]
      exact Plan.sofar_succ imaging.fits
  | finishes task saved resizing tally inHand' brings' blank ready =>
    subst resizing
    have rest : (S.serving mac).Succeeds h' (boot c saved) (P.Boots S first mac (all ++ es) ["/vm/"]) :=
      boot_boots quiet set layout inHand' brings' blank ready
    refine rest.mono fun es' o h' boots => ?_
    rw [List.nil_append]
    exact .after tally (passed_of_boots (P.level_last task) (P.sofar_last task) boots)

theorem provision_passes (stands : P.Stands S first mac all σ h m) :
    (S.serving mac).Succeeds h (provision c m) (Passed P S first mac all σ) := by
  obtain ⟨inHand, brings, here⟩ := stands
  cases σ with
  | imaging p => exact imaging_passes quiet set stored layout inHand brings here
  | looking =>
    obtain ⟨⟨number, numbered⟩, unreached⟩ := here
    unfold provision
    rw [brings.asked]
    refine .bind (.lift (Machine.unfailed_of_ready _ numbered.image) ?_)
    rw [m.imageReady_iff.2 numbered.image]
    exact (boot_looks quiet set layout inHand brings numbered unreached).mono fun es o h' boots =>
      passed_of_boots P.level_looking (List.append_nil _).symm boots
  | there =>
    obtain ⟨⟨number, numbered⟩, reached⟩ := here
    unfold provision
    rw [brings.asked]
    refine .bind (.lift (Machine.unfailed_of_ready _ numbered.image) ?_)
    rw [m.imageReady_iff.2 numbered.image]
    exact boot_rests quiet layout inHand brings numbered reached

theorem settle_passes (stands : P.Stands S first mac all σ h m) :
    (S.serving mac).Succeeds h (settle c m) (Passed P S first mac all σ) := by
  have inHand := stands.inHand
  have brings := stands.brings
  unfold settle ensureFinalizer
  rw [brings.kept]
  cases m.hasFinalizer with
  | true => exact .bind (.pure (provision_passes quiet set stored layout stands))
  | false =>
    refine .bind (Checkout.save_succeeds .whole ?_)
    refine Checkout.amend_succeeds quiet inHand brings.kept brings.asked (.inl rfl)
      fun e call reply saved h' said stamps inHand' => ?_
    have brings' := (brings.amended _ _).stamps stamps
    have here : P.At first mac (all ++ [e]) saved.status saved.spec.providerId σ := by
      cases stamps
      exact stands.here.append [e]
    exact (provision_passes quiet set stored layout ⟨inHand', brings', here⟩).mono fun es o h' passed =>
      .after (.called said) passed

/-- an invocation passes the station -/
theorem machine_succeeds (stands : P.Stands S first mac all σ h m) :
    (S.serving mac).Succeeds h (machine c S.ns S.name) (Passed P S first mac all σ) := by
  unfold machine reported
  refine .tryCatch (.bind (Store.getMachine_succeeds quiet stands.inHand fun e call reply said => ?_))
  have later : P.Stands S first mac (all ++ [e]) σ h m := { stands with here := stands.here.append [e] }
  exact (settle_passes quiet set stored layout later).mono fun es o h' passed => .after (.called said) passed

end Passes

/-- how long a run took to a station, and what its invocations came to -/
structure InTime (P : Plan) (σ : Station) (past : List Invocation) (waits : Nat) : Prop where
  early : P.level σ < P.rounds → past.length = P.level σ + waits
  late : P.level σ = P.rounds → P.rounds + waits ≤ past.length
  results : ∀ (i : Nat) (inv : Invocation), past[i]? = some inv →
    (i + 1 < P.rounds + waits → ∃ after, inv.result = .ok (.requeue after)) ∧
      (P.rounds + waits ≤ i + 1 → inv.result = .ok .done)

variable {past : List Invocation} {waits waits' : Nat} {σ' : Station}

theorem InTime.snoc {paths : List String} (inTime : InTime P σ past waits) (below : P.level σ ≤ P.rounds)
    (passes : Passes P S first mac all σ es o h σ' m paths waits') :
    InTime P σ' (past ++ [⟨c, es, .ok o⟩]) (waits + waits') := by
  obtain ⟨early, late, results⟩ := inTime
  have goes := passes.goes
  have stays := passes.stays
  have outcome := passes.outcome
  constructor
  · intro early'
    rw [List.length_append, List.length_singleton]
    omega
  · intro late'
    rw [List.length_append, List.length_singleton]
    omega
  · intro i inv found
    rcases Nat.lt_or_ge i past.length with old | new
    · -- an invocation before the end of the run is late only where the machine was there before
      rw [List.getElem?_append_left old] at found
      obtain ⟨requeued, done⟩ := results i inv found
      exact ⟨fun soon => requeued (by omega), fun due => done (by omega)⟩
    · rw [List.getElem?_append_right new] at found
      obtain ⟨here, same⟩ := List.getElem?_eq_some_iff.1 found
      rw [List.getElem_singleton] at same
      rw [List.length_singleton] at here
      subst same
      refine ⟨fun soon => ?_, fun due => ?_⟩
      · rcases outcome with ⟨-, after, rfl⟩ | ⟨there, -⟩
        · exact ⟨after, rfl⟩
        · omega
      · rcases outcome with ⟨ahead, -⟩ | ⟨-, rfl⟩
        · omega
        · rfl

def pending (mac : String) (past : List Invocation) : Nat := (events past).countP (·.pends mac)

include quiet set stored in
/-- every invocation of a run from the first station passes one -/
theorem run_passes {start : Held} {m₀ : Machine}
    (stands : P.Stands S first mac [] (.imaging .notStarted) start m₀) (run : Run S start past h)
    (served : ∀ e ∈ events past, e.served mac = true) (layouts : ∀ i ∈ past, i.context.layout = P.layout) :
    ∃ σ m, P.Stands S first mac (events past) σ h m ∧ submissions (events past) = P.sofar σ ∧
    InTime P σ past (pending mac past) := by
  -- on the invocations: the last one starts at the station where those before it stopped
  induction run with
  | nil =>
    refine ⟨.imaging .notStarted, m₀, stands, ?_, fun _ => ?_, fun late => ?_, fun i inv found => ?_⟩
    · rw [Plan.sofar, P.level_notStarted]
      rfl
    · rw [P.level_notStarted]
      rfl
    · exact absurd late (Nat.ne_of_lt (Plan.level_lt_rounds .notStarted))
    · cases found
  | snoc run plays ih =>
    rename_i past h h' c es r
    rw [events_snoc] at served
    obtain ⟨before, now⟩ := List.forall_mem_append.1 served
    obtain ⟨earlier, layout⟩ := List.forall_mem_append.1 layouts
    obtain ⟨σ, m, stands, sofar, inTime⟩ := ih before earlier
    have succeeds : (S.serving mac).Succeeds h (machine c S.ns S.name) (Passed P S first mac (events past) σ) :=
      machine_succeeds quiet set stored (layout _ (List.mem_singleton.2 rfl)) stands
    obtain ⟨o, rfl, σ', m', paths, waited, passes⟩ := succeeds _ _ _ (plays.served now)
    refine ⟨σ', m', ?_, ?_, ?_⟩
    · rw [events_snoc]
      exact passes.stands
    · rw [events_snoc, submissions, List.filterMap_append, passes.sofar, ← sofar, ← passes.tally.submitted]
      rfl
    · rw [pending, events_snoc, List.countP_append, passes.tally.waited]
      exact inTime.snoc stands.here.level_le passes

end Reconcile

end Invocations

namespace Reconcile

variable {S : Scene} {P : Plan} {mac : String} {start h : Held} {past : List Invocation}

/-- in every run from an empty status where nobody else writes and all is granted: the invocations ask for another one
until as many are over as there are stations and waits, and are done from then on; the steps are submitted once each, in
order, and in the end the machine is stored as it was brought up -/
theorem provisioned_in_time {o : Value} {m : Machine} (quiet : S.Quiet) (sound : start.Sound S)
    (object : start.object = some o) (read : Machine.ofValue o = .ok m) (empty : m.status = {}) (brings : P.Brings m)
    (stored : P.layout.storage ≠ "") (set : mac ≠ "") (run : Run S start past h)
    (served : ∀ e ∈ events past, e.served mac = true) (layouts : ∀ i ∈ past, i.context.layout = P.layout) :
    (∀ (i : Nat) (inv : Invocation), past[i]? = some inv →
      (i + 1 < P.rounds + pending mac past → ∃ after, inv.result = .ok (.requeue after)) ∧
      (P.rounds + pending mac past ≤ i + 1 → inv.result = .ok .done)) ∧
    submissions (events past) <+: P.submissions ∧
    (P.rounds + pending mac past ≤ past.length → submissions (events past) = P.submissions ∧
      ∃ o' m' number, h.object = some o' ∧ Machine.ofValue o' = .ok m' ∧
        P.Numbered m.spec.providerId (events past) number m'.status m'.spec.providerId ∧
        m'.status.Reached mac (events past)) := by
  have stands : P.Stands S m.spec.providerId mac [] (.imaging .notStarted) start m := by
    refine ⟨.of_ofValue sound object read, brings, ?_⟩
    rw [empty]
    exact ⟨⟨rfl, rfl, rfl, rfl⟩, rfl, .notStarted, nofun⟩
  obtain ⟨σ, m', stands, sofar, inTime⟩ := run_passes quiet set stored stands run served layouts
  refine ⟨inTime.results, ?_, fun late => ?_⟩
  · rw [sofar]
    cases σ with
    | imaging => exact List.take_prefix ..
    | looking | there => exact List.prefix_refl _
  · have last : P.level σ = P.rounds := by
      have below := stands.here.level_le
      have early := inTime.early
      omega
    obtain rfl := stands.here.eq_there last
    obtain ⟨⟨number, numbered⟩, reached⟩ := stands.here
    exact ⟨sofar, _, m', number, stands.inHand.object, stands.inHand.read, numbered, reached⟩

def alone : Scene where
  ns := "default"
  name := "worker"
  allows _ _ := False

def hardwareAddress : String := "02:00:00:00:00:01"

def sampled : Machine where
  name := .string "worker"
  ns := .string "default"
  spec := ⟨.string "worker", 1, 1024, 10, .string "http://images/disk.raw", .string ""⟩
  finalizers := [Machine.finalizerValue]
  resourceVersion := .string "1"
  owners := [{ apiVersion := .string "cluster.x-k8s.io/v1beta2", kind := .string "Machine", name := .string "worker" }]
  stored := Bench.fieldsOf Sample.object

def seen : Cue := .numbered 11 [("mac", .string hardwareAddress), ("status", .string "running")]

/-- the download takes a while, and so does the virtual machine until it is in the network -/
def waiting : List (Context × List Cue) :=
  let imaging := Sample.imaging (Sample.ordering 11 ++ [.takes "10", .takes "11", .result .null, seen,
    .result (.array [])])
  imaging.take 1 ++ [(Sample.context, [.gives, .numbered 7 [("status", .string "downloading")]])] ++ imaging.drop 1 ++
    [(Sample.context, [.gives, seen, .result (.array [.object [
      ("l2ident", .object [("id", .string "02:00:00:00:00:01")]),
      ("l3connectivities", .array [.object [("af", .string "ipv4"), ("addr", .string "192.168.1.7")]])]]),
        .takes "12"])]

/-- a machine is there after ten invocations, of which two had to wait -/
theorem provisioned_in_time_waiting :
    alone.Quiet ∧ Sample.held.Sound alone ∧ Machine.ofValue Sample.object = .ok sampled ∧
    sampled.status = {} ∧ placed.Brings sampled ∧ placed.layout.storage ≠ "" ∧ hardwareAddress ≠ "" ∧
    ∃ past h, Run alone Sample.held past h ∧ (∀ e ∈ events past, e.served hardwareAddress = true) ∧
      (∀ i ∈ past, i.context.layout = placed.layout) ∧ placed.rounds = 8 ∧ pending hardwareAddress past = 2 ∧
        past.length = 10 ∧
      (∀ (i : Nat) (inv : Invocation), past[i]? = some inv →
        (i < 9 → ∃ after, inv.result = .ok (.requeue after)) ∧ (9 ≤ i → inv.result = .ok .done)) ∧
      submissions (events past) = ["/downloads/add", "/fs/cp/", "/fs/mv/", "/vm/disk/resize/", "/vm/"] ∧
      ∃ o m number, h.object = some o ∧ Machine.ofValue o = .ok m ∧
        placed.Numbered (.string "") (events past) number m.status m.spec.providerId ∧
        m.status.Reached hardwareAddress (events past) := by
  have quiet : alone.Quiet := fun _ _ => id
  have read : Machine.ofValue Sample.object = .ok sampled := ok_of_toOption (by decide +kernel)
  have brings : placed.Brings sampled :=
    ⟨⟨⟨"http://images/disk.raw", rfl, by rfl⟩, rfl⟩, rfl, rfl, .string "worker",
      ok_of_toOption (by decide +kernel), nofun⟩
  have stored : placed.layout.storage ≠ "" := by decide
  have set : hardwareAddress ≠ "" := by decide
  have eight : placed.rounds = 8 := by rw [Plan.rounds, if_neg (by decide +kernel)]
  refine ⟨quiet, Sample.sound _, read, rfl, brings, stored, set, ?_⟩
  obtain ⟨past, h, run, seen⟩ := alone.exists_run Sample.held waiting
    (fun r => decide ((∀ e ∈ events r.1, e.served hardwareAddress = true) ∧
      (∀ i ∈ r.1, i.context.layout = placed.layout) ∧
      pending hardwareAddress r.1 = 2 ∧ r.1.length = 10)) (by decide +kernel)
  obtain ⟨served, layouts, waits, length⟩ := of_decide_eq_true seen
  obtain ⟨results, -, last⟩ :=
    provisioned_in_time quiet (Sample.sound _) rfl read rfl brings stored set run served layouts
  rw [eight, waits] at results last
  obtain ⟨all, o, m, number, object, found, numbered, reached⟩ := last (Nat.le_of_eq length.symm)
  refine ⟨past, h, run, served, layouts, eight, waits, length, fun i inv found => ?_, all.trans (by decide +kernel),
    o, m, number, object, found, numbered, reached⟩
  obtain ⟨requeued, done⟩ := results i inv found
  exact ⟨fun soon => requeued (by omega), fun due => done (by omega)⟩

end Reconcile

end VmOperator
