import VmOperator.Proofs.Reconcile.Stage
import VmOperator.Proofs.Resource.Rendering

/-! An invocation for a machine follows the table of stages, however it is answered
(`machine_simulates`). One rule for each kind of write and for queries; the functions of the reconciler
are put together from these. -/

namespace VmOperator.Reconcile

open Appliance (Query)

variable {c : Context} {ns name : String} {st refused : Stage} {change : Machine → Machine}
  {kept : Machine → Stage} {m : Machine}

section Rules

/-- from this stage the program keeps to the table, and a result comes at a stage as `Q` says -/
abbrev Follows (c : Context) (ns name : String) {α : Type} (st : Stage) (p : Action α) (Q : α → Stage → Prop) : Prop :=
  Action.Simulates (Step c ns name) st p Q fun _ _ => True

abbrev OfUnreadable (E : Failure → Stage → Prop) (st : Stage) : Prop := ∀ e, (∀ f, e ≠ .fault f) → E e st

theorem ofValue_simulates (kept : Machine → Stage) (refused : Stage) (o : Value) {Q : Machine → Stage → Prop}
    {E : Failure → Stage → Prop} (hQ : ∀ m', Q m' (kept m')) (hE : OfUnreadable E .ended) :
    Action.Simulates (Step c ns name) (.told kept refused (.ok o)) (Action.ofExcept (Machine.ofValue o)) Q E := by
  unfold Stage.told
  refine .lift (fun m' h => ?_) fun e h => ?_
  · simp only [h]; exact hQ m'
  · simp only [h]; exact hE e fun f he => Machine.plain_ofValue o f (he ▸ h)

/-- only a conflict leaves the stage that a refusal leads to -/
theorem refusal_simulates {E : Failure → Stage → Prop} (action key : String) (status reason : Value)
    (hC : ∀ lost, E (.fault (.conflict lost)) refused) (hS : ∀ f, E (.fault (.store f)) .ended) :
    E (.fault (Store.refusal action key status reason)) (.told kept refused (.refused status reason)) := by
  cases lost : status.isNumber 409 with
  | true =>
    simp only [Stage.told, Store.refusal, lost, reduceIte]
    exact hC _
  | false =>
    simp only [Stage.told, Store.refusal, lost, Bool.false_eq_true, reduceIte]
    exact hS _

theorem getMachine_simulates {place name' : Value} {Q : Option Machine → Stage → Prop} {E : Failure → Stage → Prop}
    (step : ∀ reply, Step c ns name st (.called (.get .machines place name') reply) (.told kept refused reply))
    (hQ : ∀ m', Q (some m') (kept m'))
    (hN : ∀ status reason, Q none (.told kept refused (.refused status reason))) (hE : OfUnreadable E .ended)
    (hC : ∀ lost, E (.fault (.conflict lost)) refused) (hS : ∀ f, E (.fault (.store f)) .ended) :
    Action.Simulates (Step c ns name) st (Store.getMachine place name') Q E := by
  refine .bind (.bind (.call fun reply => ⟨_, step reply, ?_⟩))
  cases reply with
  | ok o => exact .pure (.bind (ofValue_simulates kept refused o (fun m' => .pure (hQ m')) hE))
  | refused status reason =>
    dsimp only
    split
    · exact .pure (.pure (hN status reason))
    · exact .throw (refusal_simulates _ _ status reason hC hS)

theorem write_simulates {call : Store.Call} {action key : String} {Q : Machine → Stage → Prop}
    {E : Failure → Stage → Prop} (step : ∀ reply, Step c ns name st (.called call reply) (.told kept refused reply))
    (hQ : ∀ m', Q m' (kept m')) (hE : OfUnreadable E .ended) (hC : ∀ lost, E (.fault (.conflict lost)) refused)
    (hS : ∀ f, E (.fault (.store f)) .ended) :
    Action.Simulates (Step c ns name) st
      (Store.write action key call >>= fun o => Action.ofExcept (Machine.ofValue o)) Q E := by
  refine .bind (.bind (.call fun reply => ⟨_, step reply, ?_⟩))
  cases reply with
  | ok o => exact .pure (ofValue_simulates kept refused o hQ hE)
  | refused status reason => exact .throw (refusal_simulates action key status reason hC hS)

def KeepsPlace (change : Machine → Machine) (m : Machine) : Prop :=
  (change m).ns = m.ns ∧ (change m).name = m.name

theorem updateMachineStatus_simulates (table : Restates c st change kept refused) (copy : st.copy? = some m)
    (place : KeepsPlace change m) {Q : Machine → Stage → Prop} {E : Failure → Stage → Prop}
    (hQ : ∀ m', Q m' (kept m')) (hE : OfUnreadable E .ended) (hW : OfUnreadable E st)
    (hC : ∀ lost, E (.fault (.conflict lost)) refused) (hS : ∀ f, E (.fault (.store f)) .ended) :
    Action.Simulates (Step c ns name) st (Store.updateMachineStatus (change m)) Q E := by
  refine .bind (.lift (fun x written => ?_) fun e he => hW e fun f hf => Machine.plain_toValue _ f (hf ▸ he))
  rw [place.1, place.2]
  exact write_simulates (fun reply => .restate table copy written reply) hQ hE hC hS

theorem updateMachine_simulates (table : Replaces st change kept refused) (copy : st.copy? = some m)
    (place : KeepsPlace change m) {Q : Machine → Stage → Prop} {E : Failure → Stage → Prop}
    (hQ : ∀ m', Q m' (kept m')) (hE : OfUnreadable E .ended) (hW : OfUnreadable E st)
    (hC : ∀ lost, E (.fault (.conflict lost)) refused) (hS : ∀ f, E (.fault (.store f)) .ended) :
    Action.Simulates (Step c ns name) st (Store.updateMachine (change m)) Q E := by
  refine .bind (.lift (fun x written => ?_) fun e he => hW e fun f hf => Machine.plain_toValue _ f (hf ▸ he))
  rw [place.1, place.2]
  exact write_simulates (fun reply => .replace table copy written reply) hQ hE hC hS

/-- a write that may come second: nothing is left of it but the stage after a refusal -/
theorem unlessConflict_follows {write : Action Machine} {Q : Option Machine → Stage → Prop}
    (h : Action.Simulates (Step c ns name) st write (fun m' => Q (some m')) fun e st' =>
      ∀ f, e = .fault (.conflict f) → Q none st') : Follows c ns name st (Checkout.unlessConflict write) Q := by
  refine .tryCatch ((Action.Simulates.map h).mono (fun _ _ h => h) fun e st' h => ?_)
  split
  · exact .pure (h _ rfl)
  · exact .throw trivial

theorem saveStatus_follows (table : Restates c st change kept refused) (copy : st.copy? = some m)
    (place : KeepsPlace change m) {Q : Option Machine → Stage → Prop} (hQ : ∀ m', Q (some m') (kept m'))
    (hN : Q none refused) : Follows c ns name st (Checkout.saveStatus (change m)) Q :=
  unlessConflict_follows (updateMachineStatus_simulates table copy place hQ (fun _ plain _ he => absurd he (plain _))
    (fun _ plain _ he => absurd he (plain _)) (fun _ _ _ => hN) nofun)

theorem save_follows (table : Replaces st change kept refused) (copy : st.copy? = some m)
    (place : KeepsPlace change m) {Q : Option Machine → Stage → Prop} (hQ : ∀ m', Q (some m') (kept m'))
    (hN : Q none refused) : Follows c ns name st (Checkout.save (change m)) Q :=
  unlessConflict_follows (updateMachine_simulates table copy place hQ (fun _ plain _ he => absurd he (plain _))
    (fun _ plain _ he => absurd he (plain _)) (fun _ _ _ => hN) nofun)

/-- a query's reply leads where the table says -/
theorem ask_simulates {α : Type} {q : Query α} {heard : Appliance.Reply → Stage}
    (table : Sends c st q.request heard) {Q : α → Stage → Prop} {E : Failure → Stage → Prop}
    (hQ : ∀ reply a, q.read reply = .ok a → Q a (heard reply))
    (hE : ∀ reply e, q.read reply = .error e → E e (heard reply)) (hW : ∀ e, q.request = .error e → E e st) :
    Action.Simulates (Step c ns name) st q.ask Q E :=
  .bind (.lift (fun _ written => .bind (.send fun reply =>
    ⟨_, .send table written reply, .lift (hQ reply) (hE reply)⟩)) hW)

theorem heard_ok {α : Type} {q : Query α} {next : α → Stage} {reply : Appliance.Reply} {a : α}
    (h : q.read reply = .ok a) : Stage.heard q next reply = next a := by
  simp only [Stage.heard, h]

theorem ask_follows {α : Type} {q : Query α} {next : α → Stage} (table : Sends c st q.request (.heard q next))
    {Q : α → Stage → Prop} (hQ : ∀ reply a, q.read reply = .ok a → Q a (next a)) : Follows c ns name st q.ask Q := by
  refine ask_simulates table (fun reply a h => ?_) (fun _ _ _ => trivial) fun _ _ => trivial
  rw [heard_ok h]
  exact hQ reply a h

end Rules

section Booting

variable {number : Int}

theorem addressesIn_set {wanted : String} {hosts : List Appliance.LanHost} (each : ∀ host ∈ hosts, host.AllSet)
    {addresses : List Value} (found : Discovery.addressesIn wanted hosts = .ok addresses) :
    ∀ a ∈ addresses, a.isTruthy = true := by
  induction hosts with
  | nil =>
    cases found
    nofun
  | cons host hosts ih =>
    obtain ⟨mac, -, found⟩ := bind_eq_ok.1 found
    split at found
    · cases found
      exact each host (List.mem_cons_self ..)
    · exact ih (fun other mem => each other (List.mem_cons_of_mem _ mem)) found

theorem current_follows (known : Option Appliance.Vm) {id : Int} (recorded : m.status.vmId = some id) :
    Follows c ns name (.running m number) (Discovery.current c id known) fun _ st => st = .running m number := by
  have asked : Follows c ns name (.running m number) (do return (← Appliance.getVm c.settings (.int id)).vm)
      fun _ st => st = .running m number := by
    rw [Appliance.getVm_eq]
    exact .bind (ask_follows (.ask m number id (.inr recorded)) fun _ _ _ => .pure rfl)
  unfold Discovery.current
  split
  · split
    · exact .pure rfl
    · exact asked
  · exact asked

/-- once addresses are found, the table goes on -/
theorem tryAddresses_follows (mac : Value) :
    Follows c ns name (.running m number) (Discovery.tryAddresses c.settings mac)
      fun found st => ∀ addresses, found = some addresses →
        st = .running m number ∧ ∀ a ∈ addresses, a.isTruthy = true := by
  have found : Follows c ns name (.running m number) (Discovery.findAddresses c.settings mac)
      fun addresses st => st = .running m number ∧ ∀ a ∈ addresses, a.isTruthy = true := by
    refine .bind (.lift (fun wanted _ => ?_) fun _ _ => trivial)
    rw [Appliance.lanHosts_eq]
    refine .bind (ask_follows (.hosts m number) fun reply hosts read => .lift (fun addresses listed => ?_) fun _ _ => trivial)
    exact ⟨rfl, addressesIn_set (Appliance.hostsQuery_set _ read) listed⟩
  refine .tryCatch (.map (found.mono (fun _ _ h _ same => ?_) fun e st _ => ?_))
  · cases same
    exact h
  · split
    · exact .pure nofun
    · exact .throw trivial

theorem discover_follows (known : Option Appliance.Vm) :
    Follows c ns name (.running m number) (Discovery.discover c m known) fun _ _ => True := by
  unfold Discovery.discover
  split
  · exact .pure trivial
  · cases recorded : m.status.vmId with
    | none => exact .pure trivial
    | some id =>
      refine .bind ((current_follows known recorded).mono (fun vm st h => ?_) fun _ _ h => h)
      subst h
      split
      · exact .pure trivial
      · refine .bind ((tryAddresses_follows vm.mac).mono (fun found st h => ?_) fun _ _ h => h)
        split
        · exact .pure trivial
        · exact .pure trivial
        · rename_i addresses some
          obtain ⟨rfl, set⟩ := h addresses rfl
          refine .bind (saveStatus_follows (.publish m number addresses some set) rfl ⟨rfl, rfl⟩ (fun _ => ?_) ?_)
          · exact .pure trivial
          · exact .pure trivial

theorem ensureProviderId_follows :
    Follows c ns name (.recorded m number) (Boot.ensureProviderId m) fun m' st => st = .running m' number := by
  unfold Boot.ensureProviderId
  split
  case h_1 known unnamed recorded =>
    rw [Stage.recorded, unnamed, recorded]
    exact .bind (save_follows (.name m number known recorded unnamed) rfl ⟨rfl, rfl⟩ (fun _ => .pure rfl) (.pure rfl))
  case h_2 settled =>
    rw [Stage.recorded, if_pos]
    · exact .pure rfl
    · cases named : m.spec.providerId.isTruthy with
      | true => rfl
      | false =>
        cases recorded : m.status.vmId with
        | none => rfl
        | some known => exact (settled known named recorded).elim

theorem startVm_follows : Follows c ns name (.running m number) (Appliance.startVm c.settings (.int number))
    fun _ st => st = .running m number := by
  rw [Appliance.startVm_eq]
  exact ask_follows (.start m number) fun _ _ _ => rfl

theorem existing_follows :
    Follows c ns name (.recorded m number) (Boot.existing c m number) fun _ _ => True := by
  unfold Boot.existing
  refine .bind (ensureProviderId_follows.mono (fun latest st h => ?_) fun _ _ h => h)
  subst h
  split
  · exact .pure trivial
  · rw [Appliance.getVm_eq]
    refine .bind (ask_follows (.ask latest number number (.inl rfl)) fun _ known _ => ?_)
    split
    · refine .bind (startVm_follows.mono (fun _ st h => ?_) fun _ _ h => h)
      rw [h]
      exact discover_follows _
    · exact discover_follows _

/-- what is to be written again is recorded in the stage's copy, refreshed or not -/
theorem refresh_follows (path : String) (m : Machine) (lost : ConflictFault) :
    Program.Simulates (Step c ns name) (.created m number path)
      (Checkout.refresh (Boot.record c number path) (Boot.record c number path m) lost)
      fun r st => ∀ f, r.2 = .fault (.conflict f) →
        ∃ latest, r.1 = Boot.record c number path latest ∧ st = .created latest number path := by
  have fetched : Action.Simulates (Step c ns name) (.created m number path) (Store.getMachine m.ns m.name)
      (fun found st => ∀ m', found = some m' → st = .created m' number path)
      fun e st => ∀ f, e = .fault (.conflict f) → st = .created m number path := by
    refine getMachine_simulates (fun reply => .reread m number path reply) ?_ (fun _ _ _ => nofun) ?_ (fun _ _ _ => rfl)
      nofun
    · intro m' _ h
      cases h
      rfl
    · exact fun e plain f he => absurd he (plain _)
  refine .bind (Program.Simulates.mono fetched fun r st h => ?_)
  rcases r with e | _ | latest
  · exact fun f he => ⟨m, rfl, h _ he⟩
  · exact nofun
  · exact fun _ _ => ⟨latest, rfl, h latest rfl⟩

theorem writeRefreshing_follows (path : String) (more : Nat) : ∀ m : Machine,
    Program.Simulates (Step c ns name) (.created m number path)
      (Checkout.writeRefreshing (Boot.record c number path) more (Boot.record c number path m))
      fun r st => more ≠ 0 → r.2 = .ok () → st = .recorded r.1 number := by
  induction more with
  | zero => exact fun m h => absurd rfl h
  | succ more ih =>
    intro m
    have write : Action.Simulates (Step c ns name) (.created m number path)
        (Store.updateMachineStatus (Boot.record c number path m)) (fun saved st => st = .recorded saved number)
        fun e st => ∀ f, e = .fault (.conflict f) → st = .created m number path :=
      updateMachineStatus_simulates (.record m number path) rfl ⟨rfl, rfl⟩ (fun _ => rfl)
        (fun _ plain f he => absurd he (plain _)) (fun _ plain f he => absurd he (plain _)) (fun _ _ _ => rfl) nofun
    unfold Checkout.writeRefreshing
    refine .bind (Program.Simulates.mono write fun r st h => ?_)
    split
    · exact fun _ _ => h
    · rename_i lost
      rw [h _ rfl]
      refine .bind ((refresh_follows path m lost).mono fun r st h => ?_)
      split
      · rename_i m' last
        obtain ⟨latest, rfl, rfl⟩ := h last rfl
        split
        · exact fun _ => nofun
        · rename_i further
          exact (ih latest).mono fun r st h _ => h further
      · exact fun _ => nofun
    · exact fun _ => nofun

theorem saveStatusSurely_follows (path : String) (m : Machine) :
    Follows c ns name (.created m number path) (Checkout.saveStatusSurely (Boot.record c number path) m)
      fun recorded st => st = .recorded recorded number := by
  refine Program.Simulates.bind ((writeRefreshing_follows path Checkout.attempts m).mono fun r st h => ?_)
  obtain ⟨saved, _ | done⟩ := r
  · trivial
  · exact h nofun rfl

theorem create_follows (path text : String) (final : ImagePipeline.finalPath c m = .ok path) :
    Follows c ns name (.ordering m) (Boot.create c m path text) fun _ _ => True := by
  unfold Boot.create
  rw [Appliance.createVm_eq]
  refine .bind (ask_follows (.create m path text final) fun _ known _ => ?_)
  refine .bind ((saveStatusSurely_follows path m).mono (fun recorded st h => ?_) fun _ _ h => h)
  subst h
  refine .bind (ensureProviderId_follows.mono (fun latest st h => ?_) fun _ _ h => h)
  subst h
  refine .bind (startVm_follows.mono (fun _ st h => ?_) fun _ _ h => h)
  rw [h]
  exact discover_follows _

/-- reading another kind of object -/
theorem fetch_follows (action : String) (kind : Store.Kind) (place name' : Value) (other : kind ≠ .machines) :
    Follows c ns name (.ordering m) (Store.fetch action kind place name') fun _ st => st = .ordering m := by
  refine .bind (.call fun reply => ⟨_, .consult m kind place name' reply other, ?_⟩)
  cases reply with
  | ok o => exact .pure rfl
  | refused status reason =>
    dsimp only
    split
    · exact .pure rfl
    · exact .throw trivial

theorem userData_follows : Follows c ns name (.ordering m) (Boot.userData c m) fun _ st => st = .ordering m := by
  have owner : Follows c ns name (.ordering m) (Store.getOwner c.settings m) fun _ st => st = .ordering m := by
    refine .bind (.lift (fun owner _ => ?_) fun _ _ => trivial)
    split
    · exact .pure rfl
    · refine .bind ((fetch_follows _ _ _ _ ?_).mono (fun _ _ h => .pure h) fun _ _ h => h)
      exact fun same => absurd (show "machines" = "freeboxmachines" from congrArg Store.Kind.plural same) (by decide)
  have bootstrap : ∀ secret, Follows c ns name (.ordering m) (Store.getBootstrapData m.ns secret)
      fun _ st => st = .ordering m := by
    intro secret
    refine .bind ((fetch_follows _ _ _ _ (by decide)).mono (fun found st h => ?_) fun _ _ h => h)
    subst h
    cases found with
    | none => exact .pure rfl
    | some object =>
      refine .bind (.lift (fun _ _ => ?_) fun _ _ => trivial)
      refine .bind (.lift (fun _ _ => ?_) fun _ _ => trivial)
      exact .bind (.lift (fun _ _ => .pure rfl) fun _ _ => trivial)
  refine .bind (owner.mono (fun owner st h => ?_) fun _ _ h => h)
  subst h
  cases owner with
  | none => exact .pure rfl
  | some owner =>
    refine .bind (.lift (fun secret _ => ?_) fun _ _ => trivial)
    split
    · exact .pure rfl
    · refine .bind ((bootstrap secret).mono (fun bytes st h => ?_) fun _ _ h => h)
      subst h
      cases bytes with
      | none => exact .pure rfl
      | some bytes =>
        dsimp only
        split
        · exact .pure rfl
        · exact .throw trivial

theorem ensure_follows (path : String) (final : ImagePipeline.finalPath c m = .ok path) :
    Follows c ns name (.booting m) (Boot.ensure c m (.string path)) fun _ _ => True := by
  unfold Boot.ensure Stage.booting
  cases m.status.vmId with
  | some number => exact existing_follows
  | none =>
    refine .bind (userData_follows.mono (fun text st h => ?_) fun _ _ h => h)
    subst h
    cases text with
    | none => exact .pure trivial
    | some text => exact create_follows path text final

theorem boot_follows (m : Machine) : Follows c ns name (.booting m) (boot c m) fun _ _ => True :=
  .bind (.lift (fun path final => ensure_follows path final) fun _ _ => trivial)

end Booting

section Imaging

theorem carryOut_follows (v : ImagePipeline.Verdict) :
    Follows c ns name (.judged m v) (v.carryOut c m) fun advance st =>
      ∀ m', advance = .ready m' → st = .booting m' := by
  cases v with
  | wait => exact .pure fun _ same => by cases same
  | enter next message outcome =>
    refine .bind (.map (saveStatus_follows (.enter m next message outcome) rfl ⟨rfl, rfl⟩ (fun _ => ?_) ?_)) <;>
      exact .pure fun _ same => by cases same
  | fail step reason message detail =>
    refine .bind (.map (saveStatus_follows (.fail m step reason message detail) rfl ⟨rfl, rfl⟩ (fun _ => ?_) ?_)) <;>
      exact .pure fun _ same => by cases same
  | finish =>
    refine .bind (saveStatus_follows (.finish m) rfl ⟨rfl, rfl⟩ (fun saved => .pure fun m' h => ?_) (.pure fun m' h => ?_))
    · cases h
      rfl
    · cases h

theorem advance_follows (asked : m.spec.imageUrl.isTruthy = true) (sound : m.failedImageReason? = .ok none) :
    Follows c ns name (.imaging m) (ImagePipeline.advance c m) fun advance st =>
      ∀ m', advance = .ready m' → st = .booting m' := by
  rw [ImagePipeline.advance_eq]
  refine .bind (.lift (fun image named => ?_) fun _ _ => trivial)
  refine .bind (.lift (fun p decoded => ?_) fun _ _ => trivial)
  exact .bind (ask_follows (.image m image p asked sound named decoded) fun _ v _ => carryOut_follows v)

theorem provision_follows (m : Machine) :
    Follows c ns name (.provisioning m) (provision c m) fun _ _ => True := by
  unfold provision
  split
  · exact .pure trivial
  · rename_i asked
    refine .bind (.lift (fun reason sound => ?_) fun _ _ => trivial)
    split
    · exact .pure trivial
    · unfold Stage.provisioning
      split
      · exact boot_follows m
      · refine .bind ((advance_follows (by simpa using asked) ?_).mono (fun a st h => ?_) fun _ _ h => h)
        · cases reason with
          | none => exact sound
          | some reason => contradiction
        · cases a with
          | ends outcome => exact .pure trivial
          | ready m' =>
            rw [h m' rfl]
            exact boot_follows m'

theorem ensureFinalizer_follows (bare : m.hasFinalizer = false) :
    Follows c ns name (.bare m) (ensureFinalizer m) fun held st => ∀ m', held = some m' → st = .provisioning m' := by
  unfold ensureFinalizer
  rw [if_neg (by simp [bare])]
  refine save_follows (.hold m) rfl ⟨rfl, rfl⟩ (fun saved m' h => ?_) nofun
  cases h
  rfl

end Imaging

section Tearing

variable {number : Int}

theorem forgetVm_follows (m : Machine) : Follows c ns name (.forgetting m) (Teardown.forgetVm c m)
    fun progress st => ∀ m', progress = .gone m' → st = .gone m' := by
  refine .bind (saveStatus_follows (.forget m) rfl ⟨rfl, rfl⟩ (fun saved => .pure fun m' h => ?_) (.pure fun m' h => ?_))
  · cases h
    rfl
  · cases h

theorem tryKill_follows (first : m.status.stopAttempts = 0) :
    Follows c ns name (.looked m number) (Teardown.tryKill c number) fun _ st => st = .looked m number := by
  unfold Teardown.tryKill
  rw [Appliance.killVm_eq]
  refine .tryCatch (ask_simulates (.kill m number first) (fun _ _ _ => rfl) (fun _ e _ => ?_) fun e _ => ?_)
  all_goals
    split
    · exact .pure rfl
    · exact .throw trivial

theorem awaitStop_follows (due : m.status.stopAttempts < c.settings.stopPollAttempts) :
    Follows c ns name (.looked m number) (Teardown.awaitStop c m number)
      fun progress _ => ∀ m', progress ≠ .gone m' := by
  have saved {Q : Option Machine → Stage → Prop} (hQ : ∀ saved, Q saved .ended) :
      Follows c ns name (.looked m number) (Checkout.saveStatus (await m)) Q :=
    saveStatus_follows (.await m number due) rfl ⟨rfl, rfl⟩ (fun _ => hQ _) (hQ _)
  rw [awaitStop_eq]
  dsimp only
  split
  · rename_i first
    refine .bind ((tryKill_follows first).mono (fun _ st h => ?_) fun _ _ h => h)
    rw [h]
    exact .bind (saved fun _ => .pure fun _ same => by cases same)
  · exact .bind (saved fun _ => .pure fun _ same => by cases same)

theorem lookedFor_missing {reply : Appliance.Reply} {f : ApplianceFault}
    (h : (Appliance.vmQuery c.settings (.int number)).read reply = .error (.fault (.appliance f)))
    (missing : f.notFound = .ok true) : Stage.lookedFor c m number reply = .forgetting m := by
  simp only [Stage.lookedFor, h, missing]

/-- a missing virtual machine leads where its deletion does -/
theorem lookFor_follows : Follows c ns name (.doomed m number) (Teardown.lookFor c number)
    fun known st => st = known.elim (.forgetting m) fun _ => .looked m number := by
  unfold Teardown.lookFor
  rw [Appliance.getVm_eq]
  refine .tryCatch (.map (ask_simulates (.look m number) (fun reply known h => ?_) (fun reply e h => ?_) nofun))
  · simp only [Stage.lookedFor, h, Option.elim_some]
  · split
    · refine .bind (.lift (fun missing hf => ?_) fun _ _ => trivial)
      cases missing with
      | true => rw [lookedFor_missing h hf]; exact .pure rfl
      | false => exact .throw trivial
    · exact .throw trivial

theorem removeVm_follows : Follows c ns name (.doomed m number) (Teardown.removeVm c m number)
    fun progress st => ∀ m', progress = .gone m' → st = .gone m' := by
  refine .bind (lookFor_follows.mono (fun known st h => ?_) fun _ _ h => h)
  subst h
  cases known with
  | none => exact forgetVm_follows m
  | some known =>
    dsimp only [Option.elim_some]
    split
    · rename_i running
      have due : m.status.stopAttempts < c.settings.stopPollAttempts := by
        simpa using (Bool.and_eq_true_iff.1 running).2
      exact (awaitStop_follows due).mono (fun _ _ h m' gone => absurd gone (h m')) fun _ _ h => h
    · rw [Appliance.deleteVm_eq]
      exact .bind (ask_follows (.delete m number) fun _ _ _ => forgetVm_follows m)

theorem removeDisk_follows (m : Machine) :
    Follows c ns name (.gone m) (Teardown.removeDisk c m)
      fun _ st => (m.status.diskPath.isTruthy = false ∧ st = .gone m) ∨ st = .cleared m := by
  unfold Teardown.removeDisk
  split
  · rename_i used
    refine .bind (.lift (fun path disk => ?_) fun _ _ => trivial)
    have spelled : m.status.diskPath = .string path := by
      unfold Value.toText at disk
      split at disk <;> cases disk
      assumption
    rw [Appliance.removeFiles_eq]
    exact .map (ask_follows (.remove m path used spelled) fun _ _ _ => .inr rfl)
  · rename_i bare
    exact .pure (.inl ⟨by simpa using bare, rfl⟩)

theorem release_follows {m : Machine} {st : Stage}
    (h : (m.status.diskPath.isTruthy = false ∧ st = .gone m) ∨ st = .cleared m) :
    Follows c ns name st (Teardown.release c m) fun _ _ => True := by
  rcases h with ⟨bare, rfl⟩ | rfl
  · exact .bind (save_follows (.release m bare) rfl ⟨rfl, rfl⟩ (fun _ => .pure trivial) (.pure trivial))
  · exact .bind (save_follows (.releaseCleared m) rfl ⟨rfl, rfl⟩ (fun _ => .pure trivial) (.pure trivial))

theorem run_follows (deleted : m.isBeingDeleted = true) :
    Follows c ns name (.fetched m) (Teardown.run c m) fun _ _ => True := by
  have gone : ∀ m' : Machine, Follows c ns name (.gone m') (do Teardown.removeDisk c m'; Teardown.release c m')
      fun _ _ => True := fun m' =>
    .bind ((removeDisk_follows m').mono (fun _ _ h => release_follows h) fun _ _ h => h)
  unfold Teardown.run Stage.fetched
  rw [if_pos deleted]
  by_cases held : m.hasFinalizer
  · rw [if_pos held, if_neg (by simp [held])]
    unfold Stage.tearing
    cases m.status.vmId with
    | none => exact .bind (.pure (gone m))
    | some number =>
      refine .bind (removeVm_follows.mono (fun progress st h => ?_) fun _ _ h => h)
      cases progress with
      | ends outcome => exact .pure trivial
      | gone m' =>
        rw [h m' rfl]
        exact gone m'
  · rw [if_neg held, if_pos (by simp [held])]
    exact .pure trivial

end Tearing

theorem settle_follows (m : Machine) : Follows c ns name (.fetched m) (settle c m) fun _ _ => True := by
  unfold settle
  split
  · rename_i deleted
    exact run_follows deleted
  · rename_i kept
    unfold Stage.fetched
    rw [if_neg kept]
    split
    · rename_i held
      refine .bind ?_
      unfold ensureFinalizer
      rw [if_pos held]
      exact .pure (provision_follows m)
    · rename_i bare
      refine .bind ((ensureFinalizer_follows (by simpa using bare)).mono (fun found st h => ?_) fun _ _ h => h)
      cases found with
      | none => exact .pure trivial
      | some m' =>
        rw [h m' rfl]
        exact provision_follows m'

/-- a fault becomes an outcome, and nothing more is said -/
theorem reported_follows {action : Action Outcome} (follows : Follows c ns name st action fun _ _ => True) :
    Follows c ns name st (reported action) fun _ _ => True := by
  refine .tryCatch (follows.mono (fun _ _ h => h) fun e st _ => ?_)
  cases e with
  | fault => exact .pure trivial
  | _ => exact .throw trivial

/-- every dialogue of an invocation follows the table from its start -/
theorem machine_simulates (c : Context) (ns name : String) :
    Program.Simulates (Step c ns name) .start (machine c ns name).run fun _ _ => True := by
  have fetched : Follows c ns name .start (Store.getMachine (.string ns) (.string name)) fun found st =>
      st = found.elim .ended .fetched :=
    getMachine_simulates (fun reply => .fetch reply) (fun _ => rfl) (fun _ _ => ite_self _) (fun _ _ => trivial)
      (fun _ => trivial) fun _ => trivial
  have invoked : Follows c ns name .start (machine c ns name) fun _ _ => True := by
    refine reported_follows (.bind (fetched.mono (fun found st h => ?_) fun _ _ h => h))
    subst h
    cases found with
    | none => exact .pure trivial
    | some m => exact settle_follows m
  exact Program.Simulates.mono invoked fun _ _ _ => trivial

end VmOperator.Reconcile
