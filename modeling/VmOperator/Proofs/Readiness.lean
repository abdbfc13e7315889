import VmOperator.Proofs.Appliance.Listing
import VmOperator.Proofs.Rehearsal
import VmOperator.Proofs.Reconcile.Stopping
import VmOperator.Proofs.Resource.Conditions

/-! A machine becomes ready in one write, and only once its addresses were seen. What counts as seen is read off the replies
to the look at the virtual machine and to the listing of the hosts (`Inquiry.Evidence`); the status is written on that alone,
with the addresses and everything that says that the machine is ready (`ready_on_evidence`). -/

namespace VmOperator

namespace Event

def writes (e : Event) : Bool := e.said.content?.isSome

variable {e : Event}

theorem writes_of_acceptsStatus (accepts : e.acceptsStatus = true) : e.writes = true := by
  unfold acceptsStatus at accepts
  split at accepts
  · rename_i said
    rw [writes, said]
    rfl
  · cases accepts

theorem writes_of_loses (loses : e.loses = true) : e.writes = true := (Bool.and_eq_true_iff.1 loses).1

end Event

namespace Discovery

open Appliance (Reply Vm Lists resultOf seen vmQuery hostsQuery)
open Checkout (Rewritten)
open Teardown (look)
open World (Ensures Yields)

def listing (s : Settings) : Appliance.Request := ⟨.get, "/lan/browser/" ++ s.lanInterface ++ "/", .none⟩

/-- what is known of a virtual machine, and how the appliance answers the look at it and the listing -/
structure Inquiry where
  number : Int
  known : Option Vm
  found : Reply
  listed : Reply

namespace Inquiry

variable (q : Inquiry) (s : Settings)

/-- the hardware address of the virtual machine that was handed in, or of the one that is found where that has none -/
def mac : Except Failure Value :=
  match q.known.filter (·.mac.isTruthy) with
  | some vm => .ok vm.mac
  | none => (·.vm.mac) <$> (vmQuery s (.int q.number)).read q.found

/-- these are the addresses that the first host of the hardware address is listed with -/
inductive Evidence (addresses : List Value) : Prop
  | intro (mac : String) (hosts : List Value) (address : q.mac s = .ok (.string mac)) (set : mac ≠ "")
      (lists : Lists q.listed hosts) (here : seen mac hosts = addresses) (some : addresses ≠ [])

/-- the virtual machine has no hardware address yet, or none of its addresses is listed -/
inductive Awaited : Prop
  | unaddressed (mac : Value) (address : q.mac s = .ok mac) (unset : mac.isTruthy = false)
  | unlisted (mac : String) (address : q.mac s = .ok (.string mac)) (refused : resultOf q.listed = none)
  | unseen (mac : String) (hosts : List Value) (address : q.mac s = .ok (.string mac)) (lists : Lists q.listed hosts)
      (none : seen mac hosts = [])

/-- the look and the listing are answered so; nothing is said of any other answer -/
def answers : Exchange → Bool
  | .sent r reply => (r ≠ look q.number || reply = q.found) && (r ≠ listing s || reply = q.listed)
  | .called .. => true

def world (S : Scene) : World := fun h e => S.Happens h e ∧ q.answers s e.said = true

variable {q s} {addresses : List Value} {S : Scene} {h : Held} {e : Event} {reply : Reply}

theorem found_of_world (happens : q.world s S h e) (said : e.said = .sent (look q.number) reply) : reply = q.found := by
  have answered := happens.2
  rw [said, answers, Bool.and_eq_true] at answered
  simpa using answered.1

theorem listed_of_world (happens : q.world s S h e) (said : e.said = .sent (listing s) reply) : reply = q.listed := by
  have answered := happens.2
  rw [said, answers, Bool.and_eq_true] at answered
  simpa using answered.2

theorem seen_of_evidence {mac : String} {hosts : List Value} (evidence : q.Evidence s addresses)
    (address : q.mac s = .ok (.string mac)) (lists : Lists q.listed hosts) : seen mac hosts = addresses := by
  obtain ⟨mac', hosts', address', -, lists', here, -⟩ := evidence
  obtain rfl := Value.string.inj (Except.ok.inj (address'.symm.trans address))
  obtain ⟨v, result, items⟩ := lists.listed
  obtain ⟨v', result', items'⟩ := lists'.listed
  obtain rfl := Option.some.inj (result'.symm.trans result)
  obtain rfl := Except.ok.inj (items'.symm.trans items)
  exact here

theorem Evidence.unique {addresses' : List Value} (evidence : q.Evidence s addresses) (other : q.Evidence s addresses') :
    addresses' = addresses := by
  obtain ⟨mac, hosts, address, -, lists, here, -⟩ := other
  exact here.symm.trans (seen_of_evidence evidence address lists)

theorem Evidence.not_awaited (evidence : q.Evidence s addresses) : ¬q.Awaited s := by
  intro awaited
  cases awaited with
  | unaddressed mac address unset =>
    obtain ⟨mac', -, address', set, -⟩ := evidence
    obtain rfl := Except.ok.inj (address.symm.trans address')
    rw [Value.isTruthy] at unset
    simp [set] at unset
  | unlisted mac address refused =>
    obtain ⟨-, hosts, -, -, lists, -⟩ := evidence
    obtain ⟨v, result, -⟩ := lists.listed
    cases refused.symm.trans result
  | unseen mac hosts address lists none =>
    have here := seen_of_evidence evidence address lists
    obtain ⟨-, -, -, -, -, -, some⟩ := evidence
    exact some (here.symm.trans none)

end Inquiry

def readiness : List ConditionType := [.ready, .infrastructureReady, .vmProvisioned]

/-- the status of a machine that can be reached under these addresses, and otherwise is as it was -/
structure Ready (before : MachineStatus) (addresses : List Value) (s : MachineStatus) : Prop where
  addresses : s.addresses = addresses.map fun address => ⟨address, .string "InternalIP"⟩
  ready : s.ready = true
  provisioned : s.provisioned = true
  met : ∀ type ∈ readiness, s.Meets type
  beside : Condition.beside readiness s.conditions = Condition.beside readiness before.conditions
  rest : s = { before with
    addresses := s.addresses, ready := s.ready, provisioned := s.provisioned, conditions := s.conditions }

inductive Publishes (S : Scene) (m : Machine) (addresses : List Value) (e : Event) : Prop
  | intro (x : Value) (reply : Store.Reply) (s : MachineStatus)
      (said : e.said = .called (.replaceStatus .machines (.string S.ns) (.string S.name) x) reply)
      (content : Stored.statusField x = some s.toValue) (ready : Ready m.status addresses s)
      (stored : e.acceptsStatus = true → e.after.status = some s.rendered)

section Steps

variable {S : Scene} {h h' : Held} {c : Context} {m m₀ : Machine} {q : Inquiry} {addresses : List Value} {es es' : List Event}

theorem markReady_ready (c : Context) (m : Machine) (addresses : List Value) :
    Ready m.status addresses (markReady c m addresses).status := by
  constructor
  case met =>
    unfold markReady
    intro type mem
    rw [Machine.meets_setCondition_iff, Machine.meets_setCondition_iff, Machine.meets_setCondition_iff]
    simp only [readiness, List.mem_cons, List.not_mem_nil, or_false] at mem
    rcases mem with rfl | rfl | rfl <;> simp
  case beside =>
    unfold markReady Machine.setCondition
    dsimp only
    rw [Condition.beside_assign (by decide), Condition.beside_assign (by decide), Condition.beside_assign (by decide)]
  all_goals rfl

theorem publishes_of_rewritten {e : Event} {saved : Except Failure (Option Machine)} (grasped : Grasped S h m₀)
    (amends : m₀.Amends m) (rewritten : Rewritten S h m₀ (markReady c m addresses) [e] saved h') :
    Publishes S m addresses e := by
  have amends' : m₀.Amends (markReady c m addresses) := amends.trans ⟨rfl, rfl, rfl, rfl⟩
  have content {x : Value} (written : (markReady c m addresses).toValue = .ok x) :=
    (Machine.writtenOver grasped.copied.copy amends' written).status
  have ready := markReady_ready c m addresses
  cases rewritten with
  | accepted written _ said _ after => exact ⟨_, _, _, said, content written, ready, fun _ => after⟩
  | lost written _ said | refused written _ said =>
    exact ⟨_, _, _, said, content written, ready, fun accepted => by simp [Event.acceptsStatus, said] at accepted⟩

def Looks (es : List Event) : Prop := ∀ e ∈ es, e.writes = false ∧ e.after = e.before

theorem looks_of_sent {e : Event} {r : Appliance.Request} {reply : Reply} (happens : S.Happens h e)
    (said : e.said = .sent r reply) : Looks [e] :=
  List.forall_mem_singleton.2 ⟨by rw [Event.writes, said]; rfl, happens.of_request said⟩

theorem Looks.append (first : Looks es) (second : Looks es') : Looks (es ++ es') := List.forall_mem_append.2 ⟨first, second⟩

theorem current_sought : (q.world c.settings S).Yields h (current c q.number q.known)
    (fun es vm h' => Looks es ∧ S.Drifts h h' ∧ q.mac c.settings = .ok vm.mac)
    fun es f _ => Looks es ∧ q.mac c.settings = .error f := by
  have fetched (absent : q.known.filter (·.mac.isTruthy) = none) :
      (q.world c.settings S).Yields h (do return (← Appliance.getVm c.settings (.int q.number)).vm)
        (fun es vm h' => Looks es ∧ S.Drifts h h' ∧ q.mac c.settings = .ok vm.mac)
        fun es f _ => Looks es ∧ q.mac c.settings = .error f := by
    have sought : q.mac c.settings = (·.vm.mac) <$> (vmQuery c.settings (.int q.number)).read q.found := by
      rw [Inquiry.mac, absent]
    rw [Appliance.getVm_eq]
    refine .bind (.ask nofun (fun e r reply known written said happens read => .pure ?_)
      fun e r reply f written said happens failed => ?_)
    · obtain rfl := Except.ok.inj written
      obtain rfl := Inquiry.found_of_world happens said
      exact ⟨looks_of_sent happens.1 said, Teardown.sent_drift happens.1 said, by rw [sought, read]; rfl⟩
    · obtain rfl := Except.ok.inj written
      obtain rfl := Inquiry.found_of_world happens said
      exact ⟨looks_of_sent happens.1 said, by rw [sought, failed]; rfl⟩
  unfold current
  cases known : q.known with
  | none => exact fetched (by rw [known]; rfl)
  | some vm =>
    dsimp only
    split
    · rename_i set
      have sought : q.mac c.settings = .ok vm.mac := by
        rw [Inquiry.mac, known, Option.filter_some, if_pos set]
      exact .pure ⟨List.forall_mem_nil _, .still, sought⟩
    · rename_i unset
      exact fetched (by rw [known, Option.filter_some, if_neg unset])

/-- the listing is refused, or the addresses are those of the first host -/
theorem tryAddresses_seen (mac : String) (listing : resultOf q.listed = none ∨ ∃ hosts, Lists q.listed hosts) :
    (q.world c.settings S).Yields h (tryAddresses c.settings (.string mac))
      (fun es found h' => Looks es ∧ S.Drifts h h' ∧ (resultOf q.listed = none ∧ found = none ∨
        ∃ hosts, Lists q.listed hosts ∧ found = some (seen mac hosts))) fun _ _ _ => False := by
  have answered {e : Event} {r : Appliance.Request} {reply : Reply}
      (written : (hostsQuery c.settings c.settings.lanInterface).request = .ok r) (said : e.said = .sent r reply)
      (happens : q.world c.settings S h e) : reply = q.listed ∧ Looks [e] ∧ S.Drifts h e.after := by
    obtain rfl := Except.ok.inj written
    exact ⟨Inquiry.listed_of_world happens said, looks_of_sent happens.1 said, Teardown.sent_drift happens.1 said⟩
  unfold tryAddresses findAddresses
  rw [Appliance.lanHosts_eq]
  refine .tryCatch (.map (.bind (.lift (fun _ same => ?_) fun _ failed => by cases failed)))
  obtain rfl := Except.ok.inj same
  refine .bind (.ask (fun _ failed => by cases failed) (fun e r reply reads written said happens read => ?_)
    fun e r reply f written said happens failed => ?_)
  · obtain ⟨rfl, looks, drift⟩ := answered written said happens
    obtain ⟨v, found, -⟩ := (Appliance.query_read _).1 read
    obtain ⟨hosts, lists⟩ := listing.resolve_left fun refused => by cases refused.symm.trans found
    obtain ⟨reads', read', here⟩ := Appliance.addressesIn_of_lists lists c.settings c.settings.lanInterface
    obtain rfl := Except.ok.inj (read.symm.trans read')
    refine .lift (fun addresses same => ?_) fun f same => by cases same.symm.trans (here mac)
    obtain rfl := Except.ok.inj (same.symm.trans (here mac))
    exact ⟨looks, drift, .inr ⟨hosts, lists, rfl⟩⟩
  · obtain ⟨rfl, looks, drift⟩ := answered written said happens
    rcases listing with refused | ⟨hosts, lists⟩
    · obtain ⟨fault, refuses⟩ := Appliance.exists_fault_of_refused refused c.settings c.settings.lanInterface
      obtain rfl := Except.error.inj (failed.symm.trans refuses)
      exact .pure ⟨looks, drift, .inl ⟨refused, rfl⟩⟩
    · obtain ⟨reads, read, -⟩ := Appliance.addressesIn_of_lists lists c.settings c.settings.lanInterface
      cases failed.symm.trans read

/-- a hardware address that is no text is looked for in vain -/
theorem tryAddresses_fails {W : World} {mac : Value} (untext : mac.isText = false) :
    W.Yields h (tryAddresses c.settings mac) (fun _ _ _ => False) fun es _ _ => es = [] := by
  unfold tryAddresses findAddresses
  refine .tryCatch (.map (.bind (.lift (fun s same => ?_) fun f same => ?_)))
  · cases mac with
    | string => cases untext
    | _ => cases same
  · cases mac with
    | string => cases same
    | _ =>
      cases same
      exact .throw rfl

/-- how a machine without addresses goes on: without evidence everything stays, on evidence it is published -/
inductive Discovered (S : Scene) (c : Context) (m : Machine) (q : Inquiry) : List Event → Except Failure Outcome → Prop
  | kept {es : List Event} {r : Except Failure Outcome} (looks : Looks es) (lacks : ∀ addresses, ¬q.Evidence c.settings addresses)
      (undone : r ≠ .ok .done) (awaited : q.Awaited c.settings → r = .ok c.poll) : Discovered S c m q es r
  | published {h h' : Held} {m₀ : Machine} {es : List Event} {e : Event} {addresses : List Value}
      {saved : Except Failure (Option Machine)} (looks : Looks es) (evidence : q.Evidence c.settings addresses)
      (grasped : Grasped S h m₀) (amends : m₀.Amends m)
      (rewritten : Rewritten S h m₀ (markReady c m addresses) [e] saved h') :
      Discovered S c m q (es ++ [e]) (saved.map fun
        | some _ => .done
        | none => c.step)

theorem Discovered.of_awaited (looks : Looks es) (awaited : q.Awaited c.settings) : Discovered S c m q es (.ok c.poll) :=
  .kept looks (fun _ evidence => evidence.not_awaited awaited) nofun fun _ => rfl

theorem Discovered.of_failed {f : Failure} (looks : Looks es)
    (unsought : ∀ mac, q.mac c.settings = .ok (.string mac) → False)
    (unset : ∀ mac, q.mac c.settings = .ok mac → mac.isTruthy = true) : Discovered S c m q es (.error f) := by
  refine .kept looks (fun addresses evidence => ?_) nofun fun awaited => ?_
  · obtain ⟨mac, -, address, -⟩ := evidence
    exact unsought mac address
  · cases awaited with
    | unaddressed mac address unset' => cases unset'.symm.trans (unset mac address)
    | unlisted mac address => exact (unsought mac address).elim
    | unseen mac hosts address => exact (unsought mac address).elim

theorem publish_discovers (grasped : Grasped S h m₀) (amends : m₀.Amends m) (shape : m.status.progress.IsObject)
    (writable : m₀.Writable) (looks : Looks es) (evidence : q.Evidence c.settings addresses) :
    World.Yields S.Happens h (publish c m addresses) (fun es' o _ => Discovered S c m q (es ++ es') (.ok o))
      fun es' f _ => Discovered S c m q (es ++ es') (.error f) := by
  have amends' : m₀.Amends (markReady c m addresses) := amends.trans ⟨rfl, rfl, rfl, rfl⟩
  obtain ⟨x, written⟩ := grasped.exists_written writable amends'.stored
  have saves := Yields.of_ensures (Checkout.saveStatus_rewritten grasped amends' shape)
  refine .bind (saves.mono (fun es' saved h' rewritten => ?_) fun es' f h' rewritten => ?_)
  · obtain ⟨e, rfl⟩ := rewritten.single written
    have published := Discovered.published (q := q) looks evidence grasped amends rewritten
    cases saved <;> exact .pure (by rwa [List.append_nil])
  · obtain ⟨e, rfl⟩ := rewritten.single written
    exact .published looks evidence grasped amends rewritten

/-- from the hardware address on -/
theorem listing_discovers {mac : String} (grasped : Grasped S h m₀) (amends : m₀.Amends m) (shape : m.status.progress.IsObject)
    (writable : m₀.Writable) (listing : resultOf q.listed = none ∨ ∃ hosts, Lists q.listed hosts) (looks : Looks es)
    (address : q.mac c.settings = .ok (.string mac)) (set : mac ≠ "") :
    (q.world c.settings S).Yields h
      (do match ← tryAddresses c.settings (.string mac) with
        | none | some [] => return c.poll
        | some addresses => publish c m addresses)
      (fun es' o _ => Discovered S c m q (es ++ es') (.ok o)) fun es' f _ => Discovered S c m q (es ++ es') (.error f) := by
  refine .bind ((tryAddresses_seen mac listing).mono (fun es' found h' ⟨looks', drift, told⟩ => ?_) fun _ _ _ => False.elim)
  have all := looks.append looks'
  have polls (awaited : q.Awaited c.settings) : Discovered S c m q (es ++ (es' ++ [])) (.ok c.poll) := by
    rw [List.append_nil]
    exact .of_awaited all awaited
  rcases told with ⟨refused, rfl⟩ | ⟨hosts, lists, rfl⟩
  · exact .pure (polls (.unlisted mac address refused))
  · cases here : seen mac hosts with
    | nil => exact .pure (polls (.unseen mac hosts address lists here))
    | cons first rest =>
      have evidence : q.Evidence c.settings (first :: rest) := .intro mac hosts address set lists here nofun
      simp only [← List.append_assoc]
      exact (publish_discovers (grasped.drift drift) amends shape writable all evidence).within fun _ _ => And.left

theorem discover_discovers (grasped : Grasped S h m₀) (amends : m₀.Amends m) (shape : m.status.progress.IsObject)
    (writable : m₀.Writable) (numbered : m.status.vmId = some q.number) (unaddressed : m.status.addresses = [])
    (listing : resultOf q.listed = none ∨ ∃ hosts, Lists q.listed hosts) :
    (q.world c.settings S).Ensures h (discover c m q.known).run fun es r _ => Discovered S c m q es r := by
  unfold discover
  rw [numbered, unaddressed]
  refine Yields.ensures (.bind (current_sought.mono ?found ?failed))
  case found =>
    rintro es vm h' ⟨looks, drift, address⟩
    split
    · rename_i unset
      refine .pure ?_
      rw [List.append_nil]
      exact .of_awaited looks (.unaddressed vm.mac address (by simpa using unset))
    · rename_i set
      have set : vm.mac.isTruthy = true := by simpa using set
      -- an address that is no text is neither looked for in a listing nor waited for
      cases text : vm.mac.isText with
      | false =>
        refine .bind ((tryAddresses_fails text).mono (fun _ _ _ => False.elim) fun es' f h' none => ?_)
        subst none
        rw [List.append_nil]
        refine .of_failed looks (fun mac' address' => ?_) fun mac' address' => ?_
        · rw [Except.ok.inj (address.symm.trans address')] at text
          cases text
        · rwa [← Except.ok.inj (address.symm.trans address')]
      | true =>
        obtain ⟨mac, same⟩ := Value.eq_of_isText text
        rw [same] at address set ⊢
        exact listing_discovers (grasped.drift drift) amends shape writable listing looks address
          (by simpa [Value.isTruthy] using set)
  case failed =>
    rintro es f h' ⟨looks, failed⟩
    exact .of_failed looks (fun mac address => by cases address.symm.trans failed) fun mac address => by
      cases address.symm.trans failed

section Write

variable {e : Event} {m' : Machine} {saved : Except Failure (Option Machine)} (rewritten : Rewritten S h m m' [e] saved h')

include rewritten

theorem writes_of_rewritten : e.writes = true := by
  cases rewritten with
  | accepted _ _ said | lost _ _ said | refused _ _ said => rw [Event.writes, said]; rfl

theorem done_iff_of_rewritten : (saved.map fun | some _ => Outcome.done | none => c.step) = .ok .done ↔ e.acceptsStatus = true := by
  cases rewritten with
  | accepted _ _ said => exact iff_of_true rfl (by rw [Event.acceptsStatus, said])
  | lost _ _ said | refused _ _ said =>
    exact iff_of_false (fun told => by cases told) (by simp [Event.acceptsStatus, said])

theorem lost_of_rewritten (loses : e.loses = true) : saved = .ok none ∧ e.after = e.before := by
  cases rewritten with
  | accepted _ _ said => simp [Event.loses, Exchange.refusedWith, said] at loses
  | lost _ _ _ _ same => exact ⟨rfl, same⟩
  | refused _ _ said other => simp [Event.loses, Exchange.refusedWith, said, other] at loses

end Write

structure OnEvidence (S : Scene) (c : Context) (m : Machine) (q : Inquiry) (es : List Event) (r : Except Failure Outcome) :
    Prop where
  written : (∃ e ∈ es, e.writes = true) ↔ ∃ addresses, q.Evidence c.settings addresses
  once : (es.filter Event.writes).length ≤ 1
  published : ∀ addresses, q.Evidence c.settings addresses → ∀ e ∈ es, e.writes = true → Publishes S m addresses e
  done : r = .ok .done ↔ ∃ e ∈ es, e.acceptsStatus = true
  awaited : q.Awaited c.settings → r = .ok (.requeue c.settings.pollInterval) ∧ ∀ e ∈ es, e.after = e.before
  lost : ∀ e ∈ es, e.loses = true → r = .ok (.requeue c.settings.stepInterval) ∧ ∀ e ∈ es, e.after = e.before

theorem Looks.unwritten (looks : Looks es) {e : Event} (mem : e ∈ es) : ¬e.writes = true := by
  rw [(looks e mem).1]
  exact Bool.false_ne_true

/-- the one event that wrote is the last one -/
theorem Looks.eq_last (looks : Looks es) {e e' : Event} (mem : e' ∈ es ++ [e]) (writes : e'.writes = true) : e' = e :=
  List.mem_singleton.1 ((List.mem_append.1 mem).resolve_left fun before => looks.unwritten before writes)

theorem Discovered.onEvidence {r : Except Failure Outcome} (discovered : Discovered S c m q es r) :
    OnEvidence S c m q es r := by
  cases discovered with
  | kept looks lacks undone awaited =>
    constructor
    case written =>
      exact iff_of_false (fun ⟨e, mem, writes⟩ => looks.unwritten mem writes) fun ⟨addresses, evidence⟩ => lacks addresses evidence
    case once =>
      rw [List.filter_eq_nil_iff.2 fun e mem => looks.unwritten mem]
      exact Nat.zero_le 1
    case published => exact fun addresses evidence => absurd evidence (lacks addresses)
    case done =>
      exact iff_of_false undone fun ⟨e, mem, accepts⟩ => looks.unwritten mem (Event.writes_of_acceptsStatus accepts)
    case awaited => exact fun still => ⟨awaited still, fun e mem => (looks e mem).2⟩
    case lost => exact fun e mem loses => absurd (Event.writes_of_loses loses) (looks.unwritten mem)
  | @published _ _ _ es e addresses saved looks evidence grasped amends rewritten =>
    have writes := writes_of_rewritten rewritten
    have last : e ∈ es ++ [e] := List.mem_append_right _ (List.mem_singleton_self e)
    constructor
    case written => exact iff_of_true ⟨e, last, writes⟩ ⟨addresses, evidence⟩
    case once =>
      rw [List.filter_append, List.filter_eq_nil_iff.2 fun e mem => looks.unwritten mem]
      exact List.length_filter_le _ _
    case published =>
      intro addresses' evidence' e' mem writes'
      rw [looks.eq_last mem writes', evidence.unique evidence']
      exact publishes_of_rewritten grasped amends rewritten
    case done =>
      rw [done_iff_of_rewritten rewritten]
      refine ⟨fun accepts => ⟨e, last, accepts⟩, fun ⟨e', mem, accepts⟩ => ?_⟩
      rwa [← looks.eq_last mem (Event.writes_of_acceptsStatus accepts)]
    case awaited => exact fun still => absurd still evidence.not_awaited
    case lost =>
      intro e' mem loses
      obtain rfl := looks.eq_last mem (Event.writes_of_loses loses)
      obtain ⟨rfl, same⟩ := lost_of_rewritten rewritten loses
      exact ⟨rfl, List.forall_mem_append.2 ⟨fun e mem => (looks e mem).2, List.forall_mem_singleton.2 same⟩⟩

end Steps

section Invocation

variable {S : Scene} {h h' : Held} {c : Context} {m m₀ : Machine} {q : Inquiry} {es : List Event} {r : Except Failure Outcome}

/-- Readiness is published in one write, and on evidence only. Of a machine with a virtual machine and without addresses,
whatever the look at the virtual machine and the listing of the hosts are answered with: the status is written, once, exactly
if the virtual machine has a hardware address and the first host that is listed under it has an IPv4 address. What is written
says the addresses of this host, that the machine is ready and provisioned, and that the three conditions are met; the rest
of the status, and what there is beside these conditions, is as it was. The invocation ends as done exactly if the write was
accepted. Without a hardware address, with a listing that is refused or without an address listed nothing is stored, and it
is made again after a while; and so it is, in a step, where the write came second. -/
theorem ready_on_evidence (grasped : Grasped S h m₀) (amends : m₀.Amends m) (shape : m.status.progress.IsObject)
    (writable : m₀.Writable) (numbered : m.status.vmId = some q.number) (unaddressed : m.status.addresses = [])
    (listing : resultOf q.listed = none ∨ ∃ hosts, Lists q.listed hosts)
    (plays : (q.world c.settings S).Plays h (discover c m q.known).run es r h') : OnEvidence S c m q es r :=
  (discover_discovers grasped amends shape writable numbered unaddressed listing es r h' plays).onEvidence

end Invocation

section Sample

/-- a machine with a virtual machine, and with a field in its status that is none of the operator's -/
def running (spec : Value) : Value := .object [
  ("metadata", .object [("namespace", .string "default"), ("name", .string "worker"), ("resourceVersion", .string "1")]),
  ("spec", spec), ("status", .object [("vmId", .int 5), ("note", .string "rack 2")])]

def success (result : Value) : Reply := .answer (.int 200) (some (.object [("success", .bool true), ("result", result)]))

def host (mac address : String) : Value := .object [("l2ident", .object [("id", .string mac)]), ("l3connectivities", .array [
  .object [("af", .string "ipv6"), ("addr", .string "fe80::5")], .object [("af", .string "ipv4"), ("addr", .string address)]])]

def hosts : List Value := [host "02:00:00:00:00:CD" "192.168.1.7", host "02:00:00:00:00:AB" "192.168.1.5"]

def listedSecond : Inquiry where
  number := 5
  known := none
  found := success (.object [("id", .int 5), ("mac", .string "02:00:00:00:00:ab")])
  listed := success (.array hosts)

theorem lists_hosts : Lists listedSecond.listed hosts := by
  have each : hosts.all (fun host => (Appliance.LanHost.ofResult host).toOption.any (·.mac.isText)) = true := by decide +kernel
  exact ⟨⟨.array hosts, rfl, rfl⟩, fun host mem => exists_of_any (List.all_eq_true.1 each host mem)⟩

theorem evidence_listedSecond (s : Settings) : listedSecond.Evidence s [.string "192.168.1.5"] :=
  .intro "02:00:00:00:00:ab" hosts rfl (by decide) lists_hosts (by decide +kernel) nofun

/-- the machine is played through with these replies -/
theorem exists_discovered (spec : Value) (cues : List Cue) (seen : Machine → List Event × Except Failure Outcome × Held → Bool)
    (played : (Machine.ofValue (running spec)).toOption.any (fun m =>
      decide (m.status.vmId = some 5 ∧ m.status.addresses = []) &&
        (Sample.alone.rehearse (discover Sample.context m).run ⟨some (running spec), [.string "1"]⟩
          (.reply listedSecond.found :: .reply listedSecond.listed :: cues)).any fun x =>
            x.1.all (fun e => listedSecond.answers Sample.context.settings e.said) && seen m x) = true) :
    ∃ m es r h', Grasped Sample.alone ⟨some (running spec), [.string "1"]⟩ m ∧ m.status.vmId = some 5 ∧
      m.status.addresses = [] ∧ (listedSecond.world Sample.context.settings Sample.alone).Plays
        ⟨some (running spec), [.string "1"]⟩ (discover Sample.context m).run es r h' ∧ seen m (es, r, h') = true := by
  obtain ⟨m, read, seen⟩ := exists_of_any played
  obtain ⟨state, rehearsed⟩ := Bool.and_eq_true_iff.1 seen
  obtain ⟨numbered, unaddressed⟩ := of_decide_eq_true state
  obtain ⟨es, r, h', plays, seen⟩ := Sample.alone.exists_plays _ _ _ _ rehearsed
  obtain ⟨answered, seen⟩ := Bool.and_eq_true_iff.1 seen
  have sound : Held.Sound Sample.alone ⟨some (running spec), [.string "1"]⟩ := Held.sound_single ⟨rfl, rfl, rfl, rfl, rfl⟩
  exact ⟨m, es, r, h', (InHand.of_ofValue sound rfl read).grasped, numbered, unaddressed,
    plays.inWorld.within fun _ e mem happens => ⟨happens, List.all_eq_true.1 answered e mem⟩, seen⟩

/-- the addresses are those of the second host, and published with one write -/
theorem ready_on_evidence_second : ∃ m es h', (listedSecond.world Sample.context.settings Sample.alone).Plays
    ⟨some (running (.object [])), [.string "1"]⟩ (discover Sample.context m).run es (.ok .done) h' ∧
      ∃ e ∈ es, e.acceptsStatus = true ∧ Publishes Sample.alone m [.string "192.168.1.5"] e := by
  obtain ⟨m, es, r, h', grasped, numbered, unaddressed, plays, seen⟩ := exists_discovered (.object []) [.takes "2"]
    (fun m x => decide (x.2.1.toOption = some .done ∧ ((m.stored.get? "spec").getD (.object [])).fields.isOk = true))
    (by decide +kernel)
  obtain ⟨done, writable⟩ := of_decide_eq_true seen
  have ready := ready_on_evidence (q := listedSecond) grasped (.refl m) grasped.shape writable numbered unaddressed
    (.inr ⟨hosts, lists_hosts⟩) plays
  obtain rfl := ok_of_toOption done
  obtain ⟨e, mem, accepts⟩ := ready.done.1 rfl
  have published := ready.published _ (evidence_listedSecond _) e mem (Event.writes_of_acceptsStatus accepts)
  exact ⟨m, es, h', plays, e, mem, accepts, published⟩

/-- on evidence nothing is written of a machine with a stored spec that is no object, and what is written replaces the
whole stored status, with what was never the operator's -/
theorem not_ready_on_evidence :
    (¬∀ (S : Scene) (h h' : Held) (c : Context) (m : Machine) (q : Inquiry) (es : List Event) (r : Except Failure Outcome),
      Grasped S h m → m.status.vmId = some q.number → m.status.addresses = [] → (∃ hosts, Lists q.listed hosts) →
      (q.world c.settings S).Plays h (discover c m q.known).run es r h' →
      (∃ addresses, q.Evidence c.settings addresses) → ∃ e ∈ es, e.writes = true) ∧
    ¬∀ (S : Scene) (h h' : Held) (c : Context) (m : Machine) (q : Inquiry) (es : List Event) (r : Except Failure Outcome),
      Grasped S h m → m.status.vmId = some q.number → m.status.addresses = [] → (∃ hosts, Lists q.listed hosts) →
      (q.world c.settings S).Plays h (discover c m q.known).run es r h' →
      ∀ o o', h.object = some o → h'.object = some o' →
        ∀ key ∉ ["addresses", "ready", "initialization", "conditions"],
          o'.under? ["status", key] = o.under? ["status", key] := by
  constructor
  · intro written
    obtain ⟨m, es, r, h', grasped, numbered, unaddressed, plays, seen⟩ := exists_discovered .null []
      (fun _ x => x.1.all fun e => !e.writes) (by decide +kernel)
    obtain ⟨e, mem, writes⟩ := written _ _ _ _ _ listedSecond _ _ grasped numbered unaddressed ⟨hosts, lists_hosts⟩ plays
      ⟨_, evidence_listedSecond _⟩
    have silent := List.all_eq_true.1 seen e mem
    rw [writes] at silent
    cases silent
  · intro kept
    obtain ⟨m, es, r, h', grasped, numbered, unaddressed, plays, seen⟩ := exists_discovered (.object []) [.takes "2"]
      (fun _ x => x.2.2.object.any fun o => o.under? ["status", "note"] = none) (by decide +kernel)
    obtain ⟨o, object, lost⟩ := (Option.any_eq_true ..).1 seen
    have same := kept _ _ _ _ _ listedSecond _ _ grasped numbered unaddressed ⟨hosts, lists_hosts⟩ plays _ o rfl object
      "note" (by decide)
    rw [of_decide_eq_true lost] at same
    cases same

end Sample

end Discovery

end VmOperator
