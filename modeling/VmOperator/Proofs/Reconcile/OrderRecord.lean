import VmOperator.Proofs.Reconcile.Following

/-! The number of a new virtual machine is written as soon as the reply to the order gives it, before anything else is
asked (`Run.registered`). So an invocation in which no status was accepted after that is one in which the write raised
(`unrecorded_of_unsaved`). -/

namespace VmOperator

namespace Appliance

def numberIn (reply : Reply) : Option Int :=
  (resultOf reply).bind fun v => (KnownVm.ofResult v).toOption.map (·.number)

theorem numberIn_eq (s : Settings) (order : VmOrder) (reply : Reply) :
    numberIn reply = ((createQuery s order).read reply).toOption.map (·.number) := by
  unfold numberIn createQuery query judged
  dsimp only
  cases resultOf reply <;> rfl

end Appliance

namespace Event

/-- the number of the virtual machine that was ordered, if the reply gives one -/
def created? (e : Event) : Option Int :=
  match e.said with
  | .sent r reply => if r.method = .post ∧ r.path = "/vm/" then Appliance.numberIn reply else none
  | .called .. => none

def creates (e : Event) : Bool := e.created?.isSome

theorem created?_eq {s : Settings} {order : Appliance.VmOrder} {e : Event} {r : Appliance.Request} {reply : Appliance.Reply}
    (written : (Appliance.createQuery s order).request = .ok r) (said : e.said = .sent r reply) :
    e.created? = ((Appliance.createQuery s order).read reply).toOption.map (·.number) := by
  rw [created?, said, ← Appliance.numberIn_eq]
  exact if_pos (Appliance.method_path_of_written written)

end Event

namespace Reconcile

open World (Yields)

theorem creates_orders {e : Event} (creates : e.creates = true) : e.orders = true := by
  unfold Event.creates Event.created? at creates
  split at creates
  · split at creates
    · rename_i said post
      rw [Event.orders, Event.route?, said]
      exact decide_eq_true (congrArg some (Prod.ext post.1 post.2))
    · cases creates
  · cases creates

theorem apart_creates : Apart (· ≠ "/vm/") Event.creates :=
  fun _ creates => ⟨"/vm/", of_decide_eq_true (creates_orders creates), fun other => other rfl⟩

/-- the number that an order gave is written, with the disk of the order, into the status of the machine it was for -/
structure Registers (W : World) (c : Context) (m : Machine) (record : Machine → Machine) (e : Event) (made : List Event)
    (r : Except Failure Machine) : Prop where
  ordered : ∃ path text sent reply number, Orders c m path text e sent reply ∧ e.created? = some number ∧
    record = Boot.record c number path
  plays : ∃ h, W.Plays e.after (Checkout.saveStatusSurely record m).run made r h

/-- the record is made at once, and if that raises the action ends with the failure -/
def Registered (W : World) (c : Context) (E : Failure → Prop) (e : Event) (after : List Event) : Prop :=
  ∃ m record made rest r, Registers W c m record e made r ∧ after = made ++ rest ∧ ∀ f, r = .error f → rest = [] ∧ E f

theorem weakens_registered (W : World) (c : Context) : Weakens (Registered W c) := by
  rintro E E' imp e after ⟨m, record, made, rest, r, records, split, raised⟩
  exact ⟨m, record, made, rest, r, records, split, fun f failed => ⟨(raised f failed).1, imp f (raised f failed).2⟩⟩

variable (W : World) (c : Context) (m : Machine)

theorem create_sees {path : String} (final : ImagePipeline.finalPath c m = .ok path) (text : String) :
    SeesTo W Event.creates (Registered W c) (Boot.create c m path text) := by
  intro h
  unfold Boot.create
  rw [Appliance.createVm_eq]
  refine Yields.ensures (.bind (.ask (fun _ _ => .nil) (fun e r reply created written said _ read => ?_)
    fun e r reply _ written said _ failed => ?_))
  · refine .of_ensures (R := fun es r _ => Followed _ (Registered W c fun f => r = .error f) ([e] ++ es)) ?_
    rw [ExceptT.run_bind]
    refine .bind fun made recorded h' plays => ?_
    have given : e.created? = some created.number := by
      rw [Event.created?_eq written said, read]
      rfl
    have records : Registers W c m (Boot.record c created.number path) e made recorded :=
      ⟨⟨path, text, r, reply, created.number, ⟨final, written, said⟩, given, rfl⟩, h', plays⟩
    have quiet := apart_creates.quiet (.saveStatusSurely m _) plays
    cases recorded with
    | error f =>
      refine .done (.cons (.of_quiet (by rwa [List.append_nil])) fun _ => ?_)
      exact ⟨m, _, made, [], _, records, rfl, fun _ same => ⟨rfl, by rw [Except.error.inj same]⟩⟩
    | ok latest =>
      intro rest r h'' after
      have later := apart_creates.quiet (.afterRecord .orderless c latest created) after
      have unordered := List.forall_mem_append.2 ⟨quiet, later⟩
      refine .cons (.of_quiet unordered) fun _ => ?_
      exact ⟨m, _, made, rest, _, records, rfl, nofun⟩
  · refine .of_quiet (List.forall_mem_singleton.2 ?_)
    rw [Event.creates, Event.created?_eq written said, failed]
    rfl

theorem boot_sees : SeesTo W Event.creates (Registered W c) (boot c m) := by
  refine .lift apart_creates fun path final => ?_
  unfold Boot.ensure
  split
  · exact .of_posts apart_creates (.existing .orderless ..)
  · refine .bind apart_creates (.userData c m) fun text => ?_
    cases text with
    | none => exact .of_posts apart_creates (.done _)
    | some text =>
      refine .lift apart_creates fun _ same => ?_
      obtain rfl := Except.ok.inj same
      exact create_sees W c m final text

theorem provision_sees : SeesTo W Event.creates (Registered W c) (provision c m) := by
  unfold provision
  split
  · exact .of_posts apart_creates (.done _)
  · refine .bind apart_creates (.lift _) fun failed => ?_
    split
    · exact .of_posts apart_creates (.done _)
    · split
      · exact boot_sees W c m
      · refine .bind apart_creates (.advance c m (by decide)) fun step => ?_
        cases step with
        | ends => exact .of_posts apart_creates (.done _)
        | ready m => exact boot_sees W c m

theorem Run.registered {S : Scene} {start h : Held} {past : List Invocation} (run : Run S start past h) :
    ∀ i ∈ past, Followed Event.creates (Registered S.Happens i.context fun e => i.result = e.ends) i.events :=
  run.sees_to apart_creates .orderless (weakens_registered S.Happens) (provision_sees S.Happens)

/-- a virtual machine was ordered in the invocation, and the write of its number raised: the first attempt was refused or
could not be made, no other was accepted, and the failure ended the invocation -/
def Unrecorded (S : Scene) (i : Invocation) : Prop :=
  ∃ before e after m record f, i.events = before ++ e :: after ∧
    Registers S.Happens i.context m record e after (.error f) ∧ i.result = f.ends ∧
    Checkout.Refused (record m) after ∧ ∀ e' ∈ after, e'.acceptsStatus = false

theorem unrecorded_of_unsaved {S : Scene} {i : Invocation}
    (recorded : Followed Event.creates (Registered S.Happens i.context fun e => i.result = e.ends) i.events)
    (lost : unsaved Event.creates i.events = true) : Unrecorded S i := by
  obtain ⟨before, e, after, split, creates, rejected⟩ := unsaved_spec lost
  obtain ⟨m, record, made, rest, r, records, rfl, raised⟩ := recorded before e after split creates
  obtain ⟨h, plays⟩ := records.plays
  obtain ⟨⟨f, rfl⟩, refused⟩ := Checkout.saveStatusSurely_unaccepted plays (List.forall_mem_append.1 rejected).1
  obtain ⟨rfl, ended⟩ := raised f rfl
  rw [List.append_nil] at split rejected
  exact ⟨before, e, made, m, record, f, split, records, ended, refused, rejected⟩

end Reconcile

end VmOperator
