import VmOperator.Proofs.Reconcile.Looking
import VmOperator.Proofs.Store.Service

/-! What actions leave behind where nobody else writes and every write is taken. What only asks leaves all as it was; a
machine in hand that is written is in hand again, as it was written (`saveStatus_leaves`, `saveStatusSurely_leaves`,
`save_leaves`). -/

namespace VmOperator

namespace Event

def rejects (e : Event) : Bool := e.said.content?.isSome && !e.said.accepts

/-- the machine is said to be missing only where nothing is stored -/
structure Candid (S : Scene) (e : Event) : Prop where
  missing : ∀ status reason, e.said = .called (.get .machines (.string S.ns) (.string S.name)) (.refused status reason) →
    status.isNumber 404 = true → e.before.object = none

end Event

namespace Scene

/-- every write is taken, and what is there is not said to be missing -/
structure Takes (S : Scene) (h : Held) (e : Event) : Prop where
  happens : S.Happens h e
  candid : e.Candid S
  taken : e.rejects = false

variable {S : Scene} {h h' : Held}

/-- nothing changes without a write -/
theorem Happens.unchanged {e : Event} (happens : S.Happens h e) (quiet : S.Quiet) (silent : e.said.content? = none) :
    e.after = h := by
  cases happens with
  | sent _ _ drift => exact quiet.same drift
  | called c reply drift answer =>
    obtain rfl := quiet.same drift
    cases answer with
    | refused | elsewhere | got => rfl
    | replaced | restated => cases silent

/-- what is given is what is stored -/
theorem Happens.found {e : Event} {o : Value} (happens : S.Happens h e) (quiet : S.Quiet)
    (said : e.said = .called (.get .machines (.string S.ns) (.string S.name)) (.ok o)) :
    e.after = h ∧ h.object = some o := by
  obtain ⟨-, answer⟩ := happens.of_called quiet said
  refine ⟨answer.of_get, ?_⟩
  cases answer with
  | elsewhere _ _ other => exact absurd ⟨rfl, rfl, rfl⟩ other
  | got _ object => exact object

theorem Quiet.unchanged (quiet : S.Quiet) {α : Type} {p : Program α} {es : List Event} {a : α}
    (plays : World.Plays S.Happens h p es a h') (silent : ∀ e ∈ es, e.said.content? = none) : h' = h := by
  induction plays with
  | done => rfl
  | send _ happens _ ih | call _ happens _ ih =>
    obtain ⟨now, later⟩ := List.forall_mem_cons.1 silent
    rw [ih later, happens.unchanged quiet now]

end Scene

/-- nobody else writes: where every write is taken, the result and what is stored then are as `Q` says -/
structure Leaves (S : Scene) (h : Held) {α : Type} (p : Action α) (Q : α → Held → Prop) : Prop where
  left : World.Yields S.Takes h p (fun _ => Q) fun _ _ _ => True

namespace Leaves

variable {S : Scene} {h : Held} {α β : Type} {p : Action α} {Q : α → Held → Prop}

theorem pure {a : α} (hQ : Q a h) : Leaves S h (Pure.pure a) Q := ⟨.pure hQ⟩

theorem lift {r : Except Failure α} (hQ : ∀ a, r = .ok a → Q a h) : Leaves S h (Action.ofExcept r) Q :=
  ⟨.lift hQ fun _ _ => trivial⟩

theorem mono {Q' : α → Held → Prop} (leaves : Leaves S h p Q) (hQ : ∀ a h', Q a h' → Q' a h') : Leaves S h p Q' :=
  ⟨leaves.left.mono (fun _ => hQ) fun _ _ _ => id⟩

theorem bind {f : α → Action β} {Q : β → Held → Prop} (leaves : Leaves S h p fun a h' => Leaves S h' (f a) Q) :
    Leaves S h (p >>= f) Q :=
  ⟨.bind (leaves.left.mono (fun _ _ _ next => next.left) fun _ _ _ => id)⟩

theorem any : Leaves S h p fun _ _ => True :=
  ⟨fun _ r _ _ => by cases r <;> trivial⟩

/-- what is told of the result whoever answers -/
theorem tells {Q' : List Event → α → Prop} (leaves : Leaves S h p Q) (tells : Tells p Q') :
    Leaves S h p fun a h' => Q a h' ∧ ∃ es, Q' es a :=
  ⟨(leaves.left.and (tells.told _ h)).mono (fun es _ _ ⟨left, told⟩ => ⟨left, es, told⟩) fun _ _ _ _ => trivial⟩

theorem asks (quiet : S.Quiet) (asks : OnlyAsks p) : Leaves S h p fun _ h' => h' = h := by
  refine ⟨fun es r h' plays => ?_⟩
  have silent := asks.silent _ _ es r h' plays
  cases r with
  | ok a => exact quiet.unchanged (plays.mono fun _ _ => Scene.Takes.happens) silent
  | error f => trivial

/-- what only asks is followed by what comes next -/
theorem ask {f : α → Action β} {Q : β → Held → Prop} (quiet : S.Quiet) (asks : OnlyAsks p)
    (next : ∀ a, Leaves S h (f a) Q) : Leaves S h (p >>= f) Q := by
  refine .bind ((Leaves.asks quiet asks).mono fun a h' same => ?_)
  subst same
  exact next a

end Leaves

section Writes

open Checkout

variable {S : Scene} {h : Held} {m : Machine} {s : MachineStatus}

theorem InHand.on_eq_call (inHand : InHand S h m) (part : Part) (m' : Machine) (x : Value) (ns : m'.ns = m.ns)
    (name : m'.name = m.name) : part.on m' x = part.call S x := by
  cases part <;> rw [Part.on, Part.call, ns, name, inHand.copy.ns, inHand.copy.name]

/-- a write that is given up was not taken -/
theorem Scene.Takes.not_refused {e : Event} {part : Part} {x status reason : Value} (takes : S.Takes h e)
    (said : e.said = .called (part.on m x) (.refused status reason)) : False := by
  have taken := takes.taken
  rw [Event.rejects, said] at taken
  cases part <;> cases taken

theorem saveStatus_leaves (quiet : S.Quiet) (inHand : InHand S h m) (shape : s.progress.IsObject) :
    Leaves S h (saveStatus { m with status := s }) fun saved h' =>
      ∃ m', saved = some m' ∧ { m with status := s.rendered }.Stamps m' ∧ InHand S h' m' := by
  refine ⟨(save_ends .status _).mono fun es r h' ended => ?_⟩
  cases ended with
  | unwritable | unreadable | refused => trivial
  | lost _ said takes => exact (takes.not_refused said).elim
  | accepted written said takes read =>
    rw [inHand.on_eq_call .status { m with status := s } _ rfl rfl] at said
    obtain ⟨saved, read', stamps, inHand'⟩ := restated_taken quiet inHand shape written takes.happens said
    obtain rfl := Except.ok.inj (read.symm.trans read')
    exact ⟨_, rfl, stamps, inHand'⟩

/-- the object may go with the write where it is to be deleted -/
theorem save_leaves (quiet : S.Quiet) (inHand : InHand S h m) (finalizers : List Value) {id : Value}
    (named : id = m.spec.providerId ∨ id.isTruthy = true) :
    Leaves S h (save (m.amended finalizers id)) fun saved h' => ∃ m', saved = some m' ∧
      (m.amended finalizers id).Stamps m' ∧ (InHand S h' m' ∨ m.isBeingDeleted = true ∧ h'.object = none) := by
  refine ⟨(save_ends .whole _).mono fun es r h' ended => ?_⟩
  cases ended with
  | unwritable | unreadable | refused => trivial
  | lost _ said takes => exact (takes.not_refused said).elim
  | accepted written said takes read =>
    rw [inHand.on_eq_call .whole (m.amended finalizers id) _ rfl rfl] at said
    obtain ⟨saved, read', stamps, after⟩ := amended_taken quiet inHand named written takes.happens said
    obtain rfl := Except.ok.inj (read.symm.trans read')
    exact ⟨_, rfl, stamps, after⟩

theorem saveStatusSurely_leaves (quiet : S.Quiet) (inHand : InHand S h m) {change : Machine → Machine}
    (changes : change m = { m with status := s }) (shape : s.progress.IsObject) :
    Leaves S h (saveStatusSurely change m) fun m' h' => { m with status := s.rendered }.Stamps m' ∧ InHand S h' m' := by
  refine ⟨World.Ensures.bind ((writeRefreshing_ends 4 m).mono fun es r h' rewrites => World.Ensures.done ?_)⟩
  cases rewrites with
  | unwritable | unreadable | refused => trivial
  | stopped _ said takes | again _ said takes => exact (takes.not_refused said).elim
  | accepted written said takes read =>
    rw [changes] at written said
    rw [inHand.on_eq_call .status { m with status := s } _ rfl rfl] at said
    obtain ⟨saved, read', stamps, inHand'⟩ := restated_taken quiet inHand shape written takes.happens said
    obtain rfl := Except.ok.inj (read.symm.trans read')
    exact ⟨stamps, inHand'⟩

end Writes

end VmOperator
