import VmOperator.Proofs.Losses
import VmOperator.Proofs.Reconcile.Endings
import VmOperator.Proofs.Reconcile.Posts

/-! What comes right after an event of some kind (`Followed`). An action sees to it that a write does (`SeesTo`), and so
does an invocation if what it does with a machine that is wanted does (`Run.sees_to`), for kinds of events that are not
had while it looks, tears down or waits. A status write in which nothing was accepted came second or raised
(`Ends.unaccepted`, `saveStatusSurely_unaccepted`). -/

namespace VmOperator

/-- what an invocation comes to whose action failed -/
def Failure.ends : Failure → Except Failure Outcome
  | .fault f => .ok (.failed f)
  | e => .error e

theorem Event.acceptsStatus_of_said {e : Event} {m : Machine} {x o : Value}
    (said : e.said = .called (Checkout.Part.status.on m x) (.ok o)) : e.acceptsStatus = true := by
  rw [acceptsStatus, said]
  rfl

namespace Checkout

/-- the status of the machine could not be written, or the first write of it was refused -/
inductive Refused (m : Machine) : List Event → Prop
  | unwritable {f : Failure} (failed : m.toValue = .error f) : Refused m []
  | refused {e : Event} {es : List Event} {x status reason : Value} (written : m.toValue = .ok x)
      (said : e.said = .called (Part.status.on m x) (.refused status reason)) : Refused m (e :: es)

variable {W : World} {h h' : Held} {m : Machine} {es : List Event} {change : Machine → Machine}

/-- a write of the status in which none was accepted came second or raised -/
theorem Ends.unaccepted {r : Except Failure (Option Machine)} (ends : Ends W h .status m some (fun _ => .ok none) es r h')
    (rejected : ∀ e ∈ es, e.acceptsStatus = false) : (∀ m', r ≠ .ok (some m')) ∧ Refused m es := by
  cases ends with
  | unwritable failed => exact ⟨nofun, .unwritable failed⟩
  | accepted _ said | unreadable _ said => cases (rejected _ (List.mem_singleton.2 rfl)).symm.trans (Event.acceptsStatus_of_said said)
  | lost written said => exact ⟨nofun, .refused written said⟩
  | refused written said => exact ⟨nofun, .refused written said⟩

/-- and one that must not be lost raised -/
theorem Rewrites.unaccepted {more : Nat} {r : Machine × Except Failure Unit} (rewrites : Rewrites W change more h m es r h')
    (rejected : ∀ e ∈ es, e.acceptsStatus = false) : (∃ f, r.2 = .error f) ∧ Refused (change m) es := by
  induction rewrites with
  | unwritable failed => exact ⟨⟨_, rfl⟩, .unwritable failed⟩
  | accepted _ said | unreadable _ said => cases (rejected _ (List.mem_singleton.2 rfl)).symm.trans (Event.acceptsStatus_of_said said)
  | refused written said => exact ⟨⟨_, rfl⟩, .refused written said⟩
  | stopped written said => exact ⟨⟨_, rfl⟩, .refused written said⟩
  | again written said _ _ _ _ _ ih =>
    have later := List.forall_mem_append.1 (List.forall_mem_cons.1 rejected).2
    exact ⟨(ih later.2).1, .refused written said⟩

theorem saveStatus_unaccepted {r : Except Failure (Option Machine)} (plays : W.Plays h (saveStatus m).run es r h')
    (rejected : ∀ e ∈ es, e.acceptsStatus = false) : (∀ m', r ≠ .ok (some m')) ∧ Refused m es :=
  (save_ends .status m es r h' plays).unaccepted rejected

theorem saveStatusSurely_unaccepted {r : Except Failure Machine} (plays : W.Plays h (saveStatusSurely change m).run es r h')
    (rejected : ∀ e ∈ es, e.acceptsStatus = false) : (∃ f, r = .error f) ∧ Refused (change m) es := by
  have ensured : W.Ensures h (saveStatusSurely change m).run fun es r _ =>
      (∀ e ∈ es, e.acceptsStatus = false) → (∃ f, r = .error f) ∧ Refused (change m) es := by
    refine .bind ((writeRefreshing_ends 4 m).mono fun es r h' rewrites => .done fun rejected => ?_)
    rw [List.append_nil] at rejected ⊢
    obtain ⟨⟨f, failed⟩, refused⟩ := rewrites.unaccepted rejected
    exact ⟨⟨f, by rw [failed]; rfl⟩, refused⟩
  exact ensured es r h' plays rejected

end Checkout

namespace Reconcile

/-- right after every event of this kind comes what it calls for -/
def Followed (f : Event → Bool) (calls : Event → List Event → Prop) (es : List Event) : Prop :=
  ∀ before e after, es = before ++ e :: after → f e = true → calls e after

section Followed

variable {f : Event → Bool} {calls calls' : Event → List Event → Prop} {e : Event} {es es' : List Event}

theorem Followed.nil : Followed f calls [] := by
  intro before e after split
  simp at split

theorem Followed.mono (followed : Followed f calls es) (imp : ∀ e after, calls e after → calls' e after) :
    Followed f calls' es :=
  fun before e after split happens => imp e after (followed before e after split happens)

theorem Followed.cons (followed : Followed f calls es) (called : f e = true → calls e es) : Followed f calls (e :: es) := by
  intro before e' after split happens
  rcases List.cons_eq_append_iff.1 split with ⟨rfl, same⟩ | ⟨before', rfl, rfl⟩
  · obtain ⟨rfl, rfl⟩ := List.cons.inj same
    exact called happens
  · exact followed before' e' after rfl happens

theorem Followed.prepend (quiet : ∀ e ∈ es, f e = false) (followed : Followed f calls es') : Followed f calls (es ++ es') := by
  induction es with
  | nil => exact followed
  | cons e es ih =>
    obtain ⟨first, quiet⟩ := List.forall_mem_cons.1 quiet
    exact (ih quiet).cons fun happens => nomatch first.symm.trans happens

theorem Followed.of_quiet (quiet : ∀ e ∈ es, f e = false) : Followed f calls es := by
  rw [← List.append_nil es]
  exact .prepend quiet .nil

end Followed

/-- however the world answers, what is called for comes right after every event of the kind; what is called for
depends on the failure that the action ends with -/
def SeesTo (W : World) (f : Event → Bool) (calls : (Failure → Prop) → Event → List Event → Prop) {α : Type} (p : Action α) :
    Prop :=
  ∀ h, W.Ensures h p.run fun es r _ => Followed f (calls fun e => r = .error e) es

/-- events of this kind are posted to other paths than these -/
def Apart (R : String → Prop) (f : Event → Bool) : Prop := ∀ e, f e = true → ∃ path, e.route? = some (.post, path) ∧ ¬R path

theorem Apart.quiet {R : String → Prop} {f : Event → Bool} (apart : Apart R f) {α : Type} {p : Program α} (posts : PostsTo R p)
    {W : World} {h h' : Held} {es : List Event} {a : α} (plays : W.Plays h p es a h') : ∀ e ∈ es, f e = false := by
  refine fun e mem => Bool.eq_false_iff.2 fun happens => ?_
  obtain ⟨path, routed, other⟩ := apart e happens
  exact other (posts.route plays e mem path routed)

variable {W : World} {R : String → Prop} {f : Event → Bool} {calls : (Failure → Prop) → Event → List Event → Prop} {α β : Type}

section SeesTo

variable (apart : Apart R f)

include apart

theorem SeesTo.of_posts {p : Action α} (posts : PostsTo R p.run) : SeesTo W f calls p :=
  fun _ _ _ _ plays => .of_quiet (apart.quiet posts plays)

theorem SeesTo.bind {p : Action α} {k : α → Action β} (posts : PostsTo R p.run) (rest : ∀ a, SeesTo W f calls (k a)) :
    SeesTo W f calls (p >>= k) := by
  intro h
  rw [ExceptT.run_bind]
  refine .bind fun es r h' plays => ?_
  have quiet := apart.quiet posts plays
  cases r with
  | ok a => exact (rest a h').mono fun es' r' h'' followed => .prepend quiet followed
  | error e =>
    refine .done ?_
    rw [List.append_nil]
    exact .of_quiet quiet

theorem SeesTo.lift {x : Except Failure α} {k : α → Action β} (rest : ∀ a, x = .ok a → SeesTo W f calls (k a)) :
    SeesTo W f calls (Action.ofExcept x >>= k) := by
  cases x with
  | ok a => exact rest a rfl
  | error e => exact .of_posts apart (.done _)

/-- the finalizer and the teardown have no such event -/
theorem SeesTo.settle {c : Context} {m : Machine} (elsewhere : Elsewhere R)
    (provision : ∀ m, SeesTo W f calls (provision c m)) : SeesTo W f calls (settle c m) := by
  unfold Reconcile.settle
  split
  · exact .of_posts apart (.run elsewhere c m)
  · refine .bind apart (.ensureFinalizer m) fun held => ?_
    cases held with
    | none => exact .of_posts apart (.done _)
    | some m => exact provision m

end SeesTo

/-- what is called for still is where less is said of the failures -/
def Weakens (calls : (Failure → Prop) → Event → List Event → Prop) : Prop :=
  ∀ E E' : Failure → Prop, (∀ f, E f → E' f) → ∀ e after, calls E e after → calls E' e after

theorem reported_followed {h : Held} {action : Action Outcome} (weakens : Weakens calls) (sees : SeesTo W f calls action) :
    W.Ensures h (reported action).run fun es r _ => Followed f (calls fun e => r = e.ends) es := by
  unfold reported
  rw [ExceptT.run_tryCatch]
  refine .bind ((sees h).mono fun es r h' followed => ?_)
  cases r with
  | ok outcome =>
    refine .done ?_
    rw [List.append_nil]
    exact followed.mono (weakens _ _ nofun)
  | error failure =>
    have ended : Followed f (calls fun e => failure.ends = e.ends) es :=
      followed.mono (weakens _ _ fun f same => by rw [Except.error.inj same])
    cases failure <;>
    · refine .done ?_
      rw [List.append_nil]
      exact ended

theorem machine_followed {h : Held} {c : Context} {ns name : String} (apart : Apart R f) (elsewhere : Elsewhere R)
    (weakens : Weakens calls) (provision : ∀ m, SeesTo W f calls (provision c m)) :
    W.Ensures h (machine c ns name).run fun es r _ => Followed f (calls fun e => r = e.ends) es := by
  refine reported_followed weakens (.bind apart (.getMachine ..) fun found => ?_)
  cases found with
  | none => exact .of_posts apart (.done _)
  | some m => exact .settle apart elsewhere provision

theorem Run.sees_to {S : Scene} {start h : Held} {past : List Invocation}
    {calls : Context → (Failure → Prop) → Event → List Event → Prop} (apart : Apart R f) (elsewhere : Elsewhere R)
    (weakens : ∀ c, Weakens (calls c)) (provision : ∀ c m, SeesTo S.Happens f (calls c) (provision c m)) (run : Run S start past h) :
    ∀ i ∈ past, Followed f (calls i.context fun e => i.result = e.ends) i.events := by
  induction run with
  | nil => exact List.forall_mem_nil _
  | snoc run plays ih =>
    rename_i c es r
    exact forall_snoc ih (machine_followed apart elsewhere (weakens c) (provision c) es r _ plays.inWorld)

end Reconcile

end VmOperator
