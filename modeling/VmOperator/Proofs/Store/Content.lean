import VmOperator.Proofs.Store.Client
import VmOperator.Proofs.Store.World

/-! What the store has beside the machines, and actions that only look it up: such an action comes to one result, which is told
by what is there (`Finds`). -/

namespace VmOperator

abbrev Store.Content := Store.Kind → Value → Value → Option Value

def Exchange.looksUp : Exchange → Bool
  | .called (.get ..) _ => true
  | _ => false

/-- what is looked up is answered by what is there, unless it is a machine of the operator; nothing is said of any other answer -/
def Store.Content.answers (content : Store.Content) : Exchange → Bool
  | .called (.get kind ns name) reply =>
    kind = .machines || match content kind ns name, reply with
      | some o, .ok v => v = o
      | none, .refused status _ => status = .int 404
      | _, _ => false
  | _ => true

def World.keeping (content : Store.Content) : World := fun _ e => content.answers e.said = true

/-- the action looks up nothing but what is there, and comes to this -/
def Finds {α : Type} (content : Store.Content) (p : Action α) (x : Except Failure α) : Prop :=
  ∀ h, (World.keeping content).Ensures h p.run fun es r _ => r = x ∧ ∀ e ∈ es, e.said.looksUp = true

namespace Finds

open World (Ensures)

variable {content : Store.Content} {α β : Type} {p : Action α}

theorem pure (a : α) : Finds content (Pure.pure a : Action α) (Pure.pure a) :=
  fun _ => Ensures.done ⟨rfl, List.forall_mem_nil _⟩

theorem throw (e : Failure) : Finds content (MonadExcept.throw e : Action α) (.error e) :=
  fun _ => Ensures.done ⟨rfl, List.forall_mem_nil _⟩

theorem lift (x : Except Failure α) : Finds content (Action.ofExcept x) x :=
  fun _ => Ensures.done ⟨rfl, List.forall_mem_nil _⟩

theorem bind {x : Except Failure α} {f : α → Action β} {g : α → Except Failure β} (first : Finds content p x)
    (rest : ∀ a, Finds content (f a) (g a)) : Finds content (p >>= f) (x >>= g) := by
  intro h
  rw [ExceptT.run_bind]
  refine Ensures.bind ((first h).mono fun es r h' ⟨same, looked⟩ => ?_)
  subst same
  cases r with
  | error e =>
    refine Ensures.done ⟨rfl, ?_⟩
    rwa [List.append_nil]
  | ok a => exact (rest a h').mono fun es' r' h'' ⟨same, more⟩ => ⟨same, List.forall_mem_append.2 ⟨looked, more⟩⟩

theorem fetch (action : String) {kind : Store.Kind} (other : kind ≠ .machines) (ns name : Value) :
    Finds content (Store.fetch action kind ns name) (.ok (content kind ns name)) := by
  intro h
  rw [Store.fetch_eq]
  refine Ensures.call fun e reply said answered => Ensures.done ⟨?_, List.forall_mem_singleton.2 (by rw [said]; rfl)⟩
  unfold World.keeping Store.Content.answers at answered
  rw [said] at answered
  dsimp only at answered
  rw [decide_eq_false other, Bool.false_or] at answered
  split at answered
  next o v found =>
    rw [found, of_decide_eq_true answered]
    rfl
  next status reason found =>
    rw [found, of_decide_eq_true answered]
    rfl
  next => cases answered

end Finds

end VmOperator
