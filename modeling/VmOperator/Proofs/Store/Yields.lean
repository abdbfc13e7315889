import VmOperator.Proofs.Appliance.Query
import VmOperator.Proofs.Store.World

/-! Actions under a world: `Yields` has one thing to say of a result and one of a failure, and is had part by part,
as `Ensures` is. Under `World.any` nothing is known of the answers. -/

namespace VmOperator

namespace World

def any : World := fun _ _ => True

theorem Plays.anywhere {W : World} {α : Type} {h h' : Held} {p : Program α} {es : List Event} {a : α}
    (plays : W.Plays h p es a h') : any.Plays h p es a h' :=
  plays.mono fun _ _ _ => trivial

/-- however the world answers, the action gives a result as `Q` says or a failure as `E` says -/
def Yields (W : World) {α : Type} (h : Held) (p : Action α) (Q : List Event → α → Held → Prop)
    (E : List Event → Failure → Held → Prop) : Prop :=
  W.Ensures h p.run fun es r h' =>
    match r with
    | .ok a => Q es a h'
    | .error e => E es e h'

variable {W : World} {α β : Type} {h h' : Held}

namespace Yields

variable {p : Action α} {Q : List Event → α → Held → Prop} {E : List Event → Failure → Held → Prop}

theorem pure {a : α} (hQ : Q [] a h) : W.Yields h (Pure.pure a) Q E := Ensures.done hQ

theorem throw {e : Failure} (hE : E [] e h) : W.Yields h (MonadExcept.throw e : Action α) Q E := Ensures.done hE

theorem lift {r : Except Failure α} (hQ : ∀ a, r = .ok a → Q [] a h) (hE : ∀ e, r = .error e → E [] e h) :
    W.Yields h (Action.ofExcept r) Q E := by
  cases r with
  | ok a => exact Ensures.done (hQ a rfl)
  | error e => exact Ensures.done (hE e rfl)

theorem mono {Q' : List Event → α → Held → Prop} {E' : List Event → Failure → Held → Prop}
    (yields : W.Yields h p Q E) (hQ : ∀ es a h', Q es a h' → Q' es a h') (hE : ∀ es e h', E es e h' → E' es e h') :
    W.Yields h p Q' E' := by
  unfold Yields at *
  refine Ensures.mono yields fun es r h' ended => ?_
  cases r with
  | ok a => exact hQ es a h' ended
  | error e => exact hE es e h' ended

/-- what is said of a result and of a failure may be one thing -/
theorem of_ensures {R : List Event → Except Failure α → Held → Prop} (ensured : W.Ensures h p.run R) :
    W.Yields h p (fun es a => R es (.ok a)) fun es f => R es (.error f) :=
  Ensures.mono ensured fun es r h' ended => by cases r <;> exact ended

theorem ensures {R : List Event → Except Failure α → Held → Prop}
    (yields : W.Yields h p (fun es a => R es (.ok a)) fun es f => R es (.error f)) : W.Ensures h p.run R :=
  Ensures.mono yields fun es r h' ended => by cases r <;> exact ended

theorem within {W' : World} (yields : W'.Yields h p Q E) (allowed : ∀ h e, W h e → W' h e) : W.Yields h p Q E :=
  fun es r h' plays => yields es r h' (plays.mono allowed)

/-- two things may be said at once -/
theorem and {Q' : List Event → α → Held → Prop} {E' : List Event → Failure → Held → Prop}
    (yields : W.Yields h p Q E) (also : W.Yields h p Q' E') :
    W.Yields h p (fun es a h' => Q es a h' ∧ Q' es a h') fun es e h' => E es e h' ∧ E' es e h' := by
  intro es r h' plays
  have one := yields es r h' plays
  have other := also es r h' plays
  cases r with
  | ok a => exact ⟨one, other⟩
  | error e => exact ⟨one, other⟩

theorem bind {f : α → Action β} {Q : List Event → β → Held → Prop}
    (yields : W.Yields h p (fun es a h' => W.Yields h' (f a) (fun es' => Q (es ++ es')) fun es' => E (es ++ es')) E) :
    W.Yields h (p >>= f) Q E := by
  unfold Yields
  rw [ExceptT.run_bind]
  refine Ensures.bind (Ensures.mono yields fun es r h' next => ?_)
  cases r with
  | ok a => exact next
  | error e =>
    refine Ensures.done ?_
    rw [List.append_nil]
    exact next

theorem map {f : α → β} {Q : List Event → β → Held → Prop} (yields : W.Yields h p (fun es a => Q es (f a)) E) :
    W.Yields h (f <$> p) Q E := by
  rw [map_eq_pure_bind]
  refine bind (yields.mono (fun es a h' ended => pure ?_) fun _ _ _ ended => ended)
  rw [List.append_nil]
  exact ended

theorem tryCatch {handle : Failure → Action α}
    (yields : W.Yields h p Q fun es e h' => W.Yields h' (handle e) (fun es' => Q (es ++ es')) fun es' => E (es ++ es')) :
    W.Yields h (MonadExcept.tryCatch p handle) Q E := by
  unfold Yields
  rw [ExceptT.run_tryCatch]
  refine Ensures.bind (Ensures.mono yields fun es r h' ended => ?_)
  cases r with
  | ok a =>
    refine Ensures.done ?_
    rw [List.append_nil]
    exact ended
  | error e => exact ended

/-- a call and a reading of its reply -/
theorem call {c : Store.Call} {read : Store.Reply → Except Failure α}
    (asked : p.run = .call c fun reply => .done (read reply))
    (hQ : ∀ e reply a, e.said = .called c reply → W h e → read reply = .ok a → Q [e] a e.after)
    (hE : ∀ e reply f, e.said = .called c reply → W h e → read reply = .error f → E [e] f e.after) :
    W.Yields h p Q E := by
  unfold Yields
  rw [asked]
  refine Ensures.call fun e reply said happens => Ensures.done ?_
  cases found : read reply with
  | ok a => exact hQ e reply a said happens found
  | error f => exact hE e reply f said happens found

/-- a request, if it can be written, and a reading of its reply -/
theorem ask {q : Appliance.Query α} (hW : ∀ e, q.request = .error e → E [] e h)
    (hQ : ∀ e r reply a, q.request = .ok r → e.said = .sent r reply → W h e → q.read reply = .ok a → Q [e] a e.after)
    (hE : ∀ e r reply f, q.request = .ok r → e.said = .sent r reply → W h e → q.read reply = .error f →
      E [e] f e.after) : W.Yields h q.ask Q E := by
  unfold Appliance.Query.ask
  refine bind (lift (fun r written => ?_) hW)
  refine Ensures.send fun e reply said happens => Ensures.done ?_
  cases found : q.read reply with
  | ok a => exact hQ e r reply a written said happens found
  | error f => exact hE e r reply f written said happens found

end Yields

end World

end VmOperator
