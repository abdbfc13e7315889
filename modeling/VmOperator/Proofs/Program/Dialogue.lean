import VmOperator.Proofs.Value.Reading
import VmOperator.Program

/-! What a program may say, told by stages: `Simulates` holds of a program that, whatever it is answered,
asks only what the stage it has reached allows. For programs that may fail there are two things to be
had at the end, one of a result and one of a failure. -/

namespace VmOperator

inductive Exchange where
  | sent (request : Appliance.Request) (reply : Appliance.Reply)
  | called (call : Store.Call) (reply : Store.Reply)
deriving DecidableEq

def Exchange.refusedWith (n : Int) : Exchange → Bool
  | .called _ (.refused status _) => status.isNumber n
  | _ => false

/-- what an object or its status was to be replaced with -/
def Exchange.content? : Exchange → Option Value
  | .called (.replace _ _ _ x) _ | .called (.replaceStatus _ _ _ x) _ => some x
  | _ => none

namespace Program

variable {σ α β : Type} {Step : σ → Exchange → σ → Prop}

/-- every dialogue of the program follows the steps from this stage, and ends as `Q` says -/
def Simulates (Step : σ → Exchange → σ → Prop) : σ → Program α → (α → σ → Prop) → Prop
  | st, .done a, Q => Q a st
  | st, .send r next, Q => ∀ reply, ∃ st', Step st (.sent r reply) st' ∧ Simulates Step st' (next reply) Q
  | st, .call c next, Q => ∀ reply, ∃ st', Step st (.called c reply) st' ∧ Simulates Step st' (next reply) Q

theorem Simulates.mono {p : Program α} {st : σ} {Q Q' : α → σ → Prop} (h : Simulates Step st p Q)
    (hQ : ∀ a st, Q a st → Q' a st) : Simulates Step st p Q' := by
  induction p generalizing st with
  | done a => exact hQ a st h
  | send r next ih =>
    intro reply
    obtain ⟨st', step, h⟩ := h reply
    exact ⟨st', step, ih reply h⟩
  | call c next ih =>
    intro reply
    obtain ⟨st', step, h⟩ := h reply
    exact ⟨st', step, ih reply h⟩

theorem Simulates.bind {p : Program α} {f : α → Program β} {st : σ} {Q : β → σ → Prop}
    (h : Simulates Step st p fun a st => Simulates Step st (f a) Q) : Simulates Step st (p >>= f) Q := by
  induction p generalizing st with
  | done a => exact h
  | send r next ih =>
    intro reply
    obtain ⟨st', step, h⟩ := h reply
    exact ⟨st', step, ih reply h⟩
  | call c next ih =>
    intro reply
    obtain ⟨st', step, h⟩ := h reply
    exact ⟨st', step, ih reply h⟩

end Program

namespace Action

variable {σ α β : Type} {Step : σ → Exchange → σ → Prop} {st : σ}

/-- as `Program.Simulates`, with `Q` of a result and `E` of a failure -/
def Simulates (Step : σ → Exchange → σ → Prop) (st : σ) (p : Action α) (Q : α → σ → Prop)
    (E : Failure → σ → Prop) : Prop :=
  Program.Simulates Step st p.run fun r st =>
    match r with
    | .ok a => Q a st
    | .error e => E e st

theorem Simulates.mono {p : Action α} {Q Q' : α → σ → Prop} {E E' : Failure → σ → Prop}
    (h : Simulates Step st p Q E) (hQ : ∀ a st, Q a st → Q' a st) (hE : ∀ e st, E e st → E' e st) :
    Simulates Step st p Q' E' := by
  apply Program.Simulates.mono h
  intro r st h
  cases r with
  | ok a => exact hQ a st h
  | error e => exact hE e st h

theorem Simulates.bind {p : Action α} {f : α → Action β} {Q : β → σ → Prop} {E : Failure → σ → Prop}
    (h : Simulates Step st p (fun a st => Simulates Step st (f a) Q E) E) : Simulates Step st (p >>= f) Q E := by
  unfold Simulates at h ⊢
  rw [ExceptT.run_bind]
  refine Program.Simulates.bind (h.mono fun r st h => ?_)
  cases r with
  | ok a => exact h
  | error e => exact h

theorem Simulates.pure {a : α} {Q : α → σ → Prop} {E : Failure → σ → Prop} (h : Q a st) :
    Simulates Step st (pure a) Q E := h

theorem Simulates.throw {e : Failure} {Q : α → σ → Prop} {E : Failure → σ → Prop} (h : E e st) :
    Simulates Step st (throw e) Q E := h

theorem Simulates.lift {r : Except Failure α} {Q : α → σ → Prop} {E : Failure → σ → Prop}
    (hQ : ∀ a, r = .ok a → Q a st) (hE : ∀ e, r = .error e → E e st) :
    Simulates Step st (ofExcept r) Q E := by
  cases r with
  | ok a => exact hQ a rfl
  | error e => exact hE e rfl

theorem Simulates.tryCatch {p : Action α} {handle : Failure → Action α} {Q : α → σ → Prop} {E : Failure → σ → Prop}
    (h : Simulates Step st p Q fun e st => Simulates Step st (handle e) Q E) :
    Simulates Step st (tryCatch p handle) Q E := by
  unfold Simulates at h ⊢
  rw [ExceptT.run_tryCatch]
  refine Program.Simulates.bind (h.mono fun r st h => ?_)
  cases r with
  | ok a => exact h
  | error e => exact h

theorem Simulates.map {p : Action α} {f : α → β} {Q : β → σ → Prop} {E : Failure → σ → Prop}
    (h : Simulates Step st p (fun a => Q (f a)) E) : Simulates Step st (f <$> p) Q E := by
  rw [map_eq_pure_bind]
  exact .bind (h.mono (fun _ _ h => .pure h) fun _ _ h => h)

theorem Simulates.send {r : Appliance.Request} {Q : Appliance.Reply → σ → Prop} {E : Failure → σ → Prop}
    (h : ∀ reply, ∃ st', Step st (.sent r reply) st' ∧ Q reply st') : Simulates Step st (Action.send r) Q E := h

theorem Simulates.call {c : Store.Call} {Q : Store.Reply → σ → Prop} {E : Failure → σ → Prop}
    (h : ∀ reply, ∃ st', Step st (.called c reply) st' ∧ Q reply st') : Simulates Step st (Action.call c) Q E := h

end Action
end VmOperator
