import VmOperator.Appliance.Basic
import VmOperator.Store.Basic

/-! Programs of the operator: a result, or a question to the appliance or the store and a program for
every answer. A program says nothing of who answers, so what holds of it holds under every appliance
and every store. -/

namespace VmOperator

inductive Program (α : Type) where
  | done (a : α)
  | send (request : Appliance.Request) (next : Appliance.Reply → Program α)
  | call (call : Store.Call) (next : Store.Reply → Program α)

namespace Program

def bind {α β : Type} : Program α → (α → Program β) → Program β
  | .done a, f => f a
  | .send r next, f => .send r fun reply => bind (next reply) f
  | .call c next, f => .call c fun reply => bind (next reply) f

instance : Monad Program where
  pure := .done
  bind := bind

theorem bind_done {α : Type} (p : Program α) : p.bind .done = p := by
  induction p with
  | done a => rfl
  | send r next ih => simp only [bind, ih]
  | call c next ih => simp only [bind, ih]

theorem bind_assoc {α β γ : Type} (p : Program α) (f : α → Program β) (g : β → Program γ) :
    (p.bind f).bind g = p.bind fun a => (f a).bind g := by
  induction p with
  | done a => rfl
  | send r next ih => simp only [bind, ih]
  | call c next ih => simp only [bind, ih]

instance : LawfulMonad Program :=
  LawfulMonad.mk' Program (fun x => bind_done x) (fun _ _ => rfl) (fun x f g => bind_assoc x f g)

/-- the program with its calls to the store changed by a state that follows the replies, and the state
that it ends in -/
def mapCalls {σ α : Type} (f : σ → Store.Call → Store.Call) (follow : σ → Store.Call → Store.Reply → σ) :
    σ → Program α → Program (α × σ)
  | s, .done a => .done (a, s)
  | s, .send r next => .send r fun reply => mapCalls f follow s (next reply)
  | s, .call c next => .call (f s c) fun reply => mapCalls f follow (follow s c reply) (next reply)

/-- someone who answers both kinds of questions and may change while doing so -/
structure Handler (σ : Type) where
  send : Appliance.Request → σ → Appliance.Reply × σ
  call : Store.Call → σ → Store.Reply × σ

/-- the result of a program whose questions are answered by `h`, and what became of `h` -/
def run {σ α : Type} (h : Handler σ) : Program α → σ → α × σ
  | .done a, s => (a, s)
  | .send r next, s => let (reply, s) := h.send r s; run h (next reply) s
  | .call c next, s => let (reply, s) := h.call c s; run h (next reply) s

end Program

/-- a program that may fail -/
abbrev Action (α : Type) := ExceptT Failure Program α

namespace Action

def send (r : Appliance.Request) : Action Appliance.Reply := .mk (.send r fun reply => .done (.ok reply))

def call (c : Store.Call) : Action Store.Reply := .mk (.call c fun reply => .done (.ok reply))

def ofExcept {α : Type} (r : Except Failure α) : Action α := .mk (.done r)

def fault {α : Type} (f : Fault) : Action α := throw (.fault f)

end Action

instance : MonadLift (Except Failure) (ExceptT Failure Program) := ⟨Action.ofExcept⟩

end VmOperator
