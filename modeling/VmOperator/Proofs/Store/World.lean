import VmOperator.Proofs.Store.Scene

/-! Programs under a world, which says what may happen next from what the store holds. `Ensures` is what
holds of a program however its world answers; it is had part by part, along the program. A scene is one
world (`Scene.Plays.inWorld`). -/

namespace VmOperator

/-- what may happen next, from what the store held after the event before -/
abbrev World := Held → Event → Prop

namespace World

/-- a program answered in this world: its events, its result, and what the store holds before and after -/
inductive Plays (W : World) {α : Type} : Held → Program α → List Event → α → Held → Prop
  | done (h : Held) (a : α) : Plays W h (.done a) [] a h
  | send {h h' : Held} {r : Appliance.Request} {next : Appliance.Reply → Program α} {reply : Appliance.Reply}
      {e : Event} {es : List Event} {a : α} (said : e.said = .sent r reply) (happens : W h e)
      (rest : Plays W e.after (next reply) es a h') : Plays W h (.send r next) (e :: es) a h'
  | call {h h' : Held} {c : Store.Call} {next : Store.Reply → Program α} {reply : Store.Reply}
      {e : Event} {es : List Event} {a : α} (said : e.said = .called c reply) (happens : W h e)
      (rest : Plays W e.after (next reply) es a h') : Plays W h (.call c next) (e :: es) a h'

/-- what happened also happens where all of its events may -/
theorem Plays.within {W W' : World} {α : Type} {h h' : Held} {p : Program α} {es : List Event} {a : α}
    (plays : W.Plays h p es a h') (allowed : ∀ h, ∀ e ∈ es, W h e → W' h e) : W'.Plays h p es a h' := by
  induction plays with
  | done h a => exact .done h a
  | send said happens _ ih =>
    exact .send said (allowed _ _ (List.mem_cons_self ..) happens) (ih fun h e mem => allowed h e (List.mem_cons_of_mem _ mem))
  | call said happens _ ih =>
    exact .call said (allowed _ _ (List.mem_cons_self ..) happens) (ih fun h e mem => allowed h e (List.mem_cons_of_mem _ mem))

theorem Plays.mono {W W' : World} {α : Type} {h h' : Held} {p : Program α} {es : List Event} {a : α}
    (plays : W.Plays h p es a h') (allowed : ∀ h e, W h e → W' h e) : W'.Plays h p es a h' :=
  plays.within fun h e _ => allowed h e

/-- in the end is stored what the last event left -/
theorem Plays.after_eq {W : World} {α : Type} {h h' : Held} {p : Program α} {es : List Event} {a : α}
    (plays : W.Plays h p es a h') : h' = (es.getLast?.map (·.after)).getD h := by
  induction plays with
  | done => rfl
  | @send _ _ _ _ _ e es _ _ _ _ ih | @call _ _ _ _ _ e es _ _ _ _ ih =>
    rw [ih, List.getLast?_cons]
    cases es.getLast? <;> rfl

/-- however the world answers, the events, the result and what is stored in the end are as `Q` says -/
def Ensures (W : World) {α : Type} (h : Held) (p : Program α) (Q : List Event → α → Held → Prop) : Prop :=
  ∀ es a h', W.Plays h p es a h' → Q es a h'

variable {W : World} {α β : Type} {h h' : Held}

namespace Ensures

variable {Q : List Event → α → Held → Prop}

theorem done {a : α} (hQ : Q [] a h) : W.Ensures h (.done a) Q := by
  intro es a' h' plays
  cases plays
  exact hQ

theorem send {r : Appliance.Request} {next : Appliance.Reply → Program α}
    (hQ : ∀ e reply, e.said = .sent r reply → W h e → W.Ensures e.after (next reply) fun es => Q (e :: es)) :
    W.Ensures h (.send r next) Q := by
  intro es a h' plays
  cases plays with
  | send said happens rest => exact hQ _ _ said happens _ _ _ rest

theorem call {c : Store.Call} {next : Store.Reply → Program α}
    (hQ : ∀ e reply, e.said = .called c reply → W h e → W.Ensures e.after (next reply) fun es => Q (e :: es)) :
    W.Ensures h (.call c next) Q := by
  intro es a h' plays
  cases plays with
  | call said happens rest => exact hQ _ _ said happens _ _ _ rest

theorem mono {p : Program α} {Q' : List Event → α → Held → Prop} (ensured : W.Ensures h p Q)
    (hQ : ∀ es a h', Q es a h' → Q' es a h') : W.Ensures h p Q' :=
  fun es a h' plays => hQ es a h' (ensured es a h' plays)

/-- what is ensured where more may happen, with what is known of each event here -/
theorem within {p : Program α} {W' : World} {P : Event → Prop} (ensured : W'.Ensures h p Q) (allowed : ∀ h e, W h e → W' h e)
    (each : ∀ h e, W h e → P e) : W.Ensures h p fun es a h' => Q es a h' ∧ ∀ e ∈ es, P e := by
  intro es a h' plays
  refine ⟨ensured es a h' (plays.mono allowed), ?_⟩
  clear ensured
  induction plays with
  | done => exact List.forall_mem_nil _
  | send _ happens _ ih | call _ happens _ ih => exact List.forall_mem_cons.2 ⟨each _ _ happens, ih⟩

theorem bind {p : Program α} {f : α → Program β} {Q : List Event → β → Held → Prop}
    (ensured : W.Ensures h p fun es a h' => W.Ensures h' (f a) fun es' => Q (es ++ es')) :
    W.Ensures h (p >>= f) Q := by
  induction p generalizing h Q with
  | done a => exact ensured [] a h (.done h a)
  | send r next ih =>
    exact send fun e reply said happens => ih reply fun es a h' plays => ensured _ _ _ (.send said happens plays)
  | call c next ih =>
    exact call fun e reply said happens => ih reply fun es a h' plays => ensured _ _ _ (.call said happens plays)

end Ensures

/-- however the world answers, the action succeeds, as `Q` says -/
def Succeeds (W : World) {α : Type} (h : Held) (p : Action α) (Q : List Event → α → Held → Prop) : Prop :=
  W.Ensures h p.run fun es r h' => ∃ a, r = .ok a ∧ Q es a h'

namespace Succeeds

variable {Q : List Event → α → Held → Prop} {p : Action α}

theorem pure {a : α} (hQ : Q [] a h) : W.Succeeds h (Pure.pure a) Q := Ensures.done ⟨a, rfl, hQ⟩

theorem lift {r : Except Failure α} {a : α} (ok : r = .ok a) (hQ : Q [] a h) : W.Succeeds h (Action.ofExcept r) Q :=
  Ensures.done ⟨a, ok, hQ⟩

theorem mono {Q' : List Event → α → Held → Prop} (succeeds : W.Succeeds h p Q)
    (hQ : ∀ es a h', Q es a h' → Q' es a h') :
    W.Succeeds h p Q' :=
  Ensures.mono succeeds fun es _ h' ⟨a, ok, ended⟩ => ⟨a, ok, hQ es a h' ended⟩

theorem bind {f : α → Action β} {Q : List Event → β → Held → Prop}
    (succeeds : W.Succeeds h p fun es a h' => W.Succeeds h' (f a) fun es' => Q (es ++ es')) :
    W.Succeeds h (p >>= f) Q := by
  unfold Succeeds
  rw [ExceptT.run_bind]
  refine Ensures.bind (Ensures.mono succeeds fun es r h' ⟨a, ok, next⟩ => ?_)
  subst ok
  exact next

theorem map {f : α → β} {Q : List Event → β → Held → Prop} (succeeds : W.Succeeds h p fun es a => Q es (f a)) :
    W.Succeeds h (f <$> p) Q := by
  rw [map_eq_pure_bind]
  refine bind (succeeds.mono fun es a h' ended => pure ?_)
  rw [List.append_nil]
  exact ended

theorem tryCatch {handle : Failure → Action α} (succeeds : W.Succeeds h p Q) :
    W.Succeeds h (MonadExcept.tryCatch p handle) Q := by
  unfold Succeeds
  rw [ExceptT.run_tryCatch]
  refine Ensures.bind (Ensures.mono succeeds fun es r h' ⟨a, ok, ended⟩ => ?_)
  subst ok
  refine Ensures.done ⟨a, rfl, ?_⟩
  rw [List.append_nil]
  exact ended

/-- a call and a reading of its reply -/
theorem call {c : Store.Call} {read : Store.Reply → Except Failure α}
    (asked : p.run = .call c fun reply => .done (read reply))
    (hQ : ∀ e reply, e.said = .called c reply → W h e → ∃ a, read reply = .ok a ∧ Q [e] a e.after) :
    W.Succeeds h p Q := by
  unfold Succeeds
  rw [asked]
  exact Ensures.call fun e reply said happens => Ensures.done (hQ e reply said happens)

end Succeeds

/-- what every event keeps that a step allows holds after a program whose dialogues follow the steps -/
theorem Plays.keeps {σ : Type} {Step : σ → Exchange → σ → Prop} {I : List Event → σ → Held → Prop}
    (step : ∀ es st h e st', I es st h → W h e → Step st e.said st' → I (es ++ [e]) st' e.after)
    {p : Program α} {Q : α → σ → Prop} {es : List Event} {a : α} (plays : W.Plays h p es a h') :
    ∀ (past : List Event) {st : σ}, Program.Simulates Step st p Q → I past st h →
      ∃ st', I (past ++ es) st' h' ∧ Q a st' := by
  induction plays with
  | done h a =>
    intro past st sim hI
    exact ⟨st, by rwa [List.append_nil], sim⟩
  | send said happens _ ih | call said happens _ ih =>
    intro past st sim hI
    obtain ⟨st', moved, sim⟩ := sim _
    rw [← said] at moved
    obtain ⟨st'', hI, hQ⟩ := ih _ sim (step _ _ _ _ _ hI happens moved)
    rw [List.append_assoc] at hI
    exact ⟨st'', hI, hQ⟩

end World

/-- what a program comes to along these exchanges, if it asks just them -/
def Program.along {α : Type} : Program α → List Exchange → Option α
  | .done a, [] => some a
  | .send r next, .sent r' reply :: rest => if r = r' then along (next reply) rest else none
  | .call c next, .called c' reply :: rest => if c = c' then along (next reply) rest else none
  | _, _ => none

/-- events that may happen one after the other -/
inductive World.Passes (W : World) : Held → List Event → Held → Prop
  | nil (h : Held) : Passes W h [] h
  | cons {h h' : Held} {e : Event} {es : List Event} (happens : W h e) (rest : Passes W e.after es h') :
      Passes W h (e :: es) h'

theorem World.Passes.plays {W : World} {α : Type} {h h' : Held} {es : List Event} (passes : W.Passes h es h')
    {p : Program α} {a : α} (along : p.along (es.map (·.said)) = some a) : W.Plays h p es a h' := by
  induction passes generalizing p with
  | nil h =>
    cases p <;> cases along
    exact .done h a
  | @cons h h' e es happens _ ih =>
    rw [List.map_cons] at along
    cases said : e.said with
    | sent r' reply =>
      rw [said] at along
      cases p with
      | send r next =>
        obtain ⟨rfl, rest⟩ := Option.ite_none_right_eq_some.1 along
        exact .send said happens (ih rest)
      | _ => cases along
    | called c' reply =>
      rw [said] at along
      cases p with
      | call c next =>
        obtain ⟨rfl, rest⟩ := Option.ite_none_right_eq_some.1 along
        exact .call said happens (ih rest)
      | _ => cases along

theorem Scene.Plays.inWorld {S : Scene} {α : Type} {h h' : Held} {p : Program α} {es : List Event} {a : α}
    (plays : S.Plays h p es a h') : World.Plays S.Happens h p es a h' := by
  induction plays with
  | done h a => exact .done h a
  | send said happens _ ih => exact .send said happens ih
  | call said happens _ ih => exact .call said happens ih

end VmOperator
