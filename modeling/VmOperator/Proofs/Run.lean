import VmOperator.Proofs.Reconcile.Deed
import VmOperator.Proofs.Store.World

/-! Runs: one invocation after the other on one machine, each from its start to its end, in a scene. What
holds at first and is kept by every deed and at the end of every invocation holds of every run
(`Run.keeps`). -/

namespace VmOperator.Reconcile

structure Invocation where
  context : Context
  events : List Event
  result : Except Failure Outcome

/-- the invocations so far, and what the store holds after them -/
inductive Run (S : Scene) (start : Held) : List Invocation → Held → Prop
  | nil : Run S start [] start
  | snoc {past : List Invocation} {h h' : Held} {c : Context} {es : List Event} {r : Except Failure Outcome}
      (run : Run S start past h) (plays : S.Plays h (machine c S.ns S.name).run es r h') :
      Run S start (past ++ [⟨c, es, r⟩]) h'

section Snoc

variable {α : Type} {P : α → Prop} {R : α → α → Prop} {as : List α} {a : α}

theorem forall_snoc (before : ∀ b ∈ as, P b) (last : P a) : ∀ b ∈ as ++ [a], P b :=
  List.forall_mem_append.2 ⟨before, List.forall_mem_singleton.2 last⟩

theorem exists_of_snoc (found : ∃ b ∈ as ++ [a], P b) : (∃ b ∈ as, P b) ∨ P a := by
  obtain ⟨b, mem, hb⟩ := found
  rcases List.mem_append.1 mem with old | last
  · exact .inl ⟨b, old, hb⟩
  · rw [List.mem_singleton.1 last] at hb
    exact .inr hb

theorem pairwise_snoc (before : as.Pairwise R) (last : ∀ b ∈ as, R b a) : (as ++ [a]).Pairwise R :=
  List.pairwise_append.2 ⟨before, List.pairwise_singleton .., fun b mem => List.forall_mem_singleton.2 (last b mem)⟩

/-- what is said of each member and those before it -/
theorem forall_split_snoc {P : List α → α → Prop} (earlier : ∀ before b after, as = before ++ b :: after → P before b)
    (last : P as a) : ∀ before b after, as ++ [a] = before ++ b :: after → P before b := by
  intro before b after split
  rcases List.eq_nil_or_concat after with rfl | ⟨rest, c, rfl⟩
  · obtain ⟨rfl, same⟩ := List.append_inj' split rfl
    rw [← List.singleton_inj.1 same]
    exact last
  · rw [List.concat_eq_append, ← List.cons_append, ← List.append_assoc] at split
    exact earlier before b rest (List.append_inj' split rfl).1

end Snoc

def events (past : List Invocation) : List Event := past.flatMap (·.events)

theorem events_snoc (past : List Invocation) (c : Context) (es : List Event) (r : Except Failure Outcome) :
    events (past ++ [⟨c, es, r⟩]) = events past ++ es := by
  simp [events]

/-- what each event calls for came before it -/
def Preceded (calls : Event → List Event → Prop) (es : List Event) : Prop :=
  ∀ before e after, es = before ++ e :: after → calls e before

theorem Preceded.nil {calls : Event → List Event → Prop} : Preceded calls [] := by
  intro before e after split
  simp at split

theorem Preceded.snoc {calls : Event → List Event → Prop} {es : List Event} {e : Event} (preceded : Preceded calls es)
    (called : calls e es) : Preceded calls (es ++ [e]) :=
  forall_split_snoc preceded called

variable {S : Scene} {start h : Held} {past : List Invocation}

/-- `J` is what holds between invocations. `I` is about the invocations that are over, the context and the
events of the one that is not, its stage, and what is stored -/
theorem Run.keeps {P : Context → Prop} {J : List Invocation → Held → Prop}
    {I : List Invocation → Context → List Event → Stage → Held → Prop} (sound : start.Sound S) (first : J [] start)
    (begins : ∀ past c h, P c → J past h → I past c [] .start h)
    (step : ∀ past c es st h e st', P c → I past c es st h → S.Drifts h e.before → Tracks S e.before st →
      Deed S c st e st' → I past c (es ++ [e]) st' e.after)
    (ends : ∀ past c es st h r, P c → I past c es st h → J (past ++ [⟨c, es, r⟩]) h)
    (run : Run S start past h) (contexts : ∀ i ∈ past, P i.context) : h.Sound S ∧ J past h := by
  induction run with
  | nil => exact ⟨sound, first⟩
  | snoc run plays ih =>
    rename_i past h h' c es r
    have known : P c := contexts ⟨c, es, r⟩ (by simp)
    obtain ⟨sound, before⟩ := ih fun i hi => contexts i (List.mem_append_left _ hi)
    obtain ⟨st, ⟨tracks, after⟩, -⟩ := plays.inWorld.keeps (I := fun es st h => Tracks S h st ∧ I past c es st h)
      (fun es st h e st' ⟨tracks, hI⟩ happens moved => by
        obtain ⟨tracks', deed⟩ := deed_of_step tracks happens moved
        exact ⟨tracks'.deed deed, step _ _ _ _ _ _ _ known hI happens.drift tracks' deed⟩)
      [] (machine_simulates c S.ns S.name) ⟨⟨sound, nofun⟩, begins _ _ _ known before⟩
    exact ⟨tracks.sound, ends _ _ _ _ _ _ known after⟩

end VmOperator.Reconcile
