import VmOperator.Proofs.Reconcile.Effects
import VmOperator.Proofs.Run

/-! What must happen once happens once more only after a lost write. Events of a kind are counted against the
invocations in which no status was accepted after one of them (`Counted`), and so against those in which the write
that was to record it was lost, once it is shown that there was one (`Counted.few_of_lost`). -/

namespace VmOperator.Reconcile

/-- an event of this kind was not followed by an accepted status -/
def unsaved (f : Event → Bool) : List Event → Bool
  | [] => false
  | e :: es => (f e && !es.any Event.acceptsStatus) || unsaved f es

theorem unsaved_snoc (f : Event → Bool) (es : List Event) (e : Event) :
    unsaved f (es ++ [e]) = (unsaved f es && !e.acceptsStatus || f e) := by
  induction es with
  | nil => simp [unsaved]
  | cons e' es ih =>
    simp only [List.cons_append, unsaved, ih, List.any_append, List.any_cons, List.any_nil]
    cases f e' <;> cases es.any Event.acceptsStatus <;> cases unsaved f es <;> cases e.acceptsStatus <;>
      cases f e <;> rfl

/-- what is unsaved was so before and nothing is accepted, or it happens now -/
theorem unsaved_of_snoc {f : Event → Bool} {es : List Event} {e : Event} (lost : unsaved f (es ++ [e]) = true) :
    unsaved f es = true ∧ e.acceptsStatus = false ∨ f e = true := by
  rwa [unsaved_snoc, Bool.or_eq_true, Bool.and_eq_true, Bool.not_eq_true'] at lost

theorem unsaved_spec {f : Event → Bool} {es : List Event} (lost : unsaved f es = true) : ∃ before e after,
    es = before ++ e :: after ∧ f e = true ∧ ∀ e' ∈ after, e'.acceptsStatus = false := by
  induction es with
  | nil => cases lost
  | cons e es ih =>
    rw [unsaved, Bool.or_eq_true, Bool.and_eq_true, Bool.not_eq_true', List.any_eq_false] at lost
    rcases lost with ⟨happens, quiet⟩ | later
    · exact ⟨[], e, es, rfl, happens, fun e' mem => Bool.eq_false_iff.2 (quiet e' mem)⟩
    · obtain ⟨before, e', after, rfl, found⟩ := ih later
      exact ⟨e :: before, e', after, rfl, found⟩

/-- the invocations in which an event of this kind was left without an accepted status -/
def misses (f : Event → Bool) (past : List Invocation) : Nat := past.countP fun i => unsaved f i.events

section Classical

open Classical

noncomputable def losses (Lost : Invocation → Prop) (past : List Invocation) : Nat := past.countP fun i => Lost i

theorem exists_of_losses {Lost : Invocation → Prop} {past : List Invocation} (pos : 0 < losses Lost past) :
    ∃ i ∈ past, Lost i := by
  obtain ⟨i, mem, lost⟩ := List.countP_pos_iff.1 pos
  exact ⟨i, mem, of_decide_eq_true lost⟩

end Classical

/-- all events of a kind but one were missed, and all of them as long as none is `recorded` -/
structure Counted (f : Event → Bool) (past : List Invocation) (es : List Event) (recorded : Prop) : Prop where
  few : (events past ++ es).countP f ≤ misses f past + (unsaved f es).toNat + 1
  fewer : ¬recorded → (events past ++ es).countP f ≤ misses f past + (unsaved f es).toNat

namespace Counted

variable {f : Event → Bool} {past : List Invocation} {es : List Event} {recorded recorded' : Prop}

theorem first : Counted f [] [] recorded := ⟨Nat.zero_le _, fun _ => Nat.zero_le _⟩

theorem imp (counted : Counted f past es recorded) (lasts : recorded → recorded') : Counted f past es recorded' :=
  ⟨counted.few, fun unrecorded => counted.fewer fun h => unrecorded (lasts h)⟩

/-- such an event happens only where none is recorded and none waits for its record; a status that is
accepted while one waits records it -/
theorem snoc {e : Event} (counted : Counted f past es recorded) (lasts : recorded → recorded')
    (again : f e = true → ¬recorded ∧ unsaved f es = false)
    (saved : unsaved f es = true → e.acceptsStatus = true → ¬recorded ∧ recorded') :
    Counted f past (es ++ [e]) recorded' := by
  obtain ⟨few, fewer⟩ := counted
  have count : (events past ++ (es ++ [e])).countP f = (events past ++ es).countP f + (f e).toNat := by
    rw [← List.append_assoc, List.countP_append, List.countP_singleton]
    cases f e <;> rfl
  suffices (events past ++ es).countP f + (f e).toNat ≤ misses f past + (unsaved f (es ++ [e])).toNat + 1 ∧
      (¬recorded' → (events past ++ es).countP f + (f e).toNat ≤ misses f past + (unsaved f (es ++ [e])).toNat) by
    rw [← count] at this
    exact ⟨this.1, this.2⟩
  rw [unsaved_snoc]
  cases happens : f e with
  | true =>
    obtain ⟨unrecorded, none⟩ := again happens
    have all := fewer unrecorded
    simp only [none, Bool.false_and, Bool.or_true, Bool.toNat_true, Bool.toNat_false] at all ⊢
    omega
  | false =>
    simp only [Bool.or_false, Bool.toNat_false, Nat.add_zero]
    cases waits : unsaved f es with
    | false =>
      rw [waits] at few fewer
      exact ⟨few, fun unrecorded => fewer fun h => unrecorded (lasts h)⟩
    | true =>
      rw [waits] at few fewer
      cases accepted : e.acceptsStatus with
      | false => exact ⟨few, fun unrecorded => fewer fun h => unrecorded (lasts h)⟩
      | true =>
        obtain ⟨unrecorded, now⟩ := saved waits accepted
        exact ⟨fewer unrecorded, fun h => absurd now h⟩

theorem ends (counted : Counted f past es recorded) (c : Context) (r : Except Failure Outcome) :
    Counted f (past ++ [⟨c, es, r⟩]) [] recorded := by
  have lost : misses f (past ++ [⟨c, es, r⟩]) + (unsaved f []).toNat = misses f past + (unsaved f es).toNat := by
    rw [misses, List.countP_append, List.countP_singleton, misses]
    cases unsaved f es <;> rfl
  constructor
  · rw [lost, List.append_nil, events_snoc]
    exact counted.few
  · rw [lost, List.append_nil, events_snoc]
    exact counted.fewer

/-- whatever else is lost with the status -/
theorem few_of_lost {Lost : Invocation → Prop} (counted : Counted f past [] recorded)
    (lost : ∀ i ∈ past, unsaved f i.events = true → Lost i) : (events past).countP f ≤ losses Lost past + 1 := by
  have few := counted.few
  rw [List.append_nil] at few
  have misses_le : misses f past ≤ losses Lost past := by
    classical
    exact List.countP_mono_left fun i mem missed => decide_eq_true (lost i mem missed)
  exact Nat.le_trans few (Nat.succ_le_succ misses_le)

end Counted

end VmOperator.Reconcile
