import VmOperator.Proofs.Appliance.Plain
import VmOperator.Proofs.Checkout
import VmOperator.Proofs.Store.Yields
import VmOperator.Reconcile.Machine

/-! What the questions of an invocation come to in any world: the fetch of the machine (`getMachine_looks`), a write of
it (`update_ends`, `save_ends`), one that must not be lost (`writeRefreshing_ends`), and an invocation as a whole, which
is its fetch and what is done with the machine that was found (`machine_ends`). -/

namespace VmOperator

namespace Store

theorem refusal_isTask (action key : String) (status reason : Value) :
    (Failure.fault (refusal action key status reason)).isTask = false := by
  unfold refusal
  split <;> rfl

inductive Looks (W : World) (h : Held) (ns name : Value) : List Event → Except Failure (Option Machine) → Held → Prop
  | found {e : Event} {o : Value} {m : Machine} (said : e.said = .called (.get .machines ns name) (.ok o)) (happens : W h e)
      (read : Machine.ofValue o = .ok m) : Looks W h ns name [e] (.ok (some m)) e.after
  | unreadable {e : Event} {o : Value} {f : Failure} (said : e.said = .called (.get .machines ns name) (.ok o))
      (happens : W h e) (read : Machine.ofValue o = .error f) : Looks W h ns name [e] (.error f) e.after
  | missing {e : Event} {status reason : Value} (said : e.said = .called (.get .machines ns name) (.refused status reason))
      (happens : W h e) (gone : status.isNumber 404 = true) : Looks W h ns name [e] (.ok none) e.after
  | refused {e : Event} {action key : String} {status reason : Value}
      (said : e.said = .called (.get .machines ns name) (.refused status reason)) (happens : W h e)
      (other : status.isNumber 404 = false) :
      Looks W h ns name [e] (.error (.fault (refusal action key status reason))) e.after

variable {W : World} {h : Held}

theorem getMachine_looks (ns name : Value) : W.Ensures h (getMachine ns name).run (Looks W h ns name) := by
  rw [getMachine_eq]
  refine .call fun e reply said happens => .done ?_
  cases reply with
  | ok o =>
    cases read : Machine.ofValue o with
    | ok m =>
      rw [got_ok read]
      exact .found said happens read
    | error f =>
      rw [got_unreadable read]
      exact .unreadable said happens read
  | refused status reason =>
    cases gone : status.isNumber 404 with
    | true =>
      rw [got_missing gone]
      exact .missing said happens gone
    | false =>
      rw [got_refused gone]
      exact .refused said happens gone

/-- a fetch writes nothing -/
theorem Looks.silent {ns name : Value} {es : List Event} {r : Except Failure (Option Machine)} {h' : Held}
    (looks : Looks W h ns name es r h') : ∀ e ∈ es, e.said.content? = none := by
  cases looks with
  | found said | unreadable said | missing said | refused said => exact List.forall_mem_singleton.2 (by rw [said]; rfl)

theorem Looks.untasked {ns name : Value} {es : List Event} {r : Except Failure (Option Machine)} {h' : Held}
    (looks : Looks W h ns name es r h') : Untasked r := by
  cases looks with
  | found | missing => exact .ok _
  | unreadable _ _ read => exact .error ((Machine.plain_ofValue _).untasked.other _ read)
  | refused => exact .error (refusal_isTask ..)

end Store

namespace Checkout

def Part.on : Part → Machine → Value → Store.Call
  | .whole, m => .replace .machines m.ns m.name
  | .status, m => .replaceStatus .machines m.ns m.name

/-- what a write of the machine comes to, where `won` and `lost` say how it is told -/
inductive Ends {β : Type} (W : World) (h : Held) (part : Part) (m : Machine) (won : Machine → β)
    (lost : ConflictFault → Except Failure β) : List Event → Except Failure β → Held → Prop
  | unwritable {f : Failure} (failed : m.toValue = .error f) : Ends W h part m won lost [] (.error f) h
  | accepted {e : Event} {x o : Value} {saved : Machine} (written : m.toValue = .ok x)
      (said : e.said = .called (part.on m x) (.ok o)) (happens : W h e) (read : Machine.ofValue o = .ok saved) :
      Ends W h part m won lost [e] (.ok (won saved)) e.after
  | unreadable {e : Event} {x o : Value} {f : Failure} (written : m.toValue = .ok x)
      (said : e.said = .called (part.on m x) (.ok o)) (happens : W h e) (read : Machine.ofValue o = .error f) :
      Ends W h part m won lost [e] (.error f) e.after
  | lost {e : Event} {x status reason : Value} {l : ConflictFault} (written : m.toValue = .ok x)
      (said : e.said = .called (part.on m x) (.refused status reason)) (happens : W h e)
      (conflict : status.isNumber 409 = true) : Ends W h part m won lost [e] (lost l) e.after
  | refused {e : Event} {x status reason : Value} {f : StoreFault} (written : m.toValue = .ok x)
      (said : e.said = .called (part.on m x) (.refused status reason)) (happens : W h e)
      (other : status.isNumber 409 = false) : Ends W h part m won lost [e] (.error (.fault (.store f))) e.after

variable {W : World} {h : Held}

theorem Part.update_on (part : Part) {m : Machine} {x : Value} (written : m.toValue = .ok x) : ∃ action,
    (part.update m).run = .call (part.on m x) fun reply => .done (Store.written action m.key reply) := by
  cases part with
  | whole => exact ⟨_, Store.updateMachine_eq written⟩
  | status => exact ⟨_, Store.updateMachineStatus_eq written⟩

theorem update_ends (part : Part) (m : Machine) : W.Ensures h (part.update m).run
    (Ends W h part m id fun l => .error (.fault (.conflict l))) := by
  cases written : m.toValue with
  | error f =>
    rw [part.update_of_error written]
    exact .done (.unwritable written)
  | ok x =>
    obtain ⟨action, asked⟩ := part.update_on written
    rw [asked]
    refine .call fun e reply said happens => .done ?_
    cases reply with
    | ok o =>
      rw [Store.written]
      cases read : Machine.ofValue o with
      | ok saved => exact .accepted written said happens read
      | error f => exact .unreadable written said happens read
    | refused status reason =>
      rw [Store.written]
      cases conflict : status.isNumber 409 with
      | true =>
        rw [Store.refusal_of_conflict conflict]
        exact .lost written said happens conflict
      | false =>
        rw [Store.refusal_of_other conflict]
        exact .refused written said happens conflict

theorem save_ends (part : Part) (m : Machine) : W.Ensures h (part.save m).run
    (Ends W h part m some fun _ => .ok none) := by
  rw [part.save_eq, unlessConflict_eq]
  refine .bind ((update_ends part m).mono fun es r h' ended => .done ?_)
  rw [List.append_nil]
  cases ended with
  | unwritable failed =>
    rw [settled_of_plain fun f same => Machine.plain_toValue m f (same ▸ failed)]
    exact .unwritable failed
  | accepted written said happens read => exact .accepted written said happens read
  | @unreadable _ _ o _ written said happens read =>
    rw [settled_of_plain fun f same => Machine.plain_ofValue o f (same ▸ read)]
    exact .unreadable written said happens read
  | @lost _ _ _ _ l written said happens conflict => exact .lost (l := l) written said happens conflict
  | refused written said happens other => exact .refused written said happens other

section Retrying

variable {change : Machine → Machine}

/-- what comes of a write that must not be lost, of a changed copy -/
inductive Rewrites (W : World) (change : Machine → Machine) :
    Nat → Held → Machine → List Event → Machine × Except Failure Unit → Held → Prop
  | unwritable {more : Nat} {h : Held} {m : Machine} {f : Failure} (failed : (change m).toValue = .error f) :
      Rewrites W change (more + 1) h m [] (change m, .error f) h
  | accepted {more : Nat} {h : Held} {m saved : Machine} {e : Event} {x o : Value} (written : (change m).toValue = .ok x)
      (said : e.said = .called (Part.status.on (change m) x) (.ok o)) (happens : W h e)
      (read : Machine.ofValue o = .ok saved) : Rewrites W change (more + 1) h m [e] (saved, .ok ()) e.after
  | unreadable {more : Nat} {h : Held} {m : Machine} {e : Event} {x o : Value} {f : Failure}
      (written : (change m).toValue = .ok x) (said : e.said = .called (Part.status.on (change m) x) (.ok o))
      (happens : W h e) (read : Machine.ofValue o = .error f) :
      Rewrites W change (more + 1) h m [e] (change m, .error f) e.after
  | refused {more : Nat} {h : Held} {m : Machine} {e : Event} {x status reason : Value} {f : StoreFault}
      (written : (change m).toValue = .ok x) (said : e.said = .called (Part.status.on (change m) x) (.refused status reason))
      (happens : W h e) (other : status.isNumber 409 = false) :
      Rewrites W change (more + 1) h m [e] (change m, .error (.fault (.store f))) e.after
  | stopped {more : Nat} {h h' : Held} {m m' : Machine} {e : Event} {x status reason : Value} {es : List Event}
      {r : Except Failure (Option Machine)} {f : Failure} (written : (change m).toValue = .ok x)
      (said : e.said = .called (Part.status.on (change m) x) (.refused status reason)) (happens : W h e)
      (conflict : status.isNumber 409 = true) (looks : Store.Looks W e.after (change m).ns (change m).name es r h')
      (why : (∃ fault, f = .fault fault ∧ f.isTask = false) ∨ r = .error f) :
      Rewrites W change (more + 1) h m (e :: es) (m', .error f) h'
  | again {more : Nat} {h h' h'' : Held} {m m' : Machine} {e : Event} {x status reason : Value} {es es' : List Event}
      {r : Except Failure (Option Machine)} {r' : Machine × Except Failure Unit} (written : (change m).toValue = .ok x)
      (said : e.said = .called (Part.status.on (change m) x) (.refused status reason)) (happens : W h e)
      (conflict : status.isNumber 409 = true) (looks : Store.Looks W e.after (change m).ns (change m).name es r h')
      (basis : (m' = m ∧ ∃ l, r = .error (.fault (.conflict l))) ∨ r = .ok (some m'))
      (rest : Rewrites W change more h' m' es' r' h'') :
      Rewrites W change (more + 1) h m (e :: (es ++ es')) r' h''

theorem refresh_ends (m : Machine) (lost : ConflictFault) {h : Held} :
    W.Ensures h (refresh change (change m) lost) fun es r h' => ∃ looked,
      Store.Looks W h (change m).ns (change m).name es looked h' ∧
        ((∃ l m', r = (change m', .fault (.conflict l)) ∧
          ((m' = m ∧ ∃ l, looked = .error (.fault (.conflict l))) ∨ looked = .ok (some m'))) ∨
          (∀ l, r.2 ≠ .fault (.conflict l)) ∧
            ((∃ fault, r.2 = .fault fault ∧ r.2.isTask = false) ∨ looked = .error r.2)) := by
  unfold refresh
  refine .bind ((Store.getMachine_looks _ _).mono fun es r h' looks => ?_)
  rcases r with e | _ | latest
  · refine .done ⟨_, by rwa [List.append_nil], ?_⟩
    by_cases conflict : ∃ l, e = .fault (.conflict l)
    · obtain ⟨l, rfl⟩ := conflict
      exact .inl ⟨l, m, rfl, .inl ⟨rfl, l, rfl⟩⟩
    · exact .inr ⟨fun l same => conflict ⟨l, same⟩, .inr rfl⟩
  · exact .done ⟨_, by rwa [List.append_nil], .inr ⟨nofun, .inl ⟨_, rfl, rfl⟩⟩⟩
  · exact .done ⟨_, by rwa [List.append_nil], .inl ⟨lost, latest, rfl, .inr rfl⟩⟩

theorem writeRefreshing_ends_step (more : Nat) (m : Machine) {h : Held}
    (tail : ∀ (m : Machine) (h : Held), more ≠ 0 →
      W.Ensures h (writeRefreshing change more (change m)) (Rewrites W change more h m)) :
    W.Ensures h (writeRefreshing change (more + 1) (change m)) (Rewrites W change (more + 1) h m) := by
  unfold writeRefreshing
  refine .bind ((update_ends .status (change m)).mono fun es r h' ended => ?_)
  cases ended with
  | accepted written said happens read => exact .done (.accepted written said happens read)
  | refused written said happens other => exact .done (.refused written said happens other)
  | unwritable failed =>
    split
    · rename_i same
      cases same
    · rename_i l same
      cases same
      exact absurd failed (Machine.plain_toValue _ _)
    · rename_i same
      cases same
      exact .done (.unwritable failed)
  | unreadable written said happens read =>
    split
    · rename_i same
      cases same
    · rename_i l same
      cases same
      exact absurd read (Machine.plain_ofValue _ _)
    · rename_i same
      cases same
      exact .done (.unreadable written said happens read)
  | @lost e x status reason l written said happens conflict =>
    refine .bind ((refresh_ends m l).mono fun es r h'' ⟨looked, looks, comes⟩ => ?_)
    rcases comes with ⟨l', m', same, basis⟩ | ⟨other, why⟩
    · subst same
      dsimp only
      split
      · refine .done ?_
        rw [List.append_nil]
        exact .stopped written said happens conflict looks (.inl ⟨_, rfl, rfl⟩)
      · refine (tail m' _ ‹_›).mono fun es' r h' rest => ?_
        rw [List.singleton_append]
        exact .again written said happens conflict looks basis rest
    · obtain ⟨m', f⟩ := r
      split
      · rename_i same
        cases same
        exact absurd rfl (other _)
      · rename_i same
        cases same
        refine .done ?_
        rw [List.append_nil]
        exact .stopped written said happens conflict looks why

theorem writeRefreshing_ends (more : Nat) (m : Machine) {h : Held} :
    W.Ensures h (writeRefreshing change (more + 1) (change m)) (Rewrites W change (more + 1) h m) := by
  induction more generalizing m h with
  | zero => exact writeRefreshing_ends_step 0 m fun _ _ more => absurd rfl more
  | succ more ih => exact writeRefreshing_ends_step (more + 1) m fun m _ _ => ih m

theorem Rewrites.untasked {more : Nat} {m : Machine} {es : List Event} {r : Machine × Except Failure Unit} {h' : Held}
    (rewrites : Rewrites W change more h m es r h') : Untasked r.2 := by
  induction rewrites with
  | accepted => exact .ok _
  | unwritable failed => exact .error ((Machine.plain_toValue _).untasked.other _ failed)
  | unreadable _ _ _ read => exact .error ((Machine.plain_ofValue _).untasked.other _ read)
  | refused => exact .error rfl
  | again _ _ _ _ _ _ _ ih => exact ih
  | stopped _ _ _ _ looks why =>
    rcases why with ⟨fault, -, other⟩ | rfl
    · exact .error other
    · exact .error (looks.untasked.other _ rfl)

end Retrying

end Checkout

namespace Reconcile

variable {W : World} {h : Held} {c : Context} {ns name : String} {Q : List Event → Outcome → Held → Prop}
  {E : List Event → Failure → Held → Prop}

/-- a fault becomes an outcome, and no other failure does -/
theorem reported_yields {action : Action Outcome}
    (yields : W.Yields h action Q fun es e h' =>
      (∀ f, e = .fault f → Q es (.failed f) h') ∧ ((∀ f, e ≠ .fault f) → E es e h')) :
    W.Yields h (reported action) Q E := by
  refine .tryCatch (yields.mono (fun _ _ _ ended => ended) fun es e h' ended => ?_)
  cases e with
  | fault f =>
    refine .pure ?_
    rw [List.append_nil]
    exact ended.1 f rfl
  | _ =>
    refine .throw ?_
    rw [List.append_nil]
    exact ended.2 nofun

/-- an invocation is the fetch of the machine and what is done with what was found -/
theorem machine_ends (c : Context) (ns name : String)
    (looked : ∀ es r h', Store.Looks W h (.string ns) (.string name) es r h' →
      match r with
      | .ok none => Q es .done h'
      | .ok (some m) => W.Yields h' (settle c m) (fun es' => Q (es ++ es')) fun es' e h'' =>
        (∀ f, e = .fault f → Q (es ++ es') (.failed f) h'') ∧ ((∀ f, e ≠ .fault f) → E (es ++ es') e h'')
      | .error e => (∀ f, e = .fault f → Q es (.failed f) h') ∧ ((∀ f, e ≠ .fault f) → E es e h')) :
    W.Yields h (machine c ns name) Q E := by
  unfold machine
  refine reported_yields (.bind ?_)
  refine (Store.getMachine_looks _ _).mono fun es r h' looks => ?_
  have ended := looked es r h' looks
  rcases r with e | _ | m
  · exact ended
  · refine .pure ?_
    rw [List.append_nil]
    exact ended
  · exact ended

end Reconcile

end VmOperator
