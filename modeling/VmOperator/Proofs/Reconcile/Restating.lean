import VmOperator.Proofs.Conflicts
import VmOperator.Proofs.Store.Service

/-! A write of the status while others may write, too. The machine in hand may be out of date, and then nothing is
written; what is accepted is the stored status, and what is given back is in hand: of a machine that was changed in hand
before (`saveStatus_rewritten`), and of one whose status alone is changed (`saveStatus_resaved`). -/

namespace VmOperator

/-- a machine as it was read, whose object others may have changed since -/
structure Grasped (S : Scene) (h : Held) (m : Machine) : Prop where
  sound : h.Sound S
  copied : Copied S h m
  read : Machine.ofValue (.object m.stored) = .ok m

variable {S : Scene} {h h' : Held} {m : Machine}

theorem Grasped.drift (grasped : Grasped S h m) (drift : S.Drifts h h') : Grasped S h' m :=
  ⟨grasped.sound.drift drift, grasped.copied.drift drift, grasped.read⟩

theorem Grasped.shape (grasped : Grasped S h m) : m.status.progress.IsObject :=
  MachineStatus.isObject_of_ofValue grasped.copied.copy.status

theorem InHand.grasped (inHand : InHand S h m) : Grasped S h m :=
  ⟨inHand.sound, copied_of_copyOf inHand.sound inHand.object inHand.copy, inHand.read⟩

theorem InHand.status (inHand : InHand S h m) : h.status = some m.status := inHand.grasped.copied.status inHand.object

namespace Scene

variable {e : Event} {c : Store.Call} {reply : Store.Reply}

theorem Happens.answered (happens : S.Happens h e) (said : e.said = .called c reply) :
    S.Drifts h e.before ∧ S.Answers e.before c reply e.after := by
  cases happens with
  | sent => cases said
  | called _ _ drift answer =>
    cases said
    exact ⟨drift, answer⟩

/-- a request changes nothing -/
theorem Happens.of_request {r : Appliance.Request} {reply : Appliance.Reply} (happens : S.Happens h e)
    (said : e.said = .sent r reply) : e.after = e.before := by
  cases happens with
  | sent => rfl
  | called => cases said

theorem Answers.of_refused {status reason : Value} (answer : S.Answers h c (.refused status reason) h') : h' = h := by
  cases answer <;> rfl

end Scene

namespace Checkout

/-- what a write of the status of the machine in hand comes to -/
inductive Resaved (S : Scene) (h : Held) (m : Machine) (s : MachineStatus) :
    List Event → Except Failure (Option Machine) → Held → Prop
  | unwritable {f : Failure} (failed : { m with status := s }.toValue = .error f) : Resaved S h m s [] (.error f) h
  | accepted {e : Event} {x o : Value} {saved : Machine} (happens : S.Happens h e)
      (said : e.said = .called (.replaceStatus .machines (.string S.ns) (.string S.name) x) (.ok o))
      (before : e.before.object = some (.object m.stored)) (after : e.after.status = some s.rendered)
      (stamps : { m with status := s.rendered }.Stamps saved) (inHand : InHand S e.after saved) :
      Resaved S h m s [e] (.ok (some saved)) e.after
  | lost {e : Event} {x status reason : Value} (happens : S.Happens h e)
      (said : e.said = .called (.replaceStatus .machines (.string S.ns) (.string S.name) x) (.refused status reason))
      (conflict : status.isNumber 409 = true) (same : e.after = e.before) : Resaved S h m s [e] (.ok none) e.after
  | refused {e : Event} {x status reason : Value} {f : StoreFault} (happens : S.Happens h e)
      (said : e.said = .called (.replaceStatus .machines (.string S.ns) (.string S.name) x) (.refused status reason))
      (other : status.isNumber 409 = false) (same : e.after = e.before) :
      Resaved S h m s [e] (.error (.fault (.store f))) e.after

namespace Resaved

variable {s : MachineStatus} {es : List Event} {r : Except Failure (Option Machine)}

theorem calls (resaved : Resaved S h m s es r h') : es = [] ∨ ∃ e x reply, es = [e] ∧
    e.said = .called (.replaceStatus .machines (.string S.ns) (.string S.name) x) reply := by
  cases resaved with
  | unwritable => exact .inl rfl
  | accepted _ said | lost _ said | refused _ said => exact .inr ⟨_, _, _, rfl, said⟩

/-- a write that was made tells whether it was accepted or came second; one that was refused otherwise is a failure -/
theorem ok_iff (resaved : Resaved S h m s es r h') :
    (∃ saved, r = .ok saved) ↔ ∃ e ∈ es, e.acceptsStatus = true ∨ e.loses = true := by
  cases resaved with
  | unwritable => simp
  | accepted _ said => simp [Event.acceptsStatus, said]
  | lost _ said conflict => simp [Event.loses, Exchange.content?, Exchange.refusedWith, said, conflict]
  | refused _ said other => simp [Event.acceptsStatus, Event.loses, Exchange.refusedWith, said, other]

theorem some_iff (resaved : Resaved S h m s es r h') :
    (∃ m', r = .ok (some m')) ↔ ∃ e ∈ es, e.acceptsStatus = true := by
  cases resaved with
  | unwritable => simp
  | accepted _ said | lost _ said | refused _ said => simp [Event.acceptsStatus, said]

theorem none_of_loses (resaved : Resaved S h m s es r h') : ∀ e ∈ es, e.loses = true → r = .ok none := by
  cases resaved with
  | unwritable => exact List.forall_mem_nil _
  | lost => exact List.forall_mem_singleton.2 fun _ => rfl
  | accepted _ said =>
    exact List.forall_mem_singleton.2 fun loses => by simp [Event.loses, Exchange.refusedWith, said] at loses
  | refused _ said other =>
    exact List.forall_mem_singleton.2 fun loses => by simp [Event.loses, Exchange.refusedWith, said, other] at loses

/-- what was not accepted left everything as it was -/
theorem undone (resaved : Resaved S h m s es r h') : ∀ e ∈ es, e.acceptsStatus = false → e.after = e.before := by
  cases resaved with
  | unwritable => exact List.forall_mem_nil _
  | accepted _ said => exact List.forall_mem_singleton.2 fun rejected => by simp [Event.acceptsStatus, said] at rejected
  | lost _ _ _ same | refused _ _ _ same => exact List.forall_mem_singleton.2 fun _ => same

theorem status (resaved : Resaved S h m s es r h') (copy : m.CopyOf S (.object m.stored)) : ∀ e ∈ es, e.acceptsStatus = true →
    e.before.status = some m.status ∧ e.after.status = some s.rendered := by
  cases resaved with
  | unwritable => exact List.forall_mem_nil _
  | accepted _ _ before after =>
    refine List.forall_mem_singleton.2 fun _ => ⟨?_, after⟩
    rw [Held.status, before, Option.bind_some, copy.status]
    rfl
  | lost _ said | refused _ said =>
    exact List.forall_mem_singleton.2 fun accepted => by simp [Event.acceptsStatus, said] at accepted

end Resaved

/-- what was accepted of a machine that was changed in hand was made from the stored object, and is read back -/
theorem accepted_of_amended {m' : Machine} {e : Event} {x o : Value} (grasped : Grasped S h m) (amends : m.Amends m')
    (shape : m'.status.progress.IsObject) (written : m'.toValue = .ok x) (happens : S.Happens h e)
    (said : e.said = .called (.replaceStatus .machines (.string S.ns) (.string S.name) x) (.ok o)) :
    e.before.object = some (.object m.stored) ∧ e.after.status = some m'.status.rendered ∧ ∃ saved,
      Machine.ofValue o = .ok saved ∧ { m with status := m'.status.rendered }.Stamps saved ∧ InHand S e.after saved := by
  have laidOver := Machine.writtenOver grasped.copied.copy amends written
  -- others may have written since the machine was read; then its version is not the stored one, and nothing is accepted
  obtain ⟨drift, answer⟩ := happens.answered said
  have now := grasped.drift drift
  generalize left : e.after = h' at answer ⊢
  cases answer with
  | elsewhere _ _ other => exact absurd ⟨rfl, rfl, rfl⟩ other
  | restated _ o v object version set fresh =>
    obtain rfl := now.copied.current o object (by rw [← version, laidOver.version, now.copied.copy.version])
    have shaped := (now.sound _ object).1
    have status : Stored.status (Stored.restated v x (.object m.stored)) = .ok m'.status.rendered :=
      laidOver.status_restated shape _
    have read := Machine.ofValue_restated shaped now.read set status
    have sound : Held.Sound S ⟨some (Stored.restated v x (.object m.stored)), v :: e.before.versions⟩ := by
      rintro _ ⟨⟩
      exact ⟨Stored.shaped_restated shaped set x, by rw [Stored.version_restated]; exact List.mem_cons_self ..⟩
    refine ⟨object, ?_, _, read, .mk .., .of_ofValue sound rfl read⟩
    rw [Held.status, Option.bind_some, status]
    rfl

inductive Rewritten (S : Scene) (h : Held) (m m' : Machine) : List Event → Except Failure (Option Machine) → Held → Prop
  | unwritable {f : Failure} (failed : m'.toValue = .error f) : Rewritten S h m m' [] (.error f) h
  | accepted {e : Event} {x o : Value} {saved : Machine} (written : m'.toValue = .ok x) (happens : S.Happens h e)
      (said : e.said = .called (.replaceStatus .machines (.string S.ns) (.string S.name) x) (.ok o))
      (before : e.before.object = some (.object m.stored)) (after : e.after.status = some m'.status.rendered)
      (stamps : { m with status := m'.status.rendered }.Stamps saved) (inHand : InHand S e.after saved) :
      Rewritten S h m m' [e] (.ok (some saved)) e.after
  | lost {e : Event} {x status reason : Value} (written : m'.toValue = .ok x) (happens : S.Happens h e)
      (said : e.said = .called (.replaceStatus .machines (.string S.ns) (.string S.name) x) (.refused status reason))
      (conflict : status.isNumber 409 = true) (same : e.after = e.before) : Rewritten S h m m' [e] (.ok none) e.after
  | refused {e : Event} {x status reason : Value} {f : StoreFault} (written : m'.toValue = .ok x) (happens : S.Happens h e)
      (said : e.said = .called (.replaceStatus .machines (.string S.ns) (.string S.name) x) (.refused status reason))
      (other : status.isNumber 409 = false) (same : e.after = e.before) :
      Rewritten S h m m' [e] (.error (.fault (.store f))) e.after

/-- what can be written is written once -/
theorem Rewritten.single {m' : Machine} {es : List Event} {r : Except Failure (Option Machine)}
    (rewritten : Rewritten S h m m' es r h') {x : Value} (written : m'.toValue = .ok x) : ∃ e, es = [e] := by
  cases rewritten with
  | unwritable failed => cases failed.symm.trans written
  | accepted | lost | refused => exact ⟨_, rfl⟩

theorem saveStatus_rewritten {m' : Machine} (grasped : Grasped S h m) (amends : m.Amends m')
    (shape : m'.status.progress.IsObject) : World.Ensures S.Happens h (saveStatus m').run (Rewritten S h m m') := by
  have own (x : Value) : Part.status.on m' x = .replaceStatus .machines (.string S.ns) (.string S.name) x := by
    rw [Part.on, amends.ns, amends.name, grasped.copied.copy.ns, grasped.copied.copy.name]
  refine (save_ends .status m').mono fun es r h' ended => ?_
  cases ended with
  | unwritable failed => exact .unwritable failed
  | accepted written said happens read =>
    rw [own] at said
    obtain ⟨before, after, saved, read', stamps, inHand⟩ := accepted_of_amended grasped amends shape written happens said
    obtain rfl := Except.ok.inj (read.symm.trans read')
    exact .accepted written happens said before after stamps inHand
  | unreadable written said happens read =>
    obtain ⟨-, -, saved, read', -⟩ := accepted_of_amended grasped amends shape written happens (own _ ▸ said)
    cases read.symm.trans read'
  | lost written said happens conflict =>
    rw [own] at said
    exact .lost written happens said conflict (happens.answered said).2.of_refused
  | refused written said happens other =>
    rw [own] at said
    exact .refused written happens said other (happens.answered said).2.of_refused

theorem saveStatus_resaved (grasped : Grasped S h m) {s : MachineStatus} (shape : s.progress.IsObject) :
    World.Ensures S.Happens h (saveStatus { m with status := s }).run (Resaved S h m s) := by
  have amends : m.Amends { m with status := s } := ⟨rfl, rfl, rfl, rfl⟩
  refine (saveStatus_rewritten grasped amends shape).mono fun es r h' rewritten => ?_
  cases rewritten with
  | unwritable failed => exact .unwritable failed
  | accepted _ happens said before after stamps inHand => exact .accepted happens said before after stamps inHand
  | lost _ happens said conflict same => exact .lost happens said conflict same
  | refused _ happens said other same => exact .refused happens said other same

end Checkout

end VmOperator
