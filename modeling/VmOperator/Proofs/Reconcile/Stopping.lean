import VmOperator.Proofs.Reconcile.Restating

/-! The teardown of a virtual machine in one invocation. As long as it is found, and no write of the status is refused but
one that came second, the invocation deletes it, or it counts one more look in the status (`run_attempts`). -/

namespace VmOperator

/-- the stored spec has a place for what is written -/
def Machine.Writable (m : Machine) : Prop := ((m.stored.get? "spec").getD (.object [])).fields.isOk = true

theorem Grasped.exists_written {S : Scene} {h : Held} {m m' : Machine} (grasped : Grasped S h m) (writable : m.Writable)
    (stored : m'.stored = m.stored) : ∃ x, m'.toValue = .ok x := by
  obtain ⟨sp, spec⟩ := exists_of_isOk writable
  have place := grasped.copied.copy.shaped.metadata
  rw [Stored.fieldsOf_object, ← stored] at place
  exact Machine.exists_toValue (by rw [place]; rfl) (by rw [stored]; exact spec)

namespace Teardown

open Appliance (vmPath)
open Checkout (Resaved)
open Reconcile (forget await awaitStop_eq)

def stopPath (number : Int) : String := vmPath (.int number) ++ "/stop"

def look (number : Int) : Appliance.Request := ⟨.get, vmPath (.int number), .none⟩

def Finds (s : Settings) (number : Int) (stopped : Bool) (e : Event) : Prop :=
  ∃ reply known, e.said = .sent (look number) reply ∧
    (Appliance.vmQuery s (.int number)).read reply = .ok known ∧ known.vm.isStopped = stopped

/-- a look at the virtual machine finds it, and a write of the status is refused only where it came second -/
def obliges (s : Settings) (number : Int) (e : Event) : Bool :=
  match e.said with
  | .sent r reply => decide (r ≠ look number) || ((Appliance.vmQuery s (.int number)).read reply).isOk
  | .called (.replaceStatus ..) (.refused status _) => status.isNumber 409
  | .called .. => true

def polling (S : Scene) (s : Settings) (number : Int) : World := fun h e => S.Happens h e ∧ obliges s number e = true

/-- the write of one more look, which is accepted or comes second -/
structure Counts (S : Scene) (m : Machine) (w : Event) : Prop where
  said : ∃ x reply, w.said = .called (.replaceStatus .machines (.string S.ns) (.string S.name) x) reply
  before : w.before.status = some m.status
  after : (w.acceptsStatus = true ∧ w.after.status = some (await m).status.rendered) ∨
    (w.acceptsStatus = false ∧ w.loses = true ∧ w.after = w.before)

/-- nothing but the disk is asked about, and nothing is written of the status but that the virtual machine is gone -/
structure Clears (m : Machine) (e : Event) : Prop where
  route : ∀ method path, e.route? = some (method, path) → (method, path) = (.post, "/fs/rm/")
  status : e.acceptsStatus = true → e.after.status = some (forget m).status.rendered

/-- the virtual machine is found, and deleted as it is stopped or was waited for -/
inductive Deleting (c : Context) (m : Machine) (number : Int) : List Event → Prop
  | mk {e d : Event} {es : List Event} {stopped : Bool} (found : Finds c.settings number stopped e)
      (ended : stopped = true ∨ c.settings.stopPollAttempts ≤ m.status.stopAttempts)
      (delete : d.route? = some (.delete, vmPath (.int number))) (clears : ∀ e ∈ es, Clears m e) :
      Deleting c m number (e :: d :: es)

/-- the virtual machine is found running, and one more look is counted -/
inductive Waiting (S : Scene) (c : Context) (m : Machine) (number : Int) : List Event → Except Failure Outcome → Prop
  | mk {e w : Event} {kills : List Event} {after : Number} (found : Finds c.settings number false e)
      (due : m.status.stopAttempts < c.settings.stopPollAttempts)
      (killed : ∀ k ∈ kills, k.route? = some (.post, stopPath number)) (first : kills ≠ [] ↔ m.status.stopAttempts = 0)
      (counts : Counts S m w) : Waiting S c m number (e :: (kills ++ [w])) (.ok (.requeue after))

section Steps

variable {S : Scene} {h : Held} {c : Context} {m : Machine} {number : Int}

theorem sent_drift {e : Event} {r : Appliance.Request} {reply : Appliance.Reply} (happens : S.Happens h e)
    (said : e.said = .sent r reply) : S.Drifts h e.after :=
  happens.of_request said ▸ happens.drift

theorem lookFor_finds : (polling S c.settings number).Yields h (lookFor c number)
    (fun es found h' => ∃ e known, es = [e] ∧ found = some known ∧ Finds c.settings number known.vm.isStopped e ∧
      S.Drifts h h') fun _ _ _ => False := by
  unfold lookFor
  rw [Appliance.getVm_eq]
  refine .tryCatch (.map (.ask nofun (fun e r reply known written said happens read => ?_)
    fun e r reply f written said happens failed => ?_))
  · cases written
    exact ⟨e, known, rfl, rfl, ⟨reply, known, said, read, rfl⟩, sent_drift happens.1 said⟩
  · obtain rfl : look number = r := Except.ok.inj written
    have obliging := happens.2
    simp [obliges, said, failed, Except.isOk, Except.toBool] at obliging

theorem exists_fault_of_command {operation path : String} {method : Appliance.Method} {s : Settings}
    {reply : Appliance.Reply} {f : Failure} (failed : (Appliance.command s operation method path).read reply = .error f) :
    ∃ fault, f = .fault (.appliance fault) := by
  unfold Appliance.command Appliance.query Appliance.judged at failed
  dsimp only at failed
  split at failed
  · cases failed
  · cases failed
    exact ⟨_, rfl⟩

/-- a refusal of the stop is passed over -/
theorem tryKill_kills : (polling S c.settings number).Yields h (tryKill c number)
    (fun es _ h' => ∃ e, es = [e] ∧ e.route? = some (.post, stopPath number) ∧ S.Drifts h h') fun _ _ _ => False := by
  have routed {e : Event} {r : Appliance.Request} {reply : Appliance.Reply}
      (written : (Appliance.killCommand c.settings (.int number)).request = .ok r) (said : e.said = .sent r reply) :
      e.route? = some (.post, stopPath number) := by
    cases written
    rw [Event.route?, said]
    rfl
  unfold tryKill
  rw [Appliance.killVm_eq]
  refine .tryCatch (.ask (fun _ failed => by cases failed) (fun e r reply _ written said happens _ => ?_)
    fun e r reply f written said happens failed => ?_)
  · exact ⟨e, rfl, routed written said, sent_drift happens.1 said⟩
  · obtain ⟨fault, rfl⟩ := exists_fault_of_command failed
    exact .pure ⟨e, rfl, routed written said, sent_drift happens.1 said⟩

theorem saveStatus_counts (grasped : Grasped S h m) (stored : h.status = some m.status) (writable : m.Writable) :
    (polling S c.settings number).Yields h (Checkout.saveStatus (await m))
      (fun es _ _ => ∃ w, es = [w] ∧ Counts S m w) fun _ _ _ => False := by
  have saves : (polling S c.settings number).Ensures h (Checkout.saveStatus (await m)).run fun es r h' =>
      Resaved S h m (await m).status es r h' ∧ ∀ e ∈ es, obliges c.settings number e = true :=
    (Checkout.saveStatus_resaved grasped (s := (await m).status) grasped.shape).within (fun _ _ => And.left)
      fun _ _ => And.right
  refine saves.mono fun es r h' ⟨resaved, obliging⟩ => ?_
  cases resaved with
  | unwritable failed =>
    have stored : (await m).stored = m.stored := rfl
    obtain ⟨x, written⟩ := grasped.exists_written writable stored
    cases failed.symm.trans written
  | accepted happens said _ after =>
    have before := (Held.status_drift happens.drift).trans stored
    exact ⟨_, rfl, ⟨_, _, said⟩, before, .inl ⟨by rw [Event.acceptsStatus, said], after⟩⟩
  | lost happens said conflict same =>
    have before := (Held.status_drift happens.drift).trans stored
    refine ⟨_, rfl, ⟨_, _, said⟩, before, .inr ⟨by rw [Event.acceptsStatus, said], ?_, same⟩⟩
    simp [Event.loses, Exchange.content?, Exchange.refusedWith, said, conflict]
  | refused happens said other =>
    -- in this scene a write is refused only where it came second
    have taken := obliging _ (List.mem_singleton_self _)
    rw [obliges, said] at taken
    cases other.symm.trans taken

theorem awaitStop_waits (grasped : Grasped S h m) (stored : h.status = some m.status) (writable : m.Writable) :
    (polling S c.settings number).Yields h (awaitStop c m number)
      (fun es progress _ => ∃ kills w after, es = kills ++ [w] ∧ (∀ k ∈ kills, k.route? = some (.post, stopPath number)) ∧
        (kills ≠ [] ↔ m.status.stopAttempts = 0) ∧ Counts S m w ∧ progress = .ends (.requeue after)) fun _ _ _ => False := by
  have requeues (saved : Option Machine) : ∃ after,
      (Progress.ends (if saved.isSome then .requeue c.settings.stopPollInterval else c.step)) = .ends (.requeue after) := by
    cases saved <;> exact ⟨_, rfl⟩
  rw [awaitStop_eq]
  dsimp only
  split
  · rename_i first
    refine .bind (tryKill_kills.mono (fun es _ h' ⟨k, only, route, drift⟩ => ?_) fun _ _ _ => id)
    refine .bind ((saveStatus_counts (grasped.drift drift) ((Held.status_drift drift).trans stored) writable).mono
      (fun es' saved h' ⟨w, write, counts⟩ => ?_) fun _ _ _ => id)
    obtain ⟨after, requeue⟩ := requeues saved
    refine .pure ⟨[k], w, after, ?_, List.forall_mem_singleton.2 route, by simp [first], counts, requeue⟩
    simp [only, write]
  · rename_i later
    refine .bind ((saveStatus_counts grasped stored writable).mono (fun es' saved h' ⟨w, write, counts⟩ => ?_)
      fun _ _ _ => id)
    obtain ⟨after, requeue⟩ := requeues saved
    exact .pure ⟨[], w, after, by simp [write], List.forall_mem_nil _, by simp [later], counts, requeue⟩

end Steps

section Tail

variable {S : Scene} {h : Held} {c : Context} {m m' : Machine}

/-- events of the end of a teardown, whatever comes of it -/
abbrev Clearing (W : World) (m : Machine) {α : Type} (h : Held) (p : Action α) : Prop :=
  W.Yields h p (fun es _ _ => ∀ e ∈ es, Clears m e) fun es _ _ => ∀ e ∈ es, Clears m e

theorem clears_of_called {e : Event} {call : Store.Call} {reply : Store.Reply} (said : e.said = .called call reply)
    (status : e.acceptsStatus = true → e.after.status = some (forget m).status.rendered) : Clears m e :=
  ⟨by simp [Event.route?, said], status⟩

theorem forgetVm_clears (grasped : Grasped S h m) : Clearing S.Happens m h (forgetVm c m) := by
  have clears {es : List Event} {r : Except Failure (Option Machine)} {h' : Held}
      (resaved : Resaved S h m (forget m).status es r h') : ∀ e ∈ es, Clears m e := by
    intro e mem
    have status := fun accepted => (resaved.status grasped.copied.copy e mem accepted).2
    rcases resaved.calls with rfl | ⟨e', x, reply, rfl, said⟩
    · cases mem
    · rw [List.mem_singleton.1 mem] at status ⊢
      exact clears_of_called said status
  have saves := World.Yields.of_ensures
    (Checkout.saveStatus_resaved (s := (forget m).status) grasped grasped.shape)
  refine .bind (saves.mono (fun es saved h' resaved => ?_) fun es f h' resaved => clears resaved)
  cases saved <;> refine .pure ?_ <;> rw [List.append_nil] <;> exact clears resaved

theorem removeDisk_clears {W : World} : Clearing W m h (removeDisk c m') := by
  unfold removeDisk
  split
  · refine .bind (.lift (fun path _ => ?_) fun _ _ => List.forall_mem_nil _)
    rw [Appliance.removeFiles_eq]
    have clears {e : Event} {r : Appliance.Request} {reply : Appliance.Reply}
        (written : (Appliance.removeQuery c.settings [.string path, .string (path ++ efiSuffix)]).request = .ok r)
        (said : e.said = .sent r reply) : ∀ e' ∈ [e], Clears m e' := by
      obtain ⟨post, remove⟩ := Appliance.method_path_of_written written
      refine List.forall_mem_singleton.2 ⟨fun method path routed => ?_, by simp [Event.acceptsStatus, said]⟩
      rw [Event.route?, said] at routed
      rw [← post, ← remove]
      exact (Option.some.inj routed).symm
    refine .map (.ask (fun _ _ => List.forall_mem_nil _) (fun e r reply _ written said _ _ => clears written said)
      fun e r reply _ written said _ _ => clears written said)
  · exact .pure (List.forall_mem_nil _)

theorem release_clears {W : World} : Clearing W m h (release c m') := by
  have replaces {e : Event} {x : Value} {reply : Store.Reply} {m'' : Machine}
      (said : e.said = .called (Checkout.Part.whole.on m'' x) reply) : ∀ e' ∈ [e], Clears m e' :=
    List.forall_mem_singleton.2 (clears_of_called said (by simp [Event.acceptsStatus, said, Checkout.Part.on]))
  unfold release
  refine .bind (.mono (.of_ensures (Checkout.save_ends .whole _)) (fun es saved h' ended => ?_) fun es f h' ended => ?_)
  · have clears : ∀ e ∈ es, Clears m e := by
      cases ended with
      | accepted _ said | lost _ said => exact replaces said
    cases saved <;> refine .pure ?_ <;> rw [List.append_nil] <;> exact clears
  · cases ended with
    | unwritable => exact List.forall_mem_nil _
    | unreadable _ said | refused _ said => exact replaces said

end Tail

section Invocation

variable {S : Scene} {h h' : Held} {c : Context} {m : Machine} {number : Int} {es es' : List Event}
  {r : Except Failure Outcome}

theorem Deleting.append (deletes : Deleting c m number es) (more : ∀ e ∈ es', Clears m e) : Deleting c m number (es ++ es') := by
  cases deletes with
  | mk found ended delete clears => exact .mk found ended delete (List.forall_mem_append.2 ⟨clears, more⟩)

theorem removeVm_attempts (grasped : Grasped S h m) (stored : h.status = some m.status) (writable : m.Writable) :
    (polling S c.settings number).Yields h (removeVm c m number)
      (fun es progress _ => Deleting c m number es ∨ ∃ o, progress = .ends o ∧ Waiting S c m number es (.ok o))
      fun es _ _ => Deleting c m number es := by
  unfold removeVm
  refine .bind (lookFor_finds.mono (fun es found h' ⟨e, known, only, same, finds, drift⟩ => ?_) fun _ _ _ => False.elim)
  subst only same
  dsimp only
  split
  · rename_i running
    simp only [Bool.and_eq_true, Bool.not_eq_true', decide_eq_true_eq] at running
    rw [running.1] at finds
    refine (awaitStop_waits (grasped.drift drift) ((Held.status_drift drift).trans stored) writable).mono ?_
      fun _ _ _ => False.elim
    rintro es progress h' ⟨kills, w, after, rfl, killed, first, counts, rfl⟩
    exact .inr ⟨_, rfl, .mk finds running.2 killed first counts⟩
  · rename_i ended
    have done : known.vm.isStopped = true ∨ c.settings.stopPollAttempts ≤ m.status.stopAttempts := by
      cases stopped : known.vm.isStopped with
      | true => exact .inl rfl
      | false => exact .inr (by simpa [stopped] using ended)
    have routed {d : Event} {r : Appliance.Request} {reply : Appliance.Reply}
        (written : (Appliance.deleteCommand c.settings (.int number)).request = .ok r) (said : d.said = .sent r reply) :
        d.route? = some (.delete, vmPath (.int number)) := by
      cases written
      rw [Event.route?, said]
    rw [Appliance.deleteVm_eq]
    refine .bind (.ask (fun _ failed => by cases failed) (fun d r reply _ written said happens _ => ?_)
      fun d r reply f written said _ _ => ?_)
    · have clearing : Clearing (polling S c.settings number) m d.after (forgetVm c m) :=
        (forgetVm_clears ((grasped.drift drift).drift (sent_drift happens.1 said))).within fun _ _ => And.left
      exact clearing.mono (fun es _ _ clears => .inl (.mk finds done (routed written said) clears))
        fun es _ _ clears => .mk finds done (routed written said) clears
    · exact .mk finds done (routed written said) (List.forall_mem_nil _)

/-- an invocation that finds the virtual machine deletes it, or waits -/
theorem run_attempts (inHand : InHand S h m) (held : m.hasFinalizer = true) (recorded : m.status.vmId = some number)
    (writable : m.Writable) (plays : S.Plays h (run c m).run es r h') (obliging : ∀ e ∈ es, obliges c.settings number e = true) :
    Deleting c m number es ∨ Waiting S c m number es r := by
  have attempts : (polling S c.settings number).Ensures h (run c m).run fun es r _ =>
      Deleting c m number es ∨ Waiting S c m number es r := by
    unfold run
    rw [held, recorded]
    refine World.Yields.ensures (.bind ((removeVm_attempts inHand.grasped inHand.status writable).mono
      (fun es progress h' attempt => ?_) fun es f h' deletes => .inl deletes))
    cases progress with
    | ends o =>
      refine .pure ?_
      rw [List.append_nil]
      refine attempt.imp_right ?_
      rintro ⟨_, ⟨⟩, waits⟩
      exact waits
    | gone m' =>
      have deletes : Deleting c m number es := attempt.resolve_right (by rintro ⟨_, ⟨⟩, -⟩)
      refine .bind (removeDisk_clears.mono (fun es' _ h' clears => ?_) fun es' _ h' clears => .inl (deletes.append clears))
      have cleared {es'' : List Event} (more : ∀ e ∈ es'', Clears m e) : Deleting c m number (es ++ (es' ++ es'')) :=
        deletes.append (List.forall_mem_append.2 ⟨clears, more⟩)
      exact release_clears.mono (fun es _ _ more => .inl (cleared more)) fun es _ _ more => .inl (cleared more)
  refine attempts es r h' (plays.inWorld.within fun _ e mem happens => ⟨happens, obliging e mem⟩)

/-- without a virtual machine there is nothing to wait for -/
theorem run_clears (gone : m.status.vmId = none) : Clearing S.Happens m h (run c m) := by
  unfold run
  split
  · exact .pure (List.forall_mem_nil _)
  · dsimp only
    rw [gone]
    refine .bind (.pure (.bind (removeDisk_clears.mono (fun es _ h' clears => ?_) fun es _ h' clears => clears)))
    have cleared {es' : List Event} (more : ∀ e ∈ es', Clears m e) : ∀ e ∈ es ++ es', Clears m e :=
      List.forall_mem_append.2 ⟨clears, more⟩
    exact release_clears.mono (fun _ _ _ more => cleared more) fun _ _ _ more => cleared more

end Invocation

end Teardown

end VmOperator
