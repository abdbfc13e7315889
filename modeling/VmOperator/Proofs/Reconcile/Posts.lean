import VmOperator.Proofs.Reconcile.Requests

/-! Which paths an action posts to, whatever it is answered (`PostsTo`). Steps of an image are submitted by the pipeline
alone (`PostsTo.advance`), virtual machines are ordered only for a machine without one (`PostsTo.create`), and all that
is posted besides starts, stops or removes (`Elsewhere`). -/

namespace VmOperator

/-- whatever is answered, only these paths are posted to -/
structure PostsTo {α : Type} (R : String → Prop) (p : Program α) : Prop where
  simulates : p.Simulates (fun (_ : Unit) x _ => ∀ r reply, x = .sent r reply → r.method = .post → R r.path) ()
    fun _ _ => True

/-- the paths that are posted to for a virtual machine that exists, and for its disk -/
structure Elsewhere (R : String → Prop) : Prop where
  start : ∀ id, R (Appliance.vmPath id ++ "/start")
  stop : ∀ id, R (Appliance.vmPath id ++ "/stop")
  remove : R "/fs/rm/"

theorem Elsewhere.orderless : Elsewhere (· ≠ "/vm/") where
  start _ := Appliance.vmPath_append_ne _ (by decide)
  stop _ := Appliance.vmPath_append_ne _ (by decide)
  remove := by decide

theorem Elsewhere.unsubmitted : Elsewhere (· ∉ ImagePipeline.submissionPaths) where
  start _ mem := Appliance.command_ne_submission _ (.inl rfl) mem rfl
  stop _ mem := Appliance.command_ne_submission _ (.inr rfl) mem rfl
  remove := by decide

namespace PostsTo

variable {α β : Type} {R : String → Prop}

theorem route {p : Program α} (posts : PostsTo R p) {W : World} {h h' : Held} {es : List Event} {a : α}
    (plays : W.Plays h p es a h') : ∀ e ∈ es, ∀ path, e.route? = some (.post, path) → R path := by
  have step (e : Event) (posted : ∀ r reply, e.said = .sent r reply → r.method = .post → R r.path) (path : String)
      (route : e.route? = some (.post, path)) : R path := by
    unfold Event.route? at route
    split at route
    · rename_i r reply said
      obtain ⟨post, rfl⟩ := Prod.mk.inj (Option.some.inj route)
      exact posted r reply said post
    · cases route
  obtain ⟨_, each, -⟩ := plays.keeps (I := fun es _ _ => ∀ e ∈ es, ∀ path, e.route? = some (.post, path) → R path)
    (fun _ _ _ e _ each _ posted => List.forall_mem_append.2 ⟨each, List.forall_mem_singleton.2 (step e posted)⟩)
    [] posts.simulates (List.forall_mem_nil _)
  exact each

theorem not_orders {p : Program α} (posts : PostsTo (· ≠ "/vm/") p) {W : World} {h h' : Held} {es : List Event} {a : α}
    (plays : W.Plays h p es a h') : ∀ e ∈ es, e.orders = false :=
  fun e mem => Bool.eq_false_iff.2 fun orders => posts.route plays e mem _ (of_decide_eq_true orders) rfl

theorem done (a : α) : PostsTo R (.done a) := ⟨trivial⟩

theorem follow {p : Program α} {f : α → Program β} (first : PostsTo R p) (rest : ∀ a, PostsTo R (f a)) : PostsTo R (p >>= f) :=
  ⟨.bind (first.simulates.mono fun a _ _ => (rest a).simulates)⟩

variable {p : Action α}

theorem lift (x : Except Failure α) : PostsTo R (Action.ofExcept x).run := done x

theorem bind {f : α → Action β} (first : PostsTo R p.run) (rest : ∀ a, PostsTo R (f a).run) : PostsTo R (p >>= f).run := by
  rw [ExceptT.run_bind]
  refine follow first fun r => ?_
  cases r with
  | ok a => exact rest a
  | error e => exact done _

theorem map {f : α → β} (first : PostsTo R p.run) : PostsTo R (f <$> p).run := by
  rw [map_eq_pure_bind]
  exact bind first fun _ => done _

theorem tryCatch {handle : Failure → Action α} (first : PostsTo R p.run) (rest : ∀ e, PostsTo R (handle e).run) :
    PostsTo R (MonadExcept.tryCatch p handle).run := by
  rw [ExceptT.run_tryCatch]
  refine follow first fun r => ?_
  cases r with
  | ok a => exact done _
  | error e => exact rest e

theorem call (c : Store.Call) : PostsTo R (Action.call c).run := ⟨fun _ => ⟨(), nofun, trivial⟩⟩

theorem ask {q : Appliance.Query α} (allowed : ∀ r, q.request = .ok r → r.method = .post → R r.path) : PostsTo R q.ask.run := by
  unfold Appliance.Query.ask
  cases written : q.request with
  | error e => exact done _
  | ok r =>
    refine ⟨fun reply => ⟨(), ?_, (lift _).simulates⟩⟩
    rintro _ _ same
    cases same
    exact allowed r written

section Queries

variable {s : Settings} {read : Value → Except Failure α} {operation path : String}
  {content : Except Failure Appliance.Content}

theorem post (allowed : R path) : PostsTo R (Appliance.query s operation .post path content read).ask.run :=
  ask fun _ written _ => (Appliance.method_path_of_written written).2 ▸ allowed

theorem get : PostsTo R (Appliance.query s operation .get path content read).ask.run :=
  ask fun _ written post => nomatch (Appliance.method_path_of_written written).1.symm.trans post

theorem delete : PostsTo R (Appliance.query s operation .delete path content read).ask.run :=
  ask fun _ written post => nomatch (Appliance.method_path_of_written written).1.symm.trans post

end Queries

section Store

variable (m : Machine)

theorem fetch (action : String) (kind : Store.Kind) (ns name : Value) : PostsTo R (Store.fetch action kind ns name).run := by
  refine bind (call _) fun reply => ?_
  cases reply with
  | ok => exact done _
  | refused =>
    dsimp only
    split <;> exact done _

theorem write (action key : String) (c : Store.Call) : PostsTo R (Store.write action key c).run := by
  refine bind (call _) fun reply => ?_
  cases reply <;> exact done _

theorem updateMachine : PostsTo R (Store.updateMachine m).run :=
  bind (lift _) fun _ => bind (write ..) fun _ => lift _

theorem updateMachineStatus : PostsTo R (Store.updateMachineStatus m).run :=
  bind (lift _) fun _ => bind (write ..) fun _ => lift _

theorem getMachine (ns name : Value) : PostsTo R (Store.getMachine ns name).run := by
  refine bind (fetch ..) fun found => ?_
  cases found with
  | none => exact done _
  | some object => exact bind (lift _) fun _ => done _

theorem unlessConflict {write : Action Machine} (posts : PostsTo R write.run) :
    PostsTo R (Checkout.unlessConflict write).run := by
  refine tryCatch (map posts) fun e => ?_
  split <;> exact done _

theorem save : PostsTo R (Checkout.save m).run := unlessConflict (updateMachine m)

theorem saveStatus : PostsTo R (Checkout.saveStatus m).run := unlessConflict (updateMachineStatus m)

theorem writeRefreshing (change : Machine → Machine) (more : Nat) : ∀ m, PostsTo R (Checkout.writeRefreshing change more m) := by
  induction more with
  | zero => exact fun _ => done _
  | succ more ih =>
    intro m
    unfold Checkout.writeRefreshing
    refine follow (updateMachineStatus m) fun r => ?_
    split
    · exact done _
    · refine follow (follow (getMachine ..) fun found => ?_) fun r => ?_
      · split <;> exact done _
      · split
        · split
          · exact done _
          · exact ih _
        · exact done _
    · exact done _

theorem saveStatusSurely (change : Machine → Machine) : PostsTo R (Checkout.saveStatusSurely change m).run :=
  follow (writeRefreshing ..) fun _ => done _

end Store

section Boot

variable (elsewhere : Elsewhere R) (c : Context) (m : Machine)

theorem ensureProviderId : PostsTo R (Boot.ensureProviderId m).run := by
  unfold Boot.ensureProviderId
  split
  · exact bind (save _) fun _ => done _
  · exact done _

theorem getVm (id : Value) : PostsTo R (Appliance.getVm c.settings id).run := by
  rw [Appliance.getVm_eq]
  exact get

theorem discover (known : Option Appliance.Vm) : PostsTo R (Discovery.discover c m known).run := by
  have current (id : Int) : PostsTo R (Discovery.current c id known).run := by
    unfold Discovery.current
    split
    · split
      · exact done _
      · exact bind (getVm ..) fun _ => done _
    · exact bind (getVm ..) fun _ => done _
  have hosts (interface : String) : PostsTo R (Appliance.lanHosts c.settings interface).run := by
    rw [Appliance.lanHosts_eq]
    exact get
  unfold Discovery.discover
  split
  · exact done _
  · split
    · exact done _
    · refine bind (current _) fun vm => ?_
      split
      · exact done _
      · refine bind (tryCatch (map (bind (lift _) fun _ => bind (hosts _) fun _ => lift _)) fun e => ?_) fun found => ?_
        · split <;> exact done _
        · split
          · exact done _
          · exact done _
          · refine bind (saveStatus _) fun saved => ?_
            cases saved <;> exact done _

theorem userData : PostsTo R (Boot.userData c m).run := by
  refine bind (bind (lift _) fun name => ?_) fun owner => ?_
  · split
    · exact done _
    · exact bind (fetch ..) fun _ => done _
  · cases owner with
    | none => exact done _
    | some owner =>
      refine bind (lift _) fun secret => ?_
      split
      · exact done _
      · refine bind (bind (fetch ..) fun secret => ?_) fun bytes => ?_
        · cases secret with
          | none => exact done _
          | some secret => exact bind (lift _) fun data => bind (lift _) fun entry => bind (lift _) fun bytes => done _
        · cases bytes with
          | none => exact done _
          | some bytes =>
            dsimp only
            split <;> exact done _

include elsewhere

theorem startVm (id : Value) : PostsTo R (Appliance.startVm c.settings id).run := by
  rw [Appliance.startVm_eq]
  exact post (elsewhere.start id)

/-- once the number is recorded -/
theorem afterRecord (created : Appliance.KnownVm) : PostsTo R (do
    let latest ← Boot.ensureProviderId m
    Appliance.startVm c.settings (.int created.number)
    Discovery.discover c latest (some created.vm) : Action Outcome).run :=
  bind (ensureProviderId m) fun _ => bind (startVm elsewhere c _) fun _ => discover ..

theorem existing (number : Int) : PostsTo R (Boot.existing c m number).run := by
  refine bind (ensureProviderId m) fun latest => ?_
  split
  · exact done _
  · refine bind (getVm ..) fun known => ?_
    split
    · exact bind (startVm elsewhere c _) fun _ => discover ..
    · exact discover ..

theorem create (order : R "/vm/") (path userData : String) : PostsTo R (Boot.create c m path userData).run := by
  unfold Boot.create
  rw [Appliance.createVm_eq]
  exact bind (post order) fun created => bind (saveStatusSurely ..) fun recorded => afterRecord elsewhere c recorded created

theorem boot (order : R "/vm/") : PostsTo R (Reconcile.boot c m).run := by
  refine bind (lift _) fun path => ?_
  unfold Boot.ensure
  split
  · exact existing elsewhere ..
  · refine bind (userData c m) fun text => ?_
    cases text with
    | none => exact done _
    | some text => exact bind (lift _) fun path => create elsewhere c m order path text

end Boot

section Imaging

variable (c : Context) (m : Machine)

theorem carryOut (verdict : ImagePipeline.Verdict) : PostsTo R (verdict.carryOut c m).run := by
  cases verdict with
  | wait => exact done _
  | enter | fail => exact bind (map (saveStatus _)) fun _ => done _
  | finish =>
    refine bind (saveStatus _) fun saved => ?_
    cases saved <;> exact done _

theorem advance (submit : ∀ path ∈ ImagePipeline.submissionPaths, R path) : PostsTo R (ImagePipeline.advance c m).run := by
  rw [ImagePipeline.advance_eq]
  refine bind (lift _) fun name => bind (lift _) fun p => bind (ask fun r written post => ?_) fun verdict => carryOut c m verdict
  exact submit _ (ImagePipeline.submission_of_post (ImagePipeline.query_route c m written) post)

theorem ensureFinalizer : PostsTo R (Reconcile.ensureFinalizer m).run := by
  unfold Reconcile.ensureFinalizer
  split
  · exact done _
  · exact save _

end Imaging

section Teardown

variable (elsewhere : Elsewhere R) (c : Context) (m : Machine)

theorem forgetVm : PostsTo R (Teardown.forgetVm c m).run := by
  refine bind (saveStatus _) fun saved => ?_
  cases saved <;> exact done _

include elsewhere

theorem removeVm (number : Int) : PostsTo R (Teardown.removeVm c m number).run := by
  have looked : PostsTo R (Teardown.lookFor c number).run := by
    refine tryCatch (map (getVm ..)) fun e => ?_
    split
    · refine bind (lift _) fun missing => ?_
      split <;> exact done _
    · exact done _
  have killed : PostsTo R (Teardown.tryKill c number).run := by
    unfold Teardown.tryKill
    rw [Appliance.killVm_eq]
    refine tryCatch (post (elsewhere.stop _)) fun e => ?_
    split <;> exact done _
  have deleted : PostsTo R (Appliance.deleteVm c.settings (.int number)).run := by
    rw [Appliance.deleteVm_eq]
    exact delete
  refine bind looked fun known => ?_
  cases known with
  | none => exact forgetVm c m
  | some known =>
    dsimp only
    split
    · rw [Reconcile.awaitStop_eq]
      dsimp only
      split
      · exact bind killed fun _ => bind (saveStatus _) fun _ => done _
      · exact bind (saveStatus _) fun _ => done _
    · exact bind deleted fun _ => forgetVm c m

theorem run : PostsTo R (Teardown.run c m).run := by
  have released (m : Machine) : PostsTo R (do Teardown.removeDisk c m; Teardown.release c m : Action Outcome).run := by
    refine bind ?_ fun _ => bind (save _) fun saved => ?_
    · unfold Teardown.removeDisk
      split
      · refine bind (lift _) fun path => ?_
        rw [Appliance.removeFiles_eq]
        exact map (post elsewhere.remove)
      · exact done _
    · cases saved <;> exact done _
  unfold Teardown.run
  split
  · exact done _
  · dsimp only
    split
    · refine bind (removeVm elsewhere c m _) fun progress => ?_
      cases progress with
      | ends => exact done _
      | gone m => exact released m
    · exact released m

end Teardown

end PostsTo

end VmOperator
