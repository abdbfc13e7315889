import VmOperator.Proofs.Conflicts
import VmOperator.Proofs.Rehearsal
import VmOperator.Proofs.Reconcile.Imaging
import VmOperator.Proofs.Reconcile.Restating
import VmOperator.Proofs.Resource.Conditions

/-! One invocation of the pipeline is one step: a request, what its reply asks for, and one write of the status
(`advance_stepped`). So whatever goes wrong, nothing is half done: a failure leaves what is stored as it was, and the
way that the step ends tells what was found and written (`advance_atomic`). A failure that was found is passed over
where it cannot be recorded (`not_failed_exactly`). -/

namespace VmOperator

namespace Phase

variable (s : Settings)

/-- the poll of the recorded task reports an error; that of a resize counts once it is done -/
inductive Breaks : Phase → Appliance.Reply → Prop
  | download {task : Int} {reply : Appliance.Reply} {polled : Appliance.DownloadTask}
      (read : (Appliance.downloadPoll s (.int task)).read reply = .ok polled) (error : polled.isError = true) :
      Breaks (.downloading task) reply
  | extraction {src dst : Value} {task : Int} {reply : Appliance.Reply} {polled : Appliance.FileTask}
      (read : (Appliance.filePoll s (.int task)).read reply = .ok polled) (error : polled.isError = true) :
      Breaks (.extracting src dst (some task)) reply
  | copy {src dst : Value} {task : Int} {reply : Appliance.Reply} {polled : Appliance.FileTask}
      (read : (Appliance.filePoll s (.int task)).read reply = .ok polled) (error : polled.isError = true) :
      Breaks (.copying src dst (some task)) reply
  | rename {src dst : Value} {task : Int} {reply : Appliance.Reply} {polled : Appliance.FileTask}
      (read : (Appliance.filePoll s (.int task)).read reply = .ok polled) (error : polled.isError = true) :
      Breaks (.renaming src dst (some task)) reply
  | resize {task : Int} {reply : Appliance.Reply} {polled : Appliance.DiskTask}
      (read : (Appliance.diskPoll s (.int task)).read reply = .ok polled) (done : polled.done = true)
      (error : polled.error = true) : Breaks (.resizing (some task)) reply

def Completes (p : Phase) (reply : Appliance.Reply) : Prop :=
  ∃ task polled, p = .resizing (some task) ∧ (Appliance.diskPoll s (.int task)).read reply = .ok polled ∧
    polled.done = true ∧ polled.error = false

variable {s} {p : Phase} {reply : Appliance.Reply}

theorem Breaks.started (breaks : p.Breaks s reply) : p ≠ .notStarted := by
  cases breaks <;> exact nofun

theorem Breaks.polled (breaks : p.Breaks s reply) : (ImagePipeline.route p).1 = .get := by
  cases breaks <;> rfl

theorem isTruthy_of_decode {progress : Value} (decoded : decode progress = .ok p) (started : p ≠ .notStarted) :
    progress.isTruthy = true := by
  unfold decode at decoded
  split at decoded
  · cases decoded
    exact absurd rfl started
  · rename_i set
    simpa using set

end Phase

namespace ImagePipeline

open Checkout (Resaved)

variable {S : Scene} {h h' : Held} {c : Context} {m : Machine} {name : Option String} {p : Phase} {e : Event}
  {es : List Event} {reply : Appliance.Reply} {v : Verdict} {r : Except Failure Advance}

theorem query_fails_iff (m : Machine) (name : Option String) : (∃ step reason message detail, (query c m name p).read reply =
    .ok (.fail step reason message detail)) ↔ p.Breaks c.settings reply := by
  constructor
  · rintro ⟨step, reason, message, detail, found⟩
    have files {step' reason' message' : String} {next : Except Failure Phase} {polled : Appliance.FileTask}
        (judged : judgeFiles c step' reason' message' next polled = .ok (.fail step reason message detail)) :
        polled.isError = true := by
      unfold judgeFiles at judged
      split at judged
      · assumption
      · split at judged
        · cases judged
        · obtain ⟨_, -, judged⟩ := bind_eq_ok.1 judged
          cases judged
    rcases p with _ | task | ⟨src, dst, _ | task⟩ | ⟨src, dst, _ | task⟩ | ⟨src, dst, _ | task⟩ | _ | task <;>
      obtain ⟨polled, read, judged⟩ := bind_eq_ok.1 found
    case notStarted | extracting.none | copying.none | renaming.none | resizing.none =>
      simp only [started, Except.ok.injEq, reduceCtorEq] at judged
    case downloading =>
      refine .download read ?_
      unfold judgeDownload at judged
      split at judged
      · assumption
      · split at judged <;> cases judged
    case extracting.some => exact .extraction read (files judged)
    case copying.some => exact .copy read (files judged)
    case renaming.some => exact .rename read (files judged)
    case resizing.some =>
      unfold judgeResize at judged
      split at judged
      · cases judged
      · rename_i done
        split at judged
        · exact .resize read (by simpa using done) (by assumption)
        · cases judged
  · intro breaks
    cases breaks with
    | download read error => exact ⟨_, _, _, _, bind_eq_ok.2 ⟨_, read, congrArg Except.ok (if_pos error)⟩⟩
    | extraction read error | copy read error | rename read error =>
      exact ⟨_, _, _, _, bind_eq_ok.2 ⟨_, read, if_pos error⟩⟩
    | @resize _ _ polled read done error =>
      have failed : judgeResize polled = .fail "resize" "ResizeFailed" "Disk resize failed" (.string "") := by
        simp [judgeResize, done, error]
      exact ⟨_, _, _, _, bind_eq_ok.2 ⟨_, read, congrArg Except.ok failed⟩⟩

theorem query_finishes_iff (m : Machine) (name : Option String) :
    (query c m name p).read reply = .ok .finish ↔ p.Completes c.settings reply := by
  constructor
  · exact query_finishes
  · rintro ⟨task, polled, rfl, read, done, error⟩
    refine bind_eq_ok.2 ⟨polled, read, ?_⟩
    simp [judgeResize, done, error]

inductive Stepped (S : Scene) (c : Context) (m : Machine) (h : Held) : List Event → Except Failure Advance → Held → Prop
  | unasked {f : Failure} : Stepped S c m h [] (.error f) h
  | unheard {name : Option String} {p : Phase} {e : Event} {r : Appliance.Request} {reply : Appliance.Reply} {f : Failure}
      (asked : Asked c m name p e r reply) (happens : S.Happens h e) (read : (query c m name p).read reply = .error f) :
      Stepped S c m h [e] (.error f) e.after
  | waited {name : Option String} {p : Phase} {e : Event} {r : Appliance.Request} {reply : Appliance.Reply}
      (asked : Asked c m name p e r reply) (happens : S.Happens h e) (read : (query c m name p).read reply = .ok .wait) :
      Stepped S c m h [e] (.ok (.ends c.poll)) e.after
  | written {name : Option String} {p : Phase} {e : Event} {r : Appliance.Request} {reply : Appliance.Reply} {v : Verdict}
      {s : MachineStatus} {es : List Event} {saved : Except Failure (Option Machine)} {h' : Held}
      (asked : Asked c m name p e r reply) (happens : S.Happens h e) (read : (query c m name p).read reply = .ok v)
      (restated : v.restated c m = some s) (resaved : Resaved S e.after m s es saved h') :
      Stepped S c m h (e :: es) (v.told c <$> saved) h'

theorem Verdict.shape_restated {s : MachineStatus} (shape : m.status.progress.IsObject)
    (restated : v.restated c m = some s) : s.progress.IsObject := by
  cases v with
  | wait => cases restated
  | enter => cases restated; trivial
  | fail | finish => cases restated; exact shape

theorem advance_stepped (grasped : Grasped S h m) :
    World.Ensures S.Happens h (advance c m).run (Stepped S c m h) := by
  rw [advance_eq]
  refine World.Yields.ensures (.bind (.lift (fun name named => ?_) fun _ _ => .unasked))
  refine .bind (.lift (fun p decoded => ?_) fun _ _ => .unasked)
  refine .bind (.ask (fun _ _ => .unasked) (fun e r reply v written said happens read => ?_)
    fun e r reply f written said happens read => .unheard ⟨decoded, written, said⟩ happens read)
  have asked : Asked c m name p e r reply := ⟨decoded, written, said⟩
  cases restated : v.restated c m with
  | none =>
    cases v with
    | wait => exact .pure (.waited asked happens read)
    | enter | fail | finish => cases restated
  | some s =>
    have now : Grasped S e.after m := happens.of_request said ▸ grasped.drift happens.drift
    rw [Verdict.carryOut_eq restated]
    refine .map ((World.Yields.of_ensures
      (Checkout.saveStatus_resaved now (Verdict.shape_restated grasped.shape restated))).mono
        (fun es saved h' resaved => ?_) fun es f h' resaved => ?_)
    · exact .written asked happens read restated resaved
    · exact .written asked happens read restated resaved

section Told

variable {saved : Option Machine}

/-- only a failure that was found is told as one -/
theorem Verdict.told_failed_iff
    (requeues : ∀ next message outcome, v = .enter next message outcome → outcome = c.poll ∨ outcome = c.step) :
    (∃ f, v.told c saved = .ends (.failed f)) ↔ ∃ step reason message detail, v = .fail step reason message detail := by
  constructor
  · rintro ⟨f, told⟩
    cases v with
    | wait => cases told
    | enter next message outcome => rcases requeues _ _ _ rfl with rfl | rfl <;> cases told
    | fail step reason message detail => exact ⟨_, _, _, _, rfl⟩
    | finish => cases saved <;> cases told
  · rintro ⟨_, _, _, _, rfl⟩
    exact ⟨_, rfl⟩

theorem Verdict.told_ready_iff : (∃ m', v.told c saved = .ready m') ↔ v = .finish ∧ ∃ m', saved = some m' := by
  constructor
  · rintro ⟨m', told⟩
    cases v with
    | finish =>
      cases saved with
      | none => cases told
      | some m' => exact ⟨rfl, m', rfl⟩
    | wait | enter | fail => cases told
  · rintro ⟨rfl, m', rfl⟩
    exact ⟨m', rfl⟩

end Told

end ImagePipeline

namespace ImagePipeline

open Checkout (Resaved)

variable {S : Scene} {h h' : Held} {c : Context} {m : Machine} {es : List Event} {r : Except Failure Advance}

/-- at most the request, and then the write of the status -/
inductive OneStep (S : Scene) : List Event → Prop
  | nothing : OneStep S []
  | asked {e : Event} {r : Appliance.Request} {reply : Appliance.Reply} (said : e.said = .sent r reply) : OneStep S [e]
  | written {e e' : Event} {r : Appliance.Request} {reply : Appliance.Reply} {x : Value} {reply' : Store.Reply}
      (said : e.said = .sent r reply)
      (said' : e'.said = .called (.replaceStatus .machines (.string S.ns) (.string S.name) x) reply') :
      OneStep S [e, e']

/-- the recorded phase, and the reply to its request, are as `P` says -/
def Hears (P : Phase → Appliance.Reply → Prop) (m : Machine) (es : List Event) : Prop :=
  ∃ p r reply, Phase.decode m.status.progress = .ok p ∧ (∃ e ∈ es, e.said = .sent r reply) ∧ P p reply

/-- an invocation is one step, and nothing of it is half done -/
structure AtomicStep (S : Scene) (c : Context) (m : Machine) (es : List Event) (r : Except Failure Advance) : Prop where
  order : OneStep S es
  undone : ∀ f, r = .error f → ∀ e ∈ es, e.after = e.before
  failed : (∃ f, r = .ok (.ends (.failed f))) ↔
    Hears (Phase.Breaks c.settings) m es ∧ ∃ e ∈ es, e.acceptsStatus = true ∨ e.loses = true
  stopped : Hears (Phase.Breaks c.settings) m es → ∀ e ∈ es, e.after.progress? = e.before.progress? ∧
    ∀ method path, e.route? = some (method, path) → method = .get
  ready : (∃ m', r = .ok (.ready m')) ↔ Hears (Phase.Completes c.settings) m es ∧
    ∃ e ∈ es, e.acceptsStatus = true ∧ ∃ s, e.after.status = some s ∧ s.Meets .imageReady
  lost : ∀ e ∈ es, e.loses = true → e.after = e.before ∧
    ((∃ after, r = .ok (.ends (.requeue after))) ∨ ∃ f, r = .ok (.ends (.failed f)))

section Request

variable {P : Phase → Appliance.Reply → Prop} {name : Option String} {p : Phase} {e : Event} {q : Appliance.Request}
  {reply : Appliance.Reply}

theorem Asked.hears_iff (asked : Asked c m name p e q reply) (calls : ∀ e ∈ es, ∃ call reply, e.said = .called call reply) :
    Hears P m (e :: es) ↔ P p reply := by
  constructor
  · rintro ⟨p', q', reply', decoded, ⟨e', mem, said⟩, holds⟩
    obtain rfl := Except.ok.inj (asked.decoded.symm.trans decoded)
    rcases List.mem_cons.1 mem with rfl | mem
    · cases asked.said.symm.trans said
      exact holds
    · obtain ⟨_, _, called⟩ := calls e' mem
      cases called.symm.trans said
  · exact fun holds => ⟨p, q, reply, asked.decoded, ⟨e, List.mem_cons_self .., asked.said⟩, holds⟩

theorem Asked.not_written (asked : Asked c m name p e q reply) : e.acceptsStatus = false ∧ e.loses = false := by
  simp [Event.acceptsStatus, Event.loses, Exchange.content?, asked.said]

theorem Asked.stopped (asked : Asked c m name p e q reply) (happens : S.Happens h e) (breaks : p.Breaks c.settings reply) :
    e.after.progress? = e.before.progress? ∧ ∀ method path, e.route? = some (method, path) → method = .get := by
  refine ⟨by rw [happens.of_request asked.said], fun method path routed => ?_⟩
  rw [Event.route?, asked.said] at routed
  have route := query_route _ _ asked.written
  rw [Option.some.inj routed] at route
  exact (congrArg Prod.fst route).trans breaks.polled

/-- an invocation that writes nothing waits, or raises -/
theorem Asked.atomic (asked : Asked c m name p e q reply) (happens : S.Happens h e)
    (waits : ∀ a, r = .ok a → a = .ends c.poll) : AtomicStep S c m [e] r := by
  obtain ⟨kept, won⟩ := asked.not_written
  have hears {P : Phase → Appliance.Reply → Prop} := asked.hears_iff (P := P) (List.forall_mem_nil _)
  refine ⟨.asked asked.said, ?_, ?_, ?_, ?_, ?_⟩
  · exact fun _ _ => List.forall_mem_singleton.2 (happens.of_request asked.said)
  · refine iff_of_false (fun ⟨f, told⟩ => ?_) (by simp [kept, won])
    cases waits _ told
  · exact fun broken => List.forall_mem_singleton.2 (asked.stopped happens (hears.1 broken))
  · refine iff_of_false (fun ⟨m', told⟩ => ?_) (by simp [kept])
    cases waits _ told
  · exact List.forall_mem_singleton.2 fun lost => absurd (won.symm.trans lost) nofun

end Request

section Write

variable {name : Option String} {p : Phase} {e : Event} {q : Appliance.Request} {reply : Appliance.Reply} {v : Verdict}
  {s : MachineStatus} {saved : Except Failure (Option Machine)}

theorem failed_iff (read : (query c m name p).read reply = .ok v) (resaved : Resaved S h m s es saved h') :
    (∃ f, v.told c <$> saved = .ok (.ends (.failed f))) ↔
      p.Breaks c.settings reply ∧ ∃ e ∈ es, e.acceptsStatus = true ∨ e.loses = true := by
  have fails : p.Breaks c.settings reply ↔ ∃ step reason message detail, v = .fail step reason message detail := by
    rw [← query_fails_iff m name, read]
    simp
  have told (m' : Option Machine) : (∃ f, v.told c m' = .ends (.failed f)) ↔
      ∃ step reason message detail, v = .fail step reason message detail :=
    Verdict.told_failed_iff fun _ _ _ same => query_requeues (same ▸ read)
  rw [fails, ← resaved.ok_iff]
  constructor
  · rintro ⟨f, failed⟩
    obtain ⟨m', rfl, same⟩ := map_eq_ok.1 failed
    exact ⟨(told m').1 ⟨f, same⟩, m', rfl⟩
  · rintro ⟨fails, m', rfl⟩
    obtain ⟨f, failed⟩ := (told m').2 fails
    exact ⟨f, congrArg Except.ok failed⟩

theorem ready_iff (read : (query c m name p).read reply = .ok v) (resaved : Resaved S h m s es saved h') :
    (∃ m', v.told c <$> saved = .ok (.ready m')) ↔
      p.Completes c.settings reply ∧ ∃ e ∈ es, e.acceptsStatus = true := by
  have finishes : p.Completes c.settings reply ↔ v = .finish := by
    rw [← query_finishes_iff m name, read, Except.ok.injEq]
  rw [finishes, ← resaved.some_iff]
  constructor
  · rintro ⟨m', ready⟩
    obtain ⟨saved, rfl, same⟩ := map_eq_ok.1 ready
    obtain ⟨finish, m', rfl⟩ := Verdict.told_ready_iff.1 ⟨m', same⟩
    exact ⟨finish, m', rfl⟩
  · rintro ⟨rfl, m', rfl⟩
    exact ⟨m', rfl⟩

theorem told_of_lost (read : (query c m name p).read reply = .ok v) :
    (∃ after, v.told c none = .ends (.requeue after)) ∨ ∃ f, v.told c none = .ends (.failed f) := by
  cases v with
  | wait | finish => exact .inl ⟨_, rfl⟩
  | enter next message outcome => rcases query_requeues read with rfl | rfl <;> exact .inl ⟨_, rfl⟩
  | fail => exact .inr ⟨_, rfl⟩

theorem meets_of_completes (read : (query c m name p).read reply = .ok v) (restated : v.restated c m = some s)
    (completes : p.Completes c.settings reply) : s.rendered.Meets .imageReady := by
  obtain rfl := Except.ok.inj (read.symm.trans ((query_finishes_iff m name).2 completes))
  obtain rfl := Option.some.inj restated
  obtain ⟨met, found, yes, -⟩ := m.condition?_setCondition_self c.now .imageReady .yes "ImageReady"
    "Image downloaded, extracted, renamed, and resized"
  exact ⟨met, found, yes⟩

/-- a failure is recorded without a change of the progress -/
theorem stopped_of_breaks (grasped : Grasped S h m) (asked : Asked c m name p e q reply)
    (read : (query c m name p).read reply = .ok v) (restated : v.restated c m = some s)
    (resaved : Resaved S h m s es saved h') (breaks : p.Breaks c.settings reply) :
    ∀ e ∈ es, e.after.progress? = e.before.progress? := by
  intro e' mem
  cases accepted : e'.acceptsStatus with
  | false => rw [resaved.undone e' mem accepted]
  | true =>
    obtain ⟨before, after⟩ := resaved.status grasped.copied.copy e' mem accepted
    obtain ⟨step, reason, message, detail, failed⟩ := (query_fails_iff m name).2 breaks
    obtain rfl := Except.ok.inj (read.symm.trans failed)
    obtain rfl := Option.some.inj restated
    have set := Phase.isTruthy_of_decode asked.decoded breaks.started
    rw [Held.progress?, Held.progress?, before, after]
    exact congrArg some (Value.orElse_eq_self set)

end Write

theorem Stepped.atomic (grasped : Grasped S h m) (stepped : Stepped S c m h es r h') : AtomicStep S c m es r := by
  cases stepped with
  | unasked => exact ⟨.nothing, by simp, by simp [Hears], by simp, by simp [Hears], by simp⟩
  | unheard asked happens read => exact asked.atomic happens fun _ told => by cases told
  | waited asked happens read => exact asked.atomic happens fun _ told => (Except.ok.inj told).symm
  | @written name p e q reply v s es saved h' asked happens read restated resaved =>
    -- the request changes nothing and is no write, so all that is said of the events is said of the write
    have same := happens.of_request asked.said
    obtain ⟨kept, won⟩ := asked.not_written
    have now : Grasped S e.after m := same ▸ grasped.drift happens.drift
    have calls : ∀ e ∈ es, ∃ call reply, e.said = .called call reply := by
      rcases resaved.calls with rfl | ⟨e', x, reply', rfl, said⟩
      · exact List.forall_mem_nil _
      · exact List.forall_mem_singleton.2 ⟨_, _, said⟩
    refine ⟨?order, ?undone, ?failed, ?stopped, ?ready, ?lost⟩
    case order =>
      rcases resaved.calls with rfl | ⟨e', x, reply', rfl, said⟩
      · exact .asked asked.said
      · exact .written asked.said said
    case undone =>
      intro f raised
      refine List.forall_mem_cons.2 ⟨same, fun e' mem => resaved.undone e' mem ?_⟩
      cases accepted : e'.acceptsStatus with
      | false => rfl
      | true =>
        obtain ⟨m', rfl⟩ := resaved.ok_iff.2 ⟨e', mem, .inl accepted⟩
        cases raised
    case failed => rw [failed_iff read resaved, asked.hears_iff calls]; simp [kept, won]
    case stopped =>
      intro broken
      have breaks := (asked.hears_iff calls).1 broken
      refine List.forall_mem_cons.2 ⟨asked.stopped happens breaks, fun e' mem => ⟨?_, fun method path routed => ?_⟩⟩
      · exact stopped_of_breaks now asked read restated resaved breaks e' mem
      · obtain ⟨_, _, said⟩ := calls e' mem
        rw [Event.route?, said] at routed
        cases routed
    case ready =>
      rw [ready_iff read resaved, asked.hears_iff calls]
      refine and_congr_right fun completes => ?_
      simp only [List.mem_cons, exists_eq_or_imp, kept, Bool.false_eq_true, false_and, false_or]
      refine exists_congr fun e' => and_congr_right fun mem => ⟨fun accepted => ⟨accepted, ?_⟩, And.left⟩
      exact ⟨_, (resaved.status now.copied.copy e' mem accepted).2, meets_of_completes read restated completes⟩
    case lost =>
      refine List.forall_mem_cons.2 ⟨fun lost => absurd (won.symm.trans lost) Bool.false_ne_true, fun e' mem lost => ?_⟩
      obtain rfl := resaved.none_of_loses e' mem lost
      refine ⟨resaved.undone e' mem ?_, (told_of_lost read).imp ?requeued ?failed⟩
      · cases accepted : e'.acceptsStatus with
        | false => rfl
        | true =>
          obtain ⟨m', same⟩ := resaved.some_iff.2 ⟨e', mem, accepted⟩
          cases same
      case requeued =>
        rintro ⟨after, told⟩
        exact ⟨after, congrArg Except.ok told⟩
      case failed =>
        rintro ⟨f, told⟩
        exact ⟨f, congrArg Except.ok told⟩

/-- Whatever the appliance and the store answer and whatever others do meanwhile, an invocation of the pipeline is one
step. It sends at most one request and then writes the status at most once. Where it raises, or its write came second, it
has changed nothing. It fails exactly when the task that was polled reports an error and the condition that says so was
written or came second; the progress is then as it was, and nothing is submitted. The image is ready exactly when the
resize is found done without an error and the condition that says so was accepted. A write that came second makes it
ask again, or fail. -/
theorem advance_atomic (grasped : Grasped S h m) (plays : S.Plays h (advance c m).run es r h') : AtomicStep S c m es r :=
  (advance_stepped grasped es r h' plays.inWorld).atomic grasped

def fetching : Value := .object [
  ("metadata", .object [("namespace", .string "default"), ("name", .string "worker"), ("resourceVersion", .string "1"),
    ("finalizers", .array [Machine.finalizerValue])]),
  ("spec", .object [("imageURL", .string "http://images/disk.raw"), ("vcpus", .int 1), ("memoryMB", .int 1024),
    ("diskSizeGB", .int 10)]),
  ("status", .object [("progress", .object (Phase.encode (.downloading 7)))])]

/-- the pipeline is played through on this machine, and its poll reports an error -/
theorem exists_broken (cues : List Cue) (seen : Except Failure Advance → Bool)
    (played : (Machine.ofValue fetching).toOption.any (fun m =>
      decide ((Phase.decode m.status.progress).toOption = some (.downloading 7)) &&
        (Sample.alone.rehearse (advance Sample.context m).run ⟨some fetching, [.string "1"]⟩ cues).any fun x =>
          seen x.2.1 && x.1.any fun e =>
            match e.said with
            | .sent _ reply => ((Appliance.downloadPoll Sample.context.settings (.int 7)).read reply).toOption.any (·.isError)
            | .called .. => false) = true) :
    ∃ m es r h', Grasped Sample.alone ⟨some fetching, [.string "1"]⟩ m ∧
      Sample.alone.Plays ⟨some fetching, [.string "1"]⟩ (advance Sample.context m).run es r h' ∧
      Hears (Phase.Breaks Sample.context.settings) m es ∧ seen r = true := by
  obtain ⟨m, read, seen⟩ := exists_of_any played
  obtain ⟨decoded, rehearsed⟩ := Bool.and_eq_true_iff.1 seen
  obtain ⟨es, r, h', plays, seen⟩ := Sample.alone.exists_plays _ _ _ _ rehearsed
  obtain ⟨seen, heard⟩ := Bool.and_eq_true_iff.1 seen
  obtain ⟨e, mem, heard⟩ := List.any_eq_true.1 heard
  have sound : Held.Sound Sample.alone ⟨some fetching, [.string "1"]⟩ := Held.sound_single ⟨rfl, rfl, rfl, rfl, rfl⟩
  refine ⟨m, es, r, h', (InHand.of_ofValue sound rfl read).grasped, plays, ?_, seen⟩
  split at heard
  · rename_i q reply said
    obtain ⟨polled, read, error⟩ := exists_of_any heard
    exact ⟨_, q, reply, ok_of_toOption (of_decide_eq_true decoded), ⟨e, mem, said⟩, .download read error⟩
  · cases heard

def endsFailed : Except Failure Advance → Bool
  | .ok (.ends o) => o.isFailed
  | _ => false

/-- a download that failed is reported, and nothing but that is recorded -/
theorem advance_atomic_failing : ∃ m es r h', Grasped Sample.alone ⟨some fetching, [.string "1"]⟩ m ∧
    Sample.alone.Plays ⟨some fetching, [.string "1"]⟩ (advance Sample.context m).run es r h' ∧
    (∃ f, r = .ok (.ends (.failed f))) ∧ ∀ e ∈ es, e.after.progress? = e.before.progress? := by
  obtain ⟨m, es, r, h', grasped, plays, breaks, told⟩ := exists_broken
    [.numbered 7 [("status", .string "error")], .takes "2"]
    endsFailed (by decide +kernel)
  have atomic := advance_atomic grasped plays
  refine ⟨m, es, r, h', grasped, plays, ?_, fun e mem => (atomic.stopped breaks e mem).1⟩
  rcases r with f | ⟨o⟩ | m'
  · cases told
  · cases o with
    | failed f => exact ⟨f, rfl⟩
    | done | requeue => cases told
  · cases told

/-- a failure that was found is not told where its condition is refused -/
theorem not_failed_exactly : ¬∀ (S : Scene) (h h' : Held) (c : Context) (m : Machine) (es : List Event)
    (r : Except Failure Advance), Grasped S h m → S.Plays h (advance c m).run es r h' →
      ((∃ f, r = .ok (.ends (.failed f))) ↔ Hears (Phase.Breaks c.settings) m es) := by
  intro exactly
  obtain ⟨m, es, r, h', grasped, plays, breaks, raised⟩ := exists_broken
    [.numbered 7 [("status", .string "error")], .refusal (.int 500) .null] (fun r => !r.isOk) (by decide +kernel)
  obtain ⟨f, rfl⟩ := (exactly _ _ _ _ _ _ _ grasped plays).2 breaks
  cases raised

end ImagePipeline

end VmOperator
