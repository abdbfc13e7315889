import VmOperator.Proofs.Reconcile.Following
import VmOperator.Proofs.Reconcile.Imaging

/-! The task of a submitted step is written as soon as the reply gives it, and nothing is asked after that
(`Run.noted`). So an invocation in which no status was accepted after a submission is one in which that write came
second or raised (`unkept_of_unsaved`). -/

namespace VmOperator

open ImagePipeline (route)

namespace ImagePipeline

inductive Job where
  | download
  | transfer
  | move
  | resize

namespace Job

def paths : Job → List String
  | .download => ["/downloads/add"]
  | .transfer => ["/fs/extract/", "/fs/cp/"]
  | .move => ["/fs/mv/"]
  | .resize => ["/vm/disk/resize/"]

def taskIn (k : Job) (reply : Appliance.Reply) : Option Int :=
  (Appliance.resultOf reply).bind fun v =>
    match k with
    | .download | .resize => (v.member "id" >>= Value.toInt).toOption
    | .transfer | .move => (Appliance.FileTask.ofResult v).toOption.map (·.id)

def rank : Job → Nat
  | .download => 1
  | .transfer => 3
  | .move => 5
  | .resize => 7

end Job

variable {c : Context} {m : Machine} {name : Option String} {p : Phase} {k : Job} {reply : Appliance.Reply}

/-- a step is submitted in the phase before the one that its task is recorded in -/
theorem rank_of_submission {path : String} (routed : route p = (.post, path)) (mem : path ∈ k.paths) :
    p.rank + 1 = k.rank := by
  rcases p with _ | task | ⟨src, dst, _ | task⟩ | ⟨src, dst, _ | task⟩ | ⟨src, dst, _ | task⟩ | _ | task <;>
    cases routed <;> cases k <;> simp_all [Job.paths, Job.rank, Phase.rank]

theorem route_of_job {path : String} (mem : path ∈ k.paths) : ∃ p, route p = (.post, path) := by
  cases k <;> simp only [Job.paths, List.mem_cons, List.not_mem_nil, or_false] at mem
  case download => exact ⟨.notStarted, by rw [mem]; rfl⟩
  case move => exact ⟨.renaming .null .null none, by rw [mem]; rfl⟩
  case resize => exact ⟨.resizing none, by rw [mem]; rfl⟩
  case transfer =>
    rcases mem with rfl | rfl
    · exact ⟨.extracting .null .null none, rfl⟩
    · exact ⟨.copying .null .null none, rfl⟩

theorem fileTask_of_given {v : Value} {task : Int} (given : (Appliance.FileTask.ofResult v).toOption.map (·.id) = some task) :
    ∃ polled, Appliance.FileTask.ofResult v = .ok polled ∧ polled.id = task := by
  obtain ⟨polled, read, same⟩ := Option.map_eq_some_iff.1 given
  exact ⟨polled, ok_of_toOption read, same⟩

/-- a submission whose reply gives a task enters the phase with that task -/
theorem enters_of_submission (c : Context) (m : Machine) (name : Option String) {path : String}
    (routed : route p = (.post, path)) (mem : path ∈ k.paths) (given : (k.taskIn reply).isSome = true) :
    ∃ next message outcome, (query c m name p).read reply = .ok (.enter next message outcome) ∧ next.rank = k.rank ∧
      next.task? = k.taskIn reply := by
  have rank := rank_of_submission routed mem
  obtain ⟨task, given⟩ := Option.isSome_iff_exists.1 given
  have entered {next : Phase} {message : String} {outcome : Outcome} (up : next.rank = p.rank + 1)
      (holds : next.task? = some task) (read : (query c m name p).read reply = .ok (.enter next message outcome)) :
      ∃ next message outcome, (query c m name p).read reply = .ok (.enter next message outcome) ∧ next.rank = k.rank ∧
        next.task? = k.taskIn reply :=
    ⟨next, message, outcome, read, up.trans rank, holds.trans given.symm⟩
  obtain ⟨v, result, found⟩ := Option.bind_eq_some_iff.1 given
  rcases p with _ | task | ⟨src, dst, _ | task⟩ | ⟨src, dst, _ | task⟩ | ⟨src, dst, _ | task⟩ | _ | task <;> cases routed
  case notStarted =>
    cases k <;> simp [Job.paths] at mem
    exact entered rfl rfl (bind_eq_ok.2 ⟨task, (Appliance.query_read _).2 ⟨v, result, ok_of_toOption found⟩, rfl⟩)
  case extracting.none | copying.none | renaming.none =>
    cases k <;> simp [Job.paths] at mem
    obtain ⟨polled, read, rfl⟩ := fileTask_of_given found
    exact entered rfl rfl (bind_eq_ok.2 ⟨polled, (Appliance.query_read _).2 ⟨v, result, read⟩, rfl⟩)
  case resizing.none =>
    cases k <;> simp [Job.paths] at mem
    have read : (Appliance.resizeQuery c.settings .null (.int m.diskSizeBytes) (.bool false)).read reply = .ok task :=
      (Appliance.query_read _).2 ⟨v, result, ok_of_toOption found⟩
    exact entered rfl rfl (bind_eq_ok.2 ⟨task, read, rfl⟩)

end ImagePipeline

namespace Event

/-- the step is submitted, and the reply gives its task -/
def submits (k : ImagePipeline.Job) (e : Event) : Bool :=
  match e.said with
  | .sent r reply => r.method = .post && r.path ∈ k.paths && (k.taskIn reply).isSome
  | .called .. => false

theorem submits_route {k : ImagePipeline.Job} {e : Event} (h : e.submits k = true) :
    ∃ r reply path, e.said = .sent r reply ∧ e.route? = some (.post, path) ∧ path ∈ k.paths ∧
      (k.taskIn reply).isSome = true := by
  unfold submits at h
  split at h
  · rename_i r reply said
    simp only [Bool.and_eq_true, decide_eq_true_eq] at h
    have routed : e.route? = some (.post, r.path) := by
      rw [route?, said]
      exact congrArg some (Prod.ext h.1.1 rfl)
    exact ⟨r, reply, r.path, said, routed, h.1.2, h.2⟩
  · cases h

end Event

theorem ImagePipeline.Asked.enters {c : Context} {m : Machine} {name : Option String} {p : Phase} {e : Event}
    {r : Appliance.Request} {reply : Appliance.Reply} {k : Job} (asked : Asked c m name p e r reply)
    (submits : e.submits k = true) : ∃ next message outcome, (query c m name p).read reply = .ok (.enter next message outcome) ∧
      next.rank = k.rank ∧ next.task? = k.taskIn reply := by
  obtain ⟨r', reply', path, said, routed, mem, given⟩ := Event.submits_route submits
  obtain ⟨rfl, rfl⟩ := Exchange.sent.inj (asked.said.symm.trans said)
  have same : route p = (.post, path) := by
    rw [← query_route c m asked.written]
    rw [Event.route?, said] at routed
    exact Option.some.inj routed
  exact enters_of_submission c m name same mem given

namespace Reconcile

open ImagePipeline (Job Verdict)
open World (Yields)

theorem apart_submits (k : Job) : Apart (· ∉ ImagePipeline.submissionPaths) (Event.submits k) := by
  intro e submits
  obtain ⟨-, -, path, -, routed, mem, -⟩ := Event.submits_route submits
  refine ⟨path, routed, fun other => other ?_⟩
  cases k <;> exact (by decide : ∀ path ∈ _, path ∈ ImagePipeline.submissionPaths) path mem

/-- the task that a submission gave is written, with its phase, into the status of the machine it was made for -/
structure Notes (W : World) (c : Context) (k : Job) (m : Machine) (note : Machine → Machine) (e : Event) (made : List Event)
    (r : Except Failure (Option Machine)) : Prop where
  submitted : ∃ name p sent reply next message outcome, ImagePipeline.Asked c m name p e sent reply ∧
    (ImagePipeline.query c m name p).read reply = .ok (.enter next message outcome) ∧ next.rank = k.rank ∧
    next.task? = k.taskIn reply ∧ note = ImagePipeline.entering c next message
  plays : ∃ h, W.Plays e.after (Checkout.saveStatus (note m)).run made r h

/-- the note is made at once and nothing follows, and if it raises the action ends with the failure -/
def Noted (W : World) (c : Context) (k : Job) (E : Failure → Prop) (e : Event) (after : List Event) : Prop :=
  ∃ m note r, Notes W c k m note e after r ∧ ∀ f, r = .error f → E f

theorem weakens_noted (W : World) (c : Context) (k : Job) : Weakens (Noted W c k) := by
  rintro E E' imp e after ⟨m, note, r, notes, raised⟩
  exact ⟨m, note, r, notes, fun f failed => imp f (raised f failed)⟩

variable (W : World) (c : Context) (k : Job) (m : Machine)

/-- an invocation that submitted a step does not go on to the virtual machine -/
theorem advance_notes (h : Held) : W.Ensures h (ImagePipeline.advance c m).run fun es r _ =>
    Followed (Event.submits k) (Noted W c k fun f => r = .error f) es ∧
      ∀ m', r = .ok (.ready m') → ∀ e ∈ es, e.submits k = false := by
  have apart := apart_submits k
  have quiet {es : List Event} {r : Except Failure ImagePipeline.Advance} (without : ∀ e ∈ es, e.submits k = false) :
      Followed (Event.submits k) (Noted W c k fun f => r = .error f) es ∧
        ∀ m', r = .ok (.ready m') → ∀ e ∈ es, e.submits k = false :=
    ⟨.of_quiet without, fun _ _ => without⟩
  rw [ImagePipeline.advance_eq]
  refine Yields.ensures (.bind (.lift (fun name _ => ?_) fun _ _ => quiet (List.forall_mem_nil _)))
  refine .bind (.lift (fun p decoded => ?_) fun _ _ => quiet (List.forall_mem_nil _))
  refine .bind (.ask (fun _ _ => quiet (List.forall_mem_nil _)) (fun e sent reply verdict written said _ read => ?_)
    fun e sent reply f written said _ failed => ?_)
  · cases submits : e.submits k with
    | false =>
      intro es r h' plays
      have without : ∀ e' ∈ e :: es, e'.submits k = false :=
        List.forall_mem_cons.2 ⟨submits, apart.quiet (.carryOut c m verdict) plays⟩
      cases r <;> exact quiet without
    | true =>
      have asked : ImagePipeline.Asked c m name p e sent reply := ⟨decoded, written, said⟩
      obtain ⟨next, message, outcome, entered, rank, task⟩ := asked.enters submits
      obtain rfl := Except.ok.inj (read.symm.trans entered)
      rw [Verdict.carryOut_eq rfl]
      refine .map ?_
      intro es r h' plays
      have notes : Notes W c k m (ImagePipeline.entering c next message) e es r :=
        ⟨⟨name, p, sent, reply, next, message, outcome, asked, read, rank, task, rfl⟩, h', plays⟩
      have after := apart.quiet (.saveStatus _) plays
      cases r with
      | ok saved => exact ⟨(Followed.of_quiet after).cons fun _ => ⟨m, _, _, notes, nofun⟩, nofun⟩
      | error f =>
        refine ⟨(Followed.of_quiet after).cons fun _ => ⟨m, _, _, notes, fun f' same => ?_⟩, nofun⟩
        rw [Except.error.inj same]
  · refine quiet (List.forall_mem_singleton.2 (Bool.eq_false_iff.2 fun submits => ?_))
    obtain ⟨_, _, _, entered, -⟩ := ImagePipeline.Asked.enters ⟨decoded, written, said⟩ submits
    cases failed.symm.trans entered

theorem provision_notes : SeesTo W (Event.submits k) (Noted W c k) (provision c m) := by
  have apart := apart_submits k
  have booted (m : Machine) : PostsTo (· ∉ ImagePipeline.submissionPaths) (boot c m).run :=
    .boot .unsubmitted c m (by decide)
  unfold provision
  split
  · exact .of_posts apart (.done _)
  · refine .bind apart (.lift _) fun failed => ?_
    split
    · exact .of_posts apart (.done _)
    · split
      · exact .of_posts apart (booted m)
      · intro h
        rw [ExceptT.run_bind]
        refine .bind ((advance_notes W c k m h).mono fun es r h' ⟨followed, ready⟩ => ?_)
        rcases r with f | ⟨outcome⟩ | ⟨m'⟩
        · refine .done ?_
          rw [List.append_nil]
          exact followed.mono (weakens_noted W c k _ _ fun _ same => by rw [Except.error.inj same])
        · refine .done ?_
          rw [List.append_nil]
          exact followed.mono (weakens_noted W c k _ _ nofun)
        · intro es' r h'' plays
          exact .of_quiet (List.forall_mem_append.2 ⟨ready m' rfl, apart.quiet (booted m') plays⟩)

theorem Run.noted {S : Scene} {start h : Held} {past : List Invocation} (run : Run S start past h) :
    ∀ i ∈ past, Followed (Event.submits k) (Noted S.Happens i.context k fun e => i.result = e.ends) i.events :=
  run.sees_to (apart_submits k) .unsubmitted (fun c => weakens_noted S.Happens c k)
    fun c => provision_notes S.Happens c k

/-- a step was submitted in the invocation, and the write of its task was rejected, or raised and the failure ended the
invocation: it was refused or could not be made, and none was accepted -/
def Unkept (S : Scene) (k : Job) (i : Invocation) : Prop :=
  ∃ before e after m note r, i.events = before ++ e :: after ∧ Notes S.Happens i.context k m note e after r ∧
    (r = .ok none ∨ ∃ f, r = .error f ∧ i.result = f.ends) ∧ Checkout.Refused (note m) after ∧
    ∀ e' ∈ after, e'.acceptsStatus = false

theorem unkept_of_unsaved {S : Scene} {i : Invocation}
    (noted : Followed (Event.submits k) (Noted S.Happens i.context k fun e => i.result = e.ends) i.events)
    (lost : unsaved (Event.submits k) i.events = true) : Unkept S k i := by
  obtain ⟨before, e, after, split, submits, rejected⟩ := unsaved_spec lost
  obtain ⟨m, note, r, notes, raised⟩ := noted before e after split submits
  obtain ⟨h, plays⟩ := notes.plays
  obtain ⟨unsaved, refused⟩ := Checkout.saveStatus_unaccepted plays rejected
  refine ⟨before, e, after, m, note, r, split, notes, ?_, refused, rejected⟩
  rcases r with f | _ | m'
  · exact .inr ⟨f, rfl, raised f rfl⟩
  · exact .inl rfl
  · exact absurd rfl (unsaved m')

end Reconcile

end VmOperator
