import VmOperator.Proofs.Reconcile.ImagePipeline
import VmOperator.Reconcile.Machine

/-! What an invocation for a machine may say, stage by stage. Every stage has a copy of the machine, the
tables say what is sent or written from it, and `Step` what an answer leads to. -/

namespace VmOperator.Reconcile

open Appliance (Query)

/-- where an invocation stands; nothing more is said once it is over -/
inductive Stage where
  | start
  | bare (m : Machine)
  | imaging (m : Machine)
  | judged (m : Machine) (v : ImagePipeline.Verdict)
  | ordering (m : Machine)
  | created (m : Machine) (number : Int) (path : String)
  | naming (m : Machine) (number : Int)
  | running (m : Machine) (number : Int)
  | doomed (m : Machine) (number : Int)
  | looked (m : Machine) (number : Int)
  | forgetting (m : Machine)
  | gone (m : Machine)
  | cleared (m : Machine)
  | ended

namespace Stage

def copy? : Stage → Option Machine
  | .start | .ended => none
  | .bare m | .imaging m | .judged m _ | .ordering m | .created m _ _ | .naming m _ | .running m _ | .doomed m _
  | .looked m _ | .forgetting m | .gone m | .cleared m => some m

/-- with the virtual machine recorded; a spec without a provider id is given it before anything else -/
def recorded (m : Machine) (number : Int) : Stage :=
  if m.spec.providerId.isTruthy || m.status.vmId.isNone then .running m number else .naming m number

def booting (m : Machine) : Stage :=
  match m.status.vmId with
  | some number => .recorded m number
  | none => .ordering m

def provisioning (m : Machine) : Stage := if m.imageReady then .booting m else .imaging m

def tearing (m : Machine) : Stage :=
  match m.status.vmId with
  | some number => .doomed m number
  | none => .gone m

def fetched (m : Machine) : Stage :=
  if m.isBeingDeleted then (if m.hasFinalizer then .tearing m else .ended)
  else if m.hasFinalizer then .provisioning m
  else .bare m

/-- the stage after the store's answer, whose object gives the next copy; only a conflict leaves one -/
def told (kept : Machine → Stage) (refused : Stage) : Store.Reply → Stage
  | .ok o =>
    match Machine.ofValue o with
    | .ok m => kept m
    | .error _ => .ended
  | .refused status _ => if status.isNumber 409 then refused else .ended

def heard {α : Type} (q : Query α) (next : α → Stage) (reply : Appliance.Reply) : Stage :=
  match q.read reply with
  | .ok a => next a
  | .error _ => .ended

/-- a virtual machine that is missing is as good as deleted -/
def lookedFor (c : Context) (m : Machine) (number : Int) (reply : Appliance.Reply) : Stage :=
  match (Appliance.vmQuery c.settings (.int number)).read reply with
  | .ok _ => .looked m number
  | .error (.fault (.appliance f)) =>
    match f.notFound with
    | .ok true => .forgetting m
    | _ => .ended
  | .error _ => .ended

section Cases

variable {Q : Stage → Prop} {m : Machine}

theorem recorded_cases {number : Int}
    (running : m.spec.providerId.isTruthy = true ∨ m.status.vmId = none → Q (.running m number))
    (naming : m.spec.providerId.isTruthy = false → Q (.naming m number)) : Q (.recorded m number) := by
  unfold recorded
  split
  · rename_i settled
    exact running (by simpa using settled)
  · rename_i unnamed
    exact naming (Bool.or_eq_false_iff.1 (Bool.eq_false_iff.2 unnamed)).1

theorem booting_cases (recorded : ∀ number, m.status.vmId = some number → Q (.recorded m number))
    (ordering : m.status.vmId = none → Q (.ordering m)) : Q (.booting m) := by
  unfold booting
  split
  · exact recorded _ (by assumption)
  · exact ordering (by assumption)

theorem provisioning_cases (ready : m.imageReady = true → Q (.booting m))
    (imaging : m.imageReady = false → Q (.imaging m)) : Q (.provisioning m) := by
  unfold provisioning
  split
  · exact ready (by assumption)
  · exact imaging (Bool.eq_false_iff.2 (by assumption))

theorem fetched_cases (ended : Q .ended)
    (doomed : m.isBeingDeleted = true → ∀ number, m.status.vmId = some number → Q (.doomed m number))
    (gone : m.isBeingDeleted = true → m.status.vmId = none → Q (.gone m))
    (held : m.isBeingDeleted = false → m.hasFinalizer = true → Q (.provisioning m))
    (bare : m.isBeingDeleted = false → m.hasFinalizer = false → Q (.bare m)) : Q (.fetched m) := by
  unfold fetched
  cases deleted : m.isBeingDeleted with
  | true =>
    cases m.hasFinalizer with
    | false => exact ended
    | true =>
      simp only [reduceIte]
      unfold tearing
      split
      · exact doomed deleted _ (by assumption)
      · exact gone deleted (by assumption)
  | false =>
    cases own : m.hasFinalizer with
    | true => exact held deleted own
    | false => exact bare deleted own

theorem heard_cases {α : Type} {q : Query α} {next : α → Stage} {reply : Appliance.Reply}
    (read : ∀ a, q.read reply = .ok a → Q (next a)) (ended : Q .ended) : Q (.heard q next reply) := by
  unfold heard
  split
  · exact read _ (by assumption)
  · exact ended

theorem lookedFor_cases {c : Context} {number : Int} {reply : Appliance.Reply} (looked : Q (.looked m number))
    (missing : ∀ f, (Appliance.vmQuery c.settings (.int number)).read reply = .error (.fault (.appliance f)) →
      f.notFound = .ok true → Q (.forgetting m)) (ended : Q .ended) : Q (.lookedFor c m number reply) := by
  unfold lookedFor
  split
  · exact looked
  · split
    · exact missing _ (by assumption) (by assumption)
    · exact ended
  · exact ended

end Cases

end Stage

def forget (m : Machine) : Machine := { m with status.vmId := none, status.stopAttempts := 0 }

def await (m : Machine) : Machine := { m with status.stopAttempts := m.status.stopAttempts + 1 }

def holdFinalizer (m : Machine) : Machine := { m with finalizers := m.finalizers ++ [Machine.finalizerValue] }

def dropFinalizer (m : Machine) : Machine :=
  { m with finalizers := m.finalizers.filter (· ≠ Machine.finalizerValue) }

def nameProvider (number : Int) (m : Machine) : Machine :=
  { m with spec.providerId := .string (Boot.providerId (.int number)) }

/-- the wait goes on, whether the count was written or not -/
theorem awaitStop_eq (c : Context) (m : Machine) (number : Int) : Teardown.awaitStop c m number = do
    if m.status.stopAttempts = 0 then Teardown.tryKill c number
    let saved ← Checkout.saveStatus (await m)
    return .ends (if saved.isSome then .requeue c.settings.stopPollInterval else c.step) := by
  unfold Teardown.awaitStop
  refine ite_congr rfl (fun _ => bind_congr fun _ => bind_congr fun saved => ?_) fun _ => bind_congr fun saved => ?_
  all_goals cases saved <;> rfl

variable (c : Context)

/-- what the status is changed to, and the stages after the write and after a refusal -/
inductive Restates : Stage → (Machine → Machine) → (Machine → Stage) → Stage → Prop
  | enter (m : Machine) (next : Phase) (message : String) (outcome : Outcome) :
      Restates (.judged m (.enter next message outcome)) (ImagePipeline.entering c next message) (fun _ => .ended) .ended
  | fail (m : Machine) (step reason message : String) (detail : Value) :
      Restates (.judged m (.fail step reason message detail)) (ImagePipeline.failing c reason message detail)
        (fun _ => .ended) .ended
  | finish (m : Machine) : Restates (.judged m .finish) (ImagePipeline.finishing c) .booting .ended
  | record (m : Machine) (number : Int) (path : String) :
      Restates (.created m number path) (Boot.record c number path) (.recorded · number) (.created m number path)
  | publish (m : Machine) (number : Int) (addresses : List Value) (found : addresses ≠ [])
      (set : ∀ a ∈ addresses, a.isTruthy = true) :
      Restates (.running m number) (Discovery.markReady c · addresses) (fun _ => .ended) .ended
  | await (m : Machine) (number : Int) (due : m.status.stopAttempts < c.settings.stopPollAttempts) :
      Restates (.looked m number) await (fun _ => .ended) .ended
  | forget (m : Machine) : Restates (.forgetting m) forget .gone .ended

/-- the same for metadata and spec -/
inductive Replaces : Stage → (Machine → Machine) → (Machine → Stage) → Stage → Prop
  | hold (m : Machine) : Replaces (.bare m) holdFinalizer .provisioning .ended
  | name (m : Machine) (number known : Int) (recorded : m.status.vmId = some known)
      (unnamed : m.spec.providerId.isTruthy = false) :
      Replaces (.naming m number) (nameProvider known) (.running · number) (.running (nameProvider known m) number)
  | release (m : Machine) (bare : m.status.diskPath.isTruthy = false) :
      Replaces (.gone m) dropFinalizer (fun _ => .ended) .ended
  | releaseCleared (m : Machine) : Replaces (.cleared m) dropFinalizer (fun _ => .ended) .ended

inductive Sends : Stage → Except Failure Appliance.Request → (Appliance.Reply → Stage) → Prop
  | image (m : Machine) (name : Option String) (p : Phase) (asked : m.spec.imageUrl.isTruthy = true)
      (sound : m.failedImageReason? = .ok none) (named : ImagePipeline.imageName? m = .ok name)
      (decoded : Phase.decode m.status.progress = .ok p) :
      Sends (.imaging m) (ImagePipeline.query c m name p).request
        (.heard (ImagePipeline.query c m name p) (.judged m))
  | create (m : Machine) (path text : String) (final : ImagePipeline.finalPath c m = .ok path) :
      Sends (.ordering m) (Appliance.createQuery c.settings (Boot.order m path text)).request
        (.heard (Appliance.createQuery c.settings (Boot.order m path text)) fun known => .created m known.number path)
  | start (m : Machine) (number : Int) :
      Sends (.running m number) (Appliance.startCommand c.settings (.int number)).request
        (.heard (Appliance.startCommand c.settings (.int number)) fun _ => .running m number)
  | ask (m : Machine) (number known : Int) (recorded : known = number ∨ m.status.vmId = some known) :
      Sends (.running m number) (Appliance.vmQuery c.settings (.int known)).request
        (.heard (Appliance.vmQuery c.settings (.int known)) fun _ => .running m number)
  | hosts (m : Machine) (number : Int) :
      Sends (.running m number) (Appliance.hostsQuery c.settings c.settings.lanInterface).request
        (.heard (Appliance.hostsQuery c.settings c.settings.lanInterface) fun _ => .running m number)
  | look (m : Machine) (number : Int) :
      Sends (.doomed m number) (Appliance.vmQuery c.settings (.int number)).request (.lookedFor c m number)
  | kill (m : Machine) (number : Int) (first : m.status.stopAttempts = 0) :
      Sends (.looked m number) (Appliance.killCommand c.settings (.int number)).request fun _ => .looked m number
  | delete (m : Machine) (number : Int) :
      Sends (.looked m number) (Appliance.deleteCommand c.settings (.int number)).request
        (.heard (Appliance.deleteCommand c.settings (.int number)) fun _ => .forgetting m)
  | remove (m : Machine) (path : String) (used : m.status.diskPath.isTruthy = true)
      (disk : m.status.diskPath = .string path) :
      Sends (.gone m)
        (Appliance.removeQuery c.settings [.string path, .string (path ++ Teardown.efiSuffix)]).request
        (.heard (Appliance.removeQuery c.settings [.string path, .string (path ++ Teardown.efiSuffix)])
          fun _ => .cleared m)

inductive Step (ns name : String) : Stage → Exchange → Stage → Prop
  | fetch (reply : Store.Reply) :
      Step ns name .start (.called (.get .machines (.string ns) (.string name)) reply) (.told .fetched .ended reply)
  | reread (m : Machine) (number : Int) (path : String) (reply : Store.Reply) :
      Step ns name (.created m number path) (.called (.get .machines m.ns m.name) reply)
        (.told (.created · number path) (.created m number path) reply)
  | consult (m : Machine) (kind : Store.Kind) (place name' : Value) (reply : Store.Reply)
      (other : kind ≠ .machines) :
      Step ns name (.ordering m) (.called (.get kind place name') reply) (.ordering m)
  | restate {st refused : Stage} {change : Machine → Machine} {kept : Machine → Stage} {m : Machine} {x : Value}
      (table : Restates c st change kept refused) (copy : st.copy? = some m) (written : (change m).toValue = .ok x)
      (reply : Store.Reply) :
      Step ns name st (.called (.replaceStatus .machines m.ns m.name x) reply) (.told kept refused reply)
  | replace {st refused : Stage} {change : Machine → Machine} {kept : Machine → Stage} {m : Machine} {x : Value}
      (table : Replaces st change kept refused) (copy : st.copy? = some m) (written : (change m).toValue = .ok x)
      (reply : Store.Reply) :
      Step ns name st (.called (.replace .machines m.ns m.name x) reply) (.told kept refused reply)
  | send {st : Stage} {request : Except Failure Appliance.Request} {r : Appliance.Request}
      {heard : Appliance.Reply → Stage} (table : Sends c st request heard) (written : request = .ok r)
      (reply : Appliance.Reply) : Step ns name st (.sent r reply) (heard reply)

end VmOperator.Reconcile
