import VmOperator.Proofs.Reconcile.Endings
import VmOperator.Proofs.Reconcile.Requests
import VmOperator.Proofs.Resource.Conditions

/-! No request is sent to the appliance but under the finalizer. What the store gave last of the machine's object before
a request holds the finalizer, whichever way the copy in hand was exchanged since; what it gave first says what may be
asked: a machine that stays, names an image and has not failed is built up, and only one that is to be deleted is taken
down (`finalizer_gates_requests`). -/

namespace VmOperator

namespace Stored

def ImageFailed (o : Value) : Prop :=
  ∃ s c reason, status o = .ok s ∧ s.condition? .imageReady = some c ∧ c.status = .string ConditionStatus.no.text ∧
    c.reason = .string reason ∧ "Failed".toList <:+ reason.toList

def vmId (o : Value) : Option Int := (status o).toOption.bind (·.vmId)

structure Wanted (o : Value) : Prop where
  kept : (deletion o).isTruthy = false
  image : ∃ url, wish o "imageURL" = some url ∧ url.isTruthy = true
  sound : ¬ImageFailed o

end Stored

namespace Appliance

/-- where a virtual machine is stopped or deleted, or files are removed -/
def Demolishes : Method × String → Prop
  | (.get, _) => False
  | (.post, path) => (∃ id : Int, path = vmPath (.int id) ++ "/stop") ∨ path = "/fs/rm/"
  | (.delete, path) => ∃ id : Int, path = vmPath (.int id)

/-- what is asked in order to take down the virtual machine of this number -/
def Retires (number : Option Int) : Method × String → Prop
  | (.get, path) => ∃ id, number = some id ∧ path = vmPath (.int id)
  | (.post, path) => (∃ id, number = some id ∧ path = vmPath (.int id) ++ "/stop") ∨ path = "/fs/rm/"
  | (.delete, path) => ∃ id, number = some id ∧ path = vmPath (.int id)

end Appliance

namespace Scene

/-- what may happen next where others write as they like, but leave an object its finalizer -/
def Guards (S : Scene) : World := fun h e => S.Contests h e ∧ (h.Armed → e.before.Armed)

/-- writers of a scene who keep the finalizer are such writers -/
theorem Preserves.guards {S : Scene} {h : Held} {e : Event} (preserves : S.Preserves) (happens : S.Happens h e) :
    S.Guards h e :=
  ⟨happens.contests, preserves.armed happens.drift⟩

/-- what the store gave of the machine's own object -/
def given? (S : Scene) (e : Event) : Option Value :=
  match e.said with
  | .called c (.ok o) => if S.IsOwn c then some o else none
  | _ => none

def givens (S : Scene) (es : List Event) : List Value := es.filterMap S.given?

/-- a request for which there is cause in what was given before it -/
structure Gates (S : Scene) (before : List Event) (route : Appliance.Method × String) : Prop where
  held : ∃ o, (S.givens before).getLast? = some o ∧ Stored.Holds o
  wanted : ∃ o, (S.givens before).head? = some o ∧
    (¬Appliance.Retires (Stored.vmId o) route → Stored.Wanted o)
  doomed : Appliance.Demolishes route → ∃ o, (S.givens before).head? = some o ∧ (Stored.deletion o).isTruthy = true

variable {S : Scene} {es : List Event} {e : Event}

theorem given?_own {c : Store.Call} {o : Value} {h h' : Held} (own : S.IsOwn c) :
    S.given? ⟨.called c (.ok o), h, h'⟩ = some o := if_pos own

theorem given?_other {c : Store.Call} {reply : Store.Reply} {h h' : Held} (other : ¬S.IsOwn c) :
    S.given? ⟨.called c reply, h, h'⟩ = none := by
  cases reply with
  | ok o => exact if_neg other
  | refused => rfl

theorem givens_snoc : S.givens (es ++ [e]) = S.givens es ++ (S.given? e).toList := by
  unfold givens
  rw [List.filterMap_append]
  cases given : S.given? e <;> simp [given]

end Scene

namespace Reconcile

open Scene

def Gated (S : Scene) (es : List Event) : Prop :=
  Preceded (fun e before => ∀ route, e.route? = some route → S.Gates before route) es

variable {S : Scene} {c : Context} {st st' refused : Stage} {e : Event} {h : Held} {m : Machine} {side : Side}
  {number : Option Int} {change : Machine → Machine} {kept : Machine → Stage}

section Routes

open Appliance

variable {request : Except Failure Request} {r : Request} {heard : Reply → Stage}

theorem start_ne_stop (a b : Int) : vmPath (.int a) ++ "/start" ≠ vmPath (.int b) ++ "/stop" := by
  intro same
  have last := congrArg (·.toList.getLast?) same
  simp [String.toList_append, List.getLast?_append] at last

theorem vmPath_ne_remove (id : Value) (suffix : String) : vmPath id ++ suffix ≠ "/fs/rm/" := by
  rw [vmPath, String.append_assoc]
  exact append_ne_append (a := "/vm/") (b := "/fs/rm/") (by decide) _ ""

theorem not_demolishes_submission {path : String} (mem : path ∈ ImagePipeline.submissionPaths) :
    ¬Demolishes (.post, path) := by
  rintro (⟨id, same⟩ | rfl)
  · exact command_ne_submission (.int id) (.inr rfl) mem same.symm
  · exact absurd mem (by decide)

theorem not_demolishes_order : ¬Demolishes (.post, "/vm/") := by
  rintro (⟨id, same⟩ | same)
  · exact vmPath_append_ne (.int id) (by decide) same.symm
  · exact absurd same (by decide)

theorem not_demolishes_start (id : Int) : ¬Demolishes (.post, vmPath (.int id) ++ "/start") := by
  rintro (⟨id', same⟩ | same)
  · exact start_ne_stop id id' same
  · exact vmPath_ne_remove (.int id) "/start" same

/-- nothing is taken down while the machine is built up -/
theorem Sends.builds (table : Sends c st request heard) (written : request = .ok r) (up : st.side? = some .up) :
    ¬Demolishes (r.method, r.path) := by
  have routed {method : Method} {path : String} (goes : r.method = method ∧ r.path = path) :
      (r.method, r.path) = (method, path) := Prod.ext goes.1 goes.2
  cases table with
  | image m name p =>
    rw [ImagePipeline.query_route c m written]
    rcases ImagePipeline.route_cases p with ⟨path, mem, route⟩ | ⟨path, -, task, route⟩ <;> rw [route]
    · exact not_demolishes_submission mem
    · exact id
  | create =>
    rw [routed (method_path_of_written written)]
    exact not_demolishes_order
  | start m number =>
    rw [routed (method_path_of_written written)]
    exact not_demolishes_start number
  | ask | hosts =>
    rw [routed (method_path_of_written written)]
    exact id
  | look | kill | delete | remove => cases up

def Stage.doomed? : Stage → Option Int
  | .doomed _ number | .looked _ number => some number
  | _ => none

/-- while it is taken down, nothing else is asked; a virtual machine goes by the number of the stage -/
theorem Sends.retires (table : Sends c st request heard) (written : request = .ok r) (down : st.side? = some .down) :
    Retires st.doomed? (r.method, r.path) := by
  have routed {method : Method} {path : String} (goes : r.method = method ∧ r.path = path) :
      (r.method, r.path) = (method, path) := Prod.ext goes.1 goes.2
  cases table with
  | look m n =>
    rw [routed (method_path_of_written written)]
    exact ⟨n, rfl, rfl⟩
  | kill m n =>
    rw [routed (method_path_of_written written)]
    exact .inl ⟨n, rfl, rfl⟩
  | delete m n =>
    rw [routed (method_path_of_written written)]
    exact ⟨n, rfl, rfl⟩
  | remove =>
    rw [routed (method_path_of_written written)]
    exact .inr rfl
  | image | create | start | ask | hosts => cases down

theorem Retires.imp {number number' : Option Int} {route : Method × String} (retires : Retires number route)
    (known : ∀ id, number = some id → number' = some id) : Retires number' route := by
  obtain ⟨method, path⟩ := route
  cases method with
  | get | delete =>
    obtain ⟨id, recorded, same⟩ := retires
    exact ⟨id, known id recorded, same⟩
  | post =>
    rcases retires with ⟨id, recorded, same⟩ | same
    · exact Or.inl ⟨id, known id recorded, same⟩
    · exact Or.inr same

end Routes

section Stages

/-- on this side of an invocation, with a copy in hand that holds the finalizer; `number` is the recorded one -/
structure Poised (S : Scene) (side : Side) (number : Option Int) (st : Stage) : Prop where
  side : st.side? = some side
  copy : ∀ m, st.copy? = some m → ∃ o, m.CopyOf S o ∧ m.hasFinalizer = true
  doomed : ∀ id, st.doomed? = some id → number = some id

theorem not_doomed_of_up (up : st.side? = some .up) : st.doomed? = none := by
  cases st with
  | doomed | looked => cases up
  | _ => rfl

/-- a stage that an answer leads to, with the copy that this gave -/
theorem Poised.goes {o : Value} (poised : Poised S side number st) (sided : ∀ m, Sided st (kept m))
    (has : ∀ m, Has (kept m) m) (spared : ∀ m, (kept m).doomed? = none) (next : GoesOn S kept o st')
    (holds : Stored.Holds o) : st' = .ended ∨ Poised S side number st' := by
  rcases next with rfl | ⟨m, read, rfl⟩
  · exact .inl rfl
  rcases sided m with ended | ⟨side', before, after⟩
  · exact .inl ended
  · refine .inr ⟨by rw [after, ← before, poised.side], fun m' same => ?_, fun id same => ?_⟩
    · rw [has m m' same]
      exact ⟨o, read.toCopyOf, read.toCopyOf.holds_iff.1 holds⟩
    · rw [spared m] at same
      cases same

theorem Poised.stays {said : Exchange} (poised : Poised S side number st) (stays : Stays said st st') :
    st' = .ended ∨ Poised S side number st' := by
  cases stays with
  | ended => exact .inl rfl
  | same => exact .inr poised
  | named m n known =>
    obtain ⟨o, copy, held⟩ := poised.copy m rfl
    refine .inr ⟨poised.side, ?_, nofun⟩
    rintro _ ⟨⟩
    exact ⟨o, { copy with }, held⟩

theorem Sends.doomed_heard {request : Except Failure Appliance.Request} {heard : Appliance.Reply → Stage}
    (table : Sends c st request heard) (reply : Appliance.Reply) {id : Int} (same : (heard reply).doomed? = some id) :
    st.doomed? = some id := by
  cases table with
  | look m n =>
    refine Stage.lookedFor_cases (Q := fun st => st.doomed? = some id → some n = some id) (fun same => same) ?_ nofun same
    exact fun _ _ _ => nofun
  | kill => exact same
  | _ => exact Stage.heard_cases (Q := fun st => st.doomed? = some id → _) (fun _ _ same => by cases same) nofun same

theorem Poised.heard {request : Except Failure Appliance.Request} {heard : Appliance.Reply → Stage}
    (poised : Poised S side number st) (table : Sends c st request heard) (reply : Appliance.Reply) :
    heard reply = .ended ∨ Poised S side number (heard reply) := by
  rcases table.sided reply with ended | ⟨side', before, after⟩
  · exact .inl ended
  · exact .inr ⟨by rw [after, ← before, poised.side], fun m copy => poised.copy m (table.carries reply m copy),
      fun id same => poised.doomed id (table.doomed_heard reply same)⟩

theorem Restates.spared (table : Restates c st change kept refused) (m : Machine) : (kept m).doomed? = none := by
  cases table with
  | finish => exact not_doomed_of_up (side_booting m)
  | record => exact not_doomed_of_up (side_recorded m _)
  | _ => rfl

theorem Replaces.spared (table : Replaces st change kept refused) (m : Machine) : (kept m).doomed? = none := by
  cases table with
  | hold => exact not_doomed_of_up (side_provisioning m)
  | _ => rfl

end Stages

/-- what is there with the finalizer is not released -/
theorem left_of_holds {o : Value} (part : Checkout.Part) (shaped : Stored.Shaped S.ns S.name o)
    (holds : Stored.Holds o) : part.left o = some o := by
  cases part with
  | status => rfl
  | whole =>
    refine if_neg fun released => ?_
    obtain ⟨fs, finalizers, mem⟩ := holds
    rw [Stored.finalizers_of_released shaped released] at finalizers
    cases finalizers
    cases mem

/-- what an invocation that is not over yet has to go by -/
structure Footing (S : Scene) (side : Side) (first : Value) (past : List Event) (st : Stage) (h : Held) : Prop where
  armed : h.Armed
  last : ∃ o, (S.givens past).getLast? = some o ∧ Stored.Holds o
  poised : Poised S side (Stored.vmId first) st

/-- every request so far had its cause, and the next one has -/
structure Secured (S : Scene) (side : Side) (first : Value) (past : List Event) (st : Stage) (h : Held) : Prop where
  gated : Gated S past
  sound : h.Sound S
  head : (S.givens past).head? = some first
  footing : st = .ended ∨ Footing S side first past st h

def Side.Suits (first : Value) : Side → Prop
  | .up => Stored.Wanted first
  | .down => (Stored.deletion first).isTruthy = true

variable {first : Value} {past : List Event} {h' : Held}

theorem head?_givens_snoc (head : (S.givens past).head? = some first) : (S.givens (past ++ [e])).head? = some first := by
  rw [givens_snoc, List.head?_append, head]
  rfl

/-- the last object with the finalizer, if that is what was given last -/
theorem last_givens_snoc (last : ∃ o, (S.givens past).getLast? = some o ∧ Stored.Holds o)
    (given : ∀ o, S.given? e = some o → Stored.Holds o) :
    ∃ o, (S.givens (past ++ [e])).getLast? = some o ∧ Stored.Holds o := by
  rw [givens_snoc, List.getLast?_append]
  cases found : S.given? e with
  | none => exact last
  | some o => exact ⟨o, rfl, given o found⟩

theorem Secured.ended (secured : Secured S side first past st h) (silent : e.route? = none) (sound : h'.Sound S) :
    Secured S side first (past ++ [e]) .ended h' where
  gated := secured.gated.snoc fun route same => by rw [silent] at same; cases same
  sound := sound
  head := head?_givens_snoc secured.head
  footing := .inl rfl

/-- after an answer of the store -/
theorem Secured.answered (secured : Secured S side first past st h) (footing : Footing S side first past st h)
    (silent : e.route? = none) (sound : h'.Sound S) (armed : h'.Armed) (given : ∀ o, S.given? e = some o → Stored.Holds o)
    (next : st' = .ended ∨ Poised S side (Stored.vmId first) st') : Secured S side first (past ++ [e]) st' h' := by
  rcases next with rfl | poised
  · exact secured.ended silent sound
  · exact { secured.ended silent sound with footing := .inr ⟨armed, last_givens_snoc footing.last given, poised⟩ }

/-- after a request, which had its cause -/
theorem Secured.sent (secured : Secured S side first past st h) (footing : Footing S side first past st h)
    (suits : side.Suits first) {request : Except Failure Appliance.Request} {r : Appliance.Request}
    {heard : Appliance.Reply → Stage} (table : Sends c st request heard) (written : request = .ok r)
    {reply : Appliance.Reply} (said : e.said = .sent r reply) (sound : h'.Sound S) (armed : h'.Armed) :
    Secured S side first (past ++ [e]) (heard reply) h' := by
  have given : S.given? e = none := by rw [given?, said]
  refine ⟨secured.gated.snoc fun route same => ?_, sound, head?_givens_snoc secured.head, ?_⟩
  · rw [Event.route?, said] at same
    obtain rfl := Option.some.inj same
    refine ⟨footing.last, ⟨first, secured.head, fun other => ?_⟩, fun demolishes => ⟨first, secured.head, ?_⟩⟩
    · cases side with
      | up => exact suits
      | down => exact absurd (Retires.imp (Sends.retires table written footing.poised.side) footing.poised.doomed) other
    · cases side with
      | up => exact absurd demolishes (Sends.builds table written footing.poised.side)
      | down => exact suits
  · refine (footing.poised.heard table reply).imp_right fun poised => ⟨armed, ?_, poised⟩
    exact last_givens_snoc footing.last fun o same => by rw [given] at same; cases same

/-- after a write, whether it was refused or what it put in place of the object holds the finalizer -/
theorem Secured.written (secured : Secured S side first past st h) (footing : Footing S side first past st h)
    (part : Checkout.Part) {x : Value} {reply : Store.Reply} {h'' : Held} (sound : h'.Sound S) (armed : h'.Armed)
    (answer : S.Answers h' (part.call S x) reply h'') (shaped : Stored.Shaped S.ns S.name x)
    (sided : ∀ m, Sided st (kept m)) (has : ∀ m, Has (kept m) m) (spared : ∀ m, (kept m).doomed? = none)
    (stays : ∀ status reason, status.isNumber 409 = true →
      Stays (.called (part.call S x) (.refused status reason)) st refused)
    (holds : ∀ v o, h'.object = some o → Stored.Holds o → Stored.Holds (part.stored v x o) ∨ ∀ m, kept m = .ended) :
    Secured S side first (past ++ [⟨.called (part.call S x) reply, h', h''⟩]) (.told kept refused reply) h'' := by
  have own : S.IsOwn (part.call S x) := by cases part <;> exact ⟨rfl, rfl, rfl⟩
  rcases part.answer answer with ⟨status, reason, rfl, rfl⟩ | ⟨v, o, object, current, set, fresh, rfl, rfl⟩
  · exact secured.answered footing rfl sound armed nofun (footing.poised.stays (stays_told (stays status reason)))
  · have after := part.shaped_stored shaped (sound o object).1 set
    have sound' := (part.meddles after fresh).sound sound
    obtain ⟨o', object', held⟩ := armed
    obtain rfl := Option.some.inj (object.symm.trans object')
    have next := goesOn_told after kept refused
    rcases holds v o object held with holds | ended
    · refine secured.answered footing rfl sound' ⟨_, left_of_holds part after holds, holds⟩ (fun o' given => ?_)
        (footing.poised.goes sided has spared next holds)
      rw [given?_own own] at given
      exact Option.some.inj given ▸ holds
    · have gone : Stage.told kept refused (.ok (part.stored v x o)) = .ended := by
        rcases next with gone | ⟨m, -, same⟩
        · exact gone
        · exact same.trans (ended m)
      rw [gone]
      exact secured.ended rfl sound'

/-- after another look at the machine between two attempts to record its virtual machine -/
theorem Secured.reread {number : Int} {path : String} {m : Machine} {reply : Store.Reply} {h'' : Held}
    (secured : Secured S side first past (.created m number path) h)
    (footing : Footing S side first past (.created m number path) h) (sound : h'.Sound S) (armed : h'.Armed)
    (answer : S.Answers h' (.get .machines (.string S.ns) (.string S.name)) reply h'') :
    Secured S side first (past ++ [⟨.called (.get .machines (.string S.ns) (.string S.name)) reply, h', h''⟩])
      (.told (.created · number path) (.created m number path) reply) h'' := by
  have own : S.IsOwn (.get .machines (.string S.ns) (.string S.name)) := ⟨rfl, rfl, rfl⟩
  cases answer with
  | elsewhere _ _ other => exact absurd own other
  | refused _ status reason =>
    have stays : Stays (.called (.get .machines (.string S.ns) (.string S.name)) (.refused status reason))
        (.created m number path) (.told (.created · number path) (.created m number path) (.refused status reason)) :=
      stays_told fun _ => .same _ nofun
    exact secured.answered footing rfl sound armed nofun (footing.poised.stays stays)
  | got o object =>
    obtain ⟨o', object', holds⟩ := armed
    obtain rfl := Option.some.inj (object.symm.trans object')
    refine secured.answered footing rfl sound ⟨o, object, holds⟩ (fun o' given => ?_)
      (footing.poised.goes (fun _ => .inr ⟨_, rfl, rfl⟩) (fun _ => has_of_copy? rfl) (fun _ => rfl)
        (goesOn_told (sound o object).1 _ _) holds)
    rw [given?_own own] at given
    exact Option.some.inj given ▸ holds

/-- what the store answers keeps an invocation secured -/
theorem Secured.called (secured : Secured S side first past st h) (footing : Footing S side first past st h)
    {call : Store.Call} {reply : Store.Reply} {h'' : Held} (sound : h'.Sound S) (armed : h'.Armed)
    (answer : S.Answers h' call reply h'') (moved : Step c S.ns S.name st (.called call reply) st') :
    Secured S side first (past ++ [⟨.called call reply, h', h''⟩]) st' h'' := by
  cases moved with
  | fetch => cases footing.poised.side
  | reread m number path =>
    obtain ⟨o₀, copy, -⟩ := footing.poised.copy m rfl
    rw [copy.ns, copy.name] at answer ⊢
    exact secured.reread footing sound armed answer
  | consult m kind place name' reply other =>
    have away : ¬S.IsOwn (.get kind place name') := fun own => other own.1
    have same := answer.of_get
    subst same
    refine secured.answered footing rfl sound armed (fun o given => ?_) (.inr footing.poised)
    rw [given?_other away] at given
    cases given
  | restate table copy written =>
    obtain ⟨o₀, copyOf, -⟩ := footing.poised.copy _ copy
    rw [copyOf.ns, copyOf.name] at answer ⊢
    have laidOver := Machine.writtenOver copyOf (table.amends _) written
    refine secured.written footing .status sound armed answer laidOver.shaped table.sided table.has table.spared
      (fun _ _ _ => table.stays) fun v o _ held => .inl ?_
    rw [Checkout.Part.stored, Stored.Holds, Stored.finalizers_restated]
    exact held
  | @replace _ _ change kept m x table copy written =>
    obtain ⟨o₀, copyOf, held⟩ := footing.poised.copy _ copy
    rw [copyOf.ns, copyOf.name] at answer ⊢
    have laidOver := Machine.writtenOver copyOf (table.amends _) written
    refine secured.written footing .whole sound armed answer laidOver.shaped table.sided table.has table.spared
      (fun _ _ => table.stays copy written) fun v o _ _ => ?_
    have finalizers := (Stored.finalizers_replaced v x o).trans laidOver.finalizers
    cases table with
    | hold => exact .inl ⟨_, finalizers, by simp [holdFinalizer]⟩
    | name =>
      obtain rfl := Option.some.inj copy
      exact .inl ⟨_, finalizers, (Machine.hasFinalizer_iff _).1 held⟩
    | release | releaseCleared => exact .inr fun _ => rfl

/-- what happened keeps an invocation secured -/
theorem Secured.snoc (secured : Secured S side first past st h) (suits : side.Suits first) (happens : S.Guards h e)
    (moved : Step c S.ns S.name st e.said st') : Secured S side first (past ++ [e]) st' e.after := by
  -- an invocation that has ended asks for nothing; any other has its footing, and what it asks for may touch that
  obtain ⟨contests, guards⟩ := happens
  rcases secured.footing with rfl | footing
  · generalize e.said = said at moved
    cases moved with
    | restate table => cases table
    | replace table => cases table
    | send table => cases table
  · have armed := guards footing.armed
    cases contests with
    | sent r reply meddled =>
      cases moved with
      | send table written =>
        exact secured.sent footing suits table written rfl (meddled.sound secured.sound) armed
    | called call reply meddled answer =>
      exact secured.called footing (meddled.sound secured.sound) armed answer moved

section Invocation

variable {o : Value} {r : Except Failure Outcome}

/-- whatever comes of the action, every request so far had its cause -/
abbrev KeepsGate (S : Scene) (past : List Event) (h : Held) (p : Action Outcome) : Prop :=
  S.Guards.Yields h p (fun es _ _ => Gated S (past ++ es)) fun es _ _ => Gated S (past ++ es)

/-- nothing more is asked -/
theorem keepsGate_done {p : Action Outcome} (gated : Gated S past) (finished : ∃ r, p.run = .done r) :
    KeepsGate S past h p := by
  obtain ⟨r, finished⟩ := finished
  unfold KeepsGate World.Yields
  rw [finished]
  refine .done ?_
  have here : Gated S (past ++ []) := by rwa [List.append_nil]
  cases r <;> exact here

theorem Secured.follows (secured : Secured S side first past st h) (suits : side.Suits first) {p : Action Outcome}
    (follows : Follows c S.ns S.name st p fun _ _ => True) : KeepsGate S past h p := by
  intro es r h' plays
  obtain ⟨st', secured', -⟩ := plays.keeps (I := Secured S side first)
    (fun es st h e st' secured happens moved => secured.snoc suits happens moved) past follows secured
  cases r <;> exact secured'.gated

/-- a machine is left alone unless it names an image that has not failed -/
theorem provision_waits (rest : m.spec.imageUrl.isTruthy = false ∨ m.failedImageReason? ≠ .ok none) :
    ∃ r, (provision c m).run = .done r := by
  unfold provision
  cases asked : m.spec.imageUrl.isTruthy with
  | false => exact ⟨_, rfl⟩
  | true =>
    have failed := rest.resolve_left (by simp [asked])
    cases sound : m.failedImageReason? with
    | error e => exact ⟨_, rfl⟩
    | ok reason =>
      cases reason with
      | none => exact absurd sound failed
      | some reason => exact ⟨_, rfl⟩

/-- an image that has not failed is not recorded as failed -/
theorem not_imageFailed (status : Stored.status o = .ok m.status) (sound : m.failedImageReason? = .ok none) :
    ¬Stored.ImageFailed o := by
  rintro ⟨s, c, reason, read, found, failed, given, suffix⟩
  obtain rfl := Except.ok.inj (read.symm.trans status)
  have here : m.imageCondition? = some c := found
  rw [Machine.failedImageReason?, here] at sound
  simp only [failed, ne_eq, not_true_eq_false, reduceIte, given, Value.toText, ok_bind,
    List.isSuffixOf_iff_suffix.2 suffix] at sound
  cases sound

/-- the copy that is built up says of the image what the first object said -/
structure Matches (first : Value) (m : Machine) : Prop where
  imageUrl : m.spec.imageUrl = (Stored.wish first "imageURL").getD (.string "")
  status : Stored.status first = .ok m.status

theorem provision_gated (secured : Secured S .up first past (.provisioning m) h)
    (kept : (Stored.deletion first).isTruthy = false) (same : Matches first m) : KeepsGate S past h (provision c m) := by
  by_cases rest : m.spec.imageUrl.isTruthy = false ∨ m.failedImageReason? ≠ .ok none
  · exact keepsGate_done secured.gated (provision_waits rest)
  · obtain ⟨asked, sound⟩ := not_or.1 rest
    have wanted : Stored.Wanted first := by
      refine ⟨kept, ?_, not_imageFailed same.status (Classical.not_not.1 sound)⟩
      rw [same.imageUrl] at asked
      cases found : Stored.wish first "imageURL" with
      | none => rw [found] at asked; exact absurd rfl asked
      | some url => exact ⟨url, rfl, by rw [found] at asked; simpa using asked⟩
    exact secured.follows wanted (provision_follows m)

/-- the machine that was given the finalizer says of the image what it said before -/
theorem matches_held {v x : Value} (copy : m.CopyOf S o) (written : (holdFinalizer m).WrittenOver S o x) {saved : Machine}
    (read : saved.CopyOf S (Stored.replaced v x o)) : Matches o saved where
  imageUrl := by
    have same := Machine.wish_written written
      (MachineSpec.get?_toFields _ (by simp [MachineSpec.entries, holdFinalizer])) copy.imageUrl
    rw [read.imageUrl, Stored.wish, Stored.specOf_replaced, ← Stored.wish, same]
  status := by rw [← read.status, status_replaced]

theorem gated_silent {e : Event} (gated : Gated S past) (silent : e.route? = none) : Gated S (past ++ [e]) := by
  refine gated.snoc fun route same => ?_
  rw [silent] at same
  cases same

structure Fetched (S : Scene) (e : Event) (o : Value) (m : Machine) : Prop where
  said : e.said = .called (.get .machines (.string S.ns) (.string S.name)) (.ok o)
  sound : e.after.Sound S
  object : e.after.object = some o
  read : Machine.ofValue o = .ok m

theorem Fetched.taken (fetched : Fetched S e o m) : Checkout.Taken S e.after m o :=
  ⟨fetched.sound, (fetched.sound o fetched.object).1, (fetched.sound o fetched.object).2, fetched.read,
    .inl fetched.object⟩

theorem Fetched.silent (fetched : Fetched S e o m) : e.route? = none := by
  rw [Event.route?, fetched.said]

theorem Fetched.given (fetched : Fetched S e o m) : S.given? e = some o := by
  rw [given?, fetched.said]
  exact if_pos ⟨rfl, rfl, rfl⟩

/-- an invocation that was just given the machine with its finalizer -/
theorem Fetched.secured (fetched : Fetched S e o m) (held : m.hasFinalizer = true) (goes : st.side? = some side)
    (has : Has st m) (doomed : ∀ id, st.doomed? = some id → m.status.vmId = some id) :
    Secured S side o [e] st e.after := by
  have givens : S.givens [e] = [o] := by simp [Scene.givens, fetched.given]
  have copy := fetched.taken.copy
  have holds := copy.holds_iff.2 held
  refine ⟨gated_silent Preceded.nil fetched.silent, fetched.sound, by rw [givens]; rfl,
    .inr ⟨⟨o, fetched.object, holds⟩, ⟨o, by rw [givens]; rfl, holds⟩, goes, ?_, ?_⟩⟩
  · intro m' same
    rw [has m' same]
    exact ⟨o, copy, held⟩
  · intro id same
    rw [Stored.vmId, copy.status]
    exact doomed id same

theorem run_gated (fetched : Fetched S e o m) (deleted : m.isBeingDeleted = true) :
    KeepsGate S [e] e.after (Teardown.run c m) := by
  by_cases held : m.hasFinalizer = true
  · have tearing : Stage.fetched m = .tearing m := by rw [Stage.fetched, if_pos deleted, if_pos held]
    have suits : Side.down.Suits o := fetched.taken.copy.isBeingDeleted_iff.2 deleted
    refine Secured.follows (fetched.secured held ?_ (has_fetched m) fun id same => ?_) suits (run_follows deleted)
    · rw [tearing]
      unfold Stage.tearing
      cases m.status.vmId <;> rfl
    · rw [tearing] at same
      unfold Stage.tearing at same
      cases recorded : m.status.vmId <;> rw [recorded] at same <;> exact same
  · refine keepsGate_done (gated_silent Preceded.nil fetched.silent) ?_
    unfold Teardown.run
    rw [if_pos (by simpa using held)]
    exact ⟨_, rfl⟩

/-- the machine as it is after the finalizer was written -/
theorem secured_held (fetched : Fetched S e o m) {e' : Event} {x v : Value} {saved : Machine}
    (gated : Gated S [e, e']) (given : S.givens [e, e'] = [o, Stored.replaced v x o])
    (written : (holdFinalizer m).WrittenOver S o x) (shaped : Stored.Shaped S.ns S.name (Stored.replaced v x o))
    (fresh : v ∉ e.after.versions) (read : Machine.ofValue (Stored.replaced v x o) = .ok saved) :
    Secured S .up o [e, e'] (.provisioning saved)
      ⟨Scene.left (Stored.replaced v x o), v :: e.after.versions⟩ := by
  have holds : Stored.Holds (Stored.replaced v x o) :=
    ⟨_, (Stored.finalizers_replaced v x o).trans written.finalizers, by simp [holdFinalizer]⟩
  have copy := Machine.copyOf_of_ofValue shaped read
  refine ⟨gated, (Checkout.Part.whole.meddles shaped fresh).sound fetched.sound, by rw [given]; rfl, .inr ⟨?_, ?_, ?_⟩⟩
  · exact ⟨_, left_of_holds .whole shaped holds, holds⟩
  · exact ⟨_, by rw [given]; rfl, holds⟩
  · refine ⟨side_provisioning saved, fun m' same => ?_, fun id same => ?_⟩
    · rw [has_provisioning saved m' same]
      exact ⟨_, copy, copy.holds_iff.1 holds⟩
    · rw [not_doomed_of_up (side_provisioning saved)] at same
      cases same

/-- the finalizer is written first where it is missing -/
theorem hold_gated (fetched : Fetched S e o m) (kept : m.isBeingDeleted = false) :
    KeepsGate S [e] e.after (do
      match ← Checkout.save (holdFinalizer m) with
      | none => return c.step
      | some m => provision c m) := by
  have copy := fetched.taken.copy
  have amends : m.Amends (holdFinalizer m) := ⟨rfl, rfl, rfl, rfl⟩
  have first : Gated S [e] := gated_silent Preceded.nil fetched.silent
  have saves : S.Guards.Ensures e.after (Checkout.Part.whole.save (holdFinalizer m)).run fun es r h' =>
      ∃ r', Checkout.Attempt S .whole e.after e.after (holdFinalizer m) es r' h' ∧ r = Checkout.settled r' :=
    fun es r h' plays => Checkout.save_attempts .whole fetched.taken amends .still es r h' (plays.mono fun _ _ hs => hs.1)
  refine .bind (saves.mono fun es r h' ⟨r', attempt, told⟩ => ?_)
  subst told
  cases attempt with
  | unwritable f failed =>
    rw [Checkout.settled_of_plain fun f same => Machine.plain_toValue _ f (same ▸ failed)]
    exact first
  | refused x status reason action key meddled =>
    have gated := gated_silent (e := ⟨.called (Checkout.Part.whole.call S x) (.refused status reason), h', h'⟩) first rfl
    cases conflict : status.isNumber 409 with
    | true =>
      rw [Store.refusal_of_conflict conflict]
      exact .pure gated
    | false =>
      rw [Store.refusal_of_other conflict]
      exact gated
  | accepted x v o' object written shaped fresh =>
    obtain rfl := Option.some.inj (fetched.object.symm.trans object)
    have gated := gated_silent (e := ⟨.called (Checkout.Part.whole.call S x) (.ok (Checkout.Part.whole.stored v x o)),
      e.after, ⟨Checkout.Part.whole.left (Checkout.Part.whole.stored v x o), v :: e.after.versions⟩⟩) first rfl
    cases read : Machine.ofValue (Checkout.Part.whole.stored v x o) with
    | error f =>
      rw [Checkout.settled_of_plain fun f same => Machine.plain_ofValue _ f (same ▸ read)]
      exact gated
    | ok saved =>
      have laidOver := Machine.writtenOver copy amends written
      have own : S.IsOwn (Checkout.Part.whole.call S x) := ⟨rfl, rfl, rfl⟩
      have unmarked : (Stored.deletion o).isTruthy = false := by rw [← copy.deletion]; exact kept
      have secured := secured_held fetched gated (by simp [Scene.givens, fetched.given, given?_own own]; rfl) laidOver shaped
        fresh read
      exact provision_gated secured unmarked (matches_held copy laidOver (Machine.copyOf_of_ofValue shaped read))

/-- what is done with the machine that was fetched is gated -/
theorem settle_gated (fetched : Fetched S e o m) : KeepsGate S [e] e.after (settle c m) := by
  unfold settle
  cases deleted : m.isBeingDeleted with
  | true => exact run_gated fetched deleted
  | false =>
    simp only [Bool.false_eq_true, reduceIte]
    unfold ensureFinalizer
    by_cases held : m.hasFinalizer = true
    · rw [if_pos held]
      have copy := fetched.taken.copy
      have kept : (Stored.deletion o).isTruthy = false := by rw [← copy.deletion]; exact deleted
      refine provision_gated (fetched.secured held (side_provisioning m) (has_provisioning m) fun id same => ?_) kept
        ⟨copy.imageUrl, copy.status⟩
      rw [not_doomed_of_up (side_provisioning m)] at same
      cases same
    · rw [if_neg held]
      exact hold_gated fetched deleted

/-- No request is sent to the appliance but under the finalizer, however the appliance and the store answer and whatever
others write in between, as long as they leave the finalizer alone. At every request, what the store gave last of the
machine's object holds the finalizer. Whatever does not take down the recorded virtual machine or its files is asked only
for a machine that is not to be deleted, names an image, and whose first condition of the image is no failure; a stop, a
deletion or a removal of files only for one that is to be deleted: so said the object that was fetched first. -/
theorem finalizer_gates_requests (sound : h.Sound S) (plays : S.Guards.Plays h (machine c S.ns S.name).run past r h') :
    Gated S past := by
  have gated : S.Guards.Yields h (machine c S.ns S.name) (fun es _ _ => Gated S es) fun es _ _ => Gated S es := by
    refine machine_ends c _ _ fun es r h' looks => ?_
    cases looks with
    | @found e o m said happens read =>
      obtain ⟨h₁, h₂, same, meddled, answer⟩ := happens.1.of_called said
      subst same
      cases answer with
      | elsewhere _ _ other => exact absurd ⟨rfl, rfl, rfl⟩ other
      | got o object =>
        have fetched : Fetched S ⟨.called (.get .machines (.string S.ns) (.string S.name)) (.ok o), h₁, h₁⟩ o m :=
          ⟨rfl, meddled.sound sound, object, read⟩
        exact (settle_gated fetched).mono (fun _ _ _ gated => gated) fun _ _ _ gated => ⟨fun _ _ => gated, fun _ => gated⟩
    | missing said => exact gated_silent Preceded.nil (by rw [Event.route?, said])
    | unreadable said | refused said =>
      have gated := gated_silent (S := S) Preceded.nil (by rw [Event.route?, said])
      exact ⟨fun _ _ => gated, fun _ => gated⟩
  have ended := gated past r h' plays
  cases r <;> exact ended

def unheld : Value := .object [
  ("metadata", .object [("namespace", .string "default"), ("name", .string "worker"), ("resourceVersion", .string "1")]),
  ("spec", .object [("imageURL", .string "http://images/disk.raw")])]

/-- the finalizer is written, and then the download is submitted, in one invocation -/
theorem finalizer_gates_requests_holding : ∃ S : Scene, Held.Sound S ⟨some unheld, [.string "1"]⟩ ∧
    ∃ es r h', S.Guards.Plays ⟨some unheld, [.string "1"]⟩ (machine Sample.context S.ns S.name).run es r h' ∧
      es.map (·.route?) = [none, none, some (.post, "/downloads/add"), none] ∧ Gated S es := by
  have sound : Held.Sound Sample.alone ⟨some unheld, [.string "1"]⟩ := Held.sound_single ⟨rfl, rfl, rfl, rfl, rfl⟩
  have preserves : Sample.alone.Preserves := ⟨nofun, nofun⟩
  obtain ⟨es, r, h', plays, routes⟩ := Sample.alone.exists_plays (machine Sample.context "default" "worker").run
    ⟨some unheld, [.string "1"]⟩ [.gives, .takes "2", .numbered 7, .takes "3"]
    (fun played => played.1.map (·.route?) == [none, none, some (.post, "/downloads/add"), none]) (by decide +kernel)
  have plays := plays.inWorld.mono fun _ _ happens => preserves.guards happens
  exact ⟨_, sound, es, r, h', plays, beq_iff_eq.1 routes, finalizer_gates_requests sound plays⟩

end Invocation

end Reconcile
end VmOperator
