import VmOperator.Proofs.Program.Dialogue
import VmOperator.Proofs.Store.Stored

/-! The store as one machine's operator meets it. Before every question of the operator others may have
changed the object, as the scene allows, but not its status. A replacement is accepted only when it was
made from the stored version, and an accepted one is stored under a version never used before; any call
may be refused. -/

namespace VmOperator

/-- what the store holds of the machine, and every version that the machine had -/
structure Held where
  object : Option Value
  versions : List Value

/-- a machine and what others may do to its object -/
structure Scene where
  ns : String
  name : String
  allows : Value → Value → Prop

/-- an exchange, with what the store held when the question came and once it was answered -/
structure Event where
  said : Exchange
  before : Held
  after : Held

def Exchange.accepts : Exchange → Bool
  | .called (.replace ..) (.ok _) | .called (.replaceStatus ..) (.ok _) => true
  | _ => false

namespace Scene

open Store (Kind Call Reply)

/-- another writer's change of the object: all of it may change but the status -/
structure Edits (S : Scene) (o o' : Value) : Prop where
  shaped : Stored.Shaped S.ns S.name o'
  status : Stored.statusField o' = Stored.statusField o
  allowed : S.allows o o'

/-- others change the object any number of times -/
inductive Drifts (S : Scene) (h : Held) : Held → Prop
  | still : Drifts S h h
  | edited {h' : Held} {o o' : Value} (drift : Drifts S h h') (object : h'.object = some o)
      (edit : S.Edits o o') (fresh : Stored.version o' ∉ h'.versions) :
      Drifts S h ⟨some o', Stored.version o' :: h'.versions⟩

def IsOwn (S : Scene) : Call → Prop
  | .get k ns name | .replace k ns name _ | .replaceStatus k ns name _ =>
    k = .machines ∧ ns = .string S.ns ∧ name = .string S.name
  | .list .. => False

/-- what remains of an object after a replacement: nothing where that released it -/
def left (o : Value) : Option Value := if Bench.Table.isReleased o then none else some o

theorem left_eq (o : Value) : left o = none ∨ left o = some o := by
  unfold left
  split
  · exact .inl rfl
  · exact .inr rfl

/-- the answers to a call and what the store holds then -/
inductive Answers (S : Scene) (h : Held) : Call → Reply → Held → Prop
  | refused (c : Call) (status reason : Value) : Answers S h c (.refused status reason) h
  | elsewhere (c : Call) (reply : Reply) (other : ¬S.IsOwn c) : Answers S h c reply h
  | got (o : Value) (object : h.object = some o) :
      Answers S h (.get .machines (.string S.ns) (.string S.name)) (.ok o) h
  | replaced (x o v : Value) (object : h.object = some o) (current : Stored.version x = Stored.version o)
      (set : v.isTruthy = true) (fresh : v ∉ h.versions) :
      Answers S h (.replace .machines (.string S.ns) (.string S.name) x) (.ok (Stored.replaced v x o))
        ⟨left (Stored.replaced v x o), v :: h.versions⟩
  | restated (x o v : Value) (object : h.object = some o) (current : Stored.version x = Stored.version o)
      (set : v.isTruthy = true) (fresh : v ∉ h.versions) :
      Answers S h (.replaceStatus .machines (.string S.ns) (.string S.name) x) (.ok (Stored.restated v x o))
        ⟨some (Stored.restated v x o), v :: h.versions⟩

/-- what may happen next, from what the store held after the event before -/
inductive Happens (S : Scene) (h : Held) : Event → Prop
  | sent (r : Appliance.Request) (reply : Appliance.Reply) {h' : Held} (drift : S.Drifts h h') :
      Happens S h ⟨.sent r reply, h', h'⟩
  | called (c : Call) (reply : Reply) {h' h'' : Held} (drift : S.Drifts h h')
      (answer : S.Answers h' c reply h'') : Happens S h ⟨.called c reply, h', h''⟩

/-- a program answered in this scene: its events, its result, and what the store holds before and after -/
inductive Plays (S : Scene) {α : Type} : Held → Program α → List Event → α → Held → Prop
  | done (h : Held) (a : α) : Plays S h (.done a) [] a h
  | send {h h' : Held} {r : Appliance.Request} {next : Appliance.Reply → Program α} {reply : Appliance.Reply}
      {e : Event} {es : List Event} {a : α} (said : e.said = .sent r reply) (happens : S.Happens h e)
      (rest : Plays S e.after (next reply) es a h') : Plays S h (.send r next) (e :: es) a h'
  | call {h h' : Held} {c : Call} {next : Reply → Program α} {reply : Reply}
      {e : Event} {es : List Event} {a : α} (said : e.said = .called c reply) (happens : S.Happens h e)
      (rest : Plays S e.after (next reply) es a h') : Plays S h (.call c next) (e :: es) a h'

variable {S : Scene} {h h' : Held}

theorem Drifts.keeps {P : Value → Prop} (drift : S.Drifts h h') (hP : ∀ o o', S.Edits o o' → P o → P o')
    (hold : ∀ o, h.object = some o → P o) : ∀ o, h'.object = some o → P o := by
  induction drift with
  | still => exact hold
  | edited _ object edit _ ih =>
    intro o ho
    cases ho
    exact hP _ _ edit (ih _ object)

theorem Drifts.versions (drift : S.Drifts h h') {v : Value} (hv : v ∈ h.versions) : v ∈ h'.versions := by
  induction drift with
  | still => exact hv
  | edited _ _ _ _ ih => exact List.mem_cons_of_mem _ ih

/-- a version names one object: what is stored under an old version was never changed -/
theorem Drifts.same (drift : S.Drifts h h') {o : Value} (ho : h'.object = some o)
    (hv : Stored.version o ∈ h.versions) : h.object = some o := by
  cases drift with
  | still => exact ho
  | edited drift _ _ fresh =>
    cases ho
    exact absurd (drift.versions hv) fresh

theorem Drifts.isSome (drift : S.Drifts h h') : h'.object.isSome = h.object.isSome := by
  induction drift with
  | still => rfl
  | edited _ object _ _ ih => rw [← ih, object]; rfl

/-- what is only looked at stays as it is -/
theorem Answers.of_get {kind : Kind} {ns name : Value} {reply : Reply} (answer : S.Answers h (.get kind ns name) reply h') :
    h' = h := by
  cases answer <;> rfl

theorem Happens.drift {e : Event} (happens : S.Happens h e) : S.Drifts h e.before := by
  cases happens <;> assumption

end Scene
end VmOperator
