import VmOperator.Proofs.Appliance.Service
import VmOperator.Proofs.Checkout
import VmOperator.Proofs.Store.Readback

/-! A world that does as it is asked: nobody else writes, nothing is refused but what was made from an old version, and
there is an owner with its secret. A machine in hand is the stored one, and stays so when it is saved
(`Checkout.save_succeeds`). -/

namespace VmOperator

namespace Store

def bootstrapText (secret : Value) : Except Failure String := do
  let bytes ← Appliance.decodeBytes (← bootstrapEntry "" (← secret.get "data"))
  match Utf8.decode bytes with
  | .ok text => return text
  | .error _ => .error (.fault (.bootstrap (.notText "")))

/-- an object of this kind is as it is needed: an owner names its secret, and a secret holds text -/
def Kind.grants (kind : Kind) (v : Value) : Bool :=
  if kind.group = "cluster.x-k8s.io" then (bootstrapSecret v).toOption.any (· ≠ .null)
  else if kind = .secrets then (bootstrapText v).isOk
  else true

end Store

namespace Event

/-- the operator gets what it asked for; a replacement is refused only where it was not made from the stored version -/
def served (mac : String) (e : Event) : Bool :=
  match e.said with
  | .sent r reply => (Appliance.resultOf reply).any ((Appliance.matter r.method r.path).grants mac)
  | .called c (.ok v) => c.kind.grants v
  | .called _ (.refused ..) =>
    e.said.content?.any fun x => e.before.object.any fun o => decide (Stored.version x ≠ Stored.version o)

def pends (mac : String) (e : Event) : Bool :=
  match e.said with
  | .sent r reply => (Appliance.resultOf reply).any ((Appliance.matter r.method r.path).pends mac)
  | .called .. => false

def submission? (e : Event) : Option String :=
  e.route?.bind fun (method, path) =>
    if method = .post ∧ path ∈ ImagePipeline.submissionPaths ++ ["/vm/"] then some path else none

end Event

def submissions (es : List Event) : List String := es.filterMap Event.submission?

structure Tally (mac : String) (es : List Event) (paths : List String) (waits : Nat) : Prop where
  submitted : submissions es = paths
  waited : es.countP (·.pends mac) = waits

namespace Tally

variable {mac : String} {es es' : List Event} {paths paths' : List String} {waits waits' : Nat} {e : Event}

theorem nil : Tally mac [] [] 0 := ⟨rfl, rfl⟩

theorem append (first : Tally mac es paths waits) (second : Tally mac es' paths' waits') :
    Tally mac (es ++ es') (paths ++ paths') (waits + waits') where
  submitted := by rw [submissions, List.filterMap_append, ← first.submitted, ← second.submitted]; rfl
  waited := by rw [List.countP_append, first.waited, second.waited]

theorem called {c : Store.Call} {reply : Store.Reply} (said : e.said = .called c reply) : Tally mac [e] [] 0 := by
  have submission : e.submission? = none := by rw [Event.submission?, Event.route?, said]; rfl
  have pends : e.pends mac = false := by rw [Event.pends, said]
  exact ⟨by rw [submissions, List.filterMap_cons_none submission]; rfl, by simp [pends]⟩

/-- a request that submits nothing -/
theorem send {r : Appliance.Request} {reply : Appliance.Reply} (said : e.said = .sent r reply)
    (asks : r.method = .get ∨ r.path ∉ ImagePipeline.submissionPaths ++ ["/vm/"]) :
    Tally mac [e] [] (e.pends mac).toNat := by
  have submission : e.submission? = none := by
    rw [Event.submission?, Event.route?, said]
    refine if_neg fun ⟨post, mem⟩ => ?_
    rcases asks with get | other
    · exact absurd (get.symm.trans post) (by decide)
    · exact other mem
  refine ⟨by rw [submissions, List.filterMap_cons_none submission]; rfl, ?_⟩
  cases pends : e.pends mac <;> simp [pends]

/-- something is submitted -/
theorem submit {r : Appliance.Request} {reply : Appliance.Reply} (said : e.said = .sent r reply)
    (post : r.method = .post)
    (mem : r.path ∈ ImagePipeline.submissionPaths ++ ["/vm/"]) : Tally mac [e] [r.path] (e.pends mac).toNat := by
  have submission : e.submission? = some r.path := by
    rw [Event.submission?, Event.route?, said]
    exact if_pos ⟨post, mem⟩
  refine ⟨by rw [submissions, List.filterMap_cons_some submission]; rfl, ?_⟩
  cases pends : e.pends mac <;> simp [pends]

end Tally

namespace Scene

variable {S : Scene} {mac : String} {h h' : Held} {α : Type} {Q : List Event → α → Held → Prop}

def Quiet (S : Scene) : Prop := ∀ o o', ¬S.allows o o'

theorem Quiet.same (quiet : S.Quiet) (drift : S.Drifts h h') : h' = h := by
  cases drift with
  | still => rfl
  | edited _ _ edit _ => exact absurd edit.allowed (quiet _ _)

def serving (S : Scene) (mac : String) : World := fun h e => S.Happens h e ∧ e.served mac = true

theorem Plays.served {p : Program α} {es : List Event} {a : α} (plays : S.Plays h p es a h')
    (served : ∀ e ∈ es, e.served mac = true) : (S.serving mac).Plays h p es a h' := by
  induction plays with
  | done h a => exact .done h a
  | send said happens _ ih =>
    exact .send said ⟨happens, served _ (List.mem_cons_self ..)⟩ (ih fun e mem => served e (List.mem_cons_of_mem _ mem))
  | call said happens _ ih =>
    exact .call said ⟨happens, served _ (List.mem_cons_self ..)⟩ (ih fun e mem => served e (List.mem_cons_of_mem _ mem))

theorem Happens.of_sent {e : Event} {r : Appliance.Request} {reply : Appliance.Reply} (happens : S.Happens h e)
    (quiet : S.Quiet) (said : e.said = .sent r reply) : e.after = h := by
  cases happens with
  | sent _ _ drift => exact quiet.same drift
  | called => cases said

theorem Happens.of_called {e : Event} {c : Store.Call} {reply : Store.Reply} (happens : S.Happens h e) (quiet : S.Quiet)
    (said : e.said = .called c reply) : e.before = h ∧ S.Answers h c reply e.after := by
  cases happens with
  | sent => cases said
  | called c' reply' drift answer =>
    cases said
    obtain rfl := quiet.same drift
    exact ⟨rfl, answer⟩

end Scene

namespace Appliance

open World

variable {S : Scene} {mac : String} {h : Held} {α : Type} {Q : List Event → α → Held → Prop}

/-- the appliance gives a result, which is read -/
theorem Query.ask_succeeds {q : Query α} {r : Request} (quiet : S.Quiet) (written : q.request = .ok r)
    (hQ : ∀ e reply v, e.said = .sent r reply → resultOf reply = some v → (matter r.method r.path).grants mac v = true →
      e.pends mac = (matter r.method r.path).pends mac v → ∃ a, q.read reply = .ok a ∧ Q [e] a h) :
    (S.serving mac).Succeeds h q.ask Q := by
  unfold Query.ask
  refine .bind (.lift written ?_)
  refine Ensures.send fun e reply said happens => ?_
  have served := happens.2
  rw [Event.served, said] at served
  obtain ⟨v, result, grants⟩ := (Option.any_eq_true ..).1 served
  have pends : e.pends mac = (matter r.method r.path).pends mac v := by rw [Event.pends, said]; simp [result]
  obtain ⟨a, read, ended⟩ := hQ e reply v said result grants pends
  refine Ensures.done ⟨a, read, ?_⟩
  rw [happens.1.of_sent quiet said]
  exact ended

end Appliance

structure InHand (S : Scene) (h : Held) (m : Machine) : Prop where
  sound : h.Sound S
  object : h.object = some (.object m.stored)
  read : Machine.ofValue (.object m.stored) = .ok m

/-- the machine under another version, beside the object that it is stored in -/
inductive Machine.Stamps (m : Machine) : Machine → Prop
  | mk (version : Value) (fields : Fields) : Stamps m { m with resourceVersion := version, stored := fields }

namespace InHand

variable {S : Scene} {h : Held} {m : Machine} {o : Value}

theorem of_ofValue (sound : h.Sound S) (object : h.object = some o) (read : Machine.ofValue o = .ok m) :
    InHand S h m := by
  have stored := (Machine.copyOf_of_ofValue (sound o object).1 read).stored
  subst stored
  exact ⟨sound, object, read⟩

theorem shaped (inHand : InHand S h m) : Stored.Shaped S.ns S.name (.object m.stored) :=
  (inHand.sound _ inHand.object).1

theorem copy (inHand : InHand S h m) : m.CopyOf S (.object m.stored) :=
  Machine.copyOf_of_ofValue inHand.shaped inHand.read

theorem shape (inHand : InHand S h m) : m.status.progress.IsObject :=
  MachineStatus.isObject_of_ofValue inHand.copy.status

end InHand

namespace Store

open World

variable {S : Scene} {mac : String} {h : Held} {m : Machine} {α : Type}

/-- what is there is given -/
theorem fetch_succeeds {action : String} {kind : Kind} {ns name : Value} {Q : List Event → Option Value → Held → Prop}
    (quiet : S.Quiet)
    (hQ : ∀ e o, e.said = .called (.get kind ns name) (.ok o) → kind.grants o = true → Q [e] (some o) h) :
    (S.serving mac).Succeeds h (fetch action kind ns name) Q := by
  refine .call (fetch_eq ..) fun e reply said happens => ?_
  obtain ⟨-, answer⟩ := happens.1.of_called quiet said
  have served := happens.2
  rw [Event.served, said] at served
  rw [answer.of_get]
  cases reply with
  | ok o => exact ⟨some o, rfl, hQ e o said served⟩
  | refused status reason => cases served

theorem getMachine_succeeds {Q : List Event → Option Machine → Held → Prop} (quiet : S.Quiet) (inHand : InHand S h m)
    (hQ : ∀ e c reply, e.said = .called c reply → Q [e] (some m) h) :
    (S.serving mac).Succeeds h (getMachine (.string S.ns) (.string S.name)) Q := by
  refine .call (getMachine_eq ..) fun e reply said happens => ?_
  obtain ⟨-, answer⟩ := happens.1.of_called quiet said
  have served := happens.2
  rw [Event.served, said] at served
  rw [answer.of_get]
  cases answer with
  | refused => cases served
  | elsewhere _ _ other => exact absurd ⟨rfl, rfl, rfl⟩ other
  | got o object =>
    obtain rfl := Option.some.inj (inHand.object.symm.trans object)
    exact ⟨some m, got_ok inHand.read, hQ e _ _ said⟩

end Store

namespace Checkout

open World

variable {S : Scene} {mac : String} {h : Held} {m m' : Machine} {part : Part} {x : Value} {R : Machine → Prop}

/-- nothing of a machine that is not to be deleted is lost in a replacement -/
theorem Part.left_stored (part : Part) {v o : Value} (shaped : Stored.Shaped S.ns S.name (part.stored v x o))
    (kept : (Stored.deletion (part.stored v x o)).isTruthy = false) :
    part.left (part.stored v x o) = some (part.stored v x o) := by
  cases part with
  | status => rfl
  | whole =>
    refine if_neg fun released => ?_
    rw [((Stored.isReleased_iff shaped).1 released).1] at kept
    cases kept

theorem Part.deletion_stored (part : Part) {v o : Value} (same : Stored.deletion x = Stored.deletion o) :
    Stored.deletion (part.stored v x o) = Stored.deletion o := by
  cases part with
  | whole => rw [Part.stored, Stored.deletion_replaced, same]
  | status => rw [Part.stored, Stored.deletion_restated]

section Taken

variable {e : Event} {o : Value}

/-- what comes of a write that was made from the machine in hand and taken: what is stored then is in hand once it is read
back, unless the object went with the write -/
theorem Part.taken (part : Part) (quiet : S.Quiet) (inHand : InHand S h m) (laidOver : m'.WrittenOver S (.object m.stored) x)
    (happens : S.Happens h e) (said : e.said = .called (part.call S x) (.ok o)) :
    ∃ v, v.isTruthy = true ∧ o = part.stored v x (.object m.stored) ∧ ∀ saved, Machine.ofValue o = .ok saved →
      InHand S e.after saved ∨ part = .whole ∧ m.isBeingDeleted = true ∧ e.after.object = none := by
  obtain ⟨-, answer⟩ := happens.of_called quiet said
  rcases part.answer answer with ⟨_, _, refused, -⟩ | ⟨v, stored, object, -, set, -, same, after⟩
  · cases refused
  · cases same
    obtain rfl := Option.some.inj (inHand.object.symm.trans object)
    have shaped := part.shaped_stored laidOver.shaped inHand.shaped set
    refine ⟨v, set, rfl, fun saved read => ?_⟩
    have deletion : (Stored.deletion (part.stored v x (.object m.stored))).isTruthy = m.isBeingDeleted := by
      rw [part.deletion_stored laidOver.deletion, ← inHand.copy.deletion]
      rfl
    rw [after]
    rcases part.left_eq (part.stored v x (.object m.stored)) with gone | left
    · refine .inr ⟨?_, ?_, gone⟩
      · cases part with
        | whole => rfl
        | status => cases gone
      · cases kept : m.isBeingDeleted with
        | true => rfl
        | false => rw [part.left_stored shaped (deletion.trans kept)] at gone; cases gone
    · rw [left]
      refine .inl (.of_ofValue ?_ rfl read)
      intro o ho
      obtain rfl := Option.some.inj ho
      exact ⟨shaped, by rw [part.version_stored]; exact List.mem_cons_self ..⟩

/-- what was written of the status is there -/
theorem restated_taken (quiet : S.Quiet) (inHand : InHand S h m) {s : MachineStatus} (shape : s.progress.IsObject)
    (written : { m with status := s }.toValue = .ok x) (happens : S.Happens h e)
    (said : e.said = .called (Part.status.call S x) (.ok o)) :
    ∃ saved, Machine.ofValue o = .ok saved ∧ { m with status := s.rendered }.Stamps saved ∧ InHand S e.after saved := by
  have amends : m.Amends { m with status := s } := ⟨rfl, rfl, rfl, rfl⟩
  have laidOver := Machine.writtenOver inHand.copy amends written
  obtain ⟨v, set, rfl, after⟩ := Part.status.taken quiet inHand laidOver happens said
  have read := Machine.ofValue_restated inHand.shaped inHand.read set (laidOver.status_restated shape _)
  refine ⟨_, read, .mk .., ?_⟩
  rcases after _ read with inHand | ⟨whole, -⟩
  · exact inHand
  · cases whole

/-- so are finalizers and a provider id, unless the object went with what was written -/
theorem amended_taken (quiet : S.Quiet) (inHand : InHand S h m) {finalizers : List Value} {id : Value}
    (named : id = m.spec.providerId ∨ id.isTruthy = true) (written : (m.amended finalizers id).toValue = .ok x)
    (happens : S.Happens h e) (said : e.said = .called (Part.whole.call S x) (.ok o)) :
    ∃ saved, Machine.ofValue o = .ok saved ∧ (m.amended finalizers id).Stamps saved ∧
      (InHand S e.after saved ∨ m.isBeingDeleted = true ∧ e.after.object = none) := by
  have amends : m.Amends (m.amended finalizers id) := ⟨rfl, rfl, rfl, rfl⟩
  have laidOver := Machine.writtenOver inHand.copy amends written
  obtain ⟨v, set, rfl, after⟩ := Part.whole.taken quiet inHand laidOver happens said
  have read := Machine.ofValue_replaced inHand.shaped inHand.read set named written
  exact ⟨_, read, .mk .., (after _ read).imp_right And.right⟩

end Taken

/-- a write of the machine in hand is taken, where what is taken is read back and in hand then -/
theorem update_succeeds {Q : List Event → Machine → Held → Prop} (quiet : S.Quiet) (part : Part) (inHand : InHand S h m)
    (amends : m.Amends m') (written : m'.toValue = .ok x)
    (taken : ∀ e o, S.Happens h e → e.said = .called (part.call S x) (.ok o) →
      ∃ saved, Machine.ofValue o = .ok saved ∧ R saved ∧ InHand S e.after saved)
    (hQ : ∀ e c reply saved h', e.said = .called c reply → R saved → InHand S h' saved → Q [e] saved h') :
    (S.serving mac).Succeeds h (part.update m') Q := by
  have laidOver := Machine.writtenOver inHand.copy amends written
  obtain ⟨action, asked⟩ := part.update_eq (amends.ns.trans inHand.copy.ns) (amends.name.trans inHand.copy.name) written
  refine .call asked fun e reply said happens => ?_
  obtain ⟨before, answer⟩ := happens.1.of_called quiet said
  cases reply with
  | refused =>
    -- the machine in hand is never out of date
    have served := happens.2
    rw [Event.served, said] at served
    obtain ⟨x', content, stale⟩ := (Option.any_eq_true ..).1 served
    obtain ⟨o, object, stale⟩ := (Option.any_eq_true ..).1 stale
    rw [before, inHand.object] at object
    obtain rfl := Option.some.inj object
    have same : x' = x := by cases part <;> exact (Option.some.inj content).symm
    rw [same] at stale
    exact absurd laidOver.version (of_decide_eq_true stale)
  | ok o =>
    obtain ⟨saved, read, holds, inHand'⟩ := taken e o happens.1 said
    exact ⟨saved, read, hQ e _ _ saved _ said holds inHand'⟩

theorem save_succeeds {Q : List Event → Option Machine → Held → Prop} (part : Part)
    (succeeds : (S.serving mac).Succeeds h (part.update m') fun es saved => Q es (some saved)) :
    (S.serving mac).Succeeds h (part.save m') Q := by
  rw [part.save_eq]
  exact .tryCatch (.map succeeds)

theorem restate_succeeds {Q : List Event → Machine → Held → Prop} (quiet : S.Quiet) (inHand : InHand S h m)
    (asked : m.spec.imageUrl.isTruthy = true) {s : MachineStatus}
    (shape : s.progress.IsObject)
    (hQ : ∀ e c reply saved h', e.said = .called c reply → { m with status := s.rendered }.Stamps saved →
      InHand S h' saved →
      Q [e] saved h') :
    (S.serving mac).Succeeds h (Store.updateMachineStatus { m with status := s }) Q := by
  have amends : m.Amends { m with status := s } := ⟨rfl, rfl, rfl, rfl⟩
  obtain ⟨x, written⟩ := Machine.exists_written inHand.shaped inHand.read asked amends
  exact update_succeeds quiet .status inHand amends written
    (fun _ _ happens said => restated_taken quiet inHand shape written happens said) hQ

theorem amend_succeeds {Q : List Event → Machine → Held → Prop} (quiet : S.Quiet) (inHand : InHand S h m)
    (kept : m.isBeingDeleted = false) (asked : m.spec.imageUrl.isTruthy = true) {finalizers : List Value} {id : Value}
    (named : id = m.spec.providerId ∨ id.isTruthy = true)
    (hQ : ∀ e c reply saved h', e.said = .called c reply → (m.amended finalizers id).Stamps saved → InHand S h' saved →
      Q [e] saved h') :
    (S.serving mac).Succeeds h (Store.updateMachine (m.amended finalizers id)) Q := by
  have amends : m.Amends (m.amended finalizers id) := ⟨rfl, rfl, rfl, rfl⟩
  obtain ⟨x, written⟩ := Machine.exists_written inHand.shaped inHand.read asked amends
  refine update_succeeds quiet .whole inHand amends written (fun e o happens said => ?_) hQ
  obtain ⟨saved, read, stamps, inHand' | ⟨deleted, -⟩⟩ := amended_taken quiet inHand named written happens said
  · exact ⟨saved, read, stamps, inHand'⟩
  · rw [kept] at deleted
    cases deleted

/-- a write that must not be lost is not -/
theorem saveStatusSurely_succeeds {Q : List Event → Machine → Held → Prop} {change : Machine → Machine}
    (succeeds : (S.serving mac).Succeeds h (Store.updateMachineStatus (change m)) Q) :
    (S.serving mac).Succeeds h (saveStatusSurely change m) Q := by
  unfold saveStatusSurely saveStatusRetrying attempts writeRefreshing
  refine Ensures.bind (Ensures.bind (Ensures.mono succeeds fun es r h' succeeded => ?_))
  obtain ⟨saved, rfl, ended⟩ := succeeded
  refine Ensures.done (Ensures.done ⟨saved, rfl, ?_⟩)
  rw [List.append_nil, List.append_nil]
  exact ended

end Checkout

end VmOperator
