import VmOperator.Proofs.Rehearsal
import VmOperator.Proofs.Store.Client
import VmOperator.Proofs.Store.Contested

/-! A checked-out copy among writers who are held to nothing. A plain write is accepted only where nobody
wrote since the copy was made, and one that was given up left the object alone (`save_ensures`). A write
that must not be lost is made over the object as it is stored then, and fails as a conflict only after five
lost attempts (`writeRefreshing_ensures`). Both hold after whatever was done with the copy before
(`no_foreign_write_lost`). -/

namespace VmOperator

namespace Exchange

/-- a replacement of the status, whatever became of it -/
def restates : Exchange → Bool
  | .called (.replaceStatus ..) _ => true
  | _ => false

def reads : Exchange → Bool
  | .called (.get ..) _ => true
  | _ => false

def finds : Exchange → Bool
  | .called (.get ..) (.ok o) => (Machine.ofValue o).isOk
  | _ => false

end Exchange

namespace Checkout

open Scene

/-- the copy that was made of the object when this was stored; the object is gone where the write that gave
the copy released it -/
structure Taken (S : Scene) (h : Held) (m : Machine) (o : Value) : Prop where
  sound : h.Sound S
  shaped : Stored.Shaped S.ns S.name o
  known : Stored.version o ∈ h.versions
  read : Machine.ofValue o = .ok m
  object : h.object = some o ∨ h.object = none

inductive Part where
  | whole
  | status

namespace Part

def update : Part → Machine → Action Machine
  | .whole => Store.updateMachine
  | .status => Store.updateMachineStatus

def save : Part → Machine → Action (Option Machine)
  | .whole => Checkout.save
  | .status => Checkout.saveStatus

def call (S : Scene) : Part → Value → Store.Call
  | .whole => .replace .machines (.string S.ns) (.string S.name)
  | .status => .replaceStatus .machines (.string S.ns) (.string S.name)

def stored : Part → Value → Value → Value → Value
  | .whole => Stored.replaced
  | .status => Stored.restated

def left : Part → Value → Option Value
  | .whole => Scene.left
  | .status => some

theorem save_eq (part : Part) (m : Machine) : part.save m = unlessConflict (part.update m) := by
  cases part <;> rfl

theorem left_eq (part : Part) (o : Value) : part.left o = none ∨ part.left o = some o := by
  cases part with
  | whole => exact Scene.left_eq o
  | status => exact .inr rfl

theorem version_stored (part : Part) (v x o : Value) : Stored.version (part.stored v x o) = v := by
  cases part with
  | whole => exact Stored.version_replaced v x o
  | status => exact Stored.version_restated v x o

theorem shaped_stored (part : Part) {ns name : String} {v x o : Value} (written : Stored.Shaped ns name x)
    (before : Stored.Shaped ns name o) (set : v.isTruthy = true) : Stored.Shaped ns name (part.stored v x o) := by
  cases part with
  | whole => exact Stored.shaped_replaced written set o
  | status => exact Stored.shaped_restated before set x

end Part

/-- what a write of an amended copy comes to; `h₀` is what was stored when the copy was made, and `h` what
is stored when the write begins -/
inductive Attempt (S : Scene) (part : Part) (h₀ h : Held) (m : Machine) :
    List Event → Except Failure Machine → Held → Prop
  | unwritable (e : Failure) (failed : m.toValue = .error e) : Attempt S part h₀ h m [] (.error e) h
  | refused (x status reason : Value) (action key : String) {h' : Held} (meddled : S.Meddles h h') :
      Attempt S part h₀ h m [⟨.called (part.call S x) (.refused status reason), h', h'⟩]
        (.error (.fault (Store.refusal action key status reason))) h'
  | accepted (x v o : Value) (object : h₀.object = some o) (written : m.toValue = .ok x)
      (shaped : Stored.Shaped S.ns S.name (part.stored v x o)) (fresh : v ∉ h₀.versions) :
      Attempt S part h₀ h m
        [⟨.called (part.call S x) (.ok (part.stored v x o)), h₀, ⟨part.left (part.stored v x o), v :: h₀.versions⟩⟩]
        (Machine.ofValue (part.stored v x o)) ⟨part.left (part.stored v x o), v :: h₀.versions⟩

variable {S : Scene} {part : Part} {h₀ h : Held} {o₀ : Value} {m₀ m : Machine}

theorem Taken.copy (taken : Taken S h₀ m₀ o₀) : m₀.CopyOf S o₀ := Machine.copyOf_of_ofValue taken.shaped taken.read

theorem Part.update_eq (part : Part) {x : Value} (ns : m.ns = .string S.ns) (name : m.name = .string S.name)
    (h : m.toValue = .ok x) : ∃ action, (part.update m).run = .call (part.call S x) fun reply =>
      .done (Store.written action m.key reply) := by
  cases part with
  | whole => exact ⟨_, by rw [Part.update, Store.updateMachine_eq h, ns, name]; rfl⟩
  | status => exact ⟨_, by rw [Part.update, Store.updateMachineStatus_eq h, ns, name]; rfl⟩

theorem Part.update_of_error (part : Part) {e : Failure} (h : m.toValue = .error e) :
    (part.update m).run = .done (.error e) := by
  cases part with
  | whole =>
    show (Store.updateMachine m).run = _
    unfold Store.updateMachine
    rw [h]
    rfl
  | status =>
    show (Store.updateMachineStatus m).run = _
    unfold Store.updateMachineStatus
    rw [h]
    rfl

theorem Part.answer (part : Part) {x : Value} {reply : Store.Reply} {h' h'' : Held}
    (answer : S.Answers h' (part.call S x) reply h'') :
    (∃ status reason, reply = .refused status reason ∧ h'' = h') ∨
      ∃ v o, h'.object = some o ∧ Stored.version x = Stored.version o ∧ v.isTruthy = true ∧ v ∉ h'.versions ∧
        reply = .ok (part.stored v x o) ∧ h'' = ⟨part.left (part.stored v x o), v :: h'.versions⟩ := by
  cases part with
  | whole =>
    cases answer with
    | refused _ status reason => exact .inl ⟨status, reason, rfl, rfl⟩
    | elsewhere _ _ other => exact absurd ⟨rfl, rfl, rfl⟩ other
    | replaced x o v object current set fresh => exact .inr ⟨v, o, object, current, set, fresh, rfl, rfl⟩
  | status =>
    cases answer with
    | refused _ status reason => exact .inl ⟨status, reason, rfl, rfl⟩
    | elsewhere _ _ other => exact absurd ⟨rfl, rfl, rfl⟩ other
    | restated x o v object current set fresh => exact .inr ⟨v, o, object, current, set, fresh, rfl, rfl⟩

/-- a write is accepted only where nobody wrote since the copy was made -/
theorem update_ensures (part : Part) (taken : Taken S h₀ m₀ o₀) (amends : m₀.Amends m) (meddled : S.Meddles h₀ h) :
    World.Ensures S.Contests h (part.update m).run (Attempt S part h₀ h m) := by
  cases hx : m.toValue with
  | error e =>
    rw [part.update_of_error hx]
    exact .done (.unwritable e hx)
  | ok x =>
    have written := Machine.writtenOver taken.copy amends hx
    obtain ⟨action, eq⟩ := part.update_eq (amends.ns.trans taken.copy.ns) (amends.name.trans taken.copy.name) hx
    rw [eq]
    refine .call fun e reply said happens => .done ?_
    obtain ⟨h', h'', rfl, meddled', answer⟩ := happens.of_called said
    rcases part.answer answer with ⟨status, reason, rfl, rfl⟩ | ⟨v, o, object, current, set, fresh, rfl, rfl⟩
    · exact .refused x status reason _ _ meddled'
    · have known : Stored.version o ∈ h₀.versions := by
        rw [← current, written.version]
        exact taken.known
      obtain rfl : h' = h₀ := (meddled.trans meddled').eq_of_known object known
      exact .accepted x v o object hx (part.shaped_stored written.shaped (taken.sound o object).1 set) fresh

/-- an accepted write is a write like another's -/
theorem Part.meddles (part : Part) {x v o : Value} (shaped : Stored.Shaped S.ns S.name (part.stored v x o))
    (fresh : v ∉ h.versions) : S.Meddles h ⟨part.left (part.stored v x o), v :: h.versions⟩ := by
  have version := part.version_stored v x o
  have wrote := Meddles.wrote .still shaped (version.symm ▸ fresh)
  rw [version] at wrote
  rcases part.left_eq (part.stored v x o) with gone | kept
  · rw [gone]
    exact .removed wrote
  · rwa [kept]

theorem Attempt.meddles {es : List Event} {r : Except Failure Machine} {h' : Held} (attempt : Attempt S part h₀ h m es r h')
    (meddled : S.Meddles h₀ h) : S.Meddles h₀ h' := by
  cases attempt with
  | unwritable => exact meddled
  | refused _ _ _ _ _ meddled' => exact meddled.trans meddled'
  | accepted x v o _ _ shaped fresh => exact part.meddles shaped fresh

theorem Taken.accepted {x v o : Value} {saved : Machine} (taken : Taken S h₀ m₀ o₀)
    (shaped : Stored.Shaped S.ns S.name (part.stored v x o)) (fresh : v ∉ h₀.versions)
    (read : Machine.ofValue (part.stored v x o) = .ok saved) :
    Taken S ⟨part.left (part.stored v x o), v :: h₀.versions⟩ saved (part.stored v x o) where
  sound := (part.meddles shaped fresh).sound taken.sound
  shaped := shaped
  known := by
    rw [part.version_stored]
    exact List.mem_cons_self ..
  read := read
  object := (part.left_eq _).symm

section Saving

/-- a write that is given up where another writer was first -/
def settled : Except Failure Machine → Except Failure (Option Machine)
  | .ok m => .ok (some m)
  | .error (.fault (.conflict _)) => .ok none
  | .error e => .error e

theorem unlessConflict_eq (write : Action Machine) :
    (unlessConflict write).run = write.run >>= fun r => .done (settled r) := by
  unfold unlessConflict
  rw [ExceptT.run_tryCatch, ExceptT.run_map, map_eq_pure_bind, bind_assoc]
  congr 1
  funext r
  cases r with
  | ok m => rfl
  | error e =>
    cases e with
    | fault f => cases f <;> rfl
    | _ => rfl

theorem settled_of_plain {e : Failure} (plain : ∀ f, e ≠ .fault f) : settled (.error e) = .error e := by
  cases e with
  | fault f => exact absurd rfl (plain f)
  | _ => rfl

structure Saved (S : Scene) (part : Part) (h₀ h : Held) (es : List Event) (r : Except Failure (Option Machine))
    (h' : Held) : Prop where
  lost : r = .ok none → ∃ x status reason, es = [⟨.called (part.call S x) (.refused status reason), h', h'⟩] ∧
    status.isNumber 409 = true ∧ S.Meddles h h'
  won : ∀ saved, r = .ok (some saved) → ∃ x o, es = [⟨.called (part.call S x) (.ok o), h₀, h'⟩] ∧
    h'.object = part.left o ∧ Taken S h' saved o
  others : S.Meddles h₀ h'

theorem save_attempts (part : Part) (taken : Taken S h₀ m₀ o₀) (amends : m₀.Amends m) (meddled : S.Meddles h₀ h) :
    World.Ensures S.Contests h (part.save m).run fun es r h' => ∃ r', Attempt S part h₀ h m es r' h' ∧ r = settled r' := by
  rw [part.save_eq, unlessConflict_eq]
  refine .bind ((update_ensures part taken amends meddled).mono fun es r h' attempt => .done ⟨r, ?_, rfl⟩)
  rwa [List.append_nil]

theorem save_ensures (part : Part) (taken : Taken S h₀ m₀ o₀) (amends : m₀.Amends m) (meddled : S.Meddles h₀ h) :
    World.Ensures S.Contests h (part.save m).run (Saved S part h₀ h) := by
  refine (save_attempts part taken amends meddled).mono fun es r h' ⟨r', attempt, told⟩ => ?_
  subst told
  have others := attempt.meddles meddled
  cases attempt with
  | unwritable e failed =>
    rw [settled_of_plain fun f he => Machine.plain_toValue m f (he ▸ failed)]
    exact ⟨nofun, nofun, others⟩
  | refused x status reason action key meddled' =>
    cases conflict : status.isNumber 409 with
    | true =>
      rw [Store.refusal_of_conflict conflict]
      exact ⟨fun _ => ⟨x, status, reason, rfl, conflict, meddled'⟩, nofun, others⟩
    | false =>
      rw [Store.refusal_of_other conflict]
      exact ⟨nofun, nofun, others⟩
  | accepted x v o object written shaped fresh =>
    cases read : Machine.ofValue (part.stored v x o) with
    | error e =>
      rw [settled_of_plain fun f he => Machine.plain_ofValue _ f (he ▸ read)]
      exact ⟨nofun, nofun, others⟩
    | ok saved =>
      refine ⟨nofun, fun saved' same => ?_, others⟩
      cases same
      exact ⟨x, _, rfl, rfl, taken.accepted shaped fresh read⟩

end Saving

section Retrying

variable {change : Machine → Machine}

inductive Relook (S : Scene) (change : Machine → Machine) (h : Held) (m : Machine) (lost : ConflictFault) :
    List Event → Machine × Failure → Held → Prop
  | found (o : Value) (latest : Machine) {h' : Held} (meddled : S.Meddles h h') (object : h'.object = some o)
      (read : Machine.ofValue o = .ok latest) :
      Relook S change h m lost [⟨.called (.get .machines (.string S.ns) (.string S.name)) (.ok o), h', h'⟩]
        (change latest, .fault (.conflict lost)) h'
  | unreadable (o : Value) (e : Failure) {h' : Held} (read : Machine.ofValue o = .error e) :
      Relook S change h m lost [⟨.called (.get .machines (.string S.ns) (.string S.name)) (.ok o), h', h'⟩] (m, e) h'
  | missing (status reason : Value) {h' : Held} (gone : status.isNumber 404 = true) :
      Relook S change h m lost
        [⟨.called (.get .machines (.string S.ns) (.string S.name)) (.refused status reason), h', h'⟩]
        (m, .fault (.store (.vanished m.key))) h'
  | refused (status reason : Value) (key : String) {h' : Held} (meddled : S.Meddles h h')
      (other : status.isNumber 404 = false) :
      Relook S change h m lost
        [⟨.called (.get .machines (.string S.ns) (.string S.name)) (.refused status reason), h', h'⟩]
        (m, .fault (Store.refusal "get FreeboxMachine" key status reason)) h'

theorem refresh_ensures {lost : ConflictFault} (ns : m.ns = .string S.ns) (name : m.name = .string S.name) :
    World.Ensures S.Contests h (refresh change m lost) (Relook S change h m lost) := by
  unfold refresh
  rw [Store.getMachine_eq, ns, name]
  refine .call fun e reply said happens => ?_
  obtain ⟨h', h'', rfl, meddled, answer⟩ := happens.of_called said
  cases answer with
  | elsewhere _ _ other => exact absurd ⟨rfl, rfl, rfl⟩ other
  | got o object =>
    cases read : Machine.ofValue o with
    | error e =>
      simp only [Store.got_unreadable read]
      exact .done (.unreadable o e read)
    | ok latest =>
      simp only [Store.got_ok read]
      exact .done (.found o latest meddled object read)
  | refused _ status reason =>
    cases gone : status.isNumber 404 with
    | true =>
      simp only [Store.got_missing gone]
      exact .done (.missing status reason gone)
    | false =>
      simp only [Store.got_refused gone]
      exact .done (.refused status reason _ meddled gone)

def writes (es : List Event) : List Event := es.filter fun e => e.said.restates

/-- what a write that must not be lost comes to -/
structure Retried (S : Scene) (change : Machine → Machine) (attempts : Nat) (es : List Event) (m' : Machine)
    (r : Except Failure Unit) (h' : Held) : Prop where
  few : (writes es).length ≤ attempts
  returned : r = .ok () → ∃ front h o m₁ x v,
    es = front ++ [⟨.called (.replaceStatus .machines (.string S.ns) (.string S.name) x)
      (.ok (Stored.restated v x o)), h, h'⟩] ∧
    (∀ e ∈ front, e.said.accepts = false) ∧ h.object = some o ∧ Machine.ofValue o = .ok m₁ ∧
    Stored.statusField (Stored.restated v x o) = some (change m₁).status.toValue ∧ h'.object = some (Stored.restated v x o) ∧
    Taken S h' m' (Stored.restated v x o)
  conflict : (∀ e ∈ es, e.said.reads = true → e.said.refusedWith 409 = false) →
    ((∃ f, r = .error (.fault (.conflict f))) ↔
      (writes es).length = attempts ∧ (∀ e ∈ writes es, e.said.refusedWith 409 = true) ∧
        ∀ e ∈ es, e.said.reads = true → e.said.finds = true)
  vanished : (∃ e ∈ es, e.said.reads = true ∧ e.said.refusedWith 404 = true) →
    r = .error (.fault (.store (.vanished (Store.pairKey (.string S.ns) (.string S.name)))))

theorem Retried.exhausted (m : Machine) (lost : ConflictFault) (h : Held) :
    Retried S change 0 [] m (.error (.fault (.conflict lost))) h where
  few := Nat.le_refl 0
  returned := nofun
  conflict _ := by simp [writes]
  vanished := by simp

/-- a lost write and another look, then what comes of the attempts that remain -/
theorem Retried.cons {n : Nat} {m' : Machine} {r : Except Failure Unit} {h₁ h₂ h' : Held} {k : Store.Kind}
    {ns name x status reason : Value} {reply : Store.Reply} {es : List Event} (lost : status.isNumber 409 = true)
    (seen : (Exchange.called (.get k ns name) reply).finds = true ∨ (Exchange.called (.get k ns name) reply).refusedWith 409 = true)
    (there : (Exchange.called (.get k ns name) reply).refusedWith 404 = false) (rest : Retried S change n es m' r h') :
    Retried S change (n + 1)
      (⟨.called (.replaceStatus k ns name x) (.refused status reason), h₁, h₁⟩ ::
        ⟨.called (.get k ns name) reply, h₂, h₂⟩ :: es) m' r h' where
  few := Nat.succ_le_succ rest.few
  returned done := by
    obtain ⟨front, h, o, m₁, x, v, rfl, refused, more⟩ := rest.returned done
    refine ⟨_ :: _ :: front, h, o, m₁, x, v, rfl, ?_, more⟩
    simp only [List.mem_cons, forall_eq_or_imp]
    exact ⟨rfl, rfl, refused⟩
  conflict quiet := by
    simp only [List.mem_cons, forall_eq_or_imp] at quiet
    obtain ⟨-, quiet₂, quiet⟩ := quiet
    have found := seen.resolve_right fun refused => absurd (quiet₂ rfl) (by rw [refused]; decide)
    rw [rest.conflict quiet]
    simp [writes, Exchange.restates, Exchange.reads, Exchange.refusedWith, lost, found]
  vanished := by
    rintro ⟨e, mem, read, gone⟩
    rcases List.mem_cons.1 mem with rfl | mem
    · cases read
    · rcases List.mem_cons.1 mem with rfl | mem
      · rw [there] at gone
        cases gone
      · exact rest.vanished ⟨e, mem, read, gone⟩

/-- a write that failed for another reason than another writer -/
theorem Retried.failed {n : Nat} {m' : Machine} {e : Failure} {h₁ h₂ h' : Held} {k : Store.Kind} {ns name x : Value}
    {reply : Store.Reply} (other : ∀ f, e ≠ .fault (.conflict f))
    (unlost : (Exchange.called (.replaceStatus k ns name x) reply).refusedWith 409 = false) :
    Retried S change (n + 1) [⟨.called (.replaceStatus k ns name x) reply, h₁, h₂⟩] m' (.error e) h' where
  few := Nat.succ_le_succ n.zero_le
  returned := nofun
  conflict _ := by simp [writes, Exchange.restates, unlost, other]
  vanished := by simp [Exchange.reads]

/-- a lost write after which the object was not found -/
theorem Retried.unfound {n : Nat} {m' : Machine} {e : Failure} {h₁ h₂ h' : Held} {k : Store.Kind}
    {ns name x status reason : Value} {reply : Store.Reply} (other : ∀ f, e ≠ .fault (.conflict f))
    (unfound : (Exchange.called (.get k ns name) reply).finds = false)
    (gone : (Exchange.called (.get k ns name) reply).refusedWith 404 = true →
      e = .fault (.store (.vanished (Store.pairKey (.string S.ns) (.string S.name))))) :
    Retried S change (n + 1)
      [⟨.called (.replaceStatus k ns name x) (.refused status reason), h₁, h₁⟩,
        ⟨.called (.get k ns name) reply, h₂, h₂⟩] m' (.error e) h' where
  few := Nat.succ_le_succ n.zero_le
  returned := nofun
  conflict _ := by simp [Exchange.reads, unfound, other]
  vanished := by simpa [Exchange.reads] using gone

theorem writeRefreshing_step {more : Nat} (amends : ∀ m : Machine, m.Amends (change m))
    (tail : ∀ {h₀ h : Held} {m₀ : Machine} {o₀ : Value} (lost : ConflictFault), Taken S h₀ m₀ o₀ → S.Meddles h₀ h →
      World.Ensures S.Contests h
        (if more = 0 then .done (change m₀, .error (.fault (.conflict lost))) else writeRefreshing change more (change m₀))
        fun es r => Retried S change more es r.1 r.2)
    (taken : Taken S h₀ m₀ o₀) (meddled : S.Meddles h₀ h) :
    World.Ensures S.Contests h (writeRefreshing change (more + 1) (change m₀)) fun es r =>
      Retried S change (more + 1) es r.1 r.2 := by
  have ns := (amends m₀).ns.trans taken.copy.ns
  have name := (amends m₀).name.trans taken.copy.name
  unfold writeRefreshing
  refine .bind ((update_ensures .status taken (amends m₀) meddled).mono fun es r h' attempt => ?_)
  cases attempt with
  | unwritable e failed =>
    cases e with
    | fault f => exact absurd failed (Machine.plain_toValue _ f)
    | _ => exact .done ⟨Nat.zero_le _, by simp, fun _ => by simp [writes], by simp⟩
  | refused x status reason action key meddled' =>
    cases conflict : status.isNumber 409 with
    | false =>
      rw [Store.refusal_of_other conflict]
      exact .done (.failed (by simp) conflict)
    | true =>
      rw [Store.refusal_of_conflict conflict]
      refine .bind ((refresh_ensures ns name).mono fun es r h'' relook => ?_)
      cases relook with
      | found o latest meddled'' object read =>
        have sound := ((meddled.trans meddled').trans meddled'').sound taken.sound
        have again : Taken S h'' latest o := ⟨sound, (sound o object).1, (sound o object).2, read, .inl object⟩
        exact (tail _ again .still).mono fun es r h' rest =>
          .cons conflict (.inl (by rw [Exchange.finds, read]; rfl)) rfl rest
      | unreadable o e read =>
        cases e with
        | fault f => exact absurd read (Machine.plain_ofValue _ f)
        | _ => exact .done (.unfound (by simp) (by rw [Exchange.finds, read]; rfl) (by simp [Exchange.refusedWith]))
      | missing status reason gone =>
        refine .done (.unfound (by simp) rfl fun _ => ?_)
        rw [Machine.key, ns, name]
        rfl
      | refused status reason key meddled'' other =>
        cases again : status.isNumber 409 with
        | true =>
          -- the copy that was lost is written once more
          rw [Store.refusal_of_conflict again]
          exact (tail _ taken ((meddled.trans meddled').trans meddled'')).mono fun es r h' rest =>
            .cons conflict (.inr again) other rest
        | false =>
          rw [Store.refusal_of_other again]
          exact .done (.unfound (by simp) rfl fun gone => absurd (other.symm.trans gone) (by decide))
  | accepted x v o object written shaped fresh =>
    cases read : Machine.ofValue (Part.status.stored v x o) with
    | error e =>
      cases e with
      | fault f => exact absurd read (Machine.plain_ofValue _ f)
      | _ => exact .done (.failed (by simp) rfl)
    | ok saved =>
      obtain rfl : o₀ = o := Option.some.inj ((taken.object.resolve_right (by simp [object])).symm.trans object)
      have status := (Stored.statusField_restated v x o₀).trans (Machine.writtenOver taken.copy (amends m₀) written).status
      have again := taken.accepted shaped fresh read
      refine .done ⟨Nat.succ_le_succ more.zero_le, fun _ => ⟨[], _, o₀, m₀, x, v, rfl, List.forall_mem_nil _, object, taken.read,
        status, rfl, again⟩, fun _ => ?_, ?_⟩ <;>
        simp [Exchange.reads, Exchange.restates, Exchange.refusedWith, Part.call, writes]

theorem writeRefreshing_ensures (amends : ∀ m : Machine, m.Amends (change m)) (more : Nat) (taken : Taken S h₀ m₀ o₀)
    (meddled : S.Meddles h₀ h) :
    World.Ensures S.Contests h (writeRefreshing change (more + 1) (change m₀)) fun es r =>
      Retried S change (more + 1) es r.1 r.2 := by
  -- on the attempts that remain: one that came second leaves a copy that was read again
  induction more generalizing h₀ h m₀ o₀ with
  | zero => exact writeRefreshing_step amends (fun lost _ _ => .done (.exhausted ..)) taken meddled
  | succ more ih => exact writeRefreshing_step amends (fun _ taken meddled => ih taken meddled) taken meddled

end Retrying

/-- what was done with a copy, and by others to its object: what was stored when the copy was made, the
copy as it was made, the copy in hand, and what is stored now -/
inductive Used (S : Scene) : Held → Machine → Machine → Held → Prop
  | read {h : Held} {o : Value} {m : Machine} (sound : h.Sound S) (object : h.object = some o)
      (read : Machine.ofValue o = .ok m) : Used S h m m h
  | others {since h h' : Held} {m₀ m : Machine} (used : Used S since m₀ m h) (meddled : S.Meddles h h') :
      Used S since m₀ m h'
  | amended {since h : Held} {m₀ m m' : Machine} (used : Used S since m₀ m h) (amends : m.Amends m') :
      Used S since m₀ m' h
  | saved (part : Part) {since h h' : Held} {m₀ m m' : Machine} {es : List Event} (used : Used S since m₀ m h)
      (plays : World.Plays S.Contests h (part.save m).run es (.ok (some m')) h') : Used S h' m' m' h'
  | unsaved (part : Part) {since h h' : Held} {m₀ m : Machine} {es : List Event} {r : Except Failure (Option Machine)}
      (used : Used S since m₀ m h) (plays : World.Plays S.Contests h (part.save m).run es r h')
      (unsaved : ∀ m', r ≠ .ok (some m')) : Used S since m₀ m h'
  | retried (change : Machine → Machine) {since h h' : Held} {m m' : Machine} {es : List Event}
      (amends : ∀ m : Machine, m.Amends (change m)) (used : Used S since m m h)
      (plays : World.Plays S.Contests h (saveStatusRetrying change m) es (m', .ok ()) h') : Used S h' m' m' h'

theorem Used.taken {since : Held} (used : Used S since m₀ m h) :
    (∃ o₀, Taken S since m₀ o₀) ∧ m₀.Amends m ∧ S.Meddles since h := by
  induction used with
  | read sound object read => exact ⟨⟨_, sound, (sound _ object).1, (sound _ object).2, read, .inl object⟩, .refl _, .still⟩
  | others _ meddled ih => exact ⟨ih.1, ih.2.1, ih.2.2.trans meddled⟩
  | amended _ amends ih => exact ⟨ih.1, ih.2.1.trans amends, ih.2.2⟩
  | saved part _ plays ih =>
    obtain ⟨⟨o₀, taken⟩, amends, meddled⟩ := ih
    obtain ⟨_, o, -, -, taken⟩ := (save_ensures part taken amends meddled _ _ _ plays).won _ rfl
    exact ⟨⟨o, taken⟩, .refl _, .still⟩
  | unsaved part _ plays _ ih =>
    obtain ⟨⟨o₀, taken⟩, amends, meddled⟩ := ih
    exact ⟨⟨o₀, taken⟩, amends, (save_ensures part taken amends meddled _ _ _ plays).others⟩
  | retried change amends _ plays ih =>
    obtain ⟨⟨o₀, taken⟩, -, meddled⟩ := ih
    obtain ⟨_, _, _, _, _, _, -, -, -, -, -, -, taken⟩ := (writeRefreshing_ensures amends 4 taken meddled _ _ _ plays).returned rfl
    exact ⟨⟨_, taken⟩, .refl _, .still⟩

end Checkout
end VmOperator
