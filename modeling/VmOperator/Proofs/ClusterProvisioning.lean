import VmOperator.Proofs.ConditionHistory
import VmOperator.Proofs.Reconcile.ClusterCourse
import VmOperator.Proofs.Run
import VmOperator.Proofs.Store.ClusterWorld

/-! A cluster is provisioned once. Whoever else writes to the cluster, and whatever the store refuses, of all writes in a
run at most one is accepted. It was made from the very object that it replaces the status of (`provisions_of_accepted`), and
the flag that it leaves is what every later invocation finds (`provisioned_once`). -/

namespace VmOperator

open Bench (fieldsOf)
open Stored (metadataOf statusField)

def readySetting (now : String) : Setting :=
  ⟨now, ConditionType.ready.text, .yes, .string "Provisioned", .string "FreeboxCluster is ready", .null⟩

/-- the second object is the first one with its cluster marked ready and provisioned: the condition for that is renewed or
added among the others, and nothing outside the status is another but the version -/
structure Marks (now : String) (o o' : Value) : Prop where
  ready : o'.under? ["status", "ready"] = some (.bool true)
  provisioned : o'.under? ["status", "initialization", "provisioned"] = some (.bool true)
  conditions : ∃ cs cs', conditionsOf o = .ok cs ∧ conditionsOf o' = .ok cs' ∧ Condition.Applied (readySetting now) cs cs'
  met : ∃ cs c, conditionsOf o' = .ok cs ∧ Condition.find? cs (.string ConditionType.ready.text) = some c ∧
    c.status = .string ConditionStatus.yes.text
  fields : ∀ key, key ≠ "metadata" → key ≠ "status" → (fieldsOf o').get? key = (fieldsOf o).get? key
  metadata : ∀ key, key ≠ "resourceVersion" → (metadataOf o').get? key = (metadataOf o).get? key

namespace Cluster

variable {now : String} {k : Cluster} {o o' : Value} {ns name : String}

theorem marks_of_status (read : ReadFrom o k) (object : o' = .object (fieldsOf o'))
    (status : statusField o' = some (Reconcile.markProvisioned now k).statusValue)
    (fields : ∀ key, key ≠ "metadata" → key ≠ "status" → (fieldsOf o').get? key = (fieldsOf o).get? key)
    (metadata : ∀ key, key ≠ "resourceVersion" → (metadataOf o').get? key = (metadataOf o).get? key) : Marks now o o' := by
  have inside : o'.fields = .ok (fieldsOf o') := by
    rw [object]
    rfl
  have listed : conditionsOf o' = .ok ((readySetting now).apply k.conditions) := conditionsOf_of_status inside status
  have applied := Condition.apply_cases (readySetting now) k.conditions
  refine ⟨?_, ?_, ⟨_, _, read.conditions, listed, applied⟩, ⟨_, _, listed, applied.find?_self, ?_⟩, fields, metadata⟩
  · rw [Value.under?_of_fields inside, ← statusField, status]
    rfl
  · rw [Value.under?_of_fields inside, ← statusField, status]
    rfl
  · unfold Setting.result
    split <;> rfl

end Cluster

/-- a call was refused, and that is no answer to go on from: only a missing cluster and a write that came second are -/
def Exchange.fails : Exchange → Bool
  | .called (.get ..) (.refused status _) => !status.isNumber 404
  | .called _ (.refused status _) => !status.isNumber 409
  | _ => false

def Exchange.refused : Exchange → Bool
  | .called _ (.refused ..) => true
  | _ => false

def Exchange.conflicts (x : Exchange) : Bool := x.content?.isSome && x.refusedWith 409

def Exchange.legible : Exchange → Prop
  | .called _ (.ok o) => ∃ k, Cluster.ofValue o = .ok k
  | _ => True

namespace Reconcile

open Scene (Flagged)

variable {S : Scene} {h h' : Held} {c : Context} {marked : Bool} {es : List Event} {r : Except Failure Outcome}

/-- the write of a cluster that was not provisioned: what is sent and what is stored are the object stored just before it
with the cluster marked -/
def Provisions (S : Scene) (now : String) (e : Event) : Prop :=
  ∃ o x o', e.said = .called (.replaceStatus .clusters (.string S.ns) (.string S.name) x) (.ok o') ∧
    e.before.object = some o ∧ e.after.object = some o' ∧ ¬SaysProvisioned o ∧ Marks now o x ∧ Marks now o o'

structure Fits (S : Scene) (c : Context) (marked : Bool) (r : Except Failure Outcome) (e : Event) : Prop where
  written : e.said.accepts = true → r = .ok .done ∧ Provisions S c.now e
  still : e.said.accepts = false → e.after = e.before
  conflict : e.said.conflicts = true → r = .ok c.step
  failed : e.said.fails = true → ∃ f, r = .ok (.failed f)
  silent : marked = true → e.said.content? = none

def EndsWith (es : List Event) (P : Value → Prop) : Prop := ∃ e o, es.getLast? = some e ∧ e.after.object = some o ∧ P o

structure Conduct (S : Scene) (c : Context) (marked : Bool) (es : List Event) (r : Except Failure Outcome) : Prop where
  each : ∀ e ∈ es, Fits S c marked r e
  once : es.countP (·.said.accepts) ≤ 1
  done : marked = true → (∀ e ∈ es, e.said.fails = false) → (∀ e ∈ es, e.said.legible) → r = .ok .done
  served : (∀ e ∈ es, e.said.refused = false) → (∀ e ∈ es, e.said.legible) → r = .ok .done ∧ EndsWith es SaysProvisioned

/-- what an invocation keeps, besides how it goes -/
structure Keeps (S : Scene) (marked : Bool) (es : List Event) (h' : Held) : Prop where
  sound : h'.Sound S
  flagged : marked = true ∨ (∃ e ∈ es, e.said.accepts = true) → Flagged h'

variable {e : Event} {k : Cluster} {o : Value} {reply : Store.Reply}

/-- a fetch leaves what it found -/
theorem fits_get (tends : S.Tends marked h e)
    (said : e.said = .called (.get .clusters (.string S.ns) (.string S.name)) reply)
    (failed : ∀ status reason, reply = .refused status reason → status.isNumber 404 = false → ∃ f, r = .ok (.failed f)) :
    Fits S c marked r e := by
  obtain ⟨-, answer⟩ := tends.of_called said
  refine ⟨?_, fun _ => answer.of_get.1, ?_, ?_, ?_⟩ <;> rw [said]
  · nofun
  · nofun
  · cases reply with
    | ok => nofun
    | refused status reason => exact fun fails => failed status reason rfl (by simpa [Exchange.fails] using fails)
  · exact fun _ => rfl

/-- a write that was refused leaves what it found -/
theorem fits_refused {x status reason : Value} (sound : h.Sound S) (tends : S.Tends false h e)
    (said : e.said = .called (.replaceStatus .clusters (.string S.ns) (.string S.name) x) (.refused status reason))
    (conflict : status.isNumber 409 = true → r = .ok c.step)
    (other : status.isNumber 409 = false → ∃ f, r = .ok (.failed f)) : Fits S c false r e ∧ Keeps S false [e] e.after := by
  obtain ⟨spared, answer⟩ := tends.of_called said
  have still : e.after = e.before := by
    rcases answer.of_replaceStatus with ⟨_, _, _, still⟩ | ⟨_, _, _, _, _, accepted, _⟩
    · exact still
    · cases accepted
  have idle : ¬e.said.accepts = true := by
    rw [said]
    nofun
  refine ⟨⟨fun accepted => absurd accepted idle, fun _ => still, fun lost => ?_, fun fails => ?_, nofun⟩, ?_, ?_⟩
  · rw [said] at lost
    exact conflict lost
  · rw [said] at fails
    exact other (by simpa [Exchange.fails] using fails)
  · rw [still]
    exact spared.meddles.sound sound
  · rintro (marked | ⟨_, mem, accepted⟩)
    · cases marked
    · cases List.mem_singleton.1 mem
      exact absurd accepted idle

/-- a write that was accepted was made from the object that it replaces the status of -/
theorem provisions_of_accepted {o' x : Value} (sound : h.Sound S) (object : h.object = some o)
    (read : Cluster.ofValue o = .ok k) (new : k.provisioned = false) (laid : (markProvisioned c.now k).toValue = .ok x)
    (tends : S.Tends false h e)
    (said : e.said = .called (.replaceStatus .clusters (.string S.ns) (.string S.name) x) (.ok o')) :
    Provisions S c.now e ∧ (∃ k', Cluster.ofValue o' = .ok k') ∧ e.after.Sound S ∧ Flagged e.after := by
  obtain ⟨shaped, known⟩ := sound o object
  have readFrom := Cluster.read_of_ofValue shaped read
  obtain ⟨x', laid', written⟩ :=
    Cluster.exists_written (k := markProvisioned c.now k) shaped readFrom.stored (readFrom.place shaped).2.2
  cases laid.symm.trans laid'
  obtain ⟨spared, answer⟩ := tends.of_called said
  rcases answer.of_replaceStatus with ⟨_, _, refused, _⟩ | ⟨o₁, v, object', current, set, same, after⟩
  · cases refused
  -- whoever had written in between would have stored a version of its own
  have nobody : e.before = h := spared.meddles.eq_of_known object' (by rw [← current, written.version]; exact known)
  have here : e.before.object = some o := nobody ▸ object
  cases object'.symm.trans here
  cases same
  have shaped' := Stored.shaped_restated shaped set x
  have status : statusField (Stored.restated v x o) = some (markProvisioned c.now k).statusValue :=
    (Stored.statusField_restated ..).trans written.status
  have sent : Marks c.now o x := Cluster.marks_of_status readFrom written.isObject written.status written.fields written.metadata
  have stored : Marks c.now o (Stored.restated v x o) :=
    Cluster.marks_of_status readFrom shaped'.isObject status (fun key other other' => Stored.fieldsOf_restated v x o other other')
      fun key other => by rw [Stored.metadataOf_restated, Fields.get?_set, if_neg other.symm]
  have unsaid : ¬SaysProvisioned o := fun flagged => by
    rw [readFrom.provisioned_iff, new] at flagged
    cases flagged
  obtain ⟨k', read', -⟩ := Cluster.ofValue_of_status shaped' status
  refine ⟨⟨o, x, _, said, here, by rw [after], unsaid, sent, stored⟩, ⟨k', read'⟩, ?_, ?_⟩ <;> rw [after] <;> rintro _ ⟨⟩
  · exact ⟨shaped', by rw [Stored.version_restated]; exact List.mem_cons_self ..⟩
  · exact ⟨_, stored.provisioned, rfl⟩

/-- an invocation that only fetches -/
theorem conduct_of_get (sound : h.Sound S) (flagged : marked = true → Flagged h) (tends : S.Tends marked h e)
    (said : e.said = .called (.get .clusters (.string S.ns) (.string S.name)) reply)
    (failed : ∀ status reason, reply = .refused status reason → status.isNumber 404 = false → ∃ f, r = .ok (.failed f))
    (done : e.said.fails = false → e.said.legible → r = .ok .done)
    (served : ∀ o, reply = .ok o → e.said.legible → SaysProvisioned o) :
    Conduct S c marked [e] r ∧ Keeps S marked [e] e.after := by
  obtain ⟨sound', flagged', object⟩ := tends.of_get said sound flagged
  have here : e ∈ [e] := List.mem_singleton_self e
  refine ⟨⟨List.forall_mem_singleton.2 (fits_get tends said failed), List.countP_le_length,
    fun _ unfailed legible => done (unfailed e here) (legible e here), fun taken legible => ?_⟩,
    sound', fun why => flagged' (why.resolve_right ?_)⟩
  · have taken := taken e here
    rw [said] at taken
    cases reply with
    | ok o => exact ⟨done (by rw [said]; rfl) (legible e here), e, o, rfl, object o rfl, served o rfl (legible e here)⟩
    | refused => cases taken
  · rintro ⟨_, mem, accepted⟩
    cases List.mem_singleton.1 mem
    rw [said] at accepted
    cases accepted

theorem not_taken {call : Store.Call} {status reason : Value} (said : e.said = .called call (.refused status reason)) :
    ¬∀ e' ∈ [e], e'.said.refused = false := by
  intro taken
  have taken := taken e (List.mem_singleton_self e)
  rw [said] at taken
  cases taken

/-- an invocation that finds a cluster that is not provisioned -/
theorem conduct_of_publishes (sound : h.Sound S) (object : h.object = some o) (read : Cluster.ofValue o = .ok k)
    (new : k.provisioned = false) (publishes : Publishes (S.Tends false) h c k es r h') :
    (∀ e ∈ es, Fits S c false r e) ∧ es.length ≤ 1 ∧ Keeps S false es h' ∧
      ((∀ e ∈ es, e.said.refused = false) → r = .ok .done ∧ EndsWith es SaysProvisioned) := by
  obtain ⟨shaped, known⟩ := sound o object
  have readFrom := Cluster.read_of_ofValue shaped read
  obtain ⟨ns, name, version⟩ := readFrom.place shaped
  cases publishes with
  | unwritable failed =>
    obtain ⟨x, laid, -⟩ := Cluster.exists_written (k := markProvisioned c.now k) shaped readFrom.stored version
    cases laid.symm.trans failed
  | unreadable laid said happens failed =>
    rw [ns, name] at said
    obtain ⟨-, ⟨k', read'⟩, -⟩ := provisions_of_accepted sound object read new laid happens said
    cases read'.symm.trans failed
  | written laid said happens read' =>
    rw [ns, name] at said
    obtain ⟨provisions, -, sound', flagged'⟩ := provisions_of_accepted sound object read new laid happens said
    have ⟨_, _, o', _, _, after, _⟩ := provisions
    have fits : Fits S c false (.ok .done) _ :=
      ⟨fun _ => ⟨rfl, provisions⟩, by rw [said]; nofun, by rw [said]; nofun, by rw [said]; nofun, nofun⟩
    have left : EndsWith [_] SaysProvisioned := ⟨_, o', rfl, after, flagged' o' after⟩
    exact ⟨List.forall_mem_singleton.2 fits, le_rfl, ⟨sound', fun _ => flagged'⟩, fun _ => ⟨rfl, left⟩⟩
  | lost laid said happens conflict =>
    rw [ns, name] at said
    obtain ⟨fits, keeps⟩ := fits_refused (r := .ok c.step) sound happens said (fun _ => rfl) fun other => by
      rw [conflict] at other
      cases other
    exact ⟨List.forall_mem_singleton.2 fits, le_rfl, keeps, fun taken => absurd taken (not_taken said)⟩
  | @refused e x status reason laid said happens other =>
    rw [ns, name] at said
    obtain ⟨fits, keeps⟩ := fits_refused (c := c) (r := .ok (.failed (.store (.refused "update FreeboxCluster status" k.key
      status reason)))) sound happens said (fun conflict => by rw [other] at conflict; cases conflict) fun _ => ⟨_, rfl⟩
    exact ⟨List.forall_mem_singleton.2 fits, le_rfl, keeps, fun taken => absurd taken (not_taken said)⟩

/-- what an invocation does, by what it comes to -/
theorem conduct_of_course (course : Course (S.Tends marked) h c S.ns S.name es r h') (sound : h.Sound S)
    (flagged : marked = true → Flagged h) : Conduct S c marked es r ∧ Keeps S marked es h' := by
  cases course with
  | missing said happens gone =>
    refine conduct_of_get sound flagged happens said (fun status reason same other => ?_) (fun _ _ => rfl) nofun
    cases same
    rw [gone] at other
    cases other
  | unfetched said happens other =>
    refine conduct_of_get sound flagged happens said (fun _ _ _ _ => ⟨_, rfl⟩) (fun unfailed _ => ?_) nofun
    rw [said, Exchange.fails, other] at unfailed
    cases unfailed
  | @unreadable e o f said happens failed =>
    have illegible : ¬e.said.legible := by
      rw [said]
      rintro ⟨k, read⟩
      cases read.symm.trans failed
    exact conduct_of_get sound flagged happens said nofun (fun _ legible => absurd legible illegible)
      fun _ _ legible => absurd legible illegible
  | @known e o k said happens read provisioned =>
    refine conduct_of_get sound flagged happens said nofun (fun _ _ => rfl) fun _ same _ => ?_
    cases same
    obtain ⟨sound', -, object⟩ := happens.of_get said sound flagged
    exact (Cluster.read_of_ofValue (sound' o (object o rfl)).1 read).provisioned_iff.2 provisioned
  | @published e o k es r h' said happens read new publishes =>
    obtain ⟨sound', flagged', object⟩ := happens.of_get said sound flagged
    have object := object o rfl
    cases marked with
    | true =>
      have readFrom := Cluster.read_of_ofValue (sound' o object).1 read
      rw [readFrom.provisioned_iff.1 (flagged' rfl o object)] at new
      cases new
    | false =>
      obtain ⟨fits, one, keeps, served⟩ := conduct_of_publishes sound' object read new publishes
      have fetched : Fits S c false r e := fits_get happens said nofun
      refine ⟨⟨List.forall_mem_cons.2 ⟨fetched, fits⟩, ?_, nofun, fun taken _ => ?_⟩, keeps.sound,
        fun why => keeps.flagged (why.imp_right ?_)⟩
      · rw [List.countP_cons_of_neg (by rw [said]; nofun)]
        exact List.countP_le_length.trans one
      · obtain ⟨done, e', o', last, left⟩ := served fun e' mem => taken e' (List.mem_cons_of_mem _ mem)
        exact ⟨done, e', o', by rw [List.getLast?_cons, last]; rfl, left⟩
      · rintro ⟨e', mem, accepted⟩
        refine ⟨e', (List.mem_cons.1 mem).resolve_left fun same => ?_, accepted⟩
        rw [same, said] at accepted
        cases accepted

/-- the invocations so far, and what the store holds after them; the cluster is marked once a write of it was accepted -/
inductive ClusterRun (S : Scene) (start : Held) : List Invocation → Held → Prop
  | nil : ClusterRun S start [] start
  | snoc {past : List Invocation} {h h' : Held} {c : Context} {es : List Event} {r : Except Failure Outcome}
      (run : ClusterRun S start past h)
      (plays : World.Plays (S.Tends ((events past).any (·.said.accepts))) h (cluster c S.ns S.name).run es r h') :
      ClusterRun S start (past ++ [⟨c, es, r⟩]) h'

structure ProvisionedOnce (S : Scene) (past : List Invocation) : Prop where
  once : (events past).countP (·.said.accepts) ≤ 1
  written : ∀ i ∈ past, ∀ e ∈ i.events, e.said.accepts = true → i.result = .ok .done ∧ Provisions S i.context.now e
  conflict : ∀ i ∈ past, ∀ e ∈ i.events, e.said.conflicts = true → i.result = .ok i.context.step
  failed : ∀ i ∈ past, ∀ e ∈ i.events, e.said.fails = true → ∃ f, i.result = .ok (.failed f)
  still : ∀ i ∈ past, i.result ≠ .ok .done → ∀ e ∈ i.events, e.after = e.before
  after : ∀ before i later, past = before ++ i :: later → (events before).any (·.said.accepts) = true →
    (∀ e ∈ i.events, e.said.content? = none) ∧
      ((∀ e ∈ i.events, e.said.fails = false) → (∀ e ∈ i.events, e.said.legible) → i.result = .ok .done)
  served : ∀ i ∈ past, (∀ e ∈ i.events, e.said.refused = false) → (∀ e ∈ i.events, e.said.legible) →
    i.result = .ok .done ∧ EndsWith i.events SaysProvisioned

theorem accepts_of_silent {x : Exchange} (silent : x.content? = none) : ¬x.accepts = true := by
  cases x with
  | sent => nofun
  | called call reply =>
    cases call with
    | get | list => nofun
    | replace | replaceStatus => cases silent

theorem ProvisionedOnce.nil : ProvisionedOnce S [] where
  once := Nat.zero_le _
  written := List.forall_mem_nil _
  conflict := List.forall_mem_nil _
  failed := List.forall_mem_nil _
  still := List.forall_mem_nil _
  after before i later split := by simp at split
  served := List.forall_mem_nil _

theorem ProvisionedOnce.snoc {past : List Invocation} (once : ProvisionedOnce S past)
    (conduct : Conduct S c ((events past).any (·.said.accepts)) es r) : ProvisionedOnce S (past ++ [⟨c, es, r⟩]) := by
  refine ⟨?_, forall_snoc once.written fun e mem accepted => (conduct.each e mem).written accepted,
    forall_snoc once.conflict fun e mem lost => (conduct.each e mem).conflict lost,
    forall_snoc once.failed fun e mem failed => (conduct.each e mem).failed failed,
    forall_snoc once.still fun other e mem => (conduct.each e mem).still (Bool.eq_false_iff.2 fun accepted => ?_), ?_,
    forall_snoc once.served conduct.served⟩
  · rw [events_snoc, List.countP_append]
    by_cases marked : (events past).any (·.said.accepts) = true
    · have none : es.countP (·.said.accepts) = 0 :=
        List.countP_eq_zero.2 fun e mem => accepts_of_silent ((conduct.each e mem).silent marked)
      rw [none]
      exact once.once
    · have none : (events past).countP (·.said.accepts) = 0 := by
        rw [List.countP_eq_zero]
        simpa using marked
      rw [none, Nat.zero_add]
      exact conduct.once
  · exact other ((conduct.each e mem).written accepted).1
  · exact forall_split_snoc once.after fun marked => ⟨fun e mem => (conduct.each e mem).silent marked, conduct.done marked⟩

/-- Whatever others write and the store refuses, as long as nobody else writes the cluster without the flag once it was
marked: at most one write of the whole run is accepted. What it sends and what it leaves are the object stored just before
it, with the flags set, the condition for that met and every other one in its place, and nothing outside the status is
another but the version. An invocation whose write came second asks to be called again, one with another refusal fails, and
both leave what others have left. After the accepted write nothing is sent, and an invocation is done, unless its fetch is
refused or what others have left cannot be read. -/
theorem provisioned_once {start : Held} {past : List Invocation} (run : ClusterRun S start past h) (sound : start.Sound S) :
    ProvisionedOnce S past := by
  suffices h.Sound S ∧ ((events past).any (·.said.accepts) = true → Flagged h) ∧ ProvisionedOnce S past from this.2.2
  induction run with
  | nil =>
    exact ⟨sound, fun marked => absurd marked Bool.false_ne_true, .nil⟩
  | snoc run plays ih =>
    obtain ⟨sound, flagged, once⟩ := ih
    obtain ⟨conduct, keeps⟩ := conduct_of_course (cluster_course _ _ _ _ _ _ plays) sound flagged
    refine ⟨keeps.sound, fun marked => keeps.flagged ?_, once.snoc conduct⟩
    rw [events_snoc, List.any_append, Bool.or_eq_true] at marked
    exact marked.imp_right List.any_eq_true.1

section Sample

/-- a cluster that nothing was done for yet, with a note in its status -/
def sampleCluster : Value := .object [
  ("metadata", .object [("namespace", .string "default"), ("name", .string "worker"), ("resourceVersion", .string "1")]),
  ("spec", .object [("host", .string "192.168.1.10")]),
  ("status", .object [("note", .string "rack 2"),
    ("conditions", .array [.object [("type", .string "Reachable"), ("status", .string "True")]])])]

def sampleContext : Context := ⟨{}, ⟨"/downloads", "/disks"⟩, "2024-01-01T00:00:00Z"⟩

def sampleSent : Value :=
  ((Cluster.ofValue sampleCluster >>= fun k => (markProvisioned sampleContext.now k).toValue).toOption).getD .null

def sampleMarked : Value := Stored.restated (.string "2") sampleSent sampleCluster

def sampleBefore : Held := ⟨some sampleCluster, [.string "1"]⟩

def sampleAfter : Held := ⟨some sampleMarked, [.string "2", .string "1"]⟩

def sampleFetch (h : Held) (reply : Store.Reply) : Event :=
  ⟨.called (.get .clusters (.string "default") (.string "worker")) reply, h, h⟩

def sampleSend (reply : Store.Reply) (h : Held) : Event :=
  ⟨.called (.replaceStatus .clusters (.string "default") (.string "worker") sampleSent) reply, sampleBefore, h⟩

def sampleLost : Invocation := ⟨sampleContext,
  [sampleFetch sampleBefore (.ok sampleCluster), sampleSend (.refused (.int 409) .null) sampleBefore], .ok sampleContext.step⟩

def sampleTaken : Invocation := ⟨sampleContext,
  [sampleFetch sampleBefore (.ok sampleCluster), sampleSend (.ok sampleMarked) sampleAfter], .ok .done⟩

def sampleRefused : Invocation := ⟨sampleContext, [sampleFetch sampleAfter (.refused (.int 500) .null)],
  .ok (.failed (.store (.refused "get FreeboxCluster" "default/worker" (.int 500) .null)))⟩

def sampleDone : Invocation := ⟨sampleContext, [sampleFetch sampleAfter (.ok sampleMarked)], .ok .done⟩

/-- the flag as it was, and conditions that are none -/
def sampleGarbled : Value := .object [
  ("metadata", .object [("namespace", .string "default"), ("name", .string "worker"), ("resourceVersion", .string "3")]),
  ("status", .object [("initialization", .object [("provisioned", .bool true)]), ("conditions", .array [.string "Reachable"])])]

def sampleLast : Held := ⟨some sampleGarbled, [.string "3", .string "2", .string "1"]⟩

def sampleUnread : Invocation :=
  ⟨sampleContext, [sampleFetch sampleLast (.ok sampleGarbled)], .error (.wrongType (.fieldOf (.string "Reachable")))⟩

def sampleRun : List Invocation := [sampleLost, sampleTaken, sampleRefused, sampleDone, sampleUnread]

def sampleScene : Scene := ⟨"default", "worker", fun _ _ => False⟩

theorem sampleBefore_sound : sampleBefore.Sound sampleScene := Held.sound_single ⟨rfl, rfl, rfl, rfl, rfl⟩

theorem sampleRun_runs : ClusterRun sampleScene sampleBefore sampleRun sampleLast := by
  have fetched {marked : Bool} {h : Held} {o : Value} (object : h.object = some o) :
      sampleScene.Tends marked h (sampleFetch h (.ok o)) := .called _ _ .still (.got o object)
  have refused {marked : Bool} {h : Held} (c : Store.Call) (status : Value) :
      sampleScene.Tends marked h ⟨.called c (.refused status .null), h, h⟩ := .called _ _ .still (.refused c status .null)
  have taken : sampleScene.Tends false sampleBefore (sampleSend (.ok sampleMarked) sampleAfter) :=
    .called _ _ .still (.restated _ _ _ rfl (by decide +kernel) (by decide +kernel) (by decide +kernel))
  have spared : sampleScene.SparesFlag true sampleAfter sampleLast :=
    .wrote .still (by decide +kernel) (by decide +kernel) fun _ => ⟨.bool true, rfl, rfl⟩
  have played (marked : Bool) {h h' : Held} {i : Invocation} (passes : World.Passes (sampleScene.Tends marked) h i.events h')
      (along : (cluster i.context "default" "worker").run.along (i.events.map (·.said)) = some i.result) :
      World.Plays (sampleScene.Tends marked) h (cluster i.context "default" "worker").run i.events i.result h' := passes.plays along
  have lost := played false (i := sampleLost) (.cons (fetched rfl) (.cons (refused _ _) (.nil _))) (by decide +kernel)
  have won := played false (i := sampleTaken) (.cons (fetched rfl) (.cons taken (.nil _))) (by decide +kernel)
  have failed := played true (i := sampleRefused) (.cons (refused _ _) (.nil _)) (by decide +kernel)
  have done := played true (i := sampleDone) (.cons (fetched rfl) (.nil _)) (by decide +kernel)
  have unread := played true (i := sampleUnread) (h := sampleAfter) (.cons (.called _ _ spared (.got _ rfl)) (.nil _))
    (by decide +kernel)
  exact ((((ClusterRun.nil.snoc lost).snoc won).snoc failed).snoc done).snoc unread

/-- the write that comes second is sent again, the flag outlasts a refusal, and one write is accepted in all -/
theorem provisioned_once_contested : ClusterRun sampleScene sampleBefore sampleRun sampleLast ∧ sampleBefore.Sound sampleScene ∧
    (events sampleRun).countP (·.said.accepts) = 1 ∧ ProvisionedOnce sampleScene sampleRun :=
  ⟨sampleRun_runs, sampleBefore_sound, by decide +kernel, provisioned_once sampleRun_runs sampleBefore_sound⟩

/-- after the accepted write an invocation may still fail, or find what cannot be read; and what there was in the status
beside the operator's own fields is lost with that write -/
theorem not_done_ever_after :
    (¬∀ (S : Scene) (start h : Held) (past : List Invocation), ClusterRun S start past h → start.Sound S →
      ∀ before i later, past = before ++ i :: later → (events before).any (·.said.accepts) = true → i.result = .ok .done) ∧
    (¬∀ (S : Scene) (start h : Held) (past : List Invocation), ClusterRun S start past h → start.Sound S →
      ∀ before i later, past = before ++ i :: later → (events before).any (·.said.accepts) = true →
        (∀ e ∈ i.events, e.said.fails = false) → i.result = .ok .done) ∧
    ¬∀ (S : Scene) (start h : Held) (past : List Invocation), ClusterRun S start past h → start.Sound S →
      ∀ e ∈ events past, e.said.accepts = true → ∀ o o' key, e.before.object = some o → e.after.object = some o' →
        key ∉ ["ready", "initialization", "conditions"] → o'.under? ["status", key] = o.under? ["status", key] := by
  refine ⟨fun claimed => ?_, fun claimed => ?_, fun claimed => ?_⟩
  · have done := claimed _ _ _ _ sampleRun_runs sampleBefore_sound [sampleLost, sampleTaken] sampleRefused
      [sampleDone, sampleUnread] rfl rfl
    cases done
  · have done := claimed _ _ _ _ sampleRun_runs sampleBefore_sound [sampleLost, sampleTaken, sampleRefused, sampleDone]
      sampleUnread [] rfl rfl (List.forall_mem_singleton.2 rfl)
    cases done
  · have mem : sampleSend (.ok sampleMarked) sampleAfter ∈ events sampleRun :=
      List.mem_flatMap.2 ⟨sampleTaken, .tail _ (.head _), .tail _ (.head _)⟩
    have kept := claimed _ _ _ _ sampleRun_runs sampleBefore_sound _ mem rfl _ _ "note" rfl rfl (by decide)
    exact absurd kept (by decide +kernel)

end Sample

end Reconcile

end VmOperator
