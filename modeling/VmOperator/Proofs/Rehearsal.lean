import VmOperator.Proofs.Run

/-! Runs that can be played through: every question has its cue, and nobody else writes. What was rehearsed
is a run of the scene (`run_of_rehearse`), so that a run can be shown by evaluating it. -/

namespace VmOperator

/-- what a question is answered with; the store in order needs only the version of the next write -/
inductive Cue where
  | reply (reply : Appliance.Reply)
  | refusal (status reason : Value)
  | elsewhere (reply : Store.Reply)
  | inOrder (version : Value)

namespace Scene

variable {α : Type} (S : Scene)

instance (c : Store.Call) : Decidable (S.IsOwn c) := by
  cases c <;> unfold IsOwn <;> infer_instance

instance (ns name : String) (o : Value) : Decidable (Stored.Shaped ns name o) :=
  decidable_of_iff (o = .object (Bench.fieldsOf o) ∧
      (Bench.fieldsOf o).get? "metadata" = some (.object (Stored.metadataOf o)) ∧
      (Stored.metadataOf o).get? "namespace" = some (.string ns) ∧
      (Stored.metadataOf o).get? "name" = some (.string name) ∧ (Stored.version o).isTruthy = true)
    ⟨fun ⟨isObject, metadata, ns, name, version⟩ => ⟨isObject, metadata, ns, name, version⟩,
      fun ⟨isObject, metadata, ns, name, version⟩ => ⟨isObject, metadata, ns, name, version⟩⟩

instance (h : Held) : Decidable (h.Sound S) :=
  match found : h.object with
  | none => isTrue fun o object => absurd (found.symm.trans object) nofun
  | some o => decidable_of_iff (Stored.Shaped S.ns S.name o ∧ Stored.version o ∈ h.versions) <| by
    simp only [Held.Sound, found, Option.some.injEq, forall_eq']

/-- the stored object, if a write made from `x` may replace it under version `v` -/
def current (h : Held) (x v : Value) : Option Value :=
  h.object.filter fun o => Stored.version x = Stored.version o ∧ v.isTruthy = true ∧ v ∉ h.versions

/-- the store's answer on a cue, and what it holds then -/
def heed (h : Held) (c : Store.Call) : Cue → Option (Store.Reply × Held)
  | .reply _ => none
  | .refusal status reason => some (.refused status reason, h)
  | .elsewhere reply => if S.IsOwn c then none else some (reply, h)
  | .inOrder v =>
    if S.IsOwn c then
      match c with
      | .get .. => h.object.map fun o => (.ok o, h)
      | .replace _ _ _ x => (current h x v).map fun o =>
        (.ok (Stored.replaced v x o), ⟨left (Stored.replaced v x o), v :: h.versions⟩)
      | .replaceStatus _ _ _ x => (current h x v).map fun o =>
        (.ok (Stored.restated v x o), ⟨some (Stored.restated v x o), v :: h.versions⟩)
      | .list .. => none
    else none

/-- the events of a program on its cues, its result, and what the store holds in the end -/
def rehearse : Program α → Held → List Cue → Option (List Event × α × Held)
  | .done a, h, _ => some ([], a, h)
  | .send r next, h, .reply reply :: cues =>
    (rehearse (next reply) h cues).map fun (es, rest) => (⟨.sent r reply, h, h⟩ :: es, rest)
  | .call c next, h, cue :: cues =>
    (S.heed h c cue).bind fun (reply, h') =>
      (rehearse (next reply) h' cues).map fun (es, rest) => (⟨.called c reply, h, h'⟩ :: es, rest)
  | _, _, _ => none

/-- the invocations of a run on their cues, and what the store holds in the end -/
def rehearseAll (h : Held) : List (Context × List Cue) → Option (List Reconcile.Invocation × Held)
  | [] => some ([], h)
  | (c, cues) :: rest =>
    (S.rehearse (Reconcile.machine c S.ns S.name).run h cues).bind fun (es, r, h') =>
      (rehearseAll h' rest).map fun (is, last) => (⟨c, es, r⟩ :: is, last)

variable {S} {h h' : Held} {a : α}

theorem current_spec {x v o : Value} (found : current h x v = some o) :
    h.object = some o ∧ Stored.version x = Stored.version o ∧ v.isTruthy = true ∧ v ∉ h.versions := by
  obtain ⟨object, allowed⟩ := Option.filter_eq_some_iff.1 found
  exact ⟨object, of_decide_eq_true allowed⟩

theorem heed_answers {c : Store.Call} {cue : Cue} {reply : Store.Reply} (heeded : S.heed h c cue = some (reply, h')) :
    S.Answers h c reply h' := by
  cases cue with
  | reply => cases heeded
  | refusal =>
    cases heeded
    exact .refused ..
  | elsewhere =>
    obtain ⟨other, same⟩ := Option.ite_none_left_eq_some.1 heeded
    cases same
    exact .elsewhere _ _ other
  | inOrder v =>
    obtain ⟨own, heeded⟩ := Option.ite_none_right_eq_some.1 heeded
    cases c with
    | list => cases heeded
    | get =>
      obtain ⟨rfl, rfl, rfl⟩ := own
      obtain ⟨o, object, same⟩ := Option.map_eq_some_iff.1 heeded
      cases same
      exact .got o object
    | replace =>
      obtain ⟨rfl, rfl, rfl⟩ := own
      obtain ⟨o, found, same⟩ := Option.map_eq_some_iff.1 heeded
      obtain ⟨object, version, set, fresh⟩ := current_spec found
      cases same
      exact .replaced _ o v object version set fresh
    | replaceStatus =>
      obtain ⟨rfl, rfl, rfl⟩ := own
      obtain ⟨o, found, same⟩ := Option.map_eq_some_iff.1 heeded
      obtain ⟨object, version, set, fresh⟩ := current_spec found
      cases same
      exact .restated _ o v object version set fresh

theorem plays_of_rehearse {p : Program α} {cues : List Cue} {es : List Event} (played : S.rehearse p h cues = some (es, a, h')) :
    S.Plays h p es a h' := by
  induction p generalizing h cues es with
  | done =>
    cases played
    exact .done ..
  | send r next ih =>
    match cues with
    | .reply reply :: cues =>
      obtain ⟨⟨es, rest⟩, played, same⟩ := Option.map_eq_some_iff.1 played
      cases same
      exact .send rfl (.sent r reply .still) (ih reply played)
    | [] | .refusal .. :: _ | .elsewhere _ :: _ | .inOrder _ :: _ => cases played
  | call c next ih =>
    match cues with
    | [] => cases played
    | cue :: cues =>
      obtain ⟨⟨reply, h''⟩, heeded, played⟩ := Option.bind_eq_some_iff.1 played
      obtain ⟨⟨es, rest⟩, played, same⟩ := Option.map_eq_some_iff.1 played
      cases same
      exact .call rfl (.called c reply .still (heed_answers heeded)) (ih reply played)

theorem exists_plays (S : Scene) (p : Program α) (h : Held) (cues : List Cue) (seen : List Event × α × Held → Bool)
    (played : (S.rehearse p h cues).any seen = true) :
    ∃ es a h', S.Plays h p es a h' ∧ seen (es, a, h') = true := by
  obtain ⟨⟨es, a, h'⟩, rehearsed, holds⟩ := (Option.any_eq_true ..).1 played
  exact ⟨es, a, h', plays_of_rehearse rehearsed, holds⟩

theorem run_of_rehearse {start : Held} {past is : List Reconcile.Invocation} {cues : List (Context × List Cue)}
    (run : Reconcile.Run S start past h) (played : S.rehearseAll h cues = some (is, h')) :
    Reconcile.Run S start (past ++ is) h' := by
  induction cues generalizing past h is with
  | nil =>
    cases played
    rwa [List.append_nil]
  | cons cue cues ih =>
    obtain ⟨⟨es, r, h''⟩, first, played⟩ := Option.bind_eq_some_iff.1 played
    obtain ⟨⟨is, last⟩, played, same⟩ := Option.map_eq_some_iff.1 played
    cases same
    rw [List.append_cons]
    exact ih (.snoc run (plays_of_rehearse first)) played

theorem exists_run (start : Held) (cues : List (Context × List Cue)) (p : List Reconcile.Invocation × Held → Bool)
    (played : (S.rehearseAll start cues).any p = true) :
    ∃ past h, Reconcile.Run S start past h ∧ p (past, h) = true := by
  obtain ⟨⟨past, h⟩, rehearsed, holds⟩ := (Option.any_eq_true ..).1 played
  exact ⟨past, h, run_of_rehearse .nil rehearsed, holds⟩

end Scene

namespace Cue

def result (v : Value) : Cue := .reply (.answer (.int 200) (some (.object [("success", .bool true), ("result", v)])))

/-- a task, or a virtual machine, with its number -/
def numbered (n : Int) (more : Fields := []) : Cue := result (.object (("id", .int n) :: more))

def gives : Cue := .inOrder .null

def takes (version : String) : Cue := .inOrder (.string version)

end Cue

namespace Sample

/-- a machine with its finalizer and an owner that nothing was done for yet -/
def object : Value := .object [
  ("metadata", .object [("namespace", .string "default"), ("name", .string "worker"), ("resourceVersion", .string "1"),
    ("finalizers", .array [Machine.finalizerValue]),
    ("ownerReferences", .array [.object [("kind", .string "Machine"), ("name", .string "worker"),
      ("apiVersion", .string "cluster.x-k8s.io/v1beta2")]])]),
  ("spec", .object [("imageURL", .string "http://images/disk.raw"), ("name", .string "worker"), ("vcpus", .int 1),
    ("memoryMB", .int 1024), ("diskSizeGB", .int 10)])]

def held : Held := ⟨some object, [.string "1"]⟩

def alone : Scene := ⟨"default", "worker", fun _ _ => False⟩

theorem sound (allows : Value → Value → Prop) : held.Sound ⟨"default", "worker", allows⟩ :=
  Held.sound_single ⟨rfl, rfl, rfl, rfl, rfl⟩

def context : Context := ⟨{}, ⟨"/downloads", "/disks"⟩, "2024-01-01T00:00:00Z"⟩

/-- download, copy, move and resize, each submitted and then polled; the last poll goes on to `rest` -/
def imaging (rest : List Cue) : List (Context × List Cue) := [
  (context, [.gives, .numbered 7, .takes "2"]),
  (context, [.gives, .numbered 7 [("status", .string "done")], .takes "3"]),
  (context, [.gives, .numbered 8, .takes "4"]),
  (context, [.gives, .numbered 8 [("state", .string "done")], .takes "5"]),
  (context, [.gives, .numbered 9, .takes "6"]),
  (context, [.gives, .numbered 9 [("state", .string "done")], .takes "7"]),
  (context, [.gives, .numbered 10, .takes "8"]),
  (context, [.gives, .numbered 10 [("done", .bool true)], .takes "9"] ++ rest)]

/-- the owner and its secret, then the order -/
def ordering (number : Int) : List Cue := [
  .elsewhere (.ok (.object [("spec", .object [("bootstrap", .object [("dataSecretName", .string "boot")])])])),
  .elsewhere (.ok (.object [("data", .object [("value", .string "YWJj")])])),
  .numbered number]

/-- the record of the first order is lost, the second one is recorded and started -/
def provisioning : List (Context × List Cue) :=
  imaging (ordering 11 ++ [.refusal (.int 500) .null]) ++
    [(context, [.gives] ++ ordering 12 ++ [.takes "10", .takes "11", .result .null, .numbered 12])]

end Sample

end VmOperator
