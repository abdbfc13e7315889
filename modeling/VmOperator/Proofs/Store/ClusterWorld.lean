import VmOperator.Proofs.Resource.Clusters
import VmOperator.Proofs.Store.Contested

/-! The store as the operator meets a cluster there, among writers who are held to one thing: once the operator has marked
the cluster, they leave the flag (`Scene.SparesFlag`). The store takes a status only when it was made from the stored
version, and whatever it refuses is left as it is. -/

namespace VmOperator

open Stored (Shaped)

namespace Scene

open Store (Call Reply)

variable {S : Scene} {h h' h'' : Held} {marked : Bool}

def IsOwnCluster (S : Scene) : Call → Prop
  | .get k ns name | .replace k ns name _ | .replaceStatus k ns name _ =>
    k = .clusters ∧ ns = .string S.ns ∧ name = .string S.name
  | .list .. => False

/-- others write as they like; once the cluster was marked, what they write still says that it is provisioned -/
inductive SparesFlag (S : Scene) (marked : Bool) (h : Held) : Held → Prop
  | still : SparesFlag S marked h h
  | wrote {h' : Held} {o : Value} (before : SparesFlag S marked h h') (shaped : Shaped S.ns S.name o)
      (fresh : Stored.version o ∉ h'.versions) (kept : marked = true → SaysProvisioned o) :
      SparesFlag S marked h ⟨some o, Stored.version o :: h'.versions⟩
  | removed {h' : Held} (before : SparesFlag S marked h h') : SparesFlag S marked h ⟨none, h'.versions⟩

/-- the answers to a call and what the store holds then: any call may be refused, and a status is replaced only by one that
was made from the stored version -/
inductive ClusterAnswers (S : Scene) (h : Held) : Call → Reply → Held → Prop
  | refused (c : Call) (status reason : Value) : ClusterAnswers S h c (.refused status reason) h
  | elsewhere (c : Call) (reply : Reply) (other : ¬S.IsOwnCluster c) : ClusterAnswers S h c reply h
  | got (o : Value) (object : h.object = some o) :
      ClusterAnswers S h (.get .clusters (.string S.ns) (.string S.name)) (.ok o) h
  | replaced (x o v : Value) (object : h.object = some o) (current : Stored.version x = Stored.version o)
      (set : v.isTruthy = true) (fresh : v ∉ h.versions) :
      ClusterAnswers S h (.replace .clusters (.string S.ns) (.string S.name) x) (.ok (Stored.replaced v x o))
        ⟨left (Stored.replaced v x o), v :: h.versions⟩
  | restated (x o v : Value) (object : h.object = some o) (current : Stored.version x = Stored.version o)
      (set : v.isTruthy = true) (fresh : v ∉ h.versions) :
      ClusterAnswers S h (.replaceStatus .clusters (.string S.ns) (.string S.name) x) (.ok (Stored.restated v x o))
        ⟨some (Stored.restated v x o), v :: h.versions⟩

/-- what may happen next to the cluster, from what the store held after the event before -/
inductive Tends (S : Scene) (marked : Bool) (h : Held) : Event → Prop
  | sent (r : Appliance.Request) (reply : Appliance.Reply) {h' : Held} (spared : S.SparesFlag marked h h') :
      Tends S marked h ⟨.sent r reply, h', h'⟩
  | called (c : Call) (reply : Reply) {h' h'' : Held} (spared : S.SparesFlag marked h h')
      (answer : S.ClusterAnswers h' c reply h'') : Tends S marked h ⟨.called c reply, h', h''⟩

theorem SparesFlag.meddles (spared : S.SparesFlag marked h h') : S.Meddles h h' := by
  induction spared with
  | still => exact .still
  | wrote _ shaped fresh _ ih => exact .wrote ih shaped fresh
  | removed _ ih => exact .removed ih

theorem ClusterAnswers.of_get {reply : Reply}
    (answer : S.ClusterAnswers h' (.get .clusters (.string S.ns) (.string S.name)) reply h'') :
    h'' = h' ∧ ∀ o, reply = .ok o → h'.object = some o := by
  cases answer with
  | refused => exact ⟨rfl, nofun⟩
  | elsewhere _ _ other => exact absurd ⟨rfl, rfl, rfl⟩ other
  | got o object =>
    refine ⟨rfl, ?_⟩
    rintro _ ⟨⟩
    exact object

theorem ClusterAnswers.of_replaceStatus {reply : Reply} {x : Value}
    (answer : S.ClusterAnswers h' (.replaceStatus .clusters (.string S.ns) (.string S.name) x) reply h'') :
    (∃ status reason, reply = .refused status reason ∧ h'' = h') ∨
      ∃ o v, h'.object = some o ∧ Stored.version x = Stored.version o ∧ v.isTruthy = true ∧
        reply = .ok (Stored.restated v x o) ∧ h'' = ⟨some (Stored.restated v x o), v :: h'.versions⟩ := by
  cases answer with
  | refused _ status reason => exact .inl ⟨status, reason, rfl, rfl⟩
  | elsewhere _ _ other => exact absurd ⟨rfl, rfl, rfl⟩ other
  | restated _ o v object current set fresh => exact .inr ⟨o, v, object, current, set, rfl, rfl⟩

theorem Tends.of_called {e : Event} {c : Call} {reply : Reply} (tends : S.Tends marked h e) (said : e.said = .called c reply) :
    S.SparesFlag marked h e.before ∧ S.ClusterAnswers e.before c reply e.after := by
  cases tends with
  | sent => cases said
  | called _ _ spared answer =>
    cases said
    exact ⟨spared, answer⟩

def Flagged (h : Held) : Prop := ∀ o, h.object = some o → SaysProvisioned o

theorem SparesFlag.flagged (spared : S.SparesFlag true h h') (flagged : Flagged h) : Flagged h' := by
  induction spared with
  | still => exact flagged
  | wrote _ _ _ kept _ =>
    rintro _ ⟨⟩
    exact kept rfl
  | removed => exact nofun

/-- a fetch leaves what others have left -/
theorem Tends.of_get {e : Event} {reply : Reply} (tends : S.Tends marked h e)
    (said : e.said = .called (.get .clusters (.string S.ns) (.string S.name)) reply) (sound : h.Sound S)
    (flagged : marked = true → Flagged h) :
    e.after.Sound S ∧ (marked = true → Flagged e.after) ∧ ∀ o, reply = .ok o → e.after.object = some o := by
  obtain ⟨spared, answer⟩ := tends.of_called said
  obtain ⟨still, found⟩ := answer.of_get
  rw [still]
  refine ⟨spared.meddles.sound sound, ?_, found⟩
  rintro rfl
  exact spared.flagged (flagged rfl)

end Scene

end VmOperator
