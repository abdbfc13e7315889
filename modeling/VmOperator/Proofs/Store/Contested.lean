import VmOperator.Proofs.Store.World
import VmOperator.Proofs.Store.Copy

/-! The store among writers who are held to nothing: before every question they may change any part of
the object, remove it and make it anew, as long as what they write has a version of its own. The store
itself is in order, as in a scene: it takes a replacement only when that was made from the stored version. -/

namespace VmOperator.Scene

/-- others change, remove or make the object any number of times -/
inductive Meddles (S : Scene) (h : Held) : Held → Prop
  | still : Meddles S h h
  | wrote {h' : Held} {o : Value} (before : Meddles S h h') (shaped : Stored.Shaped S.ns S.name o)
      (fresh : Stored.version o ∉ h'.versions) : Meddles S h ⟨some o, Stored.version o :: h'.versions⟩
  | removed {h' : Held} (before : Meddles S h h') : Meddles S h ⟨none, h'.versions⟩

/-- what may happen next where others write as they like -/
inductive Contests (S : Scene) (h : Held) : Event → Prop
  | sent (r : Appliance.Request) (reply : Appliance.Reply) {h' : Held} (meddled : S.Meddles h h') :
      Contests S h ⟨.sent r reply, h', h'⟩
  | called (c : Store.Call) (reply : Store.Reply) {h' h'' : Held} (meddled : S.Meddles h h')
      (answer : S.Answers h' c reply h'') : Contests S h ⟨.called c reply, h', h''⟩

variable {S : Scene} {h h' h'' : Held}

namespace Meddles

theorem trans (first : S.Meddles h h') (second : S.Meddles h' h'') : S.Meddles h h'' := by
  induction second with
  | still => exact first
  | wrote _ shaped fresh ih => exact .wrote ih shaped fresh
  | removed _ ih => exact .removed ih

theorem versions (meddled : S.Meddles h h') {v : Value} (known : v ∈ h.versions) : v ∈ h'.versions := by
  induction meddled with
  | still => exact known
  | wrote _ _ _ ih => exact List.mem_cons_of_mem _ ih
  | removed _ ih => exact ih

theorem sound (meddled : S.Meddles h h') (sound : h.Sound S) : h'.Sound S := by
  induction meddled with
  | still => exact sound
  | wrote _ shaped _ _ =>
    intro o ho
    cases ho
    exact ⟨shaped, List.mem_cons_self ..⟩
  | removed => exact nofun

/-- whoever finds an old version stored finds that nobody wrote -/
theorem eq_of_known (meddled : S.Meddles h h') {o : Value} (object : h'.object = some o)
    (known : Stored.version o ∈ h.versions) : h' = h := by
  cases meddled with
  | still => rfl
  | wrote before _ fresh =>
    cases object
    exact absurd (before.versions known) fresh
  | removed => cases object

end Meddles

/-- nobody has to use that freedom -/
theorem Drifts.meddles (drift : S.Drifts h h') : S.Meddles h h' := by
  induction drift with
  | still => exact .still
  | edited _ _ edit fresh ih => exact .wrote ih edit.shaped fresh

theorem Happens.contests {e : Event} (happens : S.Happens h e) : S.Contests h e := by
  cases happens with
  | sent r reply drift => exact .sent r reply drift.meddles
  | called c reply drift answer => exact .called c reply drift.meddles answer

theorem Contests.of_called {e : Event} {c : Store.Call} {reply : Store.Reply} (happens : S.Contests h e)
    (said : e.said = .called c reply) :
    ∃ h' h'', e = ⟨.called c reply, h', h''⟩ ∧ S.Meddles h h' ∧ S.Answers h' c reply h'' := by
  cases happens with
  | sent => cases said
  | called c' reply' meddled answer =>
    cases said
    exact ⟨_, _, rfl, meddled, answer⟩

end VmOperator.Scene
