import VmOperator.Proofs.Reconcile.Deed

/-! What is wished for the machine's image and name outlives every write of the operator, so that where nobody
else changes them, every copy says the same (`Deed.wishes`). More generally, what every accepted write keeps holds
of the stored object and of the copy in hand (`Deed.keeping`). -/

namespace VmOperator

def Stored.wishes (o : Value) : Option Value × Option Value := (wish o "imageURL", wish o "name")

def Stored.imageName? (o : Value) : Option String :=
  match (wish o "imageURL").getD (.string "") with
  | .string url => (Image.nameOfUrl url).toOption
  | _ => none

def Stored.vmName (name : String) (o : Value) : Value := ((wish o "name").getD (.string "")).orElse (.string name)

theorem Stored.imageName?_congr {o o' : Value} (same : wishes o' = wishes o) : imageName? o' = imageName? o := by
  have image : wish o' "imageURL" = wish o "imageURL" := congrArg Prod.fst same
  rw [imageName?, image, imageName?]

theorem Stored.vmName_congr {o o' : Value} (same : wishes o' = wishes o) (name : String) :
    vmName name o' = vmName name o := by
  have named : wish o' "name" = wish o "name" := congrArg Prod.snd same
  rw [vmName, named, vmName]

namespace Machine.CopyOf

variable {S : Scene} {o : Value} {m : Machine}

theorem imageName? (copy : m.CopyOf S o) {name : Option String} (named : ImagePipeline.imageName? m = .ok name) :
    Stored.imageName? o = name := by
  unfold ImagePipeline.imageName? at named
  unfold Stored.imageName?
  rw [← copy.imageUrl]
  generalize m.spec.imageUrl = wished at named
  cases wished with
  | string url =>
    dsimp only at named ⊢
    cases read : Image.nameOfUrl url with
    | ok =>
      rw [read] at named
      cases named
      rfl
    | error =>
      rw [read] at named
      cases named
  | _ =>
    dsimp only at named
    split at named <;> cases named
    rfl

theorem vmName (copy : m.CopyOf S o) : m.vmName = Stored.vmName S.name o := by
  rw [Machine.vmName, copy.specName, copy.name, Stored.vmName]

end Machine.CopyOf

def Scene.Steady (S : Scene) : Prop := ∀ o o', S.allows o o' → Stored.wishes o' = Stored.wishes o

namespace Reconcile

variable {S : Scene} {c : Context} {st st' refused : Stage} {e : Event} {h h' : Held} {m : Machine}
  {change : Machine → Machine} {kept : Machine → Stage} {wanted : Option Value × Option Value} {v x : Value}

/-- the stored object and the copy in hand say what is wanted -/
structure Wishing (wanted : Option Value × Option Value) (h : Held) (st : Stage) : Prop where
  stored : ∀ o, h.object = some o → Stored.wishes o = wanted
  copied : ∀ m, st.copy? = some m → Stored.wishes (.object m.stored) = wanted

theorem Wishing.drift (wishing : Wishing wanted h st) (steady : S.Steady) (drift : S.Drifts h h') :
    Wishing wanted h' st where
  stored := drift.keeps (P := fun o => Stored.wishes o = wanted)
    (fun o o' edit same => (steady o o' edit.allowed).trans same) wishing.stored
  copied := wishing.copied

theorem wishes_restated (v x o : Value) : Stored.wishes (Stored.restated v x o) = Stored.wishes o := by
  rw [Stored.wishes, Stored.wish, Stored.wish, Stored.specOf_restated]
  rfl

theorem wishes_replaced (table : Replaces st change kept refused) (copied : Copied S h m)
    (written : (change m).WrittenOver S (.object m.stored) x) :
    Stored.wishes (Stored.replaced v x (.object m.stored)) = Stored.wishes (.object m.stored) := by
  have spec : (change m).spec.imageUrl = m.spec.imageUrl ∧ (change m).spec.name = m.spec.name := by
    cases table <;> exact ⟨rfl, rfl⟩
  have image := Machine.wish_written written (MachineSpec.get?_toFields _ (by simp [MachineSpec.entries])) (spec.1.trans copied.copy.imageUrl)
  have name := Machine.wish_written written (MachineSpec.get?_toFields _ (by simp [MachineSpec.entries])) (spec.2.trans copied.copy.specName)
  rw [Stored.wishes, Stored.wish, Stored.wish, Stored.specOf_replaced]
  exact Prod.ext image name

/-- the stored object and the object of the copy in hand are as `Q` says -/
structure Keeping (Q : Value → Prop) (h : Held) (st : Stage) : Prop where
  stored : ∀ o, h.object = some o → Q o
  copied : ∀ m, st.copy? = some m → Q (.object m.stored)

section Keeping

variable {Q : Value → Prop}

theorem Keeping.drift (keeping : Keeping Q h st) (edits : ∀ o o', S.Edits o o' → Q o → Q o') (drift : S.Drifts h h') :
    Keeping Q h' st :=
  ⟨drift.keeps edits keeping.stored, keeping.copied⟩

theorem Keeping.of_goesOn {o : Value} (stored : ∀ o, h.object = some o → Q o) (has : ∀ m, Has (kept m) m)
    (next : GoesOn S kept o st') (holds : Q o) : Keeping Q h st' := by
  refine ⟨stored, fun m hm => ?_⟩
  rcases next with rfl | ⟨m', copy, rfl⟩
  · cases hm
  · rw [has m' m hm, ← copy.stored]
    exact holds

/-- what is kept by what the tables write is kept by every deed -/
theorem Deed.keeping (deed : Deed S c st e st') (keeping : Keeping Q e.before st)
    (restated : ∀ change kept refused m x v, Restates c st change kept refused → st.copy? = some m →
      Copied S e.before m → (change m).WrittenOver S (.object m.stored) x → Q (.object m.stored) →
      Q (Stored.restated v x (.object m.stored)))
    (replaced : ∀ change kept refused m x v, Replaces st change kept refused → Copied S e.before m →
      (change m).WrittenOver S (.object m.stored) x → Q (.object m.stored) →
      Q (Stored.replaced v x (.object m.stored))) : Keeping Q e.after st' := by
  cases deed with
  | sent table _ reply => exact ⟨keeping.stored, fun m hm => keeping.copied m (table.carries reply m hm)⟩
  | vain stays =>
    cases stays with
    | ended => exact ⟨keeping.stored, fun m copy => by cases copy⟩
    | same => exact keeping
    | named m =>
      refine ⟨keeping.stored, ?_⟩
      rintro _ ⟨⟩
      exact keeping.copied m rfl
  | fetched object next => exact .of_goesOn keeping.stored has_fetched next (keeping.stored _ object)
  | reread object next =>
    exact .of_goesOn keeping.stored (fun m => by simp [Has, Stage.copy?]) next (keeping.stored _ object)
  | @restated _ _ _ _ _ m x v _ table copy copied _ written _ _ next =>
    have holds := restated _ _ _ m x v table copy copied written (keeping.copied m copy)
    refine .of_goesOn (fun o ho => ?_) table.has next holds
    obtain rfl := Option.some.inj ho
    exact holds
  | @replaced _ _ _ _ _ m x v _ table copy copied _ written _ _ next =>
    have holds := replaced _ _ _ m x v table copied written (keeping.copied m copy)
    refine .of_goesOn (fun o ho => ?_) table.has next holds
    rcases Scene.left_eq (Stored.replaced v x (.object m.stored)) with gone | left
    · cases gone.symm.trans ho
    · obtain rfl := Option.some.inj (left.symm.trans ho)
      exact holds

end Keeping

theorem Deed.wishes (deed : Deed S c st e st') (wishing : Wishing wanted e.before st) : Wishing wanted e.after st' := by
  have kept := deed.keeping (Q := fun o => Stored.wishes o = wanted) ⟨wishing.stored, wishing.copied⟩
    (fun _ _ _ m x v _ _ _ _ same => (wishes_restated v x _).trans same)
    fun _ _ _ m x v table copied written same => (wishes_replaced table copied written).trans same
  exact ⟨kept.stored, kept.copied⟩

end Reconcile

end VmOperator
