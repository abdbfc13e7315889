import VmOperator.Proofs.Store.Scene

/-! What a copy of a machine has to do with the stored object: it was read from an object that was once
stored (`CopyOf`), it is current as long as the version is its own, and its status is always the stored
one, for nobody else writes it (`Copied`). What is written of an amended copy differs from that object in
the amended parts alone (`writtenOver`). -/

namespace VmOperator

open Stored (Shaped)

namespace Fields

theorem get?_update (fs new : Fields) (key : String) :
    (fs.update new).get? key = (get? new.reverse key).or (fs.get? key) := by
  induction new generalizing fs with
  | nil => rfl
  | cons f new ih =>
    obtain ⟨k, v⟩ := f
    have step : fs.update ((k, v) :: new) = (fs.set k v).update new := rfl
    rw [step, ih, get?_set, List.reverse_cons, get?_append, get?_cons, get?_nil]
    cases get? new.reverse key <;> split <;> rfl

theorem get?_eq_none_iff {fs : Fields} {key : String} : fs.get? key = none ↔ key ∉ fs.map Prod.fst := by
  rw [get?, Option.map_eq_none_iff, List.find?_eq_none, List.mem_map, not_exists]
  exact forall_congr' fun f => by rw [beq_iff_eq, not_and]

/-- where no key comes twice, a field is found under its key -/
theorem get?_of_mem {fs : Fields} {key : String} {v : Value} (distinct : (fs.map Prod.fst).Nodup) (mem : (key, v) ∈ fs) :
    fs.get? key = some v := by
  induction fs with
  | nil => cases mem
  | cons f fs ih =>
    obtain ⟨k, w⟩ := f
    obtain ⟨fresh, distinct⟩ := List.nodup_cons.1 distinct
    rw [get?_cons]
    rcases List.mem_cons.1 mem with same | mem
    · cases same
      exact if_pos rfl
    · have other : k ≠ key := by
        rintro rfl
        exact fresh (List.mem_map.2 ⟨_, mem, rfl⟩)
      rw [if_neg other, ih distinct mem]

theorem get?_reverse_filter {fs : Fields} {key : String} {v : Value} (distinct : (fs.map Prod.fst).Nodup)
    (mem : (key, v) ∈ fs) (p : String × Value → Bool) :
    get? (fs.filter p).reverse key = if p (key, v) then some v else none := by
  split
  · rename_i kept
    refine get?_of_mem ?_ (List.mem_reverse.2 (List.mem_filter.2 ⟨mem, kept⟩))
    rw [List.map_reverse]
    exact (List.reverse_perm _).nodup_iff.2 (distinct.sublist (List.filter_sublist.map _))
  · rename_i dropped
    refine get?_eq_none_iff.2 fun there => ?_
    obtain ⟨⟨k, w⟩, mem', same⟩ := List.mem_map.1 there
    obtain ⟨mem', kept⟩ := List.mem_filter.1 (List.mem_reverse.1 mem')
    obtain rfl : k = key := same
    obtain rfl := Option.some.inj ((get?_of_mem distinct mem').symm.trans (get?_of_mem distinct mem))
    exact dropped kept

end Fields

namespace MachineSpec

/-- what a spec says under its keys, set or not -/
def entries (s : MachineSpec) : Fields :=
  [("name", s.name), ("vcpus", .int s.vcpus), ("memoryMB", .int s.memoryMb), ("diskSizeGB", .int s.diskSizeGb),
    ("imageURL", s.imageUrl), ("providerID", s.providerId)]

def keys : List String := ["name", "vcpus", "memoryMB", "diskSizeGB", "imageURL", "providerID"]

/-- what is written under a key of the spec -/
theorem get?_toFields (s : MachineSpec) {key : String} {v : Value} (mem : (key, v) ∈ s.entries) :
    Fields.get? s.toFields.reverse key = if v.isTruthy then some v else none := by
  have distinct : (s.entries.map Prod.fst).Nodup := (by decide : keys.Nodup)
  exact Fields.get?_reverse_filter distinct mem fun f => f.2.isTruthy

theorem get?_toFields_of_not_mem (s : MachineSpec) {key : String} (apart : key ∉ keys) :
    Fields.get? s.toFields.reverse key = none := by
  refine Fields.get?_eq_none_iff.2 fun there => apart ?_
  rw [List.map_reverse, List.mem_reverse] at there
  exact (List.filter_sublist.map Prod.fst).subset there

end MachineSpec

namespace Machine

/-- a machine that was read from an object; its provider id may have been set since -/
structure CopyOf (S : Scene) (o : Value) (m : Machine) : Prop where
  stored : o = .object m.stored
  shaped : Shaped S.ns S.name o
  ns : m.ns = .string S.ns
  name : m.name = .string S.name
  version : m.resourceVersion = Stored.version o
  finalizers : Stored.finalizers o = .ok m.finalizers
  deletion : m.deletionTimestamp = Stored.deletion o
  status : Stored.status o = .ok m.status
  imageUrl : m.spec.imageUrl = (Stored.wish o "imageURL").getD (.string "")
  specName : m.spec.name = (Stored.wish o "name").getD (.string "")

variable {S : Scene} {o : Value} {m : Machine}

theorem wish_of_get {fs : Fields} {key : String} {v : Value}
    (h : (((fs.get? "spec").getD .null).orElse (.object [])).get key (.string "") = .ok v) :
    v = (Stored.wish (.object fs) key).getD (.string "") := by
  obtain ⟨found, hf, hv⟩ := bind_eq_ok.1 h
  obtain ⟨gs, hg, hk⟩ := bind_eq_ok.1 hf
  cases hv
  cases hk
  simp only [Stored.wish, Stored.specOf, Stored.fieldsOf_object, hg]

theorem copyOf_of_ofValue (shaped : Shaped S.ns S.name o) (h : ofValue o = .ok m) : CopyOf S o m := by
  obtain ⟨fs, rfl⟩ : ∃ fs : Fields, o = .object fs := ⟨_, shaped.isObject⟩
  have parts := read_of_ofValue shaped.metadata h
  have spec := parts.spec
  simp only [MachineSpec.ofValue, bind_eq_ok] at spec
  obtain ⟨specName, hn, _, -, _, -, _, -, imageUrl, hu, _, -, spec⟩ := spec
  have hspec : m.spec.imageUrl = imageUrl ∧ m.spec.name = specName := by
    rw [← Except.ok.inj spec]
    exact ⟨rfl, rfl⟩
  exact {
    stored := by rw [parts.stored, Stored.fieldsOf_object]
    shaped
    ns := by rw [parts.ns, shaped.ns]; rfl
    name := by rw [parts.name, shaped.name]; rfl
    version := by
      have set := shaped.version
      rw [parts.resourceVersion, Stored.version] at *
      cases hv : (Stored.metadataOf (.object fs)).get? "resourceVersion" with
      | none => rw [hv] at set; cases set
      | some v => rfl
    finalizers := parts.finalizers
    deletion := parts.deletionTimestamp
    status := parts.status
    imageUrl := by rw [hspec.1, wish_of_get hu, Stored.fieldsOf_object]
    specName := by rw [hspec.2, wish_of_get hn, Stored.fieldsOf_object] }

/-- a machine just as it was read from an object -/
structure ReadOf (S : Scene) (o : Value) (m : Machine) : Prop extends CopyOf S o m where
  providerId : m.spec.providerId = (Stored.wish o "providerID").getD (.string "")

theorem readOf_of_ofValue (shaped : Shaped S.ns S.name o) (h : ofValue o = .ok m) : ReadOf S o m := by
  refine ⟨copyOf_of_ofValue shaped h, ?_⟩
  obtain ⟨fs, rfl⟩ : ∃ fs : Fields, o = .object fs := ⟨_, shaped.isObject⟩
  have spec := (read_of_ofValue shaped.metadata h).spec
  simp only [MachineSpec.ofValue, bind_eq_ok] at spec
  obtain ⟨_, -, _, -, _, -, _, -, _, -, providerId, hp, spec⟩ := spec
  rw [← Except.ok.inj spec]
  exact wish_of_get hp

theorem CopyOf.status_eq (copy : CopyOf S o m) {s : MachineStatus} (h : Stored.status o = .ok s) : m.status = s :=
  Except.ok.inj (copy.status.symm.trans h)

/-- a machine changed in parts that do not say which object it is -/
structure Amends (m m' : Machine) : Prop where
  ns : m'.ns = m.ns
  name : m'.name = m.name
  version : m'.resourceVersion = m.resourceVersion
  stored : m'.stored = m.stored

theorem Amends.refl (m : Machine) : m.Amends m := ⟨rfl, rfl, rfl, rfl⟩

theorem Amends.trans {m₁ m₂ m₃ : Machine} (first : m₁.Amends m₂) (second : m₂.Amends m₃) : m₁.Amends m₃ where
  ns := second.ns.trans first.ns
  name := second.name.trans first.name
  version := second.version.trans first.version
  stored := second.stored.trans first.stored

structure WrittenOver (S : Scene) (o : Value) (m : Machine) (x : Value) : Prop where
  shaped : Shaped S.ns S.name x
  version : Stored.version x = Stored.version o
  status : Stored.statusField x = some m.status.toValue
  finalizers : Stored.finalizers x = .ok m.finalizers
  deletion : Stored.deletion x = Stored.deletion o
  spec : Stored.specOf x = (Stored.specOf o).update m.spec.toFields

/-- a status that is written is read back -/
theorem WrittenOver.status_restated {S : Scene} {o v x : Value} {m : Machine} (written : WrittenOver S o m x)
    (shape : m.status.progress.IsObject) (o' : Value) :
    Stored.status (Stored.restated v x o') = .ok m.status.rendered := by
  rw [Stored.status, Stored.statusField_restated, written.status, Option.getD_some, MachineStatus.toValue_orElse,
    MachineStatus.ofValue_toValue m.status shape]

theorem specOf_of_fields {fs sp : Fields} (h : ((fs.get? "spec").getD (.object [])).fields = .ok sp) :
    Stored.specOf (.object fs) = sp := by
  unfold Stored.specOf
  rw [Stored.fieldsOf_object]
  cases hs : fs.get? "spec" with
  | none => rw [hs] at h; cases h; rfl
  | some v =>
    rw [hs] at h
    dsimp only [Option.getD_some] at h ⊢
    cases set : v.isTruthy with
    | true => rw [Value.orElse_eq_self set, h]
    | false =>
      rw [Value.orElse_of_unset set]
      cases v <;> cases h <;> simp_all [Value.isTruthy]

theorem writtenOver {m' : Machine} {x : Value} (copy : CopyOf S o m) (amends : Amends m m')
    (h : m'.toValue = .ok x) : WrittenOver S o m' x := by
  obtain ⟨fs, rfl⟩ : ∃ fs : Fields, o = .object fs := ⟨_, copy.shaped.isObject⟩
  have hfs : m'.stored = fs := by
    rw [amends.stored]
    exact (Value.object.inj copy.stored).symm
  have hm : m'.stored.get? "metadata" = some (.object (Stored.metadataOf (.object fs))) := by
    rw [hfs]
    exact copy.shaped.metadata
  obtain ⟨gs, rfl, laid⟩ := laid_of_toValue hm h
  have set : m'.resourceVersion.isTruthy = true := by
    rw [amends.version, copy.version]
    exact copy.shaped.version
  have metadata := Stored.metadataOf_of_get? laid.metadata
  simp only [metadataOver, set, reduceIte] at metadata
  have version : Stored.version (.object gs) = Stored.version (.object fs) := by
    rw [← copy.version, ← amends.version]
    simp [Stored.version, metadata, Fields.get?_set]
  obtain ⟨sp, hsp, hspec⟩ := laid.spec
  rw [hfs] at hsp
  exact {
    shaped := {
      isObject := rfl
      metadata := by rw [metadata]; simpa [metadataOver, set] using laid.metadata
      ns := by simp [metadata, Fields.get?_set, amends.ns, copy.ns]
      name := by simp [metadata, Fields.get?_set, amends.name, copy.name]
      version := by rw [version]; exact copy.shaped.version }
    version
    status := laid.status
    finalizers := by simp [Stored.finalizers, metadata, Fields.get?_set]
    deletion := by simp [Stored.deletion, metadata, Fields.get?_set]
    spec := by rw [specOf_of_fields hsp, specOf_of_fields (by rw [hspec]; rfl)] }

/-- a wish that is written is the one that was read -/
theorem wish_written {m' : Machine} {x : Value} (written : WrittenOver S o m' x) {key : String} {v : Value}
    (fields : Fields.get? m'.spec.toFields.reverse key = if v.isTruthy then some v else none)
    (read : v = (Stored.wish o key).getD (.string "")) : Stored.wish x key = Stored.wish o key := by
  rw [Stored.wish, written.spec, Fields.get?_update, fields]
  split
  · rename_i set
    cases h : Stored.wish o key with
    | none => rw [h] at read; rw [read] at set; cases set
    | some w => rw [h] at read; rw [read]; rfl
  · rfl

end Machine

/-- what is stored goes by the machine's name, under a version that is known -/
def Held.Sound (S : Scene) (h : Held) : Prop :=
  ∀ o, h.object = some o → Shaped S.ns S.name o ∧ Stored.version o ∈ h.versions

/-- an object in its place, with the one version that was given -/
theorem Held.sound_single {S : Scene} {o : Value} (shaped : Shaped S.ns S.name o) :
    Held.Sound S ⟨some o, [Stored.version o]⟩ := by
  rintro _ ⟨⟩
  exact ⟨shaped, List.mem_singleton_self _⟩

def Held.status (h : Held) : Option MachineStatus := h.object.bind fun o => (Stored.status o).toOption

/-- a copy in hand while this is stored -/
structure Copied (S : Scene) (h : Held) (m : Machine) : Prop where
  copy : m.CopyOf S (.object m.stored)
  known : m.resourceVersion ∈ h.versions
  current : ∀ o, h.object = some o → Stored.version o = m.resourceVersion → o = .object m.stored
  synced : ∀ o, h.object = some o → Stored.statusField o = Stored.statusField (.object m.stored)

variable {S : Scene} {h h' : Held} {m : Machine}

theorem Held.Sound.drift (sound : h.Sound S) (drift : S.Drifts h h') : h'.Sound S := by
  induction drift with
  | still => exact sound
  | edited _ _ edit _ _ =>
    intro o ho
    cases ho
    exact ⟨edit.shaped, List.mem_cons_self ..⟩

theorem Held.status_drift (drift : S.Drifts h h') : h'.status = h.status := by
  induction drift with
  | still => rfl
  | edited _ object edit _ ih =>
    rw [← ih]
    unfold Held.status
    rw [object, Option.bind_some, Option.bind_some, Stored.status_congr edit.status]

theorem Copied.drift (copied : Copied S h m) (drift : S.Drifts h h') : Copied S h' m where
  copy := copied.copy
  known := drift.versions copied.known
  current o ho version := copied.current o (drift.same ho (version ▸ copied.known)) version
  synced := drift.keeps (P := fun o => Stored.statusField o = Stored.statusField (.object m.stored))
    (fun _ _ edit h => edit.status.trans h) copied.synced

theorem Copied.status {o : Value} (copied : Copied S h m) (object : h.object = some o) : h.status = some m.status := by
  unfold Held.status
  rw [object, Option.bind_some, Stored.status_congr (copied.synced o object), copied.copy.status]
  rfl

theorem copied_of_copyOf {o : Value} (sound : h.Sound S) (object : h.object = some o) (copy : m.CopyOf S o) :
    Copied S h m := by
  have stored := copy.stored
  subst stored
  refine ⟨copy, ?_, ?_, ?_⟩
  · rw [copy.version]
    exact (sound _ object).2
  · exact fun o' ho' _ => Option.some.inj (ho'.symm.trans object)
  · intro o' ho'
    rw [Option.some.inj (ho'.symm.trans object)]

end VmOperator
