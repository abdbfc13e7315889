import VmOperator.Proofs.Store.Copy

/-! A machine that was written is read back with what was written of it: after a replacement of its status with the
status as it is rendered (`ofValue_restated`), after any other with the metadata and the spec (`ofValue_replaced`). -/

namespace VmOperator

namespace MachineSpec

open Value

variable {v : Value} {key : String} {sp : Fields} {s : MachineSpec}

theorem ofValue_of_fields (h : v.fields = .ok sp) : ofValue v = ofValue (.object sp) := by
  simp only [ofValue, Value.intOf, Value.get, Value.get?, h, fields_object]

structure ReadFrom (sp : Fields) (s : MachineSpec) : Prop where
  name : s.name = (sp.get? "name").getD (.string "")
  vcpus : (((sp.get? "vcpus").getD .null).orElse (.int 0)).toInt = .ok s.vcpus
  memoryMb : (((sp.get? "memoryMB").getD .null).orElse (.int 0)).toInt = .ok s.memoryMb
  diskSizeGb : (((sp.get? "diskSizeGB").getD .null).orElse (.int 0)).toInt = .ok s.diskSizeGb
  imageUrl : s.imageUrl = (sp.get? "imageURL").getD (.string "")
  providerId : s.providerId = (sp.get? "providerID").getD (.string "")

theorem ofValue_eq_ok_iff : ofValue (.object sp) = .ok s ↔ ReadFrom sp s := by
  constructor
  · intro h
    simp only [ofValue, bind_eq_ok, get_object, Except.ok.injEq, exists_eq_left', Value.intOf] at h
    obtain ⟨vcpus, hc, memory, hm, disk, hd, h⟩ := h
    cases h
    exact ⟨rfl, hc, hm, hd, rfl, rfl⟩
  · intro read
    simp only [ofValue, get_object, ok_bind, Value.intOf, read.vcpus, read.memoryMb, read.diskSizeGb]
    rw [← read.name, ← read.imageUrl, ← read.providerId]
    rfl

theorem get?_written (mem : (key, v) ∈ s.entries) :
    (sp.update s.toFields).get? key = if v.isTruthy then some v else sp.get? key := by
  rw [Fields.get?_update, get?_toFields s mem]
  split <;> rfl

theorem getD_written (mem : (key, v) ∈ s.entries) (read : v = (sp.get? key).getD (.string "")) :
    v = ((sp.update s.toFields).get? key).getD (.string "") := by
  rw [get?_written mem]
  split
  · rfl
  · exact read

theorem toInt_written {n : Int} (mem : (key, .int n) ∈ s.entries)
    (read : (((sp.get? key).getD .null).orElse (.int 0)).toInt = .ok n) :
    ((((sp.update s.toFields).get? key).getD .null).orElse (.int 0)).toInt = .ok n := by
  rw [get?_written mem]
  split
  · rename_i set
    rw [Option.getD_some, orElse_eq_self set, toInt_int]
  · exact read

/-- a spec that is written over the one that it was read from, with a provider id of its own or the one it had -/
theorem ofValue_written {id : Value} (read : ofValue (.object sp) = .ok s)
    (named : id = s.providerId ∨ id.isTruthy = true) :
    ofValue (.object (sp.update ({ s with providerId := id } : MachineSpec).toFields)) =
    .ok { s with providerId := id } := by
  have read := ofValue_eq_ok_iff.1 read
  have provider : id = (if id.isTruthy then some id else sp.get? "providerID").getD (.string "") := by
    split
    · rfl
    · rename_i unset
      rw [named.resolve_right unset]
      exact read.providerId
  exact ofValue_eq_ok_iff.2 {
    name := getD_written (by simp [entries]) read.name
    vcpus := toInt_written (by simp [entries]) read.vcpus
    memoryMb := toInt_written (by simp [entries]) read.memoryMb
    diskSizeGb := toInt_written (by simp [entries]) read.diskSizeGb
    imageUrl := getD_written (by simp [entries]) read.imageUrl
    providerId := by
      rw [get?_written (v := id) (by simp [entries])]
      exact provider }

end MachineSpec

namespace Machine

open Value
open Stored (Shaped)

structure Reads (fs ms : Fields) (m : Machine) : Prop extends ReadFrom fs ms m where
  generation : m.generation = (ms.get? "generation").getD .null
  owners : ((Value.object ms).itemsOf "ownerReferences" >>= List.mapM OwnerReference.ofValue) = .ok m.owners

variable {fs ms : Fields} {m : Machine}

theorem ofValue_eq_ok_iff (hm : fs.get? "metadata" = some (.object ms)) :
    ofValue (.object fs) = .ok m ↔ Reads fs ms m := by
  constructor
  · intro h
    refine ⟨read_of_ofValue hm h, ?_, ?_⟩ <;>
    · simp only [ofValue, bind_eq_ok, section?_object, hm, Option.getD_some, orElse_object, get_object,
        Except.ok.injEq, exists_eq_left', fields_object] at h
      obtain ⟨_, -, _, -, _, -, items, hi, owners, ho, h⟩ := h
      cases h
      first | rfl | exact bind_eq_ok.2 ⟨items, hi, ho⟩
  · intro parts
    obtain ⟨items, hi, ho⟩ := bind_eq_ok.1 parts.owners
    simp only [ofValue, section?_object, hm, Option.getD_some, orElse_object, get_object, ok_bind, parts.spec,
      parts.status, parts.finalizers, hi, ho, fields_object]
    rw [← parts.name, ← parts.ns, ← parts.resourceVersion, ← parts.generation, ← parts.deletionTimestamp,
      ← parts.stored]
    rfl

variable {ns name : String} {o x v : Value} {s : MachineStatus}

theorem shaped_reads (shaped : Shaped ns name o) :
    ofValue o = .ok m ↔ Reads (Bench.fieldsOf o) (Stored.metadataOf o) m := by
  rw [← ofValue_eq_ok_iff shaped.metadata, ← shaped.isObject]

/-- the spec inside an object that it was read from -/
theorem ofValue_spec {sp : Fields} {s : MachineSpec}
    (read : MachineSpec.ofValue (((fs.get? "spec").getD .null).orElse (.object [])) = .ok s)
    (fields : ((fs.get? "spec").getD (.object [])).fields = .ok sp) : MachineSpec.ofValue (.object sp) = .ok s := by
  cases hs : fs.get? "spec" with
  | none =>
    rw [hs] at read fields
    cases fields
    exact read
  | some w =>
    rw [hs, Option.getD_some] at read fields
    by_cases set : w.isTruthy = true
    · rwa [orElse_eq_self set, MachineSpec.ofValue_of_fields fields] at read
    · rw [orElse_of_unset (Bool.eq_false_iff.2 set)] at read
      cases w <;> cases fields <;> simp_all [Value.isTruthy]

theorem ofValue_restated (shaped : Shaped ns name o) (read : ofValue o = .ok m) (set : v.isTruthy = true)
    (status : Stored.status (Stored.restated v x o) = .ok s) :
    ofValue (Stored.restated v x o) =
      .ok { m with status := s, resourceVersion := v, stored := Bench.fieldsOf (Stored.restated v x o) } := by
  have parts := (shaped_reads shaped).1 read
  have metadata : Stored.metadataOf (Stored.restated v x o) = (Stored.metadataOf o).set "resourceVersion" v := by
    rw [Stored.restated, Stored.metadataOf_stamp, Stored.metadataOf_withStatusOf]
  have spec : (Bench.fieldsOf (Stored.restated v x o)).get? "spec" = (Bench.fieldsOf o).get? "spec" := by
    rw [Stored.restated, Stored.fieldsOf_stamp _ _ (by decide), Stored.fieldsOf_withStatusOf, if_neg (by decide)]
  have away {key : String} (other : "resourceVersion" ≠ key) :
      ((Stored.metadataOf o).set "resourceVersion" v).get? key = (Stored.metadataOf o).get? key := by
    rw [Fields.get?_set, if_neg other]
  refine (shaped_reads (Stored.shaped_restated shaped set x)).2 ?_
  rw [metadata]
  exact {
    name := by rw [away (by decide)]; exact parts.name
    ns := by rw [away (by decide)]; exact parts.ns
    spec := by rw [spec]; exact parts.spec
    status
    finalizers := by rw [itemsOf_object, away (by decide)]; exact parts.finalizers
    resourceVersion := by rw [Fields.get?_set, if_pos rfl]; rfl
    deletionTimestamp := by rw [away (by decide)]; exact parts.deletionTimestamp
    stored := rfl
    generation := by rw [away (by decide)]; exact parts.generation
    owners := by rw [itemsOf_object, away (by decide)]; exact parts.owners }

def amended (m : Machine) (finalizers : List Value) (id : Value) : Machine :=
  { m with finalizers, spec.providerId := id }

theorem ofValue_replaced {S : Scene} {finalizers : List Value} {id : Value} (shaped : Shaped S.ns S.name o)
    (read : ofValue o = .ok m) (set : v.isTruthy = true) (named : id = m.spec.providerId ∨ id.isTruthy = true)
    (written : (m.amended finalizers id).toValue = .ok x) :
    ofValue (Stored.replaced v x o) =
      .ok { m.amended finalizers id with resourceVersion := v, stored := Bench.fieldsOf (Stored.replaced v x o) } := by
  have parts := (shaped_reads shaped).1 read
  have amends : m.Amends (m.amended finalizers id) := ⟨rfl, rfl, rfl, rfl⟩
  have laidOver := writtenOver (copyOf_of_ofValue shaped read) amends written
  have place : (m.amended finalizers id).stored.get? "metadata" = some (.object (Stored.metadataOf o)) := by
    rw [amended, parts.stored]
    exact shaped.metadata
  obtain ⟨gs, rfl, laid⟩ := laid_of_toValue place written
  obtain ⟨sp, fields, spec⟩ := laid.spec
  rw [amended, parts.stored] at fields
  have metadata : Stored.metadataOf (Stored.replaced v (.object gs) o) =
      ((m.amended finalizers id).metadataOver (Stored.metadataOf o)).set "resourceVersion" v := by
    rw [Stored.replaced, Stored.metadataOf_stamp, Stored.metadataOf_withStatusOf,
      Stored.metadataOf_of_get? laid.metadata]
  have away {key : String} (other : "resourceVersion" ≠ key) :
      (((m.amended finalizers id).metadataOver (Stored.metadataOf o)).set "resourceVersion" v).get? key =
        ((((Stored.metadataOf o).set "name" m.name).set "namespace" m.ns).set
          "finalizers" (.array finalizers)).get? key := by
    unfold metadataOver
    dsimp only
    split
    · rw [Fields.get?_set, if_neg other, Fields.get?_set, if_neg other]
      rfl
    · rw [Fields.get?_set, if_neg other]
      rfl
  have kept {key : String} (other : "resourceVersion" ≠ key) (unnamed : "name" ≠ key) (unplaced : "namespace" ≠ key)
      (free : "finalizers" ≠ key) :
      (((m.amended finalizers id).metadataOver (Stored.metadataOf o)).set "resourceVersion" v).get? key =
        (Stored.metadataOf o).get? key := by
    rw [away other, Fields.get?_set, if_neg free, Fields.get?_set, if_neg unplaced, Fields.get?_set, if_neg unnamed]
  have wanted : (Bench.fieldsOf (Stored.replaced v (.object gs) o)).get? "spec" =
      some (.object (sp.update (m.amended finalizers id).spec.toFields)) := by
    rw [Stored.replaced, Stored.fieldsOf_stamp _ _ (by decide), Stored.fieldsOf_withStatusOf, if_neg (by decide)]
    exact spec
  have status : (Bench.fieldsOf (Stored.replaced v (.object gs) o)).get? "status" = (Bench.fieldsOf o).get? "status" :=
    Stored.statusField_replaced ..
  refine (shaped_reads (Stored.shaped_replaced laidOver.shaped set o)).2 ?_
  rw [metadata]
  exact {
    name := by rw [away (by decide)]; simp [Fields.get?_set, amended]
    ns := by rw [away (by decide)]; simp [Fields.get?_set, amended]
    spec := by
      rw [wanted, Option.getD_some, orElse_object]
      exact MachineSpec.ofValue_written (ofValue_spec parts.spec fields) named
    status := by rw [status]; exact parts.status
    finalizers := by rw [itemsOf_object, away (by decide), Fields.get?_set, if_pos rfl]; simp [amended]
    resourceVersion := by rw [Fields.get?_set, if_pos rfl]; rfl
    deletionTimestamp := by rw [kept (by decide) (by decide) (by decide) (by decide)]; exact parts.deletionTimestamp
    stored := rfl
    generation := by rw [kept (by decide) (by decide) (by decide) (by decide)]; exact parts.generation
    owners := by rw [itemsOf_object, kept (by decide) (by decide) (by decide) (by decide)]; exact parts.owners }

theorem fields_of_ofValue {w : Value} {s : MachineSpec} (read : MachineSpec.ofValue w = .ok s) :
    ∃ sp, w.fields = .ok sp := by
  obtain ⟨_, read, -⟩ := bind_eq_ok.1 read
  obtain ⟨_, read, -⟩ := bind_eq_ok.1 read
  obtain ⟨sp, fields, -⟩ := bind_eq_ok.1 read
  exact ⟨sp, fields⟩

/-- a machine with an image to get can be written -/
theorem exists_written {m' : Machine} (shaped : Shaped ns name o) (read : ofValue o = .ok m)
    (asked : m.spec.imageUrl.isTruthy = true) (amends : m.Amends m') : ∃ x, m'.toValue = .ok x := by
  have parts := (shaped_reads shaped).1 read
  have stored : m'.stored = Bench.fieldsOf o := amends.stored.trans parts.stored
  have place : m'.stored.get? "metadata" = some (.object (Stored.metadataOf o)) := by rw [stored]; exact shaped.metadata
  have spec := parts.spec
  have set : (((Bench.fieldsOf o).get? "spec").getD .null).isTruthy = true := by
    by_cases set : (((Bench.fieldsOf o).get? "spec").getD .null).isTruthy = true
    · exact set
    · rw [orElse_of_unset (Bool.eq_false_iff.2 set)] at spec
      rw [(MachineSpec.ofValue_eq_ok_iff.1 spec).imageUrl] at asked
      cases asked
  cases hs : (Bench.fieldsOf o).get? "spec" with
  | none =>
    rw [hs] at set
    cases set
  | some w =>
    rw [hs, Option.getD_some] at spec set
    rw [orElse_eq_self set] at spec
    obtain ⟨sp, fields⟩ := fields_of_ofValue spec
    rw [← stored] at hs
    exact exists_toValue (by rw [place]; rfl) (by rw [hs]; exact fields)

end Machine

end VmOperator
