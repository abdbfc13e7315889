import VmOperator.Proofs.Store.Readback
import VmOperator.Proofs.Value.Shape
import VmOperator.Proofs.Value.Under

/-! What the operator writes of a machine. A status is read as it was written, and what was read once is written the same
way ever after (`status_survives`). Of an object only the places that are the operator's own are written
(`writtenPaths`); every other place keeps its value, and the machine that was written is read again
(`foreign_fields_kept`). -/

namespace VmOperator

namespace Value

theorem orElse_of_isText {v : Value} (text : v.isText = true) : v.orElse (.string "") = v := by
  obtain ⟨s, rfl⟩ := eq_of_isText text
  by_cases set : s = ""
  · subst set
    rfl
  · exact orElse_eq_self (by simpa [isTruthy] using set)

/-- what counts as unset is left out, whatever stands for it -/
theorem ite_orElse {α : Type} (v alternative : Value) (unset : alternative.isTruthy = false) (f : Value → α)
    (none : α) : (if (v.orElse alternative).isTruthy then f (v.orElse alternative) else none) =
      if v.isTruthy then f v else none := by
  cases set : v.isTruthy with
  | true => rw [orElse_eq_self set, set]
  | false =>
    rw [orElse_of_unset set, unset]
    rfl

end Value

namespace MachineStatus

/-- a status with parts of the declared types, of which every address is a text that is set -/
structure Declared (s : MachineStatus) : Prop where
  progress : ∃ fs, s.progress = .object fs
  diskPath : s.diskPath.isText = true
  providerId : s.providerId.isText = true
  addresses : ∀ a ∈ s.addresses, ∃ text, text ≠ "" ∧ a.address = .string text

variable {s : MachineStatus}

theorem Declared.rendered_eq (declared : s.Declared) : s.rendered = s := by
  obtain ⟨fs, progress⟩ := declared.progress
  have addresses : s.addresses.filter (fun a => a.address.isTruthy) = s.addresses := by
    refine List.filter_eq_self.2 fun a mem => ?_
    obtain ⟨text, set, same⟩ := declared.addresses a mem
    simp [same, Value.isTruthy, set]
  have object : s.progress.orElse (.object []) = s.progress := by rw [progress, Value.orElse_object]
  rw [rendered, object, Value.orElse_of_isText declared.diskPath, Value.orElse_of_isText declared.providerId, addresses]

/-- a status with no address that counts as unset is written as it is read again -/
theorem toValue_rendered (set : ∀ a ∈ s.addresses, a.address.isTruthy = true) : s.rendered.toValue = s.toValue := by
  have addresses : s.addresses.filter (fun a => a.address.isTruthy) = s.addresses := List.filter_eq_self.2 set
  have progress := Value.ite_orElse s.progress (.object []) rfl (fun v => [("progress", v)]) []
  have diskPath := Value.ite_orElse s.diskPath (.string "") rfl (fun v => [("diskPath", v)]) []
  have providerId := Value.ite_orElse s.providerId (.string "") rfl (fun v => [("providerID", v)]) []
  simp only [toValue, toFields, rendered, addresses, progress, diskPath, providerId]

/-- A status of the declared types is read as it was written. What is written of a status that was read, whatever it was
read from, is read as a status that is written the same way. -/
theorem status_survives :
    (∀ s : MachineStatus, s.Declared → ofValue s.toValue = .ok s) ∧
      ∀ (x : Value) (s : MachineStatus), ofValue x = .ok s →
        ∃ s', ofValue s.toValue = .ok s' ∧ s'.toValue = s.toValue := by
  constructor
  · intro s declared
    obtain ⟨fs, progress⟩ := declared.progress
    rw [ofValue_toValue s (by rw [progress]; trivial), declared.rendered_eq]
  · intro x s read
    obtain ⟨-, items, addresses⟩ := parts_of_ofValue read
    exact ⟨s.rendered, ofValue_toValue s (isObject_of_ofValue read), toValue_rendered (isTruthy_of_addressesOf addresses)⟩

/-- a virtual machine numbered zero, waited for a number of times below zero, and a condition without a generation -/
def oddStatus : MachineStatus where
  vmId := some 0
  addresses := [{ address := .string "10.0.0.7", type := .null }]
  conditions := [{ type := .string "Ready", status := .string "False", reason := .string "" }]
  stopAttempts := -3

/-- what is null, written as text or no address, and a field of no status -/
def patchyStatus : Value := .object
  [("addresses", .array [.object [("type", .string "InternalIP")], .object [("address", .string "10.0.0.7")]]),
    ("conditions", .array [.object [("observedGeneration", .null), ("type", .string "Ready")]]), ("diskPath", .null),
    ("note", .string "kept by nobody"), ("progress", .null), ("vmId", .string "7")]

def patchyRead : MachineStatus where
  vmId := some 7
  diskPath := .null
  addresses := [{ address := .string "10.0.0.7" }]
  conditions := [{ type := .string "Ready", status := .string "Unknown", reason := .string "" }]

theorem status_survives_odd : ofValue oddStatus.toValue = .ok oddStatus ∧
    ∃ s, ofValue patchyStatus = .ok s ∧ s.vmId = some 7 ∧ ∃ s', ofValue s.toValue = .ok s' ∧ s'.toValue = s.toValue := by
  have declared : oddStatus.Declared := {
    progress := ⟨[], rfl⟩
    diskPath := rfl
    providerId := rfl
    addresses := by
      intro a mem
      obtain rfl := List.mem_singleton.1 mem
      exact ⟨"10.0.0.7", by decide, rfl⟩ }
  refine ⟨status_survives.1 oddStatus declared, ?_⟩
  have read : ofValue patchyStatus = .ok patchyRead := ok_of_toOption (by decide +kernel)
  exact ⟨patchyRead, read, rfl, status_survives.2 patchyStatus patchyRead read⟩

end MachineStatus

namespace Fields

theorem has_eq_isSome (fs : Fields) (key : String) : fs.has key = (fs.get? key).isSome := by
  rw [Bool.eq_iff_iff, has, get?, Option.isSome_map, List.any_eq_true, List.find?_isSome]

theorem get?_setDefault_of_some {fs : Fields} {key key' : String} {w : Value} (found : fs.get? key = some w) (v : Value) :
    (fs.setDefault key' v).get? key = some w := by
  unfold setDefault
  split
  · exact found
  · rename_i missing
    have other : key' ≠ key := by
      rintro rfl
      rw [has_eq_isSome, found] at missing
      exact missing rfl
    rw [get?_set, if_neg other, found]

end Fields

namespace Value

variable {fs gs ms ms' : Fields} {key inner : String}

theorem under?_cons_congr (same : gs.get? key = fs.get? key) (keys : List String) :
    (object gs).under? (key :: keys) = (object fs).under? (key :: keys) := by
  rw [under?_of_fields (fields_object gs), under?_of_fields (fields_object fs), same]

theorem under?_inner_congr (there : fs.get? key = some (.object ms)) (there' : gs.get? key = some (.object ms'))
    (same : ms'.get? inner = ms.get? inner) (keys : List String) :
    (object gs).under? (key :: inner :: keys) = (object fs).under? (key :: inner :: keys) := by
  rw [under?_of_fields (fields_object gs), under?_of_fields (fields_object fs), there, there']
  exact under?_cons_congr same keys

end Value

namespace MachineSpec

open Value

def sized : Value → Bool :=
  record [("vcpus", orNull isInteger), ("memoryMB", orNull isInteger), ("diskSizeGB", orNull isInteger)]

variable {sp : Fields} {s : MachineSpec} {key : String}

/-- a text is written only over itself -/
theorem text_kept {v : Value} {found : Option Value} (read : v = found.getD (.string "")) :
    (if v.isTruthy then some v else found) = found := by
  split
  · rename_i set
    cases found with
    | none =>
      rw [read] at set
      cases set
    | some w => exact congrArg some read
  · rfl

/-- a size is written only over itself -/
theorem size_kept {n : Int} {found : Option Value} (integer : ∀ w, found = some w → orNull isInteger w = true)
    (read : ((found.getD .null).orElse (.int 0)).toInt = .ok n) :
    (if (Value.int n).isTruthy then some (.int n) else found) = found := by
  split
  · rename_i set
    cases found with
    | none =>
      cases read
      cases set
    | some w =>
      rw [Option.getD_some] at read
      by_cases given : w.isTruthy = true
      · have nonnull : w ≠ .null := by
          rintro rfl
          cases given
        obtain ⟨m, same, rfl⟩ := toInt_gives (of_orNull (integer w rfl) nonnull)
        rw [orElse_eq_self given] at read
        rw [Except.ok.inj (read.symm.trans same)]
      · rw [orElse_of_unset (Bool.eq_false_iff.2 given)] at read
        cases read
        cases set
  · rfl

/-- a spec that was read is written over itself, but for the provider id -/
theorem get?_update_of_ne (read : ReadFrom sp s) (shape : sized (.object sp) = true) (id : Value)
    (other : key ≠ "providerID") :
    (sp.update ({ s with providerId := id } : MachineSpec).toFields).get? key = sp.get? key := by
  obtain ⟨fs, same, integer⟩ := object_of_record shape
  cases same
  by_cases known : key ∈ keys
  · simp only [keys, List.mem_cons, List.not_mem_nil, or_false, other] at known
    rcases known with rfl | rfl | rfl | rfl | rfl
    · rw [get?_written (v := s.name) (by simp [entries]), text_kept read.name]
    · rw [get?_written (v := .int s.vcpus) (by simp [entries]),
        size_kept (integer ("vcpus", orNull isInteger) (by simp)) read.vcpus]
    · rw [get?_written (v := .int s.memoryMb) (by simp [entries]),
        size_kept (integer ("memoryMB", orNull isInteger) (by simp)) read.memoryMb]
    · rw [get?_written (v := .int s.diskSizeGb) (by simp [entries]),
        size_kept (integer ("diskSizeGB", orNull isInteger) (by simp)) read.diskSizeGb]
    · rw [get?_written (v := s.imageUrl) (by simp [entries]), text_kept read.imageUrl]
  · rw [Fields.get?_update, get?_toFields_of_not_mem _ known, Option.none_or]

end MachineSpec

namespace Machine

open Value

/-- the places in an object, by the keys that lead there, that the operator writes: its own, and those that an object
must have where this one does not -/
def writtenPaths (fs : Fields) : List (List String) :=
  [["status"], ["metadata", "finalizers"], ["spec", "providerID"]] ++
    (["apiVersion", "kind", "spec"].filter fun key => !fs.has key).map fun key => [key]

/-- a place that is none of those, and that is neither inside one nor around one -/
def Foreign (fs : Fields) (path : List String) : Prop := ∀ own ∈ writtenPaths fs, ¬own <+: path ∧ ¬path <+: own

instance (fs : Fields) (path : List String) : Decidable (Foreign fs path) :=
  inferInstanceAs (Decidable (∀ own ∈ writtenPaths fs, _))

/-- an object with metadata that names it, and with whole sizes where it has a spec -/
structure Regular (fs ms : Fields) : Prop where
  metadata : fs.get? "metadata" = some (.object ms)
  name : (ms.get? "name").isSome = true
  ns : (ms.get? "namespace").isSome = true
  spec : ∀ v, fs.get? "spec" = some v → MachineSpec.sized v = true

def revised (m : Machine) (status : MachineStatus) (finalizers : List Value) (id : Value) : Machine :=
  { m.amended finalizers id with status }

variable {fs gs ms sp : Fields} {m : Machine} {status : MachineStatus} {finalizers : List Value} {id : Value} {key : String}

/-- outside of the parts that are laid over it, an object is written as it was stored -/
theorem get?_of_toValue (written : m.toValue = .ok (.object gs)) (apart : key ∉ ["metadata", "spec", "status"])
    (there : key ∈ ["apiVersion", "kind"] → m.stored.has key = true) : gs.get? key = m.stored.get? key := by
  simp only [List.mem_cons, List.not_mem_nil, or_false, not_or] at apart
  simp only [toValue, bind_eq_ok] at written
  obtain ⟨_, -, _, -, same⟩ := written
  rw [← Value.object.inj (Except.ok.inj same)]
  simp only [Fields.get?_set, Ne.symm apart.1, Ne.symm apart.2.1, Ne.symm apart.2.2, if_false]
  by_cases typed : key ∈ ["apiVersion", "kind"]
  · obtain ⟨v, found⟩ := Option.isSome_iff_exists.1 ((Fields.has_eq_isSome ..).symm.trans (there typed))
    rw [found, Fields.get?_setDefault_of_some (Fields.get?_setDefault_of_some found _)]
  · simp only [List.mem_cons, List.not_mem_nil, or_false, not_or] at typed
    rw [Fields.get?_setDefault_of_ne _ _ (Ne.symm typed.2), Fields.get?_setDefault_of_ne _ _ (Ne.symm typed.1)]

theorem getD_of_isSome {found : Option Value} {default : Value} (some : found.isSome = true) :
    found = Option.some (found.getD default) := by
  cases found with
  | none => cases some
  | some v => rfl

/-- of the metadata only the finalizers are written -/
theorem get?_metadataOver (name : ms.get? "name" = some m.name) (ns : ms.get? "namespace" = some m.ns)
    (version : m.resourceVersion = (ms.get? "resourceVersion").getD (.string "")) (other : key ≠ "finalizers") :
    (m.metadataOver ms).get? key = ms.get? key := by
  have named : (((ms.set "name" m.name).set "namespace" m.ns).set "finalizers" (.array m.finalizers)).get? key =
      ms.get? key := by
    rw [Fields.get?_set, if_neg other.symm, Fields.get?_set, Fields.get?_set]
    split
    · rename_i here
      rw [← here, ns]
    · split
      · rename_i here
        rw [← here, name]
      · rfl
  have kept := MachineSpec.text_kept version
  unfold metadataOver
  dsimp only
  split
  · rename_i set
    rw [if_pos set] at kept
    rw [Fields.get?_set]
    split
    · rename_i here
      rw [← here, kept]
    · exact named
  · exact named

theorem get?_finalizers (m : Machine) (ms : Fields) :
    (m.metadataOver ms).get? "finalizers" = some (.array m.finalizers) := by
  unfold metadataOver
  dsimp only
  split
  · rw [Fields.get?_set, if_neg (by decide), Fields.get?_set, if_pos rfl]
  · rw [Fields.get?_set, if_pos rfl]

section Revised

variable (regular : Regular fs ms) (read : Reads fs ms m)
include regular read

theorem get?_metadata_revised (other : key ≠ "finalizers") :
    ((m.revised status finalizers id).metadataOver ms).get? key = ms.get? key := by
  refine get?_metadataOver ?_ ?_ read.resourceVersion other
  · exact (getD_of_isSome regular.name).trans (congrArg some read.name.symm)
  · exact (getD_of_isSome regular.ns).trans (congrArg some read.ns.symm)

theorem laid_revised (written : (m.revised status finalizers id).toValue = .ok (.object gs)) :
    LaidOver (m.revised status finalizers id) ms gs := by
  have place : (m.revised status finalizers id).stored.get? "metadata" = some (.object ms) := by
    rw [← regular.metadata, ← read.stored]
    rfl
  obtain ⟨_, same, laid⟩ := laid_of_toValue place written
  cases same
  exact laid

/-- of a spec that is there only the provider id is written -/
theorem get?_spec_revised (written : (m.revised status finalizers id).toValue = .ok (.object gs))
    (there : fs.has "spec" = true) : ∃ sp sp' : Fields, fs.get? "spec" = some (.object sp) ∧ gs.get? "spec" = some (.object sp') ∧
      ∀ key ≠ "providerID", sp'.get? key = sp.get? key := by
  obtain ⟨w, found⟩ := Option.isSome_iff_exists.1 ((Fields.has_eq_isSome ..).symm.trans there)
  obtain ⟨sp, rfl, -⟩ := object_of_record (regular.spec w found)
  obtain ⟨sp', fields, spec⟩ := (laid_revised regular read written).spec
  have stored : (m.revised status finalizers id).stored = fs := read.stored
  rw [stored] at fields
  have whole := MachineSpec.ofValue_eq_ok_iff.1 (ofValue_spec read.spec fields)
  rw [found] at fields
  cases fields
  exact ⟨sp, _, found, spec, fun key other => MachineSpec.get?_update_of_ne whole (regular.spec _ found) id other⟩

/-- the places that are not the operator's keep their values -/
theorem under?_of_foreign (written : (m.revised status finalizers id).toValue = .ok (.object gs)) {path : List String}
    (foreign : Foreign fs path) : (object gs).under? path = (object fs).under? path := by
  cases path with
  | nil => exact absurd List.nil_prefix (foreign ["status"] (by simp [writtenPaths])).2
  | cons key rest =>
    by_cases inMetadata : key = "metadata"
    · subst inMetadata
      obtain ⟨past, around⟩ := foreign ["metadata", "finalizers"] (by simp [writtenPaths])
      cases rest with
      | nil => exact absurd ⟨["finalizers"], rfl⟩ around
      | cons inner rest =>
        have other : inner ≠ "finalizers" := by
          rintro rfl
          exact past ⟨rest, rfl⟩
        exact under?_inner_congr regular.metadata (laid_revised regular read written).metadata
          (get?_metadata_revised regular read other) rest
    by_cases inSpec : key = "spec"
    · subst inSpec
      obtain ⟨past, around⟩ := foreign ["spec", "providerID"] (by simp [writtenPaths])
      have there : fs.has "spec" = true := by
        refine Bool.of_not_eq_false fun missing => ?_
        exact (foreign ["spec"] (by simp [writtenPaths, missing])).1 ⟨rest, rfl⟩
      cases rest with
      | nil => exact absurd ⟨["providerID"], rfl⟩ around
      | cons inner rest =>
        have other : inner ≠ "providerID" := by
          rintro rfl
          exact past ⟨rest, rfl⟩
        obtain ⟨sp, sp', found, found', kept⟩ := get?_spec_revised regular read written there
        exact under?_inner_congr found found' (kept inner other) rest
    · have stated : key ≠ "status" := by
        rintro rfl
        exact (foreign ["status"] (by simp [writtenPaths])).1 ⟨rest, rfl⟩
      have typed : key ∈ ["apiVersion", "kind"] → fs.has key = true := by
        intro mem
        refine Bool.of_not_eq_false fun missing => ?_
        refine (foreign [key] ?_).1 ⟨rest, rfl⟩
        simp only [List.mem_cons, List.not_mem_nil, or_false] at mem
        rcases mem with rfl | rfl <;> simp [writtenPaths, missing]
      have stored : (m.revised status finalizers id).stored = fs := read.stored
      refine under?_cons_congr ?_ rest
      rw [← stored] at typed ⊢
      exact get?_of_toValue written (by simp [inMetadata, inSpec, stated]) typed

/-- the revised machine is read again, with its status as it is rendered -/
theorem ofValue_revised (written : (m.revised status finalizers id).toValue = .ok (.object gs))
    (progress : status.progress.IsObject) (named : id = m.spec.providerId ∨ id.isTruthy = true) :
    ofValue (.object gs) = .ok { m.revised status.rendered finalizers id with stored := gs } := by
  have laid := laid_revised regular read written
  have kept {key : String} (other : key ≠ "finalizers") :
      ((m.revised status finalizers id).metadataOver ms).get? key = ms.get? key :=
    get?_metadata_revised regular read other
  obtain ⟨sp, fields, spec⟩ := laid.spec
  have stored : (m.revised status finalizers id).stored = fs := read.stored
  rw [stored] at fields
  refine (ofValue_eq_ok_iff laid.metadata).2 {
    name := by rw [kept (by decide)]; exact read.name
    ns := by rw [kept (by decide)]; exact read.ns
    spec := ?_
    status := ?_
    finalizers := ?_
    resourceVersion := by rw [kept (by decide)]; exact read.resourceVersion
    deletionTimestamp := by rw [kept (by decide)]; exact read.deletionTimestamp
    stored := rfl
    generation := by rw [kept (by decide)]; exact read.generation
    owners := by rw [itemsOf_object, kept (by decide)]; exact read.owners }
  · rw [spec, Option.getD_some, orElse_object]
    exact MachineSpec.ofValue_written (ofValue_spec read.spec fields) named
  · rw [laid.status, Option.getD_some, MachineStatus.toValue_orElse]
    exact MachineStatus.ofValue_toValue status progress
  · rw [itemsOf_object, get?_finalizers, Option.getD_some, orElse_array]
    rfl

/-- a regular object has places for the parts of the machine -/
theorem exists_written_revised : ∃ gs, (m.revised status finalizers id).toValue = .ok (.object gs) := by
  have stored : (m.revised status finalizers id).stored = fs := read.stored
  obtain ⟨sp, fields⟩ : ∃ sp, ((fs.get? "spec").getD (.object [])).fields = .ok sp := by
    cases found : fs.get? "spec" with
    | none => exact ⟨[], rfl⟩
    | some w =>
      obtain ⟨sp, rfl, -⟩ := object_of_record (regular.spec w found)
      exact ⟨sp, rfl⟩
  have place : (m.revised status finalizers id).stored.get? "metadata" = some (.object ms) := by
    rw [stored]
    exact regular.metadata
  have metadata : (((m.revised status finalizers id).stored.get? "metadata").getD (.object [])).fields = .ok ms := by
    rw [place]
    rfl
  obtain ⟨x, written⟩ := exists_toValue metadata (by rw [stored]; exact fields)
  obtain ⟨gs, rfl, -⟩ := laid_of_toValue place written
  exact ⟨gs, written⟩

end Revised

/-- A machine that was read from a regular object, and that has another status, other finalizers and perhaps a provider id
since, is written into that object: every place that is not the operator's has the value that it had, the metadata and
the spec are objects, and what is written is read as that machine, its status as it is read when it was written. -/
theorem foreign_fields_kept (regular : Regular fs ms) (read : ofValue (.object fs) = .ok m)
    (progress : status.progress.IsObject) (named : id = m.spec.providerId ∨ id.isTruthy = true) :
    ∃ gs : Fields, (m.revised status finalizers id).toValue = .ok (.object gs) ∧
      (∀ path, Foreign fs path → (object gs).under? path = (object fs).under? path) ∧
      (∃ ms' sp' : Fields, gs.get? "metadata" = some (.object ms') ∧ gs.get? "spec" = some (.object sp')) ∧
      ∃ s, MachineStatus.ofValue status.toValue = .ok s ∧
        ofValue (.object gs) = .ok { m.revised s finalizers id with stored := gs } := by
  have parts := (ofValue_eq_ok_iff regular.metadata).1 read
  obtain ⟨gs, written⟩ : ∃ gs, (m.revised status finalizers id).toValue = .ok (.object gs) :=
    exists_written_revised regular parts
  have laid := laid_revised regular parts written
  obtain ⟨sp, -, spec⟩ := laid.spec
  exact ⟨gs, written, fun path foreign => under?_of_foreign regular parts written foreign, ⟨_, _, laid.metadata, spec⟩,
    status.rendered, MachineStatus.ofValue_toValue status progress, ofValue_revised regular parts written progress named⟩

/-- an object without a version of its kind, with a label, sizes that are unset and a wish that is nobody's -/
def labelled : Fields :=
  [("kind", .string "FreeboxMachine"),
    ("metadata", .object [("labels", .object [("tier", .string "gold")]), ("name", .string "worker-0"),
      ("namespace", .string "default"), ("resourceVersion", .string "7")]),
    ("spec", .object [("diskSizeGB", .null), ("imageURL", .null), ("pool", .array [.int 1]), ("vcpus", .int 0)])]

theorem foreign_fields_kept_labelled : ∃ m gs, ofValue (.object labelled) = .ok m ∧
    (m.revised { stopAttempts := 2 } [finalizerValue] (.string "freebox://3")).toValue = .ok (.object gs) ∧
    (object gs).under? ["metadata", "labels", "tier"] = some (.string "gold") ∧
    (object gs).under? ["metadata", "resourceVersion"] = some (.string "7") ∧
    (object gs).under? ["spec", "vcpus"] = some (.int 0) ∧ (object gs).under? ["spec", "diskSizeGB"] = some .null ∧
    (object gs).under? ["spec", "name"] = none ∧ ∃ m', ofValue (.object gs) = .ok m' ∧
      m'.spec.providerId = .string "freebox://3" ∧ m'.status.stopAttempts = 2 := by
  obtain ⟨m, read⟩ := exists_of_isOk (x := ofValue (.object labelled)) (by decide +kernel)
  have regular : Regular labelled _ := {
    metadata := rfl
    name := rfl
    ns := rfl
    spec := by
      rintro v ⟨⟩
      rfl }
  obtain ⟨gs, written, kept, -, s, rendered, again⟩ := @foreign_fields_kept labelled _ m { stopAttempts := 2 }
    [finalizerValue] (.string "freebox://3") regular read trivial (.inr rfl)
  obtain rfl := Except.ok.inj (rendered.symm.trans (MachineStatus.ofValue_toValue _ trivial))
  exact ⟨m, gs, read, written, (kept _ (by decide +kernel)).trans rfl, (kept _ (by decide +kernel)).trans rfl,
    (kept _ (by decide +kernel)).trans rfl, (kept _ (by decide +kernel)).trans rfl,
    (kept _ (by decide +kernel)).trans rfl, _, again, rfl, rfl⟩

end Machine

end VmOperator
