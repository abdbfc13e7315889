import VmOperator.Proofs.Image.Phase
import VmOperator.Proofs.Resource.Rendering
import VmOperator.Proofs.Value.Shape

/-! Machines whose fields have the types that they are documented with, as far as the operator looks at them. Such an
object is read as a machine (`ofValue_gives`), whose image and owner can be told and which can be written again. -/

namespace VmOperator

open Value

def Value.isImageUrl : Value → Bool
  | .string url => (Image.nameOfUrl url).isOk
  | _ => false

namespace MachineSpec

def shape : Value → Bool := record
  [("name", isText), ("vcpus", isInteger), ("memoryMB", isInteger), ("diskSizeGB", isInteger), ("imageURL", isImageUrl)]

structure Typed (s : MachineSpec) : Prop where
  name : s.name.isText = true
  image : s.imageUrl.isImageUrl = true

theorem ofValue_gives {data : Value} (documented : shape data = true) : Gives (ofValue data) Typed := by
  refine .bind ((get_gives (p := isText) documented (by simp) rfl).mono fun name named => ?_)
  refine .bind ((intOf_gives documented (by simp)).mono fun vcpus _ => ?_)
  refine .bind ((intOf_gives documented (by simp)).mono fun memory _ => ?_)
  refine .bind ((intOf_gives documented (by simp)).mono fun disk _ => ?_)
  refine .bind ((get_gives (p := isImageUrl) documented (by simp) rfl).mono fun url image => ?_)
  exact .bind ((getAny_gives documented ..).mono fun _ _ => .ok ⟨named, image⟩)

end MachineSpec

namespace MachineStatus

def progressShape : Value → Bool := record [("taskId", isInteger), ("src", isText), ("dst", isText)]

def conditionShape : Value → Bool := record [("reason", isText)]

def shape : Value → Bool := record
  [("progress", progressShape), ("vmId", orNull isInteger), ("diskPath", isText), ("addresses", listOf (record [])),
    ("initialization", record []), ("conditions", listOf conditionShape),
    ("teardown", record [("stopAttempts", isInteger)])]

structure Typed (s : MachineStatus) : Prop where
  progress : progressShape s.progress = true
  diskPath : s.diskPath.isText = true
  reasons : ∀ c ∈ s.conditions, c.reason.isText = true

theorem condition_gives {data : Value} (documented : conditionShape data = true) :
    Gives (Condition.ofValue data) fun c => c.reason.isText = true := by
  refine .bind ((getAny_gives documented ..).mono fun _ _ => .bind ((getAny_gives documented ..).mono fun _ _ => ?_))
  refine .bind ((get_gives (p := isText) documented (by simp) rfl).mono fun _ reason => ?_)
  refine .bind ((getAny_gives documented ..).mono fun _ _ => .bind ((getAny_gives documented ..).mono fun _ _ => ?_))
  exact .bind ((getAny_gives documented ..).mono fun _ _ => .ok reason)

theorem addressesOf_gives {items : List Value} (documented : ∀ item ∈ items, record [] item = true) :
    Gives (addressesOf items) fun _ => True := by
  refine .bind ((Gives.mapM (P := fun _ => True) fun item mem => ?_).mono fun _ _ => .ok trivial)
  refine .bind ((getAny_gives (documented item mem) ..).mono fun _ _ => ?_)
  split
  · exact .bind ((getAny_gives (documented item mem) ..).mono fun _ _ => .ok trivial)
  · exact .ok trivial

theorem toObject_gives {v : Value} (documented : progressShape v = true) :
    Gives v.toObject fun w => progressShape w = true := by
  obtain ⟨fs, rfl, -⟩ := object_of_record documented
  exact .ok documented

theorem ofValue_gives {data : Value} (documented : shape data = true) : Gives (ofValue data) Typed := by
  unfold ofValue
  refine .bind ((get_gives (p := orNull isInteger) documented (by simp) rfl).mono fun vmId number => ?_)
  refine .bind ((section?_gives (p := progressShape) documented (by simp) rfl).mono fun progress shaped => ?_)
  refine .bind ((toObject_gives shaped).mono fun progress shaped => ?_)
  have numbered : Gives (if vmId = .null then pure none else some <$> vmId.toInt) fun _ => True := by
    split
    · exact .ok trivial
    · rename_i set
      rw [map_eq_pure_bind]
      exact .bind ((toInt_gives (of_orNull number set)).mono fun _ _ => .ok trivial)
  refine .branch (numbered.mono fun _ _ => ?_)
  refine .bind ((get_gives (p := isText) documented (by simp) rfl).mono fun diskPath text => ?_)
  refine .bind ((itemsOf_gives (p := record []) documented (by simp)).mono fun items entries => ?_)
  refine .bind ((addressesOf_gives entries).mono fun _ _ => ?_)
  refine .bind ((getAny_gives documented ..).mono fun _ _ => .bind ((getAny_gives documented ..).mono fun _ _ => ?_))
  have initialized : Gives (provisionedOf data) fun _ => True :=
    .bind ((section?_gives (p := record []) documented (by simp) rfl).mono fun _ shaped =>
      .bind ((getAny_gives shaped ..).mono fun _ _ => .ok trivial))
  refine .bind (initialized.mono fun _ _ => ?_)
  refine .bind ((itemsOf_gives (p := conditionShape) documented (by simp)).mono fun conditions each => ?_)
  refine .bind ((Gives.mapM fun c mem => condition_gives (each c mem)).mono fun _ reasons => ?_)
  refine .bind ((section?_gives (p := record [("stopAttempts", isInteger)]) documented (by simp) rfl).mono ?_)
  intro teardown counted
  refine .bind ((get_gives (p := isInteger) counted (by simp) rfl).mono fun _ integer => ?_)
  exact .bind ((toInt_gives integer).mono fun _ _ => .ok ⟨shaped, text, reasons⟩)

end MachineStatus

namespace Machine

def ownerShape : Value → Bool := record [("apiVersion", isText)]

def metadataShape : Value → Bool := record
  [("name", isText), ("namespace", isText), ("finalizers", listOf fun _ => true), ("ownerReferences", listOf ownerShape)]

def shape : Value → Bool := record
  [("metadata", metadataShape), ("spec", MachineSpec.shape), ("status", MachineStatus.shape)]

/-- what may be relied on in a machine that was read from an object as documented -/
structure Typed (m : Machine) : Prop where
  name : m.name.isText = true
  spec : m.spec.Typed
  status : m.status.Typed
  owners : ∀ o ∈ m.owners, o.apiVersion.isText = true
  writable : ∃ ms sp, ((m.stored.get? "metadata").getD (.object [])).fields = .ok ms ∧
    ((m.stored.get? "spec").getD (.object [])).fields = .ok sp

theorem owner_gives {data : Value} (documented : ownerShape data = true) :
    Gives (OwnerReference.ofValue data) fun o => o.apiVersion.isText = true := by
  refine .bind ((get_gives (p := isText) documented (by simp) rfl).mono fun _ text => ?_)
  refine .bind ((getAny_gives documented ..).mono fun _ _ => .bind ((getAny_gives documented ..).mono fun _ _ => ?_))
  exact .bind ((getAny_gives documented ..).mono fun _ _ => .ok text)

theorem ofValue_gives {object : Value} (documented : shape object = true) : Gives (ofValue object) Typed := by
  unfold ofValue
  refine .bind ((section?_gives (p := metadataShape) documented (by simp) rfl).mono fun metadata shaped => ?_)
  refine .bind ((get_gives (p := isText) shaped (by simp) rfl).mono fun name named => ?_)
  refine .bind ((getAny_gives shaped ..).mono fun ns _ => ?_)
  refine .bind ((section?_gives (p := MachineSpec.shape) documented (by simp) rfl).mono fun wish wished => ?_)
  refine .bind ((MachineSpec.ofValue_gives wished).mono fun spec specified => ?_)
  refine .bind ((section?_gives (p := MachineStatus.shape) documented (by simp) rfl).mono fun seen observed => ?_)
  refine .bind ((MachineStatus.ofValue_gives observed).mono fun status stated => ?_)
  refine .bind ((itemsOf_gives (p := fun _ => true) shaped (by simp)).mono fun finalizers _ => ?_)
  refine .bind ((getAny_gives shaped ..).mono fun _ _ => .bind ((getAny_gives shaped ..).mono fun _ _ => ?_))
  refine .bind ((getAny_gives shaped ..).mono fun _ _ => ?_)
  refine .bind ((itemsOf_gives (p := ownerShape) shaped (by simp)).mono fun references each => ?_)
  refine .bind ((Gives.mapM fun o mem => owner_gives (each o mem)).mono fun owners owned => ?_)
  obtain ⟨fs, rfl, -⟩ := object_of_record documented
  obtain ⟨ms, place⟩ := exists_fields documented (.head _)
  obtain ⟨sp, wish⟩ := exists_fields documented (.tail _ (.head _))
  exact .bind (.ok (.ok ⟨named, specified, stated, owned, ms, sp, place, wish⟩))

section Typed

variable {m : Machine}

theorem Typed.imageUrl (typed : m.Typed) : ∃ url name, m.spec.imageUrl = .string url ∧ Image.nameOfUrl url = .ok name := by
  have image := typed.spec.image
  unfold isImageUrl at image
  split at image
  · rename_i url same
    obtain ⟨name, read⟩ := exists_of_isOk image
    exact ⟨url, name, same, read⟩
  · cases image

theorem Typed.vmName (typed : m.Typed) : m.vmName.isText = true := by
  unfold Machine.vmName orElse
  split
  · exact typed.spec.name
  · exact typed.name

theorem Typed.failedImageReason_gives (typed : m.Typed) : Gives m.failedImageReason? fun _ => True := by
  unfold failedImageReason?
  split
  · exact .ok trivial
  · rename_i c found
    split
    · exact .ok trivial
    · exact .bind ((toText_gives (typed.status.reasons c (List.mem_of_find?_eq_some found))).mono fun _ _ => .ok trivial)

theorem Typed.ownerName_gives (typed : m.Typed) : Gives m.ownerName fun _ => True := by
  unfold ownerName
  have owners := typed.owners
  generalize m.owners = os at owners
  induction os with
  | nil => exact .ok trivial
  | cons o os ih =>
    obtain ⟨text, rest⟩ := List.forall_mem_cons.1 owners
    unfold ownerName.go
    split
    · obtain ⟨version, same⟩ := eq_of_isText text
      obtain ⟨group, read⟩ : ∃ group, o.group = .ok group := by
        unfold OwnerReference.group
        rw [same]
        exact ⟨_, rfl⟩
      rw [read, ok_bind]
      split
      · exact .ok trivial
      · exact ih rest
    · exact ih rest

/-- whatever is changed beside what was stored can be written -/
theorem Typed.exists_written (typed : m.Typed) {m' : Machine} (stored : m'.stored = m.stored) : ∃ x, m'.toValue = .ok x := by
  obtain ⟨ms, sp, metadata, spec⟩ := typed.writable
  exact exists_toValue (by rw [stored]; exact metadata) (by rw [stored]; exact spec)

end Typed

end Machine

namespace Phase

def Textual (p : Phase) : Prop := ∀ src dst, p.paths? = some (src, dst) → src.isText = true ∧ dst.isText = true

variable {fs : Fields}

theorem decodeTask_gives (integer : ∀ w, fs.get? "taskId" = some w → isInteger w = true) (tag : String) :
    Gives (decodeTask tag ((fs.get? "taskId").getD .null)) fun _ => True := by
  unfold decodeTask
  split
  · exact .ok trivial
  · rename_i set
    cases found : fs.get? "taskId" with
    | none => simp [found] at set
    | some w =>
      obtain ⟨n, read, -⟩ := toInt_gives (integer w found)
      rw [Option.getD_some, read]
      exact .ok trivial

/-- a recorded text that is set is a text -/
theorem isText_of_isTruthy {key : String} (text : ∀ w, fs.get? key = some w → isText w = true)
    (set : ((fs.get? key).getD .null).isTruthy = true) : ((fs.get? key).getD .null).isText = true := by
  cases found : fs.get? key with
  | none =>
    rw [found] at set
    cases set
  | some w => exact text w found

theorem decodeKind_cases {kind : Kind} {tag : String} (known : kind? tag = some kind)
    (source : ∀ w, fs.get? "src" = some w → isText w = true) (target : ∀ w, fs.get? "dst" = some w → isText w = true)
    (progress : Value) (task : Option Int) : (∃ p : Phase, decodeKind kind tag progress fs task = .ok p ∧ p.Textual) ∨
      ∃ f, decodeKind kind tag progress fs task = .error (.fault f) := by
  unfold decodeKind
  split
  · exact .inl ⟨.notStarted, rfl, nofun⟩
  · exact .inr ⟨_, rfl⟩
  · exact .inl ⟨_, rfl, nofun⟩
  · exact .inl ⟨_, rfl, nofun⟩
  · dsimp only
    split
    · rename_i set
      obtain ⟨src, dst⟩ := Bool.and_eq_true_iff.1 set
      refine .inl ⟨_, rfl, fun _ _ same => ?_⟩
      rw [paths_of_kind known] at same
      cases same
      exact ⟨isText_of_isTruthy source src, isText_of_isTruthy target dst⟩
    · exact .inr ⟨_, rfl⟩

/-- a progress as documented is a phase, or it is reported that it is none -/
theorem decode_cases {progress : Value} (documented : MachineStatus.progressShape progress = true) :
    (∃ p : Phase, decode progress = .ok p ∧ p.Textual) ∨ ∃ f, decode progress = .error (.fault f) := by
  obtain ⟨fs, rfl, there⟩ := object_of_record documented
  unfold decode
  split
  · exact .inl ⟨.notStarted, rfl, nofun⟩
  · rw [fields_object, ok_bind]
    dsimp only
    split
    · rename_i tag _
      split
      · exact .inr ⟨_, rfl⟩
      · rename_i kind known
        obtain ⟨task, read, -⟩ := decodeTask_gives (there ("taskId", isInteger) (by simp)) tag
        rw [read, ok_bind]
        exact decodeKind_cases known (there ("src", isText) (by simp)) (there ("dst", isText) (by simp)) _ task
    · exact .inr ⟨_, rfl⟩

end Phase

end VmOperator
