import VmOperator.Proofs.Image.File
import VmOperator.Proofs.Text.Lower

/-! What the path of a disk tells. Where something other than points stands in the name of a machine, the path is
split into the machine's place in the storage directory and the extension of the disk (`split_finalPath`), so
machines share no disk and the disk is of the type of the image inside the download. Letter case is that of all of
Unicode there: nothing but ASCII letters lowers to `.qcow2`. -/

namespace VmOperator.Image

open VmOperator.Path (Single)

/-- a name of something other than points; others take the extension for a part of themselves -/
def Visible (name : String) : Prop := ∃ c ∈ name.toList, c ≠ '.'

instance (name : String) : Decidable (Visible name) := List.decidableBEx (· ≠ '.') name.toList

variable {machine machine' storage name name' : String}

theorem finalPath_eq (single : Single machine) (storage name : String) :
    finalPath storage machine name = Path.join storage machine ++ diskExtension name :=
  Path.join_append (single_disk single name) storage

theorem split_finalPath (single : Single machine) (visible : Visible machine) (storage name : String) :
    Path.splitExtOf (finalPath storage machine name).toList =
      ((Path.join storage machine).toList, (diskExtension name).toList) := by
  obtain ⟨rest, chars, unpointed, unslashed⟩ := diskExtension_eq name
  have base : ∃ c ∈ Path.baseNameOf (Path.join storage machine).toList, c ≠ '.' := by
    rwa [Path.baseNameOf_join single]
  rw [finalPath_eq single, String.toList_append, chars, Path.splitExtOf_append base unpointed unslashed]

/-- the machine and the extension can be read off the path -/
theorem finalPath_inj (single : Single machine) (visible : Visible machine) (single' : Single machine')
    (visible' : Visible machine') (same : finalPath storage machine name = finalPath storage machine' name') :
    machine = machine' ∧ diskExtension name = diskExtension name' := by
  have split := split_finalPath single visible storage name
  rw [same, split_finalPath single' visible' storage name', Prod.mk.injEq] at split
  exact ⟨(Path.join_inj single' single (String.toList_injective split.1)).symm, (String.toList_injective split.2).symm⟩

theorem diskType_eq_qcow2_iff (path : String) : diskType path = .qcow2 ↔ Text.lower (Path.extension path) = ".qcow2" := by
  have exclusive : ∀ c ∈ ".qcow2".toList, Text.Exclusive c := by simp [Text.Exclusive]
  rw [Text.lower_eq_iff exclusive, diskType, lowerAscii]
  split
  · rename_i known
    exact iff_of_true rfl (beq_iff_eq.1 known)
  · rename_i other
    exact iff_of_false (by decide) fun known => other (beq_iff_eq.2 known)

/-- a disk without an extension of its own is a raw one, which is what its type was before -/
theorem diskType_of_extension {path : String} (extension : Path.extension path = diskExtension name) :
    diskType path = diskType (stripCompression name) := by
  rw [diskType, extension, diskExtension, diskType]
  split
  · rename_i unset
    rw [beq_iff_eq.1 unset]
    decide
  · rfl

/-- Names of machines with something other than points keep their disks apart, and the type of a disk is that of the
image without its compressed suffix. -/
theorem final_path_tells (single : Single machine) (visible : Visible machine) (storage name : String) :
    Path.splitExtOf (finalPath storage machine name).toList =
        ((Path.join storage machine).toList, (diskExtension name).toList) ∧
      (∀ machine' name', Single machine' → Visible machine' →
        finalPath storage machine name = finalPath storage machine' name' →
          machine = machine' ∧ diskExtension name = diskExtension name') ∧
      diskType (finalPath storage machine name) = diskType (stripCompression name) ∧
      (diskType (finalPath storage machine name) = .qcow2 ↔
        Text.lower (Path.extension (stripCompression name)) = ".qcow2") := by
  have split := split_finalPath single visible storage name
  have kind : diskType (finalPath storage machine name) = diskType (stripCompression name) := by
    refine diskType_of_extension ?_
    rw [Path.extension, split, String.ofList_toList]
  refine ⟨split, fun _ _ single' visible' same => finalPath_inj single visible single' visible' same, kind, ?_⟩
  rw [kind, diskType_eq_qcow2_iff]

/-- A hidden machine with points in its name, a slash at the end of the directory, capitals in the extension, and a
second image for the same path. -/
theorem final_path_tells_hidden :
    finalPath "/disks/" ".node.1" "Image.QCOW2.gz" = "/disks/.node.1.QCOW2" ∧
      Path.splitExtOf "/disks/.node.1.QCOW2".toList = ("/disks/.node.1".toList, ".QCOW2".toList) ∧
      diskExtension "Image.QCOW2.gz" = diskExtension "other.QCOW2" ∧
      diskType "/disks/.node.1.QCOW2" = .qcow2 := by
  have path : finalPath "/disks/" ".node.1" "Image.QCOW2.gz" = "/disks/.node.1.QCOW2" := by decide
  obtain ⟨split, apart, -, kind⟩ := final_path_tells (show Single ".node.1" by decide) (by decide) "/disks/" "Image.QCOW2.gz"
  rw [path] at split kind
  refine ⟨path, ?_, ?_, ?_⟩
  · rw [split]
    decide
  · exact (apart ".node.1" "other.QCOW2" (by decide) (by decide) (by decide)).2
  · exact kind.2 (by decide +kernel)

/-- the extension of a machine named by points alone is taken for a part of its name -/
example : finalPath "/disks" ".." "Image.qcow2" = "/disks/...qcow2" ∧ Path.extension "/disks/...qcow2" = "" ∧
    diskType "/disks/...qcow2" = .raw := by decide

end VmOperator.Image
