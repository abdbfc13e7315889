import Mathlib.Data.List.Find
import VmOperator.Proofs.DiskName
import VmOperator.Proofs.Image.Phase

/-! Compressed names. One rule asks for the extension of a name and decides whether an image is extracted, another looks at
the end of the name and decides what the extraction leaves. Both go by ASCII letters only, which comes to the same as the
letter case of all of Unicode (`isCompressed_iff_lower`, `stripCompression_eq_cutLower`), and they agree: a name is compressed
exactly where taking off a suffix leaves a visible name (`isCompressed_iff_stripped`). -/

namespace VmOperator.Image

open VmOperator.Path (Single)

/-- what remains of a name once the first suffix that its lower case ends in is cut off -/
def cutLower (name : String) : String :=
  match compressedSuffixes.find? fun suffix => suffix.toList.isSuffixOf (Text.lower name).toList with
  | some suffix => String.ofList (name.toList.take (name.length - suffix.length))
  | none => name

variable {name : String}

theorem exclusive_of_suffix : ∀ suffix ∈ compressedSuffixes, ∀ c ∈ suffix.toList, Text.Exclusive c := by
  simp [compressedSuffixes, Text.Exclusive]

theorem isCompressed_iff_mem (name : String) :
    isCompressed name = true ↔ lowerAscii (Path.extension name) ∈ compressedSuffixes :=
  List.contains_iff_mem

theorem isCompressed_iff_lower (name : String) :
    isCompressed name = true ↔ Text.lower (Path.extension name) ∈ compressedSuffixes := by
  have same {suffix : String} (known : suffix ∈ compressedSuffixes) :
      Text.lower (Path.extension name) = suffix ↔ lowerAscii (Path.extension name) = suffix :=
    Text.lower_eq_iff (exclusive_of_suffix suffix known)
  rw [isCompressed_iff_mem]
  constructor
  · intro known
    rwa [(same known).2 rfl]
  · intro known
    rwa [(same known).1 rfl]

theorem stripCompression_eq_cutLower (name : String) : stripCompression name = cutLower name := by
  have same : compressedSuffixes.find? (fun suffix => suffix.toList.isSuffixOf (lowerAscii name).toList) =
      compressedSuffixes.find? fun suffix => suffix.toList.isSuffixOf (Text.lower name).toList := by
    refine List.find?_congr fun suffix known => ?_
    rw [Text.isSuffixOf_lower_iff (exclusive_of_suffix suffix known), lowerAscii, String.toList_ofList]
  rw [stripCompression, same]
  rfl

theorem eq_of_asciiLower {c d : Char} (lowered : Text.asciiLower c = d) (sign : d.toNat < 0x61) : c = d := by
  unfold Text.asciiLower at lowered
  split at lowered
  · rename_i capital
    have code : (Char.ofNat (c.toNat + 0x20)).toNat = c.toNat + 0x20 := by
      rw [Char.ofNat, dif_pos (by rw [Nat.isValidChar]; omega)]
      rfl
    rw [lowered] at code
    omega
  · exact lowered

/-- what is taken off a name is a point and what follows it, without another point or a slash -/
theorem stripCompression_cases (name : String) : stripCompression name = name ∨
    ∃ stem rest, name.toList = stem ++ '.' :: rest ∧ '.' ∉ rest ∧ '/' ∉ rest ∧ stripCompression name = String.ofList stem ∧
      lowerAscii (String.ofList ('.' :: rest)) ∈ compressedSuffixes := by
  unfold stripCompression
  split
  · rename_i suffix found
    have known := List.mem_of_find?_eq_some found
    obtain ⟨front, whole⟩ : suffix.toList <:+ (lowerAscii name).toList := by simpa using List.find?_some found
    rw [lowerAscii, String.toList_ofList] at whole
    obtain ⟨stem, last, parts, -, lowered⟩ := List.map_eq_append_iff.1 whole.symm
    obtain ⟨rest, chars, unpointed⟩ := compressedSuffix_eq known
    rw [chars] at lowered
    obtain ⟨c, rest', rfl, point, tail⟩ := List.map_eq_cons_iff.1 lowered
    obtain rfl := eq_of_asciiLower point (by decide)
    have apart : ∀ suffix ∈ compressedSuffixes, Single suffix := by decide
    have unslashed := apart suffix known
    rw [Single, chars, ← tail] at unslashed
    rw [← tail] at unpointed
    refine .inr ⟨stem, rest', parts, ?_, ?_, ?_, ?_⟩
    · exact fun mem => unpointed (List.mem_map_of_mem (f := Text.asciiLower) mem)
    · exact fun mem => unslashed (List.mem_cons_of_mem _ (List.mem_map_of_mem (f := Text.asciiLower) mem))
    · have length : name.length - suffix.length = stem.length := by
        rw [← String.length_toList, ← String.length_toList, parts, chars, ← tail]
        simp
      rw [length, parts, List.take_left]
    · rwa [lowerAscii, String.toList_ofList, lowered, ← chars, String.ofList_toList]
  · exact .inl rfl

/-- a compressed name is a visible one and its extension, which is what is taken off it -/
theorem exists_stripped (compressed : isCompressed name = true) :
    ∃ stem, (∃ c ∈ Path.baseNameOf stem, c ≠ '.') ∧ name.toList = stem ++ (Path.extension name).toList ∧
      stripCompression name = String.ofList stem ∧ Path.splitExtOf name.toList = (stem, (Path.extension name).toList) := by
  have set : Path.extension name ≠ "" := by
    intro none
    rw [isCompressed, none] at compressed
    exact absurd compressed (by decide)
  obtain ⟨stem, visible, parts⟩ := Path.exists_stem set
  refine ⟨stem, visible, parts, stripCompression_eq compressed parts, ?_⟩
  obtain ⟨rest, chars, unpointed, unslashed⟩ := (Path.extension_cases name).resolve_left set
  rw [parts, chars, Path.splitExtOf_append visible unpointed unslashed]

/-- both rules agree -/
theorem isCompressed_iff_stripped (name : String) :
    isCompressed name = true ↔ stripCompression name ≠ name ∧ Visible (Path.baseName (stripCompression name)) := by
  constructor
  · intro compressed
    obtain ⟨stem, ⟨c, mem, other⟩, parts, stripped, split⟩ := exists_stripped compressed
    refine ⟨fun same => ?_, c, ?_, other⟩
    · have whole : name.toList = stem := by rw [← String.toList_ofList (l := stem), ← stripped, same]
      rw [whole] at parts
      have unset : (Path.extension name).toList = [] := List.self_eq_append_right.1 parts
      rw [isCompressed_iff_mem, String.toList_eq_nil_iff.1 unset] at compressed
      exact absurd compressed (by decide)
    · rwa [stripped, Path.baseName, String.toList_ofList, String.toList_ofList]
  · rintro ⟨differs, visible⟩
    obtain ⟨stem, rest, parts, unpointed, unslashed, stripped, known⟩ := (stripCompression_cases name).resolve_left differs
    rw [stripped, Path.baseName, Visible, String.toList_ofList, String.toList_ofList] at visible
    rw [isCompressed_iff_mem, Path.extension, parts, Path.splitExtOf_append visible unpointed unslashed]
    exact known

/-- what is extracted is found under the name of the image without its suffix -/
theorem baseName_extractedPath (compressed : isCompressed name = true) (storage : String) :
    Visible (Path.baseName (extractedPath storage name)) ∧
      Path.baseName name = Path.baseName (extractedPath storage name) ++ Path.extension name := by
  obtain ⟨stem, visible, parts, stripped, -⟩ := exists_stripped compressed
  have base : Path.baseName (extractedPath storage name) = String.ofList (Path.baseNameOf stem) := by
    rw [Path.baseName, extractedPath, Path.baseNameOf_join_eq, stripped, String.toList_ofList]
  refine ⟨?_, ?_⟩
  · rwa [base, Visible, String.toList_ofList]
  · rw [base, Path.baseName, parts, Path.baseNameOf_append (Path.single_extension name), String.ofList_append,
      String.ofList_toList]

/-- what the two rules say of a name, and what becomes of an image that is downloaded under it -/
structure ToldAlike (name : String) : Prop where
  extension : isCompressed name = true ↔ Text.lower (Path.extension name) ∈ compressedSuffixes
  suffix : stripCompression name = cutLower name
  agree : isCompressed name = true ↔ stripCompression name ≠ name ∧ Visible (Path.baseName (stripCompression name))
  root : isCompressed name = true → (stripCompression name).toList = (Path.splitExtOf name.toList).1
  extracted : ∀ (downloads : String) (dir src dst : Value),
    Phase.afterDownload name downloads dir = .extracting src dst none → ∀ (task : Option Int) (storage machine : String),
      ∃ output, ((Phase.extracting src dst task).afterTransfer name storage machine =
            .renaming (.string output) (.string (finalPath storage machine name)) none ∨
          output = finalPath storage machine name ∧
            (Phase.extracting src dst task).afterTransfer name storage machine = .resizing none) ∧
        Visible (Path.baseName output) ∧
        ∃ taken, Text.lower taken ∈ compressedSuffixes ∧ Path.baseName name = Path.baseName output ++ taken

/-- The rule by which an image is extracted and the rule that names what is extracted agree on every name. A name is
compressed exactly if a suffix can be taken off it so that something other than points is left in the last component, and
then what is left is all that stands before the extension. So what is extracted goes by a visible name, which is that of
the download without one suffix. -/
theorem suffix_told_alike (name : String) : ToldAlike name where
  extension := isCompressed_iff_lower name
  suffix := stripCompression_eq_cutLower name
  agree := isCompressed_iff_stripped name
  root := by
    intro compressed
    obtain ⟨stem, -, -, stripped, split⟩ := exists_stripped compressed
    rw [split, stripped, String.toList_ofList]
  extracted := by
    intro downloads dir src dst extracts task storage machine
    have compressed : isCompressed name = true := Phase.compressed_of_afterDownload (by rw [extracts]; rfl)
    obtain ⟨visible, named⟩ := baseName_extractedPath compressed storage
    refine ⟨extractedPath storage name, ?_, visible, Path.extension name, (isCompressed_iff_lower name).1 compressed, named⟩
    exact (Phase.afterTransfer_cases (.extracting src dst task) name storage machine).symm

/-- a hidden archive in a directory: the Kelvin sign in its name lowers to a letter, the capitals of its suffix do, and one
suffix of two is taken off -/
theorem suffix_told_alike_hidden :
    isCompressed "pub/.\u212a.TAR.Xz" = true ∧ cutLower "pub/.\u212a.TAR.Xz" = "pub/.\u212a.TAR" ∧
      ∃ output, (Phase.extracting (.string "/downloads/pub/.\u212a.TAR.Xz") (.string "/disks") (some 8)).afterTransfer
          "pub/.\u212a.TAR.Xz" "/disks" "worker" = .renaming (.string output) (.string "/disks/worker.TAR") none ∧
        Visible (Path.baseName output) := by
  have told := suffix_told_alike "pub/.\u212a.TAR.Xz"
  obtain ⟨output, after, visible, -⟩ := told.extracted "/downloads" (.string "/disks")
    (.string "/downloads/pub/.\u212a.TAR.Xz") (.string "/disks") (by decide +kernel) (some 8) "/disks" "worker"
  refine ⟨told.extension.2 (by decide +kernel), by rw [← told.suffix]; decide, output, ?_, visible⟩
  rcases after with renamed | ⟨-, resized⟩
  · exact renamed
  · exact absurd resized (by decide +kernel)

/-- of points alone a suffix can be taken off, too, and what is left stands for no file -/
example : isCompressed "..gz" = false ∧ stripCompression "..gz" = "." := by decide

end VmOperator.Image
