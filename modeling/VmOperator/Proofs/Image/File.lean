import Mathlib.Data.List.TakeWhile
import VmOperator.Proofs.Image.Name

/-! Names of files. A file name stands for an entry of its directory, and what it is joined to is that directory,
a slash and the name (`Path.inside_join`). A compressed name is a file name without its suffix, too
(`Image.isFile_stripCompression`): something other than points stands before the suffix. -/

namespace VmOperator

namespace Path

/-- the name of an entry of a directory, which is neither that directory nor the one above it -/
def IsFile (name : String) : Prop := Single name ∧ name ∉ ["", ".", ".."]

instance (name : String) : Decidable (IsFile name) := inferInstanceAs (Decidable (_ ∧ _))

def Inside (dir path : String) : Prop := ∃ name, IsFile name ∧ path = dir ++ "/" ++ name

def IsDir (dir : String) : Prop := dir.toList.head? = some '/' ∧ dir.toList.getLast? ≠ some '/'

instance (dir : String) : Decidable (IsDir dir) := inferInstanceAs (Decidable (_ ∧ _))

variable {dir name : String}

theorem join_of_isDir (plain : IsDir dir) (single : Single name) : join dir name = dir ++ "/" ++ name := by
  have set : (dir == "") = false := by
    rw [beq_eq_false_iff_ne]
    rintro rfl
    cases plain.1
  have unslashed : (dir.toList.getLast? == some '/') = false := beq_eq_false_iff_ne.2 plain.2
  rw [join_eq single, set, unslashed]
  rfl

theorem inside_join (plain : IsDir dir) (file : IsFile name) : Inside dir (join dir name) :=
  ⟨name, file, join_of_isDir plain file.1⟩

theorem trimSlashes_of_isDir (plain : IsDir dir) : trimSlashes dir = dir := by
  have kept : dir.toList.reverse.dropWhile (· == '/') = dir.toList.reverse := by
    refine List.dropWhile_eq_self_iff.2 fun nonempty head => plain.2 ?_
    rw [← List.head?_reverse, List.head?_eq_getElem?, List.getElem?_eq_getElem nonempty, beq_iff_eq.1 head]
  rw [trimSlashes, kept, List.reverse_reverse, String.ofList_toList]

theorem isFile_of_inside (dir : String) (inside : Inside dir (dir ++ "/" ++ name)) : IsFile name := by
  obtain ⟨name', file, same⟩ := inside
  have chars := congrArg String.toList same
  rw [String.toList_append, String.toList_append (s := dir ++ "/")] at chars
  rwa [String.toList_injective (List.append_cancel_left chars)]

/-- a text that does not begin with a point and has one ends in its last point and what follows that; something
stands before -/
theorem exists_before_point {body : List Char} (front : body.head? ≠ some '.') (pointed : '.' ∈ body) :
    ∃ before, (∃ c ∈ before, c ≠ '.') ∧ body = before ++ '.' :: (body.reverse.takeWhile (· != '.')).reverse := by
  obtain ⟨more, drops⟩ : ∃ more, body.reverse.dropWhile (· != '.') = '.' :: more := by
    cases found : body.reverse.dropWhile (· != '.') with
    | nil =>
      have other := List.dropWhile_eq_nil_iff.1 found '.' (List.mem_reverse.2 pointed)
      cases other
    | cons c more =>
      have stop := List.head?_dropWhile_not (· != '.') body.reverse
      rw [found] at stop
      obtain rfl : c = '.' := by simpa using stop
      exact ⟨more, rfl⟩
  have whole : body = more.reverse ++ '.' :: (body.reverse.takeWhile (· != '.')).reverse := by
    have parts := congrArg List.reverse (List.takeWhile_append_dropWhile (p := (· != '.')) (l := body.reverse))
    rw [drops] at parts
    simpa using parts.symm
  refine ⟨more.reverse, ?_, whole⟩
  cases stem : more.reverse with
  | nil =>
    rw [stem] at whole
    exact absurd (by rw [whole]; rfl) front
  | cons c rest =>
    refine ⟨c, List.mem_cons_self .., ?_⟩
    rintro rfl
    exact front (by rw [whole, stem]; rfl)

/-- what has an extension ends in it, and something other than points stands before it in the last component -/
theorem exists_stem (set : extension name ≠ "") :
    ∃ stem, (∃ c ∈ baseNameOf stem, c ≠ '.') ∧ name.toList = stem ++ (extension name).toList := by
  have pointed : '.' ∈ (baseNameOf name.toList).dropWhile (· == '.') := by
    refine Decidable.byContradiction fun pointless => set ?_
    simp [extension, splitExtOf, pointless]
  have front : ((baseNameOf name.toList).dropWhile (· == '.')).head? ≠ some '.' := by
    intro head
    have stop := List.head?_dropWhile_not (· == '.') (baseNameOf name.toList)
    rw [head] at stop
    cases stop
  obtain ⟨before, ⟨c, mem, other⟩, parts⟩ := exists_before_point front pointed
  have ends : (extension name).toList =
      '.' :: (((baseNameOf name.toList).dropWhile (· == '.')).reverse.takeWhile (· != '.')).reverse := by
    simp [extension, splitExtOf, pointed]
  have base : baseNameOf name.toList =
      (baseNameOf name.toList).takeWhile (· == '.') ++ before ++ (extension name).toList := by
    rw [ends, List.append_assoc, ← parts, List.takeWhile_append_dropWhile]
  obtain ⟨dir, slashed, whole⟩ := exists_front name.toList
  have unslashed : '/' ∉ (baseNameOf name.toList).takeWhile (· == '.') ++ before := by
    intro mem
    refine slash_not_mem_baseNameOf name.toList ?_
    rw [base]
    exact List.mem_append_left _ mem
  refine ⟨dir ++ ((baseNameOf name.toList).takeWhile (· == '.') ++ before), ⟨c, ?_, other⟩, ?_⟩
  · rw [baseNameOf_append unslashed, baseNameOf_of_front slashed, List.nil_append]
    exact List.mem_append_right _ mem
  · rw [List.append_assoc, ← base, ← whole]

/-- an extension is split off where something other than points stands before it in the last component -/
theorem splitExtOf_append {stem rest : List Char} (visible : ∃ c ∈ baseNameOf stem, c ≠ '.') (unpointed : '.' ∉ rest)
    (unslashed : '/' ∉ rest) : splitExtOf (stem ++ '.' :: rest) = (stem, '.' :: rest) := by
  have base : baseNameOf (stem ++ '.' :: rest) = baseNameOf stem ++ '.' :: rest :=
    baseNameOf_append (by simp [unslashed]) stem
  have body : (baseNameOf stem ++ '.' :: rest).dropWhile (· == '.') =
      (baseNameOf stem).dropWhile (· == '.') ++ '.' :: rest := by
    obtain ⟨c, mem, other⟩ := visible
    rw [List.dropWhile_append, if_neg]
    rw [List.isEmpty_iff, List.dropWhile_eq_nil_iff]
    exact fun points => other (beq_iff_eq.1 (points c mem))
  have last : ((baseNameOf stem).dropWhile (· == '.') ++ '.' :: rest).reverse.takeWhile (· != '.') = rest.reverse := by
    rw [List.reverse_append, List.reverse_cons, List.append_assoc,
      List.takeWhile_append_of_pos (bne_of_mem_reverse unpointed)]
    simp
  have root : (stem ++ '.' :: rest).take ((stem ++ '.' :: rest).length - ('.' :: rest).length) = stem :=
    List.take_left' (by simp)
  rw [splitExtOf]
  dsimp only
  rw [base, body, last, List.reverse_reverse, root, if_pos (by simp)]

end Path

namespace Image

open VmOperator.Path (Single IsFile)

/-- a suffix of a compressed name is one point and what follows it -/
theorem compressedSuffix_eq {suffix : String} (known : suffix ∈ compressedSuffixes) :
    ∃ rest, suffix.toList = '.' :: rest ∧ '.' ∉ rest := by
  have checked : ∀ suffix ∈ compressedSuffixes,
      suffix.toList.head? = some '.' ∧ '.' ∉ suffix.toList.tail := by decide
  obtain ⟨head, unpointed⟩ := checked suffix known
  obtain ⟨rest, chars⟩ := List.head?_eq_some_iff.1 head
  exact ⟨rest, chars, by rwa [chars] at unpointed⟩

theorem length_lowerAscii (name : String) : (lowerAscii name).toList.length = name.toList.length := by
  rw [lowerAscii, String.toList_ofList, List.length_map]

/-- the suffix that is taken off a compressed name is its extension -/
theorem stripCompression_eq {name : String} {stem : List Char} (compressed : isCompressed name = true)
    (parts : name.toList = stem ++ (Path.extension name).toList) : stripCompression name = String.ofList stem := by
  have known : lowerAscii (Path.extension name) ∈ compressedSuffixes := by simpa [isCompressed] using compressed
  have lowered : (lowerAscii name).toList = stem.map Text.asciiLower ++ (lowerAscii (Path.extension name)).toList := by
    rw [lowerAscii, String.toList_ofList, lowerAscii, String.toList_ofList, ← List.map_append, ← parts]
  -- a suffix has one point, so no two of them end the same name
  have ends : ∀ suffix ∈ compressedSuffixes, suffix.toList <:+ (lowerAscii name).toList →
      suffix = lowerAscii (Path.extension name) := by
    rintro suffix mem ⟨front, whole⟩
    obtain ⟨rest, chars, unpointed⟩ := compressedSuffix_eq mem
    obtain ⟨rest', chars', unpointed'⟩ := compressedSuffix_eq known
    rw [lowered, chars, chars'] at whole
    have front := eq_of_append_cons unpointed unpointed' whole
    rw [front] at whole
    refine String.toList_injective ?_
    rw [chars, chars']
    exact List.append_cancel_left whole
  unfold stripCompression
  split
  · rename_i suffix found
    obtain rfl := ends suffix (List.mem_of_find?_eq_some found) (by simpa using List.find?_some found)
    have length : name.length - (lowerAscii (Path.extension name)).length = stem.length := by
      rw [← String.length_toList, ← String.length_toList, length_lowerAscii, parts]
      simp
    rw [length, parts, List.take_left]
  · rename_i missing
    have last := List.find?_eq_none.1 missing _ known
    rw [lowered] at last
    exact absurd (by simp) last

/-- a compressed name stands for more than its suffix -/
theorem isFile_stripCompression {name : String} (single : Single name) (compressed : isCompressed name = true) :
    IsFile (stripCompression name) := by
  have set : Path.extension name ≠ "" := by
    intro none
    rw [isCompressed, none] at compressed
    exact absurd compressed (by decide)
  obtain ⟨stem, ⟨c, mem, other⟩, parts⟩ := Path.exists_stem set
  refine ⟨single_stripCompression single, ?_⟩
  rw [stripCompression_eq compressed parts]
  have only : ∀ name ∈ ["", ".", ".."], ∀ c ∈ name.toList, c = '.' := by simp
  exact fun named => other (only _ named c (by rw [String.toList_ofList]; exact Path.baseNameOf_subset stem mem))

/-- a suffix alone is a file name, and no compressed one -/
example : IsFile ".xz" ∧ isCompressed ".xz" = false ∧ ¬IsFile (stripCompression ".xz") := by decide

end Image

end VmOperator
