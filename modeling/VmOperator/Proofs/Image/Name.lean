import VmOperator.Image.Name

/-! Names in one directory. Names without a slash lead to different paths (`Path.join_inj`), and the disks of
machines with different names have different names, whatever their images are (`Image.disk_inj`): the extension
of a disk is what follows its last point. -/

namespace VmOperator

namespace Path

theorem join_ne_empty {dir name : String} (set : dir ≠ "" ∨ name ≠ "") : join dir name ≠ "" := by
  unfold join
  split
  · rintro rfl
    contradiction
  · split
    · simpa [Decidable.imp_iff_not_or] using set
    · simp

def Single (name : String) : Prop := '/' ∉ name.toList

instance (name : String) : Decidable (Single name) := inferInstanceAs (Decidable ('/' ∉ name.toList))

theorem Single.append {a b : String} (ha : Single a) (hb : Single b) : Single (a ++ b) := by
  rw [Single, String.toList_append, List.mem_append]
  exact not_or.2 ⟨ha, hb⟩

theorem not_mem_takeWhile_ne (c : Char) (p : List Char) : c ∉ p.takeWhile (· != c) := by
  intro mem
  have all : (p.takeWhile (· != c)).all (· != c) = true := List.all_takeWhile
  simpa using List.all_eq_true.1 all c mem

theorem bne_of_mem_reverse {c : Char} {p : List Char} (missing : c ∉ p) : ∀ d ∈ p.reverse, (d != c) = true := by
  intro d mem
  rw [bne_iff_ne]
  rintro rfl
  exact missing (List.mem_reverse.1 mem)

theorem slash_not_mem_baseNameOf (p : List Char) : '/' ∉ baseNameOf p := by
  rw [baseNameOf, List.mem_reverse]
  exact not_mem_takeWhile_ne '/' _

theorem single_baseName (p : String) : Single (baseName p) := by
  rw [Single, baseName, String.toList_ofList]
  exact slash_not_mem_baseNameOf _

theorem baseNameOf_subset (p : List Char) : baseNameOf p ⊆ p := by
  intro c mem
  rw [baseNameOf, List.mem_reverse] at mem
  exact List.mem_reverse.1 ((List.takeWhile_prefix _).subset mem)

theorem baseNameOf_append {name : List Char} (unslashed : '/' ∉ name) (p : List Char) :
    baseNameOf (p ++ name) = baseNameOf p ++ name := by
  rw [baseNameOf, List.reverse_append, List.takeWhile_append_of_pos (bne_of_mem_reverse unslashed), List.reverse_append,
    List.reverse_reverse, baseNameOf]

theorem baseNameOf_of_getLast? {p : List Char} (ends : p.getLast? = some '/') : baseNameOf p = [] := by
  obtain ⟨front, rfl⟩ := List.getLast?_eq_some_iff.1 ends
  simp [baseNameOf]

/-- a path is what comes up to its last slash, and its last component -/
theorem exists_front (p : List Char) : ∃ front, (front = [] ∨ front.getLast? = some '/') ∧ p = front ++ baseNameOf p := by
  refine ⟨(p.reverse.dropWhile (· != '/')).reverse, ?_, ?_⟩
  · rw [List.getLast?_reverse, List.reverse_eq_nil_iff]
    cases found : p.reverse.dropWhile (· != '/') with
    | nil => exact .inl rfl
    | cons c more =>
      have stop := List.head?_dropWhile_not (· != '/') p.reverse
      rw [found] at stop
      obtain rfl : c = '/' := by simpa using stop
      exact .inr rfl
  · rw [baseNameOf, ← List.reverse_append, List.takeWhile_append_dropWhile, List.reverse_reverse]

theorem baseNameOf_of_front {front : List Char} (ends : front = [] ∨ front.getLast? = some '/') : baseNameOf front = [] := by
  rcases ends with rfl | slashed
  · rfl
  · exact baseNameOf_of_getLast? slashed

theorem baseNameOf_of_unslashed {name : List Char} (unslashed : '/' ∉ name) : baseNameOf name = name := by
  rw [← List.nil_append name, baseNameOf_append unslashed]
  rfl

theorem baseNameOf_eq_self {name : String} (single : Single name) : baseNameOf name.toList = name.toList :=
  baseNameOf_of_unslashed single

/-- the last component of a path is what its last slash is followed by -/
theorem baseName_append {name : String} (single : Single name) (dir : String) : baseName (dir ++ "/" ++ name) = name := by
  rw [baseName, String.toList_append, baseNameOf_append single, baseNameOf_of_getLast? (by simp), List.nil_append,
    String.ofList_toList]

/-- a name is joined to nothing, to what ends in a slash, or to itself where it is absolute -/
theorem exists_join (dir name : String) :
    ∃ front : List Char, (front = [] ∨ front.getLast? = some '/') ∧ (join dir name).toList = front ++ name.toList := by
  unfold join
  split
  · exact ⟨[], .inl rfl, rfl⟩
  · split
    · rename_i ends
      refine ⟨dir.toList, ?_, String.toList_append⟩
      rcases Bool.or_eq_true_iff.1 ends with unset | slashed
      · rw [beq_iff_eq.1 unset]
        exact .inl rfl
      · exact .inr (beq_iff_eq.1 slashed)
    · exact ⟨(dir ++ "/").toList, .inr (by simp), String.toList_append⟩

/-- what a name is joined to leaves its last component the last one -/
theorem baseNameOf_join_eq (dir name : String) : baseNameOf (join dir name).toList = baseNameOf name.toList := by
  obtain ⟨front, ends, chars⟩ := exists_join dir name
  obtain ⟨front', ends', parts⟩ := exists_front name.toList
  have all : front ++ front' = [] ∨ (front ++ front').getLast? = some '/' := by
    rcases ends' with rfl | slashed
    · rwa [List.append_nil]
    · refine .inr ?_
      rw [List.getLast?_append, slashed, Option.some_or]
  rw [chars, parts, ← List.append_assoc, baseNameOf_append (slash_not_mem_baseNameOf _), baseNameOf_of_front all,
    List.nil_append, baseNameOf_append (slash_not_mem_baseNameOf _), baseNameOf_of_front ends', List.nil_append]

theorem baseNameOf_join {name : String} (single : Single name) (dir : String) :
    baseNameOf (join dir name).toList = name.toList := by
  rw [baseNameOf_join_eq, baseNameOf_eq_self single]

theorem join_eq {dir name : String} (single : Single name) :
    join dir name = (if dir == "" || dir.toList.getLast? == some '/' then dir else dir ++ "/") ++ name := by
  have relative : (name.toList.head? == some '/') = false := by
    rw [beq_eq_false_iff_ne]
    intro head
    exact single (List.mem_of_mem_head? head)
  rw [join, relative]
  split
  · contradiction
  · split <;> rfl

theorem join_append {a b : String} (single : Single (a ++ b)) (dir : String) : join dir (a ++ b) = join dir a ++ b := by
  have front : Single a := by
    rw [Single, String.toList_append, List.mem_append] at single
    exact fun mem => single (.inl mem)
  rw [join_eq single, join_eq front, String.append_assoc]

theorem join_inj {dir a b : String} (ha : Single a) (hb : Single b) (same : join dir a = join dir b) : a = b := by
  rw [join_eq ha, join_eq hb] at same
  have chars := congrArg String.toList same
  rw [String.toList_append, String.toList_append] at chars
  exact String.toList_injective (List.append_cancel_left chars)

/-- an extension is a point and then neither points nor slashes -/
theorem extension_cases (p : String) :
    extension p = "" ∨ ∃ rest, (extension p).toList = '.' :: rest ∧ '.' ∉ rest ∧ '/' ∉ rest := by
  unfold extension splitExtOf
  dsimp only
  split
  · refine .inr ⟨_, String.toList_ofList, ?_, ?_⟩ <;> rw [List.mem_reverse] <;> intro mem
    · exact not_mem_takeWhile_ne '.' _ mem
    · have inside := (List.dropWhile_suffix _).subset (List.mem_reverse.1 ((List.takeWhile_prefix _).subset mem))
      exact slash_not_mem_baseNameOf _ inside
  · exact .inl rfl

theorem single_extension (p : String) : Single (extension p) := by
  rcases extension_cases p with unset | ⟨rest, chars, -, unslashed⟩
  · rw [unset]
    exact List.not_mem_nil
  · rw [Single, chars, List.mem_cons]
    exact not_or.2 ⟨by decide, unslashed⟩

end Path

namespace Image

open VmOperator.Path (Single)

theorem diskExtension_eq (name : String) :
    ∃ rest, (diskExtension name).toList = '.' :: rest ∧ '.' ∉ rest ∧ '/' ∉ rest := by
  unfold diskExtension
  dsimp only
  split
  · exact ⟨['r', 'a', 'w'], by decide, by decide, by decide⟩
  · rename_i set
    exact (Path.extension_cases _).resolve_left (by simpa using set)

theorem diskExtension_ne_empty (name : String) : diskExtension name ≠ "" := by
  obtain ⟨rest, chars, -⟩ := diskExtension_eq name
  intro none
  rw [none] at chars
  cases chars

theorem finalPath_ne_empty (storage machine name : String) : finalPath storage machine name ≠ "" :=
  Path.join_ne_empty (.inr (by simp [diskExtension_ne_empty name]))

theorem single_disk {machine : String} (single : Single machine) (name : String) :
    Single (machine ++ diskExtension name) := by
  refine single.append ?_
  obtain ⟨rest, chars, -, unslashed⟩ := diskExtension_eq name
  rw [Single, chars, List.mem_cons]
  exact not_or.2 ⟨by decide, unslashed⟩

theorem eq_of_append_cons {a b rest rest' : List Char} {c : Char} (h : c ∉ rest) (h' : c ∉ rest')
    (same : a ++ c :: rest = b ++ c :: rest') : a = b := by
  have closes {a b rest rest' more : List Char} (h : c ∉ rest) (right : b = a ++ more)
      (left : c :: rest = more ++ c :: rest') : a = b := by
    cases more with
    | nil => rw [right, List.append_nil]
    | cons d more =>
      obtain ⟨-, rfl⟩ := List.cons.inj left
      exact absurd (List.mem_append_right _ (List.mem_cons_self ..)) h
  rcases List.append_eq_append_iff.1 same with ⟨more, right, left⟩ | ⟨more, right, left⟩
  · exact closes h right left
  · exact (closes h' right left).symm

/-- the name of a disk tells the machine -/
theorem disk_inj {machine machine' name name' : String}
    (same : machine ++ diskExtension name = machine' ++ diskExtension name') : machine = machine' := by
  obtain ⟨rest, chars, undotted, -⟩ := diskExtension_eq name
  obtain ⟨rest', chars', undotted', -⟩ := diskExtension_eq name'
  have whole := congrArg String.toList same
  rw [String.toList_append, String.toList_append, chars, chars'] at whole
  exact String.toList_injective (eq_of_append_cons undotted undotted' whole)

theorem single_of_nameOfUrl {url name : String} (named : nameOfUrl url = .ok name) : Single name := by
  unfold nameOfUrl at named
  cases parsed : Url.path url with
  | error =>
    rw [parsed] at named
    cases named
  | ok path =>
    rw [parsed] at named
    obtain rfl := Except.ok.inj named
    exact Path.single_baseName path

theorem single_stripCompression {name : String} (single : Single name) : Single (stripCompression name) := by
  unfold stripCompression
  split
  · rw [Single, String.toList_ofList]
    exact fun mem => single ((List.take_prefix _ _).subset mem)
  · exact single

theorem single_ite_stripCompression {name : String} (compressed : Prop) [Decidable compressed] (single : Single name) :
    Single (if compressed then stripCompression name else name) := by
  split
  · exact single_stripCompression single
  · exact single

end Image
end VmOperator
