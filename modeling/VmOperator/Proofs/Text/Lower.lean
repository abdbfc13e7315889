import VmOperator.Text.Lower

/-! Which texts lower to a given ASCII text. A character beyond ASCII lowers to one beyond ASCII, but for the Kelvin
sign, which lowers to a k; so a text lowers to a word without that letter exactly where its ASCII letters do
(`Text.lower_eq_iff`), and so it is with the end of a text (`Text.isSuffixOf_lower_iff`). -/

namespace VmOperator.Text

/-- nothing beyond ASCII lowers to it -/
def Exclusive (c : Char) : Prop := c.toNat < 0x80 ∧ c ≠ 'k'

instance (c : Char) : Decidable (Exclusive c) := inferInstanceAs (Decidable (_ ∧ _))

/-- the small letters of a run are characters beyond ASCII -/
def CapitalRun.Beyond (r : CapitalRun) : Prop :=
  0x80 ≤ (r.first : Int) + r.toSmall ∧
    ((r.last : Int) + r.toSmall < 0xD800 ∨
      0xDFFF < (r.first : Int) + r.toSmall ∧ (r.last : Int) + r.toSmall < 0x110000)

instance (r : CapitalRun) : Decidable r.Beyond := inferInstanceAs (Decidable (_ ∧ _))

theorem capitalRuns_cases : ∀ r ∈ capitalRuns,
    r.last < 0x80 ∨ r.Beyond ∨ (r.first = 0x212A ∧ r.last = 0x212A ∧ r.toSmall = -8383) := by
  decide +kernel

theorem not_exclusive_of_le {c : Char} (beyond : 0x80 ≤ c.toNat) : ¬Exclusive c := by
  intro exclusive
  exact absurd exclusive.1 (Nat.not_lt.2 beyond)

theorem CapitalRun.Beyond.not_exclusive {r : CapitalRun} (small : r.Beyond) {code : Nat} (lower : r.first ≤ code)
    (upper : code ≤ r.last) : ¬Exclusive (Char.ofNat ((code : Int) + r.toSmall).toNat) := by
  obtain ⟨beyond, inside⟩ := small
  refine not_exclusive_of_le ?_
  have valid : ((code : Int) + r.toSmall).toNat.isValidChar := by
    rw [Nat.isValidChar]
    omega
  have given : (Char.ofNat ((code : Int) + r.toSmall).toNat).toNat = ((code : Int) + r.toSmall).toNat := by
    rw [Char.ofNat, dif_pos valid]
    rfl
  omega

theorem lowerChar_of_lt {c : Char} (ascii : c.toNat < 0x80) : lowerChar c = [asciiLower c] := by
  rw [lowerChar, if_pos ascii]

theorem asciiLower_of_le {c : Char} (beyond : 0x80 ≤ c.toNat) : asciiLower c = c := by
  rw [asciiLower, if_neg (by omega)]

/-- the last of what a character beyond ASCII lowers to is nothing that an ASCII letter lowers to, or it is a k -/
theorem exists_lowerChar {c : Char} (beyond : 0x80 ≤ c.toNat) : ∃ front d, lowerChar c = front ++ [d] ∧ ¬Exclusive d := by
  rw [lowerChar, if_neg (Nat.not_lt.2 beyond)]
  split
  · exact ⟨[Char.ofNat 0x69], Char.ofNat 0x307, rfl, by decide⟩
  · split
    · rename_i run found
      have holds : run.first ≤ c.toNat ∧ c.toNat ≤ run.last := by
        have holds := List.find?_some found
        simp only [CapitalRun.holds, Bool.and_eq_true, decide_eq_true_eq] at holds
        exact holds.1
      refine ⟨[], _, rfl, ?_⟩
      rcases capitalRuns_cases run (List.mem_of_find?_eq_some found) with ascii | small | ⟨first, last, toSmall⟩
      · omega
      · exact small.not_exclusive holds.1 holds.2
      · have kelvin : c.toNat = 0x212A := by omega
        rw [kelvin, toSmall]
        decide
    · exact ⟨[], c, rfl, not_exclusive_of_le beyond⟩

section After

variable {c : Char} {before rest : List Char}

theorem lowerAfter_cons_of_lt (ascii : c.toNat < 0x80) :
    lowerAfter before (c :: rest) = asciiLower c :: lowerAfter (c :: before) rest := by
  have word : ¬(c.toNat = capitalSigma ∧ meetsCased before ∧ ¬meetsCased rest) := by
    rintro ⟨sigma, -⟩
    rw [sigma] at ascii
    exact absurd ascii (by decide)
  rw [lowerAfter, if_neg word, lowerChar_of_lt ascii, List.singleton_append]

theorem lowerAfter_cons_of_le (before rest : List Char) (beyond : 0x80 ≤ c.toNat) :
    ∃ front d, ¬Exclusive d ∧ lowerAfter before (c :: rest) = front ++ d :: lowerAfter (c :: before) rest := by
  rw [lowerAfter]
  split
  · exact ⟨[], finalSigma, by decide, rfl⟩
  · obtain ⟨front, d, lowered, other⟩ := exists_lowerChar beyond
    exact ⟨front, d, other, by rw [lowered, List.append_assoc, List.singleton_append]⟩

end After

theorem lowerAfter_eq_iff {s t before : List Char} (exclusive : ∀ c ∈ t, Exclusive c) :
    lowerAfter before s = t ↔ s.map asciiLower = t := by
  induction s generalizing t before with
  | nil => rfl
  | cons c rest ih =>
    rw [List.map_cons]
    by_cases beyond : 0x80 ≤ c.toNat
    · -- either side has a character that the text cannot have
      obtain ⟨front, d, other, lowered⟩ := lowerAfter_cons_of_le before rest beyond
      refine iff_of_false ?_ ?_
      · rintro rfl
        refine other (exclusive d ?_)
        rw [lowered]
        exact List.mem_append_right _ (List.mem_cons_self ..)
      · rintro rfl
        refine not_exclusive_of_le beyond (exclusive c ?_)
        rw [asciiLower_of_le beyond]
        exact List.mem_cons_self ..
    · rw [lowerAfter_cons_of_lt (Nat.not_le.1 beyond)]
      cases t with
      | nil => simp
      | cons d t => rw [List.cons_eq_cons, List.cons_eq_cons, ih fun c mem => exclusive c (List.mem_cons_of_mem _ mem)]

/-- a text ends after a character that it does not have -/
theorem suffix_append_cons_iff {t front rest : List Char} {d : Char} (missing : d ∉ t) :
    t <:+ front ++ d :: rest ↔ t <:+ rest := by
  constructor
  · rintro ⟨start, whole⟩
    rcases List.append_eq_append_iff.1 whole with ⟨more, -, ends⟩ | ⟨more, -, ends⟩
    · rw [ends] at missing
      exact absurd (List.mem_append_right _ (List.mem_cons_self ..)) missing
    · cases more with
      | nil =>
        rw [← List.nil_append t, ← ends] at missing
        exact absurd (List.mem_cons_self ..) missing
      | cons e more => exact ⟨more, (List.cons.inj ends).2.symm⟩
  · exact fun ends => (ends.trans (List.suffix_cons d rest)).trans (List.suffix_append front _)

theorem suffix_lowerAfter_iff {s t before : List Char} (exclusive : ∀ c ∈ t, Exclusive c) :
    t <:+ lowerAfter before s ↔ t <:+ s.map asciiLower := by
  induction s generalizing before with
  | nil => rfl
  | cons c rest ih =>
    by_cases beyond : 0x80 ≤ c.toNat
    · obtain ⟨front, d, other, lowered⟩ := lowerAfter_cons_of_le before rest beyond
      have same : (c :: rest).map asciiLower = [] ++ c :: rest.map asciiLower := by
        rw [List.map_cons, asciiLower_of_le beyond, List.nil_append]
      rw [lowered, same, suffix_append_cons_iff fun mem => other (exclusive d mem),
        suffix_append_cons_iff fun mem => not_exclusive_of_le beyond (exclusive c mem), ih]
    · have whole : lowerAfter before (c :: rest) = t ↔ (c :: rest).map asciiLower = t := lowerAfter_eq_iff exclusive
      rw [lowerAfter_cons_of_lt (Nat.not_le.1 beyond), List.map_cons] at whole ⊢
      rw [List.suffix_cons_iff, List.suffix_cons_iff, ih, eq_comm, whole, eq_comm]

theorem lower_eq_iff {s t : String} (exclusive : ∀ c ∈ t.toList, Exclusive c) :
    lower s = t ↔ String.ofList (s.toList.map asciiLower) = t := by
  rw [lower, ← String.toList_inj, ← String.toList_inj, String.toList_ofList, String.toList_ofList,
    lowerAfter_eq_iff exclusive]

theorem isSuffixOf_lower_iff {s t : String} (exclusive : ∀ c ∈ t.toList, Exclusive c) :
    t.toList.isSuffixOf (lower s).toList = t.toList.isSuffixOf (s.toList.map asciiLower) := by
  rw [lower, String.toList_ofList, Bool.eq_iff_iff, List.isSuffixOf_iff_suffix, List.isSuffixOf_iff_suffix,
    suffix_lowerAfter_iff exclusive]

/-- the Kelvin sign lowers to a letter that ASCII has, and its ASCII letters are none -/
example : lower "\u212a" = "k" ∧ "\u212a".toList.map asciiLower ≠ ['k'] := by decide +kernel

end VmOperator.Text
