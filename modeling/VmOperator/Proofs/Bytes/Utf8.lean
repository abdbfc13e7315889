import Mathlib.Data.List.TakeWhile
import VmOperator.Bytes.Utf8

/-! UTF-8 read strictly. A step reads a character off the bytes exactly if they begin with what that character is written as
(`step_eq_ok_iff`), so bytes are read as a text exactly if they are the text written (`decode_eq_ok_iff`). -/

namespace VmOperator.Utf8

variable {first : UInt8} {tails rest : List UInt8} {c : Char} {count start : Nat}

/-- the range of the byte after this one, in numbers -/
def Follows (first x : Nat) : Prop :=
  (0x80 ≤ x ∧ x ≤ 0xBF) ∧ (first = 0xE0 → 0xA0 ≤ x) ∧ (first = 0xED → x ≤ 0x9F) ∧ (first = 0xF0 → 0x90 ≤ x) ∧
    (first = 0xF4 → x ≤ 0x8F)

/-- a sequence of bytes that a character may have -/
structure Sequence (first : UInt8) (tails : List UInt8) : Prop where
  count : tailCount? first = some tails.length
  second : ∀ x ∈ tails.head?, Follows first.toNat x.toNat
  others : ∀ x ∈ tails.tail, isTail x = true

theorem isTail_iff (b : UInt8) : isTail b = true ↔ 0x80 ≤ b.toNat ∧ b.toNat ≤ 0xBF := by
  simp [isTail, UInt8.le_iff_toNat_le]

theorem eq_iff_toNat (b n : UInt8) : b = n ↔ b.toNat = n.toNat := UInt8.toNat_inj.symm

theorem second_iff (first x : UInt8) :
    ((second first).1 ≤ x && x ≤ (second first).2) = true ↔ Follows first.toNat x.toNat := by
  simp only [second, eq_iff_toNat, Bool.and_eq_true, decide_eq_true_eq, UInt8.le_iff_toNat_le, UInt8.reduceToNat]
  unfold Follows
  repeat' split
  all_goals simp only [UInt8.reduceToNat]; omega

theorem tailCount?_eq_some_iff (b : UInt8) (count : Nat) : tailCount? b = some count ↔
    (count = 0 ∧ b.toNat < 0x80) ∨ (count = 1 ∧ 0xC2 ≤ b.toNat ∧ b.toNat < 0xE0) ∨
      (count = 2 ∧ 0xE0 ≤ b.toNat ∧ b.toNat < 0xF0) ∨ (count = 3 ∧ 0xF0 ≤ b.toNat ∧ b.toNat < 0xF5) := by
  simp only [tailCount?, UInt8.lt_iff_toNat_lt, UInt8.reduceToNat]
  repeat' split
  all_goals simp; omega

theorem goodTails_eq_iff : goodTails first count rest = count ↔ count ≤ rest.length ∧
    (∀ x ∈ (rest.take count).head?, Follows first.toNat x.toNat) ∧ ∀ x ∈ (rest.take count).tail, isTail x = true := by
  cases count with
  | zero => simp [goodTails]
  | succ count =>
    cases rest with
    | nil => simp [goodTails]
    | cons b rest =>
      have all : ((rest.take count).takeWhile isTail).length = count ↔
          count ≤ rest.length ∧ ∀ x ∈ rest.take count, isTail x = true := by
        constructor
        · intro good
          have short := (List.takeWhile_prefix isTail (l := rest.take count)).length_le
          rw [good, List.length_take] at short
          have whole : (rest.take count).takeWhile isTail = rest.take count :=
            (List.takeWhile_prefix isTail).eq_of_length (by rw [good, List.length_take]; omega)
          exact ⟨by omega, List.takeWhile_eq_self_iff.1 whole⟩
        · rintro ⟨long, good⟩
          rw [List.takeWhile_eq_self_iff.2 good, List.length_take, Nat.min_eq_left long]
      have inside := second_iff first b
      unfold goodTails
      dsimp only
      split
      · rename_i follows
        rw [Nat.add_comm 1, Nat.add_right_cancel_iff, all]
        simp [inside.1 follows]
      · rename_i strange
        simp only [List.take_succ_cons, List.head?_cons, Option.mem_some_iff, forall_eq', ← inside]
        simp [strange]

/-- a step reads the number that the bytes of a sequence stand for -/
theorem step_eq_ok_iff_sequence : step start first rest = .ok (c, count) ↔ count ≤ rest.length ∧
    Sequence first (rest.take count) ∧ c = Char.ofNat (codePoint first (rest.take count)) := by
  unfold step
  cases known : tailCount? first with
  | none =>
    refine iff_of_false nofun ?_
    rintro ⟨-, sequence, -⟩
    rw [sequence.count] at known
    cases known
  | some count' =>
    dsimp only
    split
    · rename_i good
      obtain ⟨long, follows, others⟩ := goodTails_eq_iff.1 good
      constructor
      · intro read
        cases read
        exact ⟨long, ⟨by rw [known, List.length_take, Nat.min_eq_left long], follows, others⟩, rfl⟩
      · rintro ⟨long', sequence, rfl⟩
        have same := sequence.count
        rw [known, List.length_take, Nat.min_eq_left long', Option.some.injEq] at same
        rw [same]
    · rename_i bad
      refine iff_of_false (by split <;> nofun) ?_
      rintro ⟨long, sequence, -⟩
      have same := sequence.count
      rw [known, List.length_take, Nat.min_eq_left long, Option.some.injEq] at same
      rw [same] at bad
      exact bad (goodTails_eq_iff.2 ⟨long, sequence.second, sequence.others⟩)

theorem toNat_ofNat_of_valid {n : Nat} (valid : n.isValidChar) : (Char.ofNat n).val.toNat = n := by
  rw [Char.ofNat, dif_pos valid]
  rfl

theorem ofNat_eq {b : UInt8} {n : Nat} (same : n = b.toNat) : UInt8.ofNat n = b := by
  rw [same, UInt8.ofNat_toNat]

/-- the bytes of a sequence are what its character is written as -/
theorem utf8EncodeChar_of_sequence (sequence : Sequence first tails) :
    String.utf8EncodeChar (Char.ofNat (codePoint first tails)) = first :: tails := by
  obtain ⟨count, second, others⟩ := sequence
  rw [tailCount?_eq_some_iff] at count
  have small := first.toNat_lt
  match tails with
  | [] =>
    replace count : first.toNat < 0x80 := by simpa using count
    have code : codePoint first [] = first.toNat := rfl
    rw [String.utf8EncodeChar, toNat_ofNat_of_valid (by rw [code, Nat.isValidChar]; omega), code]
    rw [if_pos (by omega), UInt8.ofNat_toNat]
  | [x] =>
    replace count : 0xC2 ≤ first.toNat ∧ first.toNat < 0xE0 := by simpa using count
    obtain ⟨tail, -⟩ := second x rfl
    have code : codePoint first [x] = first.toNat % 0x20 * 0x40 + x.toNat % 0x40 := rfl
    rw [String.utf8EncodeChar, toNat_ofNat_of_valid (by rw [code, Nat.isValidChar]; omega), code]
    rw [if_neg (by omega), if_pos (by omega), ofNat_eq (b := first) (by omega), ofNat_eq (b := x) (by omega)]
  | [x, y] =>
    replace count : 0xE0 ≤ first.toNat ∧ first.toNat < 0xF0 := by simpa using count
    obtain ⟨tail, afterE0, afterED, -⟩ := second x rfl
    have last := (isTail_iff y).1 (others y (by simp))
    have code : codePoint first [x, y] = (first.toNat % 0x10 * 0x40 + x.toNat % 0x40) * 0x40 + y.toNat % 0x40 := rfl
    rw [String.utf8EncodeChar, toNat_ofNat_of_valid (by rw [code, Nat.isValidChar]; omega), code]
    rw [if_neg (by omega), if_neg (by omega), if_pos (by omega), ofNat_eq (b := first) (by omega),
      ofNat_eq (b := x) (by omega), ofNat_eq (b := y) (by omega)]
  | [x, y, z] =>
    replace count : 0xF0 ≤ first.toNat ∧ first.toNat < 0xF5 := by simpa using count
    obtain ⟨tail, -, -, afterF0, afterF4⟩ := second x rfl
    have third := (isTail_iff y).1 (others y (by simp))
    have last := (isTail_iff z).1 (others z (by simp))
    have code : codePoint first [x, y, z] =
      ((first.toNat % 0x08 * 0x40 + x.toNat % 0x40) * 0x40 + y.toNat % 0x40) * 0x40 + z.toNat % 0x40 := rfl
    rw [String.utf8EncodeChar, toNat_ofNat_of_valid (by rw [code, Nat.isValidChar]; omega), code]
    rw [if_neg (by omega), if_neg (by omega), if_neg (by omega), ofNat_eq (b := first) (by omega),
      ofNat_eq (b := x) (by omega), ofNat_eq (b := y) (by omega), ofNat_eq (b := z) (by omega)]
  | _ :: _ :: _ :: _ :: _ => simp at count

theorem sequence_iff {first : UInt8} {tails : List UInt8} : Sequence first tails ↔
    tailCount? first = some tails.length ∧ (∀ x ∈ tails.head?, Follows first.toNat x.toNat) ∧
      ∀ x ∈ tails.tail, isTail x = true :=
  ⟨fun ⟨count, second, others⟩ => ⟨count, second, others⟩, fun ⟨count, second, others⟩ => ⟨count, second, others⟩⟩

/-- a character is written as a sequence of bytes that stands for it -/
theorem sequence_of_utf8EncodeChar (written : String.utf8EncodeChar c = first :: tails) :
    Sequence first tails ∧ codePoint first tails = c.toNat := by
  have valid : c.toNat < 0xD800 ∨ 0xDFFF < c.toNat ∧ c.toNat < 0x110000 := c.valid
  have code : c.val.toNat = c.toNat := rfl
  rw [String.utf8EncodeChar, code] at written
  rw [sequence_iff, tailCount?_eq_some_iff]
  split at written
  · obtain ⟨rfl, rfl⟩ := List.cons.inj written
    simp [codePoint]
    omega
  · split at written
    · obtain ⟨rfl, rfl⟩ := List.cons.inj written
      simp [codePoint, Follows]
      omega
    · split at written
      · obtain ⟨rfl, rfl⟩ := List.cons.inj written
        simp [codePoint, Follows, isTail_iff]
        omega
      · obtain ⟨rfl, rfl⟩ := List.cons.inj written
        simp [codePoint, Follows, isTail_iff]
        omega

theorem step_eq_ok_iff : step start first rest = .ok (c, count) ↔
    count ≤ rest.length ∧ String.utf8EncodeChar c = first :: rest.take count := by
  rw [step_eq_ok_iff_sequence]
  constructor
  · rintro ⟨long, sequence, rfl⟩
    exact ⟨long, utf8EncodeChar_of_sequence sequence⟩
  · rintro ⟨long, written⟩
    obtain ⟨sequence, code⟩ := sequence_of_utf8EncodeChar written
    exact ⟨long, sequence, by rw [code, Char.ofNat_toNat]⟩

/-- bytes are a text written exactly if a step reads its first character and the bytes left are the rest of it -/
theorem cons_eq_flatMap_iff {chars : List Char} (start : Nat) : first :: rest = chars.flatMap String.utf8EncodeChar ↔
    ∃ c more count, chars = c :: more ∧ step start first rest = .ok (c, count) ∧
      rest.drop count = more.flatMap String.utf8EncodeChar := by
  constructor
  · intro written
    cases chars with
    | nil => cases written
    | cons c more =>
      obtain ⟨b, tails, head⟩ := List.exists_cons_of_ne_nil (String.utf8EncodeChar_ne_nil (c := c))
      rw [List.flatMap_cons, head, List.cons_append] at written
      obtain ⟨rfl, rfl⟩ := List.cons.inj written
      exact ⟨c, more, tails.length, rfl, step_eq_ok_iff.2 ⟨by simp, by rw [head, List.take_left]⟩, List.drop_left⟩
  · rintro ⟨c, more, count, rfl, read, left⟩
    rw [List.flatMap_cons, (step_eq_ok_iff.1 read).2, ← left, List.cons_append, List.take_append_drop]

/-- by induction on the bytes; those to be passed over belong to the character that was read last -/
theorem decodeFrom_eq_ok_iff {bytes : List UInt8} {done out : List Char} {skip : Nat} (inside : skip ≤ bytes.length) :
    decodeFrom start done skip bytes = .ok out ↔
      ∃ chars, out = done.reverse ++ chars ∧ bytes.drop skip = chars.flatMap String.utf8EncodeChar := by
  induction bytes generalizing start done skip with
  | nil =>
    rw [decodeFrom, List.drop_nil, Except.ok.injEq]
    constructor
    · rintro rfl
      exact ⟨[], (List.append_nil _).symm, rfl⟩
    · rintro ⟨chars, rfl, written⟩
      cases chars with
      | nil => exact (List.append_nil _).symm
      | cons c chars => simp at written
  | cons first rest ih =>
    cases skip with
    | succ skip => rw [decodeFrom, ih (Nat.le_of_succ_le_succ inside), List.drop_succ_cons]
    | zero =>
      simp only [List.drop_zero, cons_eq_flatMap_iff start]
      rw [decodeFrom]
      cases read : step start first rest with
      | error p =>
        refine iff_of_false nofun ?_
        rintro ⟨chars, -, c, more, count, -, read', -⟩
        cases read'
      | ok found =>
        obtain ⟨c, count⟩ := found
        dsimp only
        rw [ih (step_eq_ok_iff.1 read).1]
        constructor
        · rintro ⟨more, rfl, left⟩
          exact ⟨c :: more, by simp, c, more, count, rfl, rfl, left⟩
        · rintro ⟨chars, rfl, c', more, count', rfl, same, left⟩
          cases same
          exact ⟨more, by simp, left⟩

/-- Bytes are read as a text exactly if they are that text written. -/
theorem decode_eq_ok_iff {bytes : List UInt8} {s : String} : decode bytes = .ok s ↔ bytes = encode s := by
  have read (out : List Char) : decodeFrom 0 [] 0 bytes = .ok out ↔ bytes = out.flatMap String.utf8EncodeChar := by
    rw [decodeFrom_eq_ok_iff (Nat.zero_le _)]
    simp
  rw [decode, encode, ← read]
  cases decodeFrom 0 [] 0 bytes with
  | error p => exact iff_of_false nofun nofun
  | ok out =>
    show Except.ok (String.ofList out) = Except.ok s ↔ _
    rw [Except.ok.injEq, Except.ok.injEq, ← String.toList_inj, String.toList_ofList]

theorem decode_encode (s : String) : decode (encode s) = .ok s := decode_eq_ok_iff.2 rfl

/-- what is read is what is valid elsewhere, too -/
theorem isValidUTF8_iff (bytes : List UInt8) : bytes.toByteArray.IsValidUTF8 ↔ ∃ s, decode bytes = .ok s := by
  simp only [decode_eq_ok_iff]
  constructor
  · rintro ⟨chars, written⟩
    refine ⟨String.ofList chars, ?_⟩
    rw [encode, String.toList_ofList]
    exact List.toByteArray_inj.1 written
  · rintro ⟨s, rfl⟩
    exact ⟨s.toList, rfl⟩

end VmOperator.Utf8
