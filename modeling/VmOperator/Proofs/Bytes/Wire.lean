import VmOperator.Appliance.Basic
import VmOperator.Proofs.Bytes.Utf8
import VmOperator.Proofs.Value.Reading

/-! Paths on the wire. What base64 writes it reads again (`Base64.decode_encodeBytes`), and a text is told
by its bytes, so different paths are written differently (`Appliance.encodePath_inj`). What base64 writes of
some bytes is a path exactly if the bytes are its text (`Appliance.decodePath_encode_iff`). -/

namespace VmOperator

namespace Base64

theorem value?_digit : ∀ n < 64, value? (digit n) = some n := by decide

theorem digit_ne_pad : ∀ n < 64, digit n ≠ '=' := by decide

theorem digit_lt : ∀ n < 64, (digit n).toNat < 0x80 := by decide

section Groups

variable {done : List UInt8} {n bits pads : Nat} {b : UInt8} {rest : List Char}

theorem decodeFrom_first (h : n < 64) : decodeFrom done .start (digit n :: rest) = decodeFrom done (.one n) rest := by
  rw [decodeFrom, if_neg (digit_ne_pad n h), value?_digit n h] <;> nofun

theorem decodeFrom_second (h : n < 64) (byte : bits * 4 + n / 16 = b.toNat) :
    decodeFrom done (.one bits) (digit n :: rest) = decodeFrom (b :: done) (.two (n % 16) 0) rest := by
  rw [decodeFrom, if_neg (digit_ne_pad n h), value?_digit n h]
  · dsimp only
    rw [byte, UInt8.ofNat_toNat]
  all_goals nofun

theorem decodeFrom_third (h : n < 64) (byte : bits * 16 + n / 4 = b.toNat) :
    decodeFrom done (.two bits pads) (digit n :: rest) = decodeFrom (b :: done) (.three (n % 4)) rest := by
  rw [decodeFrom, if_neg (digit_ne_pad n h), value?_digit n h]
  dsimp only
  rw [byte, UInt8.ofNat_toNat]

theorem decodeFrom_fourth (h : n < 64) (byte : bits * 64 + n = b.toNat) :
    decodeFrom done (.three bits) (digit n :: rest) = decodeFrom (b :: done) .start rest := by
  rw [decodeFrom, if_neg (digit_ne_pad n h), value?_digit n h]
  dsimp only
  rw [byte, UInt8.ofNat_toNat]

end Groups

theorem decodeFrom_encodeBytes (bytes done : List UInt8) :
    decodeFrom done .start (encodeBytes bytes) = .ok (done.reverse ++ bytes) := by
  fun_induction encodeBytes bytes generalizing done with
  | case1 => rw [decodeFrom, List.append_nil]
  | case2 a =>
    have := a.toNat_lt
    rw [decodeFrom_first (by omega), decodeFrom_second (b := a) (by omega) (by omega)]
    simp [decodeFrom]
  | case3 a b =>
    have := a.toNat_lt
    have := b.toNat_lt
    rw [decodeFrom_first (by omega), decodeFrom_second (b := a) (by omega) (by omega),
      decodeFrom_third (b := b) (by omega) (by omega)]
    simp [decodeFrom]
  | case4 a b c rest ih =>
    have := a.toNat_lt
    have := b.toNat_lt
    have := c.toNat_lt
    rw [decodeFrom_first (by omega), decodeFrom_second (b := a) (by omega) (by omega),
      decodeFrom_third (b := b) (by omega) (by omega), decodeFrom_fourth (b := c) (by omega) (by omega), ih]
    simp

theorem decode_encodeBytes (bytes : List UInt8) : decode (encodeBytes bytes) = .ok bytes := decodeFrom_encodeBytes bytes []

theorem encode_inj {bytes bytes' : List UInt8} (h : encode bytes = encode bytes') : bytes = bytes' := by
  have same : encodeBytes bytes = encodeBytes bytes' := String.ofList_injective h
  have read := decode_encodeBytes bytes
  rw [same, decode_encodeBytes] at read
  exact (Except.ok.inj read).symm

end Base64

theorem Utf8.encode_inj {s t : String} (h : encode s = encode t) : s = t := by
  have same := decode_encode s
  rw [h, decode_encode] at same
  exact (Except.ok.inj same).symm

namespace Base64

/-- the padding, or the character for six bits -/
def IsDigit (c : Char) : Prop := c = '=' ∨ ∃ n < 64, c = digit n

theorem isDigit_digit {n : Nat} (h : n < 64) : IsDigit (digit n) := .inr ⟨n, h, rfl⟩

theorem IsDigit.ascii {c : Char} (h : IsDigit c) : c.toNat < 0x80 := by
  rcases h with rfl | ⟨n, h, rfl⟩
  · decide
  · exact digit_lt n h

theorem isDigit_of_mem (bytes : List UInt8) : ∀ c ∈ encodeBytes bytes, IsDigit c := by
  have pad : IsDigit '=' := .inl rfl
  fun_induction encodeBytes bytes with
  | case1 => nofun
  | case2 a =>
    have := a.toNat_lt
    simp only [List.forall_mem_cons]
    exact ⟨isDigit_digit (by omega), isDigit_digit (by omega), pad, pad, nofun⟩
  | case3 a b =>
    have := a.toNat_lt
    have := b.toNat_lt
    simp only [List.forall_mem_cons]
    exact ⟨isDigit_digit (by omega), isDigit_digit (by omega), isDigit_digit (by omega), pad, nofun⟩
  | case4 a b c rest ih =>
    have := a.toNat_lt
    have := b.toNat_lt
    have := c.toNat_lt
    simp only [List.forall_mem_cons]
    exact ⟨isDigit_digit (by omega), isDigit_digit (by omega), isDigit_digit (by omega), isDigit_digit (by omega), ih⟩

theorem isAscii_encodeBytes (bytes : List UInt8) : Text.isAscii (encodeBytes bytes) = true :=
  List.all_eq_true.2 fun c mem => decide_eq_true (isDigit_of_mem bytes c mem).ascii

end Base64

namespace Appliance

theorem encodePath_inj {p q : String} (h : encodePath p = encodePath q) : p = q :=
  Utf8.encode_inj (Base64.encode_inj h)

theorem decodeBytes_encode (bytes : List UInt8) : decodeBytes (.string (Base64.encode bytes)) = .ok bytes := by
  rw [decodeBytes, Base64.encode, String.toList_ofList, Base64.isAscii_encodeBytes, Base64.decode_encodeBytes]
  rfl

theorem decodePath_encode_iff {bytes : List UInt8} {path : String} :
    decodePath (.string (Base64.encode bytes)) = .ok path ↔ bytes = Utf8.encode path := by
  rw [decodePath, decodeBytes_encode, ok_bind, ← Utf8.decode_eq_ok_iff]
  cases Utf8.decode bytes with
  | ok s =>
    show Except.ok s = Except.ok path ↔ _
    rw [Except.ok.injEq, Except.ok.injEq]
  | error p => exact iff_of_false nofun nofun

end Appliance

end VmOperator
