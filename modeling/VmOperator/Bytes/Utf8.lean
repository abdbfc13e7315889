/-! UTF-8. `encode` writes a text as bytes, `decode` reads bytes back and refuses at the first
sequence that no text has: the problem names the bytes up to where the sequence goes wrong. -/

namespace VmOperator.Utf8

inductive Fault where
  | startByte
  | continuationByte
  | endOfData
deriving DecidableEq, Repr

/-- `count` bytes from `start` on cannot be decoded; `byte` is the first of them -/
structure Problem where
  fault : Fault
  start : Nat
  count : Nat
  byte : UInt8
deriving DecidableEq, Repr

def encode (s : String) : List UInt8 := s.toList.flatMap String.utf8EncodeChar

def isTail (b : UInt8) : Bool := 0x80 ≤ b && b ≤ 0xBF

/-- the range of the second byte after the first one -/
def second (first : UInt8) : UInt8 × UInt8 :=
  if first = 0xE0 then (0xA0, 0xBF)
  else if first = 0xED then (0x80, 0x9F)
  else if first = 0xF0 then (0x90, 0xBF)
  else if first = 0xF4 then (0x80, 0x8F)
  else (0x80, 0xBF)

/-- how many bytes follow the first one, none where no sequence starts with it -/
def tailCount? (first : UInt8) : Option Nat :=
  if first < 0x80 then some 0
  else if first < 0xC2 then none
  else if first < 0xE0 then some 1
  else if first < 0xF0 then some 2
  else if first < 0xF5 then some 3
  else none

/-- how many of the bytes that should follow `first` do, up to `count` -/
def goodTails (first : UInt8) : (count : Nat) → List UInt8 → Nat
  | 0, _ | _, [] => 0
  | count + 1, b :: rest =>
    let (low, high) := second first
    if low ≤ b && b ≤ high then 1 + ((rest.take count).takeWhile isTail).length else 0

/-- the code point of a sequence of `count` bytes after `first` -/
def codePoint (first : UInt8) (tails : List UInt8) : Nat :=
  let head := match tails.length with
    | 0 => first.toNat
    | 1 => first.toNat % 0x20
    | 2 => first.toNat % 0x10
    | _ => first.toNat % 0x08
  tails.foldl (fun n b => n * 0x40 + b.toNat % 0x40) head

/-- one character from the head of `bytes`, which start at `start` -/
def step (start : Nat) (first : UInt8) (rest : List UInt8) : Except Problem (Char × Nat) :=
  match tailCount? first with
  | none => .error ⟨.startByte, start, 1, first⟩
  | some count =>
    let good := goodTails first count rest
    if good = count then .ok (Char.ofNat (codePoint first (rest.take count)), count)
    else if rest.length = good then .error ⟨.endOfData, start, good + 1, first⟩
    else .error ⟨.continuationByte, start, good + 1, first⟩

def decodeFrom (start : Nat) (done : List Char) : (skip : Nat) → List UInt8 → Except Problem (List Char)
  | _, [] => .ok done.reverse
  | skip + 1, _ :: rest => decodeFrom (start + 1) done skip rest
  | 0, first :: rest =>
    match step start first rest with
    | .error p => .error p
    | .ok (c, count) => decodeFrom (start + 1) (c :: done) count rest

def decode (bytes : List UInt8) : Except Problem String :=
  (decodeFrom 0 [] 0 bytes).map String.ofList

end VmOperator.Utf8
