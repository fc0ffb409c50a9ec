/-
Bytes that are no text to their end. Text is read from bytes in blocks: the blocks before the one
with the first wrong byte can be read, and so can all that stands before a character that is cut off
at the very end.
-/
namespace PassCheck.Text.Utf8

/-- The bytes that may follow the first byte of a character: the range of the second byte and the
number of further bytes, with the bits of the first one that count. -/
structure Lead where
  low : UInt8
  high : UInt8
  more : Nat
  bits : Nat

/-- What a first byte of a longer character asks for; none when no character starts so. -/
def lead? (b : UInt8) : Option Lead :=
  if b < 0xc2 then none
  else if b < 0xe0 then some ⟨0x80, 0xbf, 0, b.toNat - 0xc0⟩
  else if b < 0xf0 then
    some ⟨if b = 0xe0 then 0xa0 else 0x80, if b = 0xed then 0x9f else 0xbf, 1, b.toNat - 0xe0⟩
  else if b < 0xf5 then
    some ⟨if b = 0xf0 then 0x90 else 0x80, if b = 0xf4 then 0x8f else 0xbf, 2, b.toNat - 0xf0⟩
  else none

/-- What stands at the start of bytes. -/
inductive Step where
  /-- A character, the number of its bytes and the bytes after it. -/
  | char (c : Char) (size : Nat) (rest : List UInt8)
  /-- A byte that cannot stand here, behind so many others. -/
  | wrong (after : Nat)
  /-- The bytes end, maybe within a character. -/
  | ended

/-- Reads the further bytes of a character, of which `size` were read before. -/
def continued (code size : Nat) : (more : Nat) → List UInt8 → Step
  | 0, bs => .char (Char.ofNat code) size bs
  | _ + 1, [] => .ended
  | more + 1, b :: bs =>
    if 0x80 ≤ b && b ≤ 0xbf then continued (code * 64 + (b.toNat - 0x80)) (size + 1) more bs
    else .wrong size

/-- Reads one character. -/
def step : List UInt8 → Step
  | [] => .ended
  | b :: bs =>
    if b < 0x80 then .char (Char.ofNat b.toNat) 1 bs
    else
      match lead? b, bs with
      | none, _ => .wrong 0
      | some _, [] => .ended
      | some l, b :: bs =>
        if l.low ≤ b && b ≤ l.high then
          continued (l.bits * 64 + (b.toNat - 0x80)) 2 l.more bs
        else .wrong 1

/-- The characters up to the first wrong byte, each with the place where its bytes end, and the place
of the wrong byte if there is one. The fuel is the number of bytes. -/
def scan : (fuel place : Nat) → List UInt8 → List (Char × Nat) × Option Nat
  | 0, _, _ => ([], none)
  | fuel + 1, place, bs =>
    match step bs with
    | .ended => ([], none)
    | .wrong after => ([], some (place + after))
    | .char c size rest =>
      let (cs, wrong) := scan fuel (place + size) rest
      ((c, place + size) :: cs, wrong)

/-- The number of bytes in a block. -/
def blockSize : Nat := 8192

/-- The characters that can be read from bytes that are no text to their end. -/
def readable (bs : List UInt8) : List Char :=
  match scan bs.length 0 bs with
  | (cs, none) => cs.map (·.1)
  | (cs, some place) =>
    (cs.takeWhile fun c => c.2 ≤ place / blockSize * blockSize).map (·.1)

end PassCheck.Text.Utf8
