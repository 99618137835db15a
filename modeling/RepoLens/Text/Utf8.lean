import RepoLens.Text
/-!
UTF-8, decoded without ever failing. The decoder is a machine that reads one byte at a time; what cannot be continued
becomes one replacement character per maximal ill-formed part, and the offending byte is then read afresh.
-/
namespace RepoLens.Text.Utf8

/-- a character of which the lead byte has been read: how many bytes it still needs, the bounds of the next one, and
the value so far -/
structure Pending where
  need : Nat
  low : Nat
  high : Nat
  value : Nat
  deriving DecidableEq, Repr

def replacement : Char := '\uFFFD'

/-- read a byte between two characters -/
def lead (b : Nat) : Text × Option Pending :=
  if b < 0x80 then ([Char.ofNat b], none)
  else if 0xC2 ≤ b && b ≤ 0xDF then ([], some ⟨1, 0x80, 0xBF, b - 0xC0⟩)
  else if b = 0xE0 then ([], some ⟨2, 0xA0, 0xBF, 0⟩)
  else if b = 0xED then ([], some ⟨2, 0x80, 0x9F, 0xD⟩)
  else if 0xE1 ≤ b && b ≤ 0xEF then ([], some ⟨2, 0x80, 0xBF, b - 0xE0⟩)
  else if b = 0xF0 then ([], some ⟨3, 0x90, 0xBF, 0⟩)
  else if 0xF1 ≤ b && b ≤ 0xF3 then ([], some ⟨3, 0x80, 0xBF, b - 0xF0⟩)
  else if b = 0xF4 then ([], some ⟨3, 0x80, 0x8F, 4⟩)
  else ([replacement], none)

def step (state : Option Pending) (b : Nat) : Text × Option Pending :=
  match state with
  | none => lead b
  | some p =>
    if p.low ≤ b && b ≤ p.high then
      let value := p.value * 64 + (b - 0x80)
      if p.need ≤ 1 then ([Char.ofNat value], none) else ([], some ⟨p.need - 1, 0x80, 0xBF, value⟩)
    else (replacement :: (lead b).1, (lead b).2)

/-- the text of the remaining bytes -/
def decodeFrom : Option Pending → List UInt8 → Text
  | none, [] => []
  | some _, [] => [replacement]
  | s, b :: r => (step s b.toNat).1 ++ decodeFrom (step s b.toNat).2 r

def decode (bytes : List UInt8) : Text := decodeFrom none bytes

def encodeChar (c : Char) : List UInt8 :=
  let n := c.toNat
  let tail (unit : Nat) : UInt8 := UInt8.ofNat (0x80 + n / unit % 64)
  if n < 0x80 then [UInt8.ofNat n]
  else if n < 0x800 then [UInt8.ofNat (0xC0 + n / 64), tail 1]
  else if n < 0x10000 then [UInt8.ofNat (0xE0 + n / 4096), tail 64, tail 1]
  else [UInt8.ofNat (0xF0 + n / 262144), tail 4096, tail 64, tail 1]

def encode (t : Text) : List UInt8 := t.flatMap encodeChar

end RepoLens.Text.Utf8
