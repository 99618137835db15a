import RepoLens.Text.Digit
/-!
Numbers in decimal digits. A numeral may be written in the digits of any script, and only so many digits are turned into a
number, or made of one, at a time.
-/
namespace RepoLens

/-- why a numeral is no number, or a number has no numeral -/
inductive NumberFault where
  | noDigits
  /-- a numeral with too many digits -/
  | tooLong (digits : Nat)
  /-- a number that takes too many digits -/
  | tooLarge
  deriving DecidableEq, Repr

def NumberFault.message : NumberFault → Text
  | noDigits => "invalid literal for int() with base 10: ''"
  | tooLong digits =>
    "Exceeds the limit (4300 digits) for integer string conversion: value has " ++ (Text.ofNat digits ++
      " digits; use sys.set_int_max_str_digits() to increase the limit")
  | tooLarge =>
    "Exceeds the limit (4300 digits) for integer string conversion; use sys.set_int_max_str_digits() to increase the limit"

namespace Text

/-- the most digits that are read or written at a time -/
def digitLimit : Nat := 4300

def digitValue (c : Char) : Nat :=
  if c.isDigit then c.toNat - 48
  else
    match digitRanges.find? fun r => r.1 ≤ c.toNat && c.toNat ≤ r.2 with
    | some (first, _) => (c.toNat - first) % 10
    | none => 0

/-- the number that digits write -/
def number (digits : Text) : Except NumberFault Nat :=
  if digits.isEmpty then throw .noDigits
  else if digitLimit < digits.length then throw (.tooLong digits.length)
  else pure (digits.foldl (fun n c => 10 * n + digitValue c) 0)

/-- whether a number has few enough digits to be written -/
def canWrite (n : Int) : Bool := n.natAbs < Nat.pow 10 digitLimit

end Text

end RepoLens
