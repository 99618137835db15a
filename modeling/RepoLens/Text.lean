/-!
Text as the list of its code points, and the few operations that every part of the library shares: ranges of code
points, joining and cutting. Lengths, positions and slices all count code points, so a list of characters is the
direct representation; string literals become such lists by coercion.
-/
namespace RepoLens

/-- a text is the list of its code points -/
abbrev Text := List Char

/-- a string literal stands for its code points -/
instance coeText : Coe String (List Char) := ⟨String.toList⟩

namespace Text

/-- whether a character lies in one of the closed ranges of code points -/
def inRanges (ranges : List (Nat × Nat)) (c : Char) : Bool :=
  ranges.any fun r => r.1 ≤ c.toNat && c.toNat ≤ r.2

/-- the texts one after the other, with the separator between neighbours -/
def joinWith (sep : Text) : List Text → Text
  | [] => []
  | [t] => t
  | t :: u :: rest => t ++ (sep ++ joinWith sep (u :: rest))

/-- put a character in front of the first of some pieces -/
def consHead (c : Char) : List Text → List Text
  | [] => [[c]]
  | w :: ws => (c :: w) :: ws

/-- cut at every character of a kind; the pieces are what stands between the cuts, empty ones included -/
def cutAt (p : Char → Bool) : Text → List Text
  | [] => [[]]
  | c :: r => if p c then [] :: cutAt p r else consHead c (cutAt p r)

def tabFields : Text → List Text := cutAt (· == '\t')

def ofNat (n : Nat) : Text := Nat.toDigits 10 n

/-- decimal digits of an integer, with a minus sign before a negative one -/
def ofInt : Int → Text
  | .ofNat n => ofNat n
  | .negSucc n => '-' :: ofNat (n + 1)

/-- lower-case hexadecimal digits, filled with zeros on the left up to a width -/
def hex (width n : Nat) : Text :=
  let digits := Nat.toDigits 16 n
  List.replicate (width - digits.length) '0' ++ digits

def hexValue? (c : Char) : Option Nat :=
  if c.isDigit then some (c.toNat - 48)
  else if 'a' ≤ c && c ≤ 'f' then some (c.toNat - 87)
  else if 'A' ≤ c && c ≤ 'F' then some (c.toNat - 55)
  else none

def spaces (n : Nat) : Text := List.replicate n ' '

/-- the slice that starts at an index; a negative index counts from the end -/
def dropFrom (start : Int) (t : Text) : Text :=
  if 0 ≤ start then t.drop start.toNat else t.drop (t.length + start).toNat

def points (t : Text) : List Nat := t.map Char.toNat

/-- order by code point, the shorter of two texts first when one starts the other -/
def order (s t : Text) : Ordering := compare s.points t.points

end Text

end RepoLens
