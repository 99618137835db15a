import RepoLens.Text
/-!
Blank characters, trimming, and the fields of a line. Blank is the Unicode notion of white space together with the
four information separators, so a no-break space or an ideographic space parts two fields and a zero width space
does not.
-/
namespace RepoLens.Text

def blankRanges : List (Nat × Nat) :=
  [(0x09, 0x0D), (0x1C, 0x20), (0x85, 0x85), (0xA0, 0xA0), (0x1680, 0x1680), (0x2000, 0x200A), (0x2028, 0x2029),
   (0x202F, 0x202F), (0x205F, 0x205F), (0x3000, 0x3000)]

/-- white space, in the Unicode sense -/
def isBlank (c : Char) : Bool := inRanges blankRanges c

def allBlank (t : Text) : Bool := t.all isBlank

def trimLeft (t : Text) : Text := t.dropWhile isBlank

def trimRight (t : Text) : Text := (t.reverse.dropWhile isBlank).reverse

def trim (t : Text) : Text := trimRight (trimLeft t)

/-- the maximal runs of characters that are not blank -/
def fields (t : Text) : List Text := (cutAt isBlank t).filter (· ≠ [])

/-- the first two neighbouring blanks become one space -/
def collapseFirst : Text → Text
  | a :: b :: r => if isBlank a && isBlank b then ' ' :: r else a :: collapseFirst (b :: r)
  | t => t

end RepoLens.Text
