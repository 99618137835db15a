import RepoLens.Text.Printable
/-!
A text as it is quoted in messages: between single quotes, or between double ones when it holds a single quote and no
double one. The quote in use and the backslash are escaped, and so is every character that is not printable.
-/
namespace RepoLens.Text

/-- the quote that needs no escape, if one of the two does not -/
def quoteMark (t : Text) : Char := if t.contains '\'' && !t.contains '"' then '"' else '\''

/-- one character between quotes -/
def quotedChar (mark c : Char) : Text :=
  if c = mark || c = '\\' then ['\\', c]
  else if c = '\t' then "\\t"
  else if c = '\n' then "\\n"
  else if c = '\r' then "\\r"
  else if isPrintable c then [c]
  else if c.toNat < 0x100 then "\\x" ++ hex 2 c.toNat
  else if c.toNat < 0x10000 then "\\u" ++ hex 4 c.toNat
  else "\\U" ++ hex 8 c.toNat

/-- the text between quotes -/
def quoted (t : Text) : Text := quoteMark t :: (t.flatMap (quotedChar (quoteMark t)) ++ [quoteMark t])

end RepoLens.Text
