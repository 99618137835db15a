import RepoLens.Calendar
import RepoLens.Text.Number
/-!
Where a reader of a settings document stands: the text that is left, with line and column, and the classes of
characters that the document format is built from. Newlines are unified before a document is read, so a line ends with
a newline or with one of three rarer breaks.
-/
namespace RepoLens.Yaml

/-- why a document cannot be read -/
inductive ReadFault where
  /-- it is no document -/
  | malformed
  /-- it holds a day or a time that does not exist -/
  | calendar (cause : CalendarFault)
  /-- it holds a number with too many digits -/
  | number (cause : NumberFault)
  deriving DecidableEq, Repr

/-! ## Characters -/

/-- characters that end a line -/
def isBreak (c : Char) : Bool := c = '\n' || c.toNat = 0x85 || c.toNat = 0x2028 || c.toNat = 0x2029

/-- what a line end counts as in a scalar -/
def breakValue (c : Char) : Char := if c.toNat = 0x85 then '\n' else c

/-- the end of the text or of a line -/
def endsLine : Option Char → Bool
  | none => true
  | some c => isBreak c

/-- the end of the text, a blank, or the end of a line -/
def endsWord : Option Char → Bool
  | none => true
  | some c => c = ' ' || c = '\t' || isBreak c

/-- characters of names: letters and digits, hyphen and underscore, in ASCII -/
def isNameChar (c : Char) : Bool := c.isAlphanum || c = '-' || c = '_'

/-- characters that a document may hold -/
def isAllowed (c : Char) : Bool :=
  c = '\t' || c = '\n' || c = '\r' || (0x20 ≤ c.toNat && c.toNat ≤ 0x7E) || c.toNat = 0x85 ||
    (0xA0 ≤ c.toNat && c.toNat ≤ 0xFFFD) || 0x10000 ≤ c.toNat

/-- the byte order mark, which may stand first and takes no column -/
def isByteOrderMark (c : Char) : Bool := c.toNat = 0xFEFF

/-- whether a line starts with three such characters and then a blank or its end -/
def startsWithMarker (c : Char) (t : Text) : Bool :=
  match t with
  | x :: y :: z :: r => x = c && y = c && z = c && endsWord r.head?
  | _ => false

/-- whether a line starts with the marker of a new document or of a document's end -/
def startsWithSeparator (t : Text) : Bool := startsWithMarker '-' t || startsWithMarker '.' t

/-! ## Positions -/

structure Cursor where
  rest : Text
  index : Nat
  line : Nat
  column : Nat
  deriving DecidableEq, Repr

namespace Cursor

def start (t : Text) : Cursor := ⟨t, 0, 0, 0⟩

def next (c : Cursor) : Cursor :=
  match c.rest with
  | [] => c
  | x :: r =>
    if isBreak x then ⟨r, c.index + 1, c.line + 1, 0⟩
    else if isByteOrderMark x then ⟨r, c.index + 1, c.line, c.column⟩
    else ⟨r, c.index + 1, c.line, c.column + 1⟩

def skip : Nat → Cursor → Cursor
  | 0, c => c
  | n + 1, c => skip n c.next

/-- at the start of what is left -/
def moveTo (c : Cursor) (rest : Text) : Cursor := c.skip (c.rest.length - rest.length)

def peekNext (c : Cursor) : Option Char := (c.rest.drop 1).head?

end Cursor

end RepoLens.Yaml
