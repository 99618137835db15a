import RepoLens.Text.Blank
import RepoLens.Text.Width
/-!
Paragraphs in a column of a given number of cells. A line is filled word by word, a word being taken with the blanks
around it; a word that does not fit goes to the next line, and one that is wider than the column is folded into
pieces or left to be cut. Afterwards blanks that stick out are dropped, the line is justified, and what still sticks
out is cut.
-/
namespace RepoLens.Console

/-- what happens to a word that is wider than the column -/
inductive Overflow where
  | fold
  | ellipsis
  deriving DecidableEq, Repr

/-- how a line stands in its column -/
inductive Justify where
  | asIs
  | left
  | centre
  deriving DecidableEq, Repr

/-! ## Words -/

/-- cut before every character that is not blank and follows a blank -/
def runs : Text → List Text
  | [] => []
  | c :: r =>
    match runs r with
    | [] => [[c]]
    | p :: ps => if Text.isBlank c && !p.head?.all Text.isBlank then [c] :: p :: ps else (c :: p) :: ps

/-- the words of a line with the blanks after them, the first one also with the blanks before it; none in a blank
line -/
def words (t : Text) : List Text :=
  match runs t with
  | [] => []
  | [w] => if w.allBlank then [] else [w]
  | b :: w :: ws => if b.allBlank then (b ++ w) :: ws else b :: w :: ws

/-! ## Filling -/

/-- lines that are full, the line in hand, and how many cells of it count as used -/
structure Filling where
  full : List Text
  line : Text
  used : Nat
  deriving DecidableEq, Repr

namespace Filling

def started (f : Filling) : Bool := !f.full.isEmpty || !f.line.isEmpty

/-- put a text on a line of its own, unless nothing stands before it -/
def breakBefore (f : Filling) (t : Text) : Filling :=
  if f.started then ⟨f.full ++ [f.line], t, t.cells⟩ else ⟨[], t, t.cells⟩

def append (f : Filling) (t : Text) : Filling := ⟨f.full, f.line ++ t, f.used + t.cells⟩

def place (width : Nat) (overflow : Overflow) (f : Filling) (word : Text) : Filling :=
  if word.trimRight.cells + f.used ≤ width then f.append word
  else if word.trimRight.cells ≤ width then f.breakBefore word
  else
    match overflow with
    | .fold => (Text.chop width word).foldl breakBefore f
    | .ellipsis => f.breakBefore word

def lines (f : Filling) : List Text := f.full ++ [f.line]

end Filling

/-- a line broken at its words -/
def breakLine (width : Nat) (overflow : Overflow) (line : Text) : List Text :=
  match words line with
  | [] => [line]
  | ws => (ws.foldl (Filling.place width overflow) ⟨[], [], 0⟩).lines

/-! ## Finishing a line -/

/-- without as many blanks at the end as there are characters too many -/
def dropOverhang (width : Nat) (line : Text) : Text :=
  let blanks := line.length - line.trimRight.length
  line.take (line.length - min blanks (line.length - width))

/-- a line that is too wide is cut, with an ellipsis as its last cell if so asked -/
def truncate (width : Nat) (overflow : Overflow) (line : Text) : Text :=
  if line.cells ≤ width then line
  else
    match overflow with
    | .fold => line.fit width
    | .ellipsis => line.fit (width - 1) ++ ['…']

/-- the line in its place in the column -/
def justify (width : Nat) (overflow : Overflow) : Justify → Text → Text
  | .asIs, line => truncate width overflow line
  | .left, line =>
    let line := truncate width overflow line
    line ++ Text.spaces (width - line.cells)
  | .centre, line =>
    let line := truncate width overflow line.trimRight
    let left := (width - line.cells) / 2
    Text.spaces left ++ (line ++ Text.spaces (width - left - line.cells))

def wrap (width : Nat) (overflow : Overflow) (how : Justify) (t : Text) : List Text :=
  (Text.cutAt (· = '\n') t).flatMap fun line =>
    (breakLine width overflow line.expandTabs).map fun piece => justify width overflow how (dropOverhang width piece)

end RepoLens.Console
