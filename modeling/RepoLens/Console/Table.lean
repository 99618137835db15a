import RepoLens.Console
/-!
Tables with borders. Every column is as wide as its setting, or else as its longest line, with one blank on either
side. When the columns do not fit, those without a set width give way first and then all of them evenly; when there is
room left and the table is to fill the console, it is shared out in proportion to the widths. A row is as high as its
highest cell.
-/
namespace RepoLens.Console

structure Column where
  header : Text
  width : Option Nat
  overflow : Overflow
  deriving DecidableEq, Repr

/-- a table; cells, headers and title are markup -/
structure Table where
  title : Text
  columns : List Column
  rows : List (List Text)
  /-- whether the header is shown, with heavy borders around it -/
  headed : Bool
  /-- whether the table fills the console -/
  expand : Bool
  deriving DecidableEq, Repr

namespace Table

/-! ## Widths -/

def total (widths : List Nat) : Nat := widths.foldr (· + ·) 0

/-- the nearest whole number to a quotient, a half going to the even one -/
def roundHalfEven (num den : Nat) : Nat :=
  let q := num / den
  let rest := 2 * (num % den)
  if rest < den then q else if den < rest then q + 1 else q + q % 2

/-- take an excess from all widths evenly, as far as each reaches, `count` of them being still to come -/
def reduceEvenly (excess count : Nat) : List Nat → List Nat
  | [] => []
  | w :: ws =>
    if w = 0 || count = 0 then w :: reduceEvenly excess count ws
    else
      let share := min w (roundHalfEven excess count)
      (w - share) :: reduceEvenly (excess - share) (count - 1) ws

/-- take an excess from the widths that may shrink -/
def reduceFree (excess : Nat) : List (Nat × Bool) → List Nat
  | [] => []
  | (w, free) :: ws =>
    if free then (w - min w excess) :: reduceFree (excess - min w excess) ws else w :: reduceFree excess ws

/-- share out room in proportion to the widths, which weigh so much together, each share rounded up -/
def shareOut (room weight : Nat) : List Nat → List Nat
  | [] => []
  | w :: ws =>
    let share := if weight = 0 then room else (w * room + weight - 1) / weight
    (w + share) :: shareOut (room - share) (weight - w) ws

/-- the lines of a text for measuring: every kind of line end counts, and a last empty line does not -/
def measuredLines (t : Text) : List Text :=
  let ends (c : Char) : Bool :=
    c = '\n' || c = '\r' || c.toNat = 0x0B || c.toNat = 0x0C || (0x1C ≤ c.toNat && c.toNat ≤ 0x1E) || c.toNat = 0x85 ||
      c.toNat = 0x2028 || c.toNat = 0x2029
  Text.cutAt ends t

/-- cells of the longest line of some markup -/
def longestLine (screen : Screen) (markup : Text) : Except MarkupFault Nat := do
  let t ← Markup.render screen markup
  pure (((measuredLines t).map Text.cells).foldl max 0)

/-- the width that a cell asks for, its two blanks included, out of so many cells -/
def cellWidth (screen : Screen) (room : Nat) (markup : Text) : Except MarkupFault Nat :=
  if room < 3 then pure room
  else do pure (min room ((← longestLine screen markup) + 2))

/-- the width that a column asks for out of so many cells -/
def columnWidth (screen : Screen) (room : Nat) (column : Column) (cells : List Text) : Except MarkupFault Nat :=
  if room = 0 then pure 0
  else
    match column.width with
    | some w => pure (min room (w + 2))
    | none => do
      let widths ← cells.mapM (cellWidth screen room)
      pure (if widths.isEmpty then room else min room (widths.foldl max 0))

/-- the cells of the columns, from the header on if it is shown -/
def cellsOf (t : Table) : List (Column × List Text) :=
  t.columns.mapIdx fun i column =>
    let cells := t.rows.map fun row => row[i]?.getD []
    (column, if t.headed then column.header :: cells else cells)

/-- the widths of the columns on a screen with so much room, borders left out -/
def columnWidths (screen : Screen) (t : Table) (room : Nat) : Except MarkupFault (List Nat) := do
  let widths ← t.cellsOf.mapM fun c => do pure (max 1 (← columnWidth screen room c.1 c.2))
  let (used, widths) ←
    if room < total widths then do
      let free := t.columns.map fun c => c.width.isNone
      let less := reduceFree (total widths - room) (widths.zip free)
      let even := reduceEvenly (total less - room) (less.filter (· ≠ 0)).length less
      let again ← (even.zip t.cellsOf).mapM fun (w, c) => columnWidth screen w c.1 c.2
      pure (total even, again)
    else pure (total widths, widths)
  pure (if used < room && t.expand then shareOut (room - used) (total widths) widths else widths)

/-! ## Drawing -/

/-- the characters of a horizontal border: left end, line, crossing, right end -/
structure Rule where
  left : Char
  line : Char
  crossing : Char
  right : Char
  deriving DecidableEq, Repr

/-- top of a table with a header -/
def headTop : Rule := ⟨'┏', '━', '┳', '┓'⟩

/-- border between header and rows -/
def headBottom : Rule := ⟨'┡', '━', '╇', '┩'⟩

/-- top of a table without a header -/
def plainTop : Rule := ⟨'┌', '─', '┬', '┐'⟩

/-- bottom of every table -/
def bottom : Rule := ⟨'└', '─', '┴', '┘'⟩

def Rule.draw (r : Rule) (widths : List Nat) : Text :=
  r.left :: (Text.joinWith [r.crossing] (widths.map fun w => List.replicate w r.line) ++ [r.right])

/-- the lines of a cell, each exactly as wide as its column; none if there is no room between the two blanks -/
def cellLines (screen : Screen) (width : Nat) (overflow : Overflow) (markup : Text) : Except MarkupFault (List Text) :=
  if width < 3 then pure []
  else do
    let s ← Markup.read screen markup
    let lines ← (s.wrap (width - 2) overflow .left).mapError .style
    pure (lines.map fun line => ' ' :: (line ++ [' ']))

/-- one line of a row: the lines of its cells side by side -/
def rowLine (border : Char) (cells : List Text) : Text := border :: (Text.joinWith [border] cells ++ [border])

/-- the lines of a row; a cell with fewer lines is filled up with blank ones, above it in a header, else below -/
def rowLines (screen : Screen) (header : Bool) (columns : List (Column × Nat)) (row : List Text) :
    Except MarkupFault (List Text) := do
  let cells ← (columns.zip row).mapM fun (c, markup) => cellLines screen c.2 c.1.overflow markup
  let height := max 1 ((cells.map List.length).foldl max 0)
  let filled := (columns.zip cells).map fun (c, lines) =>
    let blank := List.replicate (height - lines.length) (Text.spaces c.2)
    if header then blank ++ lines else lines ++ blank
  pure ((List.range height).map fun i =>
    rowLine (if header then '┃' else '│') (filled.map fun lines => lines[i]?.getD []))

/-- the lines of the title of a table of so many columns; none if it is empty -/
def titleLines (screen : Screen) (full : Nat) (title : Text) : Except MarkupFault (List Text) :=
  if title.isEmpty then pure []
  else do
    let s ← Markup.read screen title
    (s.wrap full .fold .centre).mapError .style

def draw (screen : Screen) (t : Table) : Except MarkupFault (List Text) := do
  let borders := t.columns.length + 1
  let widths ← t.columnWidths screen (screen.width - borders)
  let title ← titleLines screen (total widths + borders) t.title
  let columns := t.columns.zip widths
  let header ←
    if t.headed then do
      let lines ← rowLines screen true columns (t.columns.map Column.header)
      pure (headTop.draw widths :: (lines ++ [headBottom.draw widths]))
    else pure [plainTop.draw widths]
  let rows ← t.rows.mapM (rowLines screen false columns)
  pure (title ++ (header ++ (rows.flatten ++ [bottom.draw widths])))

def print (screen : Screen) (t : Table) : Except MarkupFault Text :=
  if screen.width = 0 then pure []
  else do
    let lines ← t.draw screen
    pure (block (lines.map fun line => if line.cells ≤ screen.width then line else line.fit screen.width))

end Table

end RepoLens.Console
