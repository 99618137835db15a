import RepoLens.Yaml.Cursor
/-!
The scalars of a document: plain text, text in single or double quotes, and blocks of lines. Line breaks inside a
scalar fold: one break is a space, and of several each but the first is a newline. Each reader takes the text that is
left and gives back the value and the text after it.
-/
namespace RepoLens.Yaml

/-! ## Quoted text -/

/-- a piece of quoted text: a character as it is, a blank, a line break, or two lines joined by a backslash -/
inductive Piece where
  | char (c : Char)
  | blank (c : Char)
  | lineBreak (c : Char)
  | joined
  deriving DecidableEq, Repr

/-- what stands where a line was broken: a single break is a space, of several the first counts for nothing -/
def foldBreaks (first : Char) (more : Text) : Text :=
  if first ≠ '\n' then first :: more else if more.isEmpty then [' '] else more

/-- where a reader of quoted text stands: within a line, with the blanks held back; or after a break, with its value
and the breaks after it; or after a joined line, with the breaks after it -/
inductive FoldState where
  | within (held : Text)
  | broken (first : Char) (more : Text)
  | joined (more : Text)
  deriving DecidableEq, Repr

/-- what the state stands for once a character or the end comes -/
def FoldState.flush : FoldState → Text
  | within held => held
  | broken first more => foldBreaks first more
  | joined more => more

def foldPieces : FoldState → List Piece → Text
  | s, [] => s.flush
  | s, .char c :: r => s.flush ++ (c :: foldPieces (.within []) r)
  | s, .joined :: r => s.flush ++ foldPieces (.joined []) r
  | .within held, .blank c :: r => foldPieces (.within (held ++ [c])) r
  | .broken first more, .blank _ :: r => foldPieces (.broken first more) r
  | .joined more, .blank _ :: r => foldPieces (.joined more) r
  | .within _, .lineBreak c :: r => foldPieces (.broken c []) r
  | .broken first more, .lineBreak c :: r => foldPieces (.broken first (more ++ [c])) r
  | .joined more, .lineBreak c :: r => foldPieces (.joined (more ++ [c])) r

/-- a character of quoted text that is not escaped -/
def pieceOf (c : Char) : Piece :=
  if c = ' ' || c = '\t' then .blank c else if isBreak c then .lineBreak (breakValue c) else .char c

/-- what stands up to the closing single quote, and the text after it; two quotes are none -/
def untilSingle : Text → Option (Text × Text)
  | [] => none
  | '\'' :: '\'' :: r => (untilSingle r).map fun (raw, rest) => ('\'' :: '\'' :: raw, rest)
  | c :: r => if c = '\'' then some ([], r) else (untilSingle r).map fun (raw, rest) => (c :: raw, rest)

/-- what stands up to the closing double quote, and the text after it; one after a backslash is none -/
def untilDouble : Text → Option (Text × Text)
  | [] => none
  | '\\' :: c :: r => (untilDouble r).map fun (raw, rest) => ('\\' :: c :: raw, rest)
  | c :: r => if c = '"' then some ([], r) else (untilDouble r).map fun (raw, rest) => (c :: raw, rest)

/-- the pieces of text in single quotes, where two quotes stand for one -/
def singlePieces : Text → List Piece
  | [] => []
  | '\'' :: '\'' :: r => .char '\'' :: singlePieces r
  | c :: r => pieceOf c :: singlePieces r

/-- characters that stand for others after a backslash -/
def escapeTable : List (Char × Nat) :=
  [('0', 0x00), ('a', 0x07), ('b', 0x08), ('t', 0x09), ('\t', 0x09), ('n', 0x0A), ('v', 0x0B), ('f', 0x0C),
   ('r', 0x0D), ('e', 0x1B), (' ', 0x20), ('"', 0x22), ('\\', 0x5C), ('/', 0x2F), ('N', 0x85), ('_', 0xA0),
   ('L', 0x2028), ('P', 0x2029)]

/-- letters that introduce a code point, with the number of its hexadecimal digits -/
def codeTable : List (Char × Nat) := [('x', 2), ('u', 4), ('U', 8)]

def charOfHex? (digits : Text) : Option Char := do
  let values ← digits.mapM Text.hexValue?
  let n := values.foldl (fun n d => 16 * n + d) 0
  if n.isValidChar then some (Char.ofNat n) else none

/-- the pieces of text in double quotes; `skip` characters have been read as part of an escape -/
def doublePieces : Nat → Text → Option (List Piece)
  | _, [] => some []
  | skip + 1, _ :: r => doublePieces skip r
  | 0, '\\' :: c :: r =>
    match escapeTable.lookup c, codeTable.lookup c with
    | some n, _ => (doublePieces 0 r).map (.char (Char.ofNat n) :: ·)
    | none, some width =>
      if r.length < width then none
      else
        match charOfHex? (r.take width) with
        | some x => (doublePieces width r).map (.char x :: ·)
        | none => none
    | none, none => if isBreak c then (doublePieces 0 r).map (.joined :: ·) else none
  | 0, c :: r => if c = '\\' then none else (doublePieces 0 r).map (pieceOf c :: ·)

/-- whether some line after the first starts with a document marker -/
def holdsSeparator : Text → Bool
  | [] => false
  | c :: r => (isBreak c && startsWithSeparator r && 3 < r.length) || holdsSeparator r

/-- text in single quotes, after the opening one -/
def singleQuoted (t : Text) : Except ReadFault (Text × Text) :=
  match untilSingle t with
  | none => throw .malformed
  | some (raw, rest) =>
    if holdsSeparator raw then throw .malformed else pure (foldPieces (.within []) (singlePieces raw), rest)

/-- text in double quotes, after the opening one -/
def doubleQuoted (t : Text) : Except ReadFault (Text × Text) :=
  match untilDouble t with
  | none => throw .malformed
  | some (raw, rest) =>
    match doublePieces 0 raw with
    | none => throw .malformed
    | some pieces => if holdsSeparator raw then throw .malformed else pure (foldPieces (.within []) pieces, rest)

/-! ## Plain text -/

/-- brackets, braces and commas, which end plain text inside a flow collection -/
def isFlowSign (c : Char) : Bool := c = ',' || c = '[' || c = ']' || c = '{' || c = '}'

/-- whether plain text ends before a character and what follows it -/
def endsPlain (flow : Bool) (c : Char) (r : Text) : Bool :=
  endsWord (some c) || (c = ':' && (endsWord r.head? || (flow && r.head?.any isFlowSign))) ||
    (flow && (c = '?' || isFlowSign c))

/-- the characters up to where plain text ends or pauses -/
def plainWord (flow : Bool) : Text → Text
  | [] => []
  | c :: r => if endsPlain flow c r then [] else c :: plainWord flow r

/-- blank lines and blanks after a line break: the breaks in them, the text after them and its column; no breaks at all
if a document marker comes -/
def gapLines (column : Nat) : Text → Option Text × Text × Nat
  | [] => (some [], [], column)
  | c :: r =>
    if c = ' ' then gapLines (column + 1) r
    else if isBreak c then
      if startsWithSeparator r then (none, r, 0)
      else
        let (breaks, rest, col) := gapLines 0 r
        (breaks.map (breakValue c :: ·), rest, col)
    else (some [], c :: r, column)

/-- what stands between two words of plain text -/
structure Gap where
  /-- what it counts as; nothing if plain text cannot go on after it -/
  value : Text
  rest : Text
  /-- the column after it, if it holds a line break -/
  column : Option Nat
  deriving DecidableEq, Repr

def plainGap (t : Text) : Gap :=
  let blanks := t.takeWhile (· = ' ')
  match t.dropWhile (· = ' ') with
  | [] => ⟨blanks, [], none⟩
  | c :: r =>
    if isBreak c then
      if startsWithSeparator r then ⟨[], r, some 0⟩
      else
        match gapLines 0 r with
        | (none, rest, col) => ⟨[], rest, some col⟩
        | (some more, rest, col) => ⟨foldBreaks (breakValue c) more, rest, some col⟩
    else ⟨blanks, c :: r, none⟩

/-- plain text: its value, the text after it, and whether that starts a line; `held` is the gap before the next word,
and lines must be indented to a column -/
def plainFrom (flow : Bool) (indent : Nat) (held t : Text) : Text × Text × Bool :=
  let word := plainWord flow t
  if t.head? = some '#' || word.isEmpty then ([], t, false)
  else
    let gap := plainGap (t.drop word.length)
    let stays := !gap.value.isEmpty && gap.rest.head? ≠ some '#' && (flow || gap.column.all (indent ≤ ·))
    if _h : gap.rest.length < t.length then
      if stays then
        let (value, rest, starts) := plainFrom flow indent gap.value gap.rest
        (held ++ (word ++ value), rest, starts || (value.isEmpty && gap.column.isSome))
      else (held ++ word, gap.rest, gap.column.isSome)
    else (held ++ word, gap.rest, gap.column.isSome)
termination_by t.length

/-! ## Blocks -/

/-- what happens to the line ends after a block -/
inductive Chomp where
  | strip
  | clip
  | keep
  deriving DecidableEq, Repr

/-- the sign for the line ends after a block -/
def chompOf? (c : Char) : Option Chomp := if c = '+' then some .keep else if c = '-' then some .strip else none

/-- the digit for the indentation of a block -/
def indentOf? (c : Char) : Option Nat := if '1' ≤ c && c ≤ '9' then some (c.toNat - 48) else none

/-- the signs of a block in either order, each at most once -/
def blockSigns : Text → Chomp × Option Nat × Text
  | [] => (.clip, none, [])
  | c :: r =>
    match chompOf? c, indentOf? c with
    | some chomp, _ =>
      match r with
      | d :: s => if let some n := indentOf? d then (chomp, some n, s) else (chomp, none, d :: s)
      | [] => (chomp, none, [])
    | none, some n =>
      match r with
      | d :: s => if let some chomp := chompOf? d then (chomp, some n, s) else (.clip, some n, d :: s)
      | [] => (.clip, some n, [])
    | none, none => (.clip, none, c :: r)

/-- the rest of a line that may hold a comment only -/
def commentLine (t : Text) : Except ReadFault Text :=
  let t := t.dropWhile (· = ' ')
  let t := if t.head? = some '#' then t.dropWhile (fun c => !isBreak c) else t
  match t with
  | [] => pure []
  | c :: r => if isBreak c then pure r else throw .malformed

/-- blank lines before a block: their breaks, the deepest column of blanks, and the text after them with its column -/
def indentFrom (column deepest : Nat) : Text → Text × Nat × Text × Nat
  | [] => ([], deepest, [], column)
  | c :: r =>
    if c = ' ' then indentFrom (column + 1) (max deepest (column + 1)) r
    else if isBreak c then
      let (breaks, deepest, rest, col) := indentFrom 0 deepest r
      (breakValue c :: breaks, deepest, rest, col)
    else ([], deepest, c :: r, column)

/-- blank lines inside a block: their breaks, and the text after them with its column, blanks beyond the indentation
being text -/
def breaksFrom (indent column : Nat) : Text → Text × Text × Nat
  | [] => ([], [], column)
  | c :: r =>
    if c = ' ' && column < indent then breaksFrom indent (column + 1) r
    else if isBreak c then
      let (breaks, rest, col) := breaksFrom indent 0 r
      (breakValue c :: breaks, rest, col)
    else ([], c :: r, column)

def startsBlank (t : Text) : Bool := t.head? = some ' ' || t.head? = some '\t'

/-- the lines of a block from a line on that is indented enough: its text, the last line end, the breaks after it, and
the text after the block -/
def blockLines (folded : Bool) (indent : Nat) (t : Text) : Text × Text × Text × Text :=
  let line := t.takeWhile fun c => !isBreak c
  let after := t.dropWhile fun c => !isBreak c
  let ending := (after.take 1).map breakValue
  let (breaks, rest, column) := breaksFrom indent 0 (after.drop 1)
  if _h : rest.length < t.length then
    if column = indent && !rest.isEmpty then
      let fold := folded && ending = ['\n'] && !startsBlank t && !startsBlank rest
      let between := if fold then (if breaks.isEmpty then [' '] else []) else ending
      let (value, lastEnding, lastBreaks, after) := blockLines folded indent rest
      (line ++ (between ++ (breaks ++ value)), lastEnding, lastBreaks, after)
    else (line, ending, breaks, rest)
  else (line, ending, breaks, rest)
termination_by t.length

/-- a block of lines, after its sign; lines are indented to at least a column -/
def block (folded : Bool) (least : Nat) (t : Text) : Except ReadFault (Text × Text) := do
  let (chomp, increment, t) := blockSigns t
  if !(t.isEmpty || t.head? = some ' ' || t.head?.any isBreak) then throw .malformed
  let t ← commentLine t
  let (breaks, indent, rest, column) :=
    match increment with
    | none =>
      let (breaks, deepest, rest, column) := indentFrom 0 0 t
      (breaks, max least deepest, rest, column)
    | some n =>
      let (breaks, rest, column) := breaksFrom (least + n - 1) 0 t
      (breaks, least + n - 1, rest, column)
  let (value, ending, last, rest) :=
    if column = indent && !rest.isEmpty then
      let (value, ending, last, rest) := blockLines folded indent rest
      (breaks ++ value, ending, last, rest)
    else ([], [], breaks, rest)
  match chomp with
  | .strip => pure (value, rest)
  | .clip => pure (value ++ ending, rest)
  | .keep => pure (value ++ (ending ++ last), rest)

end RepoLens.Yaml
