import RepoLens.Yaml.Node
/-!
The text of a node: blocks of lines, two spaces a level, and lines folded after the eightieth column. A sequence under
a key is not indented further than the key. Texts are plain where they can be, in single quotes where they hold nothing
that needs an escape, and otherwise in double quotes, with everything outside printable ASCII escaped.
-/
namespace RepoLens.Yaml

/-! ## Which quotes -/

/-- neither a newline nor printable ASCII -/
def isSpecial (c : Char) : Bool := c ≠ '\n' && !(0x20 ≤ c.toNat && c.toNat ≤ 0x7E)

def isMultiline (t : Text) : Bool := t.any isBreak

/-- signs that plain text cannot start with -/
def startSigns : List Char :=
  ['#', ',', '[', ']', '{', '}', '&', '*', '!', '|', '>', '\'', '"', '%', '@', Char.ofNat 0x60]

/-- whether a text starts with what would be read as a sign -/
def startsWithSign : Text → Bool
  | [] => false
  | c :: r => startSigns.contains c || ((c = '?' || c = ':' || c = '-') && endsWord r.head?)

/-- whether three dots or dashes start a text -/
def startsLikeSeparator (t : Text) : Bool := "---".toList.isPrefixOf t || "...".toList.isPrefixOf t

/-- whether a text holds a colon before a blank or its end, or a number sign after a blank -/
def holdsSign : Text → Bool
  | [] => false
  | [c] => c = ':'
  | c :: d :: r => (c = ':' && endsWord (some d)) || (endsWord (some c) && d = '#') || holdsSign (d :: r)

def spaceThenBreak : Text → Bool
  | c :: d :: r => (c = ' ' && isBreak d) || spaceThenBreak (d :: r)
  | _ => false

def breakThenSpace : Text → Bool
  | c :: d :: r => (isBreak c && d = ' ') || breakThenSpace (d :: r)
  | _ => false

def canBePlain (t : Text) : Bool :=
  !t.isEmpty && t.head? ≠ some ' ' && t.getLast? ≠ some ' ' && !isMultiline t && !t.any isSpecial &&
    !startsLikeSeparator t && !startsWithSign t && !holdsSign t

def canBeSingle (t : Text) : Bool := !t.any isSpecial && !spaceThenBreak t && !breakThenSpace t

/-! ## Folding -/

/-- the column after which lines are folded -/
def bestWidth : Nat := 80

/-- a new line with an indentation -/
def foldAt (indent : Nat) : Text := '\n' :: Text.spaces indent

/-- plain text from a column on: a single space beyond the best width becomes a line break; `spaced` says whether a
space stands before -/
def plainText (split : Bool) (indent column : Nat) (spaced : Bool) : Text → Text
  | [] => []
  | c :: r =>
    if c = ' ' && !spaced && r.head? ≠ some ' ' && split && bestWidth < column then
      foldAt indent ++ plainText split indent indent true r
    else c :: plainText split indent (column + 1) (c = ' ') r

/-- text in single quotes, after the opening one; newlines are doubled once per run, and a quote is written twice -/
def singleText (split : Bool) (indent column : Nat) (first spaced broken : Bool) : Text → Text
  | [] => if broken then Text.spaces indent else []
  | c :: r =>
    if c = '\n' then
      if broken then '\n' :: singleText split indent 0 false false true r
      else '\n' :: '\n' :: singleText split indent 0 false false true r
    else
      let lead := if broken then Text.spaces indent else []
      let column := if broken then indent else column
      if c = ' ' && !first && !spaced && !r.isEmpty && r.head? ≠ some ' ' && split && bestWidth < column then
        lead ++ (foldAt indent ++ singleText split indent indent false true false r)
      else if c = '\'' then lead ++ ('\'' :: '\'' :: singleText split indent (column + 2) false false false r)
      else lead ++ (c :: singleText split indent (column + 1) false (c = ' ') false r)

def letterEscapes : List (Nat × Char) :=
  [(0x00, '0'), (0x07, 'a'), (0x08, 'b'), (0x09, 't'), (0x0A, 'n'), (0x0B, 'v'), (0x0C, 'f'), (0x0D, 'r'), (0x1B, 'e'),
   (0x22, '"'), (0x5C, '\\'), (0x85, 'N'), (0xA0, '_'), (0x2028, 'L'), (0x2029, 'P')]

/-- upper-case hexadecimal digits, filled with zeros -/
def upperHex (width n : Nat) : Text := (Text.hex width n).map Char.toUpper

/-- the escape of a character in double quotes, if it needs one -/
def escapeOf? (c : Char) : Option Text :=
  match letterEscapes.lookup c.toNat with
  | some l => some ['\\', l]
  | none =>
    if 0x20 ≤ c.toNat && c.toNat ≤ 0x7E then none
    else if c.toNat ≤ 0xFF then some ('\\' :: 'x' :: upperHex 2 c.toNat)
    else if c.toNat ≤ 0xFFFF then some ('\\' :: 'u' :: upperHex 4 c.toNat)
    else some ('\\' :: 'U' :: upperHex 8 c.toNat)

/-- a line folded in double quotes: a backslash joins it to the next, which starts with another before a space -/
def foldJoined (indent : Nat) (next : Option Char) : Text :=
  '\\' :: (foldAt indent ++ if next = some ' ' then ['\\'] else [])

/-- the column after such a fold -/
def columnAfterFold (indent : Nat) (next : Option Char) : Nat := if next = some ' ' then indent + 1 else indent

/-- text in double quotes, after the opening one; a line is folded before a space or next to an escape, but not at the
first character or the last; `fresh` says whether an escape or a fold stands before -/
def doubleText (split : Bool) (indent column : Nat) (first fresh : Bool) : Text → Text
  | [] => []
  | c :: r =>
    let inside := split && !first && !r.isEmpty
    match escapeOf? c with
    | some escape =>
      let column := column + escape.length
      if inside && bestWidth + 1 < column then
        escape ++ (foldJoined indent r.head? ++ doubleText split indent (columnAfterFold indent r.head?) false true r)
      else escape ++ doubleText split indent column false true r
    | none =>
      if inside && (c = ' ' || fresh) && bestWidth < column then
        let column := columnAfterFold indent (some c)
        foldJoined indent (some c) ++ (c :: doubleText split indent (column + 1) false false r)
      else c :: doubleText split indent (column + 1) false false r

/-- a scalar from a column on, with the indentation of its further lines -/
def scalarText (split : Bool) (indent column : Nat) (plain : Bool) (t : Text) : Text :=
  if plain then plainText split indent column false t
  else if canBeSingle t then '\'' :: (singleText split indent (column + 1) true false false t ++ ['\''])
  else '"' :: (doubleText split indent (column + 1) true true t ++ ['"'])

/-! ## Nodes -/

/-- whether a node can be a key without a sign before it -/
def isSimpleKey : Node → Bool
  | .scalar _ _ t => t.length < 123 && !t.isEmpty && !isMultiline t
  | _ => false

def keyText (indent : Nat) : Node → Text
  | .scalar _ plain t => scalarText false (indent + 2) indent plain t
  | _ => []

/-- an anchor after a space -/
def anchorText (props : Props) : Text :=
  match props.anchor with
  | none => []
  | some name => ' ' :: '&' :: name

/-- the indentation of a line, unless it goes on behind a sign -/
def lead (inLine : Bool) (indent : Nat) : Text := if inLine then [] else Text.spaces indent

mutual

/-- what stands behind a sign at a level, up to the end of the line or of the block: behind a dash or a question mark a
collection goes on in the line, behind a key it starts a new one -/
def behind (compact : Bool) (indent column : Nat) : Node → Text
  | .alias name => ' ' :: '*' :: (name ++ ['\n'])
  | .scalar _ plain t => ' ' :: (scalarText true (indent + 2) (column + 1) plain t ++ ['\n'])
  | .seq props [] => anchorText props ++ " []\n"
  | .map props [] => anchorText props ++ [' ', '{', '}', '\n']
  | .seq props (item :: items) =>
    if compact && props.anchor.isNone then ' ' :: printItems true (indent + 2) (item :: items)
    else anchorText props ++ ('\n' :: printItems false (if compact then indent + 2 else indent) (item :: items))
  | .map props (entry :: entries) =>
    if compact && props.anchor.isNone then ' ' :: printEntries true (indent + 2) (entry :: entries)
    else anchorText props ++ ('\n' :: printEntries false (indent + 2) (entry :: entries))

def printItems (inLine : Bool) (indent : Nat) : List Node → Text
  | [] => []
  | item :: items =>
    lead inLine indent ++ ('-' :: (behind true indent (indent + 1) item ++ printItems false indent items))

def printEntries (inLine : Bool) (indent : Nat) : List (Node × Node) → Text
  | [] => []
  | (key, value) :: entries =>
    lead inLine indent ++
      ((if isSimpleKey key then
          let name := keyText indent key
          name ++ (':' :: behind false indent (indent + name.length + 1) value)
        else
          '?' :: (behind true indent (indent + 1) key ++
            (Text.spaces indent ++ (':' :: behind true indent (indent + 1) value)))) ++
        printEntries false indent entries)

end

/-- the text of a document; plain text alone is closed by a sign -/
def printNode : Node → Text
  | .alias name => '*' :: (name ++ ['\n'])
  | .scalar _ plain t => scalarText true 2 0 plain t ++ ('\n' :: if plain then "...\n".toList else [])
  | .seq _ [] => "[]\n"
  | .map _ [] => ['{', '}', '\n']
  | .seq _ items => printItems false 0 items
  | .map _ entries => printEntries false 0 entries

end RepoLens.Yaml
