import RepoLens.Yaml.Scalar
/-!
The tokens of a document. A scanner reads one token at a time and keeps the columns of the block collections that are
open. What might be a key is remembered with its place; once a colon follows it on the same line, the key sign is put
in front of it, and the sign of a new block mapping if its column opens one.
-/
namespace RepoLens.Yaml

/-- a line that starts with a percent sign -/
inductive Directive where
  | version (major minor : Nat)
  /-- a handle and what it stands for in tags -/
  | handle (handle full : Text)
  | other
  deriving DecidableEq, Repr

inductive Token where
  | directive (d : Directive)
  | documentStart
  | documentEnd
  | blockSeq
  | blockMap
  | blockEnd
  | flowSeqStart
  | flowSeqEnd
  | flowMapStart
  | flowMapEnd
  | dash
  | comma
  | key
  | value
  | alias (name : Text)
  | anchor (name : Text)
  | tag (handle : Option Text) (suffix : Text)
  | scalar (plain : Bool) (t : Text)
  deriving DecidableEq, Repr

/-- a place where a key may have started -/
structure KeyStart where
  /-- how many tokens stand before it -/
  before : Nat
  /-- whether a key has to stand there -/
  required : Bool
  index : Nat
  line : Nat
  column : Nat
  deriving DecidableEq, Repr

structure Scanner where
  cursor : Cursor
  /-- tokens so far, the last one first -/
  tokens : List Token
  /-- columns of the open block collections, the innermost first -/
  indents : List Nat
  /-- the possible key of each open flow collection, the innermost first, and of the block level -/
  keys : List (Option KeyStart)
  /-- whether a key may start at the cursor -/
  allowKey : Bool
  deriving DecidableEq, Repr

namespace Scanner

def start (t : Text) : Scanner := ⟨Cursor.start t, [], [], [none], true⟩

def inFlow (s : Scanner) : Bool := 1 < s.keys.length

def push (s : Scanner) (t : Token) : Scanner := { s with tokens := t :: s.tokens }

def forward (s : Scanner) (n : Nat) : Scanner := { s with cursor := s.cursor.skip n }

def moveTo (s : Scanner) (rest : Text) : Scanner := { s with cursor := s.cursor.moveTo rest }

def allow (s : Scanner) (b : Bool) : Scanner := { s with allowKey := b }

/-! ## Keys -/

/-- the possible key of the innermost level -/
def key? (s : Scanner) : Option KeyStart := (s.keys.head?).join

def setKey (s : Scanner) (k : Option KeyStart) : Scanner := { s with keys := k :: s.keys.drop 1 }

/-- give up the possible key of the innermost level; one that has to stand there cannot be given up -/
def dropKey (s : Scanner) : Except ReadFault Scanner :=
  match s.key? with
  | some k => if k.required then throw .malformed else pure (s.setKey none)
  | none => pure s

/-- remember that a key may start at the cursor -/
def saveKey (s : Scanner) : Except ReadFault Scanner :=
  if s.allowKey then do
    let s ← s.dropKey
    let required := !s.inFlow && s.indents.head? = some s.cursor.column
    pure (s.setKey (some ⟨s.tokens.length, required, s.cursor.index, s.cursor.line, s.cursor.column⟩))
  else pure s

/-- whether a colon at the cursor would come too late for a key -/
def isStale (c : Cursor) (k : KeyStart) : Bool := k.line ≠ c.line || 1024 < c.index - k.index

/-- give up the keys that are on an earlier line or too long -/
def dropStale (s : Scanner) : Except ReadFault Scanner :=
  if s.keys.any fun k => k.any fun k => isStale s.cursor k && k.required then throw .malformed
  else pure { s with keys := s.keys.map fun k => k.filter fun k => !isStale s.cursor k }

/-- put tokens in front of the ones that came since a key started -/
def insertAt (s : Scanner) (before : Nat) (inserted : List Token) : Scanner :=
  let later := s.tokens.length - before
  { s with tokens := s.tokens.take later ++ (inserted.reverse ++ s.tokens.drop later) }

/-! ## Indentation -/

/-- close the block collections that are deeper than a column -/
def unwindTo (column : Nat) (s : Scanner) : Scanner :=
  if s.inFlow then s
  else
    let closed := s.indents.takeWhile fun i => column < i
    { s with indents := s.indents.drop closed.length,
             tokens := List.replicate closed.length .blockEnd ++ s.tokens }

def unwindAll (s : Scanner) : Scanner :=
  if s.inFlow then s
  else { s with indents := [], tokens := List.replicate s.indents.length .blockEnd ++ s.tokens }

/-- whether a block collection at a column would be a new one -/
def opensBlock (s : Scanner) (column : Nat) : Bool := s.indents.head?.all (· < column)

def openBlock (s : Scanner) (column : Nat) : Scanner := { s with indents := column :: s.indents }

/-- open a block collection at the cursor, with its token, unless it is open -/
def openBlockWith (s : Scanner) (t : Token) : Scanner :=
  if s.opensBlock s.cursor.column then (s.openBlock s.cursor.column).push t else s

/-! ## Between tokens -/

/-- skip blanks, comments and line ends; also says whether there was a line end -/
def gap (inComment : Bool) : Text → Text × Bool
  | [] => ([], false)
  | c :: r =>
    if isBreak c then ((gap false r).1, true)
    else if inComment then gap true r
    else if c = ' ' then gap false r
    else if c = '#' then gap true r
    else (c :: r, false)

def toToken (s : Scanner) : Scanner :=
  let (rest, broken) := gap false s.cursor.rest
  (s.moveTo rest).allow (s.allowKey || (broken && !s.inFlow))

/-! ## Signs -/

/-- the end of the document or the start of another -/
def documentSign (t : Token) (s : Scanner) : Except ReadFault Scanner := do
  let s ← s.unwindAll.dropKey
  pure (((s.allow false).forward 3).push t)

def openFlow (t : Token) (s : Scanner) : Except ReadFault Scanner := do
  let s ← s.saveKey
  pure ((({ s with keys := none :: s.keys }.allow true).forward 1).push t)

def closeFlow (t : Token) (s : Scanner) : Except ReadFault Scanner := do
  if s.inFlow then
    let s ← s.dropKey
    pure ((({ s with keys := s.keys.drop 1 }.allow false).forward 1).push t)
  else throw .malformed

def commaSign (s : Scanner) : Except ReadFault Scanner := do
  let s ← s.dropKey
  pure (((s.allow true).forward 1).push .comma)

def dashSign (s : Scanner) : Except ReadFault Scanner := do
  if !s.inFlow && !s.allowKey then throw .malformed
  let s := if s.inFlow then s else s.openBlockWith .blockSeq
  let s ← s.dropKey
  pure (((s.allow true).forward 1).push .dash)

def keySign (s : Scanner) : Except ReadFault Scanner := do
  if !s.inFlow && !s.allowKey then throw .malformed
  let s := if s.inFlow then s else s.openBlockWith .blockMap
  let s ← s.dropKey
  pure (((s.allow !s.inFlow).forward 1).push .key)

def valueSign (s : Scanner) : Except ReadFault Scanner := do
  match s.key? with
  | some k =>
    let s := s.setKey none
    let opens := !s.inFlow && s.opensBlock k.column
    let s := if opens then (s.openBlock k.column).insertAt k.before [.blockMap, .key] else s.insertAt k.before [.key]
    pure (((s.allow false).forward 1).push .value)
  | none =>
    if !s.inFlow && !s.allowKey then throw .malformed
    let s := if s.inFlow then s else s.openBlockWith .blockMap
    let s ← s.dropKey
    pure (((s.allow !s.inFlow).forward 1).push .value)

/-! ## Names -/

/-- the name of an anchor or an alias, after its sign -/
def anchorName (t : Text) : Except ReadFault (Text × Text) :=
  let name := t.takeWhile isNameChar
  let rest := t.dropWhile isNameChar
  let ends := endsWord rest.head? || rest.head?.any fun c => "?:,]\x7d%@".toList.contains c || c.toNat = 0x60
  if name.isEmpty || !ends then throw .malformed else pure (name, rest)

/-- an anchor or an alias -/
def named (token : Text → Token) (s : Scanner) : Except ReadFault Scanner := do
  let s ← s.saveKey
  let (name, rest) ← anchorName (s.cursor.rest.drop 1)
  pure (((s.allow false).moveTo rest).push (token name))

def isTagChar (c : Char) : Bool := c.isAlphanum || "-;/?:@&=+$,_.!~*'()[]".toList.contains c

/-- the text of a tag as far as it goes; bytes written with percent signs are kept as they stand -/
def tagText (t : Text) : Except ReadFault (Text × Text) :=
  let body := t.takeWhile fun c => isTagChar c || c = '%'
  if body.isEmpty then throw .malformed else pure (body, t.drop body.length)

/-- the handle of a tag: an exclamation mark, or a name between two -/
def tagHandle (t : Text) : Except ReadFault (Text × Text) :=
  match t with
  | '!' :: r =>
    if r.head? = some ' ' then pure (['!'], r)
    else
      let name := r.takeWhile isNameChar
      match r.dropWhile isNameChar with
      | '!' :: rest => pure ('!' :: (name ++ ['!']), rest)
      | _ => throw .malformed
  | _ => throw .malformed

/-- a tag, after its exclamation mark -/
def tagBody (r : Text) : Except ReadFault (Token × Text) :=
  match r with
  | '<' :: r => do
    let (suffix, rest) ← tagText r
    match rest with
    | '>' :: rest => pure (.tag none suffix, rest)
    | _ => throw .malformed
  | r =>
    if endsWord r.head? then pure (.tag none ['!'], r)
    else do
      let word := r.takeWhile fun c => !(c = ' ' || isBreak c)
      let (handle, rest) ← if word.contains '!' then tagHandle ('!' :: r) else pure (['!'], r)
      let (suffix, rest) ← tagText rest
      pure (.tag (some handle) suffix, rest)

def tagSign (s : Scanner) : Except ReadFault Scanner := do
  let s ← s.saveKey
  let (token, rest) ← tagBody (s.cursor.rest.drop 1)
  if rest.head? = some ' ' || endsLine rest.head? then pure (((s.allow false).moveTo rest).push token)
  else throw .malformed

/-! ## Directives -/

/-- value of a run of digits, and the text after it -/
def directiveNumber (t : Text) : Except ReadFault (Nat × Text) :=
  let digits := t.takeWhile Char.isDigit
  if digits.isEmpty then throw .malformed
  else pure (digits.foldl (fun n c => 10 * n + (c.toNat - 48)) 0, t.dropWhile Char.isDigit)

/-- whether a word of a directive ends here -/
def endsDirectiveWord (t : Text) : Bool := t.head? = some ' ' || endsLine t.head?

def directiveBody (t : Text) : Except ReadFault (Directive × Text) := do
  let name := t.takeWhile isNameChar
  let t := t.dropWhile isNameChar
  if name.isEmpty || !endsDirectiveWord t then throw .malformed
  let blanksOff (t : Text) : Text := t.dropWhile (· = ' ')
  if name = "YAML" then
    let (major, t) ← directiveNumber (blanksOff t)
    match t with
    | '.' :: t =>
      let (minor, t) ← directiveNumber t
      if endsDirectiveWord t then pure (.version major minor, t) else throw .malformed
    | _ => throw .malformed
  else if name = "TAG" then
    let (handle, t) ← tagHandle (blanksOff t)
    if t.head? ≠ some ' ' then throw .malformed
    let (full, t) ← tagText (blanksOff t)
    if endsDirectiveWord t then pure (.handle handle full, t) else throw .malformed
  else pure (.other, t.dropWhile fun c => !isBreak c)

def directiveSign (s : Scanner) : Except ReadFault Scanner := do
  let s ← s.unwindAll.dropKey
  let (d, rest) ← directiveBody (s.cursor.rest.drop 1)
  let rest ← commentLine rest
  pure (((s.allow false).moveTo rest).push (.directive d))

/-! ## Scalars -/

def blockScalar (folded : Bool) (s : Scanner) : Except ReadFault Scanner := do
  let s ← (s.allow true).dropKey
  let least := match s.indents with | [] => 1 | i :: _ => i + 1
  let (value, rest) ← block folded least (s.cursor.rest.drop 1)
  pure ((s.moveTo rest).push (.scalar false value))

def quotedScalar (read : Text → Except ReadFault (Text × Text)) (s : Scanner) : Except ReadFault Scanner := do
  let s ← s.saveKey
  let (value, rest) ← read (s.cursor.rest.drop 1)
  pure (((s.allow false).moveTo rest).push (.scalar false value))

def plainScalar (s : Scanner) : Except ReadFault Scanner := do
  let s ← s.saveKey
  let indent := match s.indents with | [] => 0 | i :: _ => i + 1
  let (value, rest, starts) := plainFrom s.inFlow indent [] s.cursor.rest
  pure (((s.allow starts).moveTo rest).push (.scalar true value))

/-- whether plain text may start with a character before another -/
def startsPlain (flow : Bool) (c : Char) (next : Option Char) : Bool :=
  !(endsWord (some c) || "-?:,[]\x7b\x7d#&*!|>'\"%@".toList.contains c || c.toNat = 0x60) ||
    (!endsWord next && (c = '-' || (!flow && (c = '?' || c = ':'))))

/-! ## All tokens -/

def readToken (s : Scanner) (c : Char) : Except ReadFault Scanner :=
  let next := s.cursor.peekNext
  let atStart := s.cursor.column = 0
  if c = '%' && atStart then s.directiveSign
  else if atStart && startsWithMarker '-' s.cursor.rest then s.documentSign .documentStart
  else if atStart && startsWithMarker '.' s.cursor.rest then s.documentSign .documentEnd
  else if c = '[' then s.openFlow .flowSeqStart
  else if c = '{' then s.openFlow .flowMapStart
  else if c = ']' then s.closeFlow .flowSeqEnd
  else if c = '}' then s.closeFlow .flowMapEnd
  else if c = ',' then s.commaSign
  else if c = '-' && endsWord next then s.dashSign
  else if c = '?' && (s.inFlow || endsWord next) then s.keySign
  else if c = ':' && (s.inFlow || endsWord next) then s.valueSign
  else if c = '*' then s.named .alias
  else if c = '&' then s.named .anchor
  else if c = '!' then s.tagSign
  else if c = '|' && !s.inFlow then s.blockScalar false
  else if c = '>' && !s.inFlow then s.blockScalar true
  else if c = '\'' then s.quotedScalar singleQuoted
  else if c = '"' then s.quotedScalar doubleQuoted
  else if startsPlain s.inFlow c next then s.plainScalar
  else throw .malformed

/-- the end of the text: everything is closed -/
def finish (s : Scanner) : Except ReadFault (List Token) := do
  if s.inFlow then throw .malformed
  let s ← s.unwindAll.dropKey
  pure s.tokens.reverse

/-- go to the next token, giving up what is stale and closing what is deeper -/
def approach (s : Scanner) : Except ReadFault Scanner := do
  let s ← s.toToken.dropStale
  pure (s.unwindTo s.cursor.column)

/-- read all tokens that are left -/
def scan (s : Scanner) : Except ReadFault (List Token) :=
  match s.approach with
  | .error e => .error e
  | .ok near =>
    match near.cursor.rest with
    | [] => near.finish
    | c :: _ =>
      match near.readToken c with
      | .error e => .error e
      | .ok t => if _h : t.cursor.rest.length < s.cursor.rest.length then scan t else .error .malformed
termination_by s.cursor.rest.length

end Scanner

/-- the tokens of a document, which may start with a byte order mark -/
def tokens (t : Text) : Except ReadFault (List Token) :=
  if t.all isAllowed then
    (Scanner.start (match t with | c :: r => if isByteOrderMark c then r else c :: r | [] => [])).scan
  else .error .malformed

end RepoLens.Yaml
