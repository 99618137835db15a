import RepoLens.Console.Screen
import RepoLens.Console.Shown
/-!
Markup: text with tags in square brackets. A tag starts with a small letter or one of three signs and runs to the
nearest closing bracket, with no opening bracket in between. Backslashes right before a tag are halved, and an odd one
makes the tag plain text. An opening tag vanishes, and what follows has its style up to the tag that closes it; a
closing tag needs an open one of the same name, the innermost such, and one without a name needs any. A tag whose name
begins with an at sign names a handler, whose parameters are read when it is closed. `escape` is the way back: what it
writes shows as the text it was given, up to codes.
-/
namespace RepoLens.Console

/-- why markup cannot be shown -/
inductive MarkupFault where
  /-- a closing tag without an open tag of its name -/
  | unmatched (tag : Text) (position : Nat)
  /-- a closing tag without a name and nothing open -/
  | nothingOpen (position : Nat)
  /-- parameters of a handler that cannot be read -/
  | parameters (message : Text)
  /-- a style with a part that is no number -/
  | style (cause : NumberFault)
  deriving DecidableEq, Repr

def MarkupFault.message : MarkupFault → Text
  | unmatched tag position =>
    "closing tag '" ++ (tag ++ ("' at position " ++ (Text.ofNat position ++ " doesn't match any open tag")))
  | nothingOpen position => "closing tag '[/]' at position " ++ (Text.ofNat position ++ " has nothing to close")
  | parameters message => message
  | style cause => cause.message

namespace Markup

/-! ## Tags -/

/-- the characters a tag may start with -/
def startsTag (c : Char) : Bool := ('a' ≤ c && c ≤ 'z') || c = '#' || c = '/' || c = '@'

/-- the text up to the nearest closing bracket, if no opening bracket comes first; and the rest after it -/
def toBracket : Text → Option (Text × Text)
  | [] => none
  | c :: r =>
    if c = ']' then some ([], r)
    else if c = '[' then none
    else (toBracket r).map fun (inner, rest) => (c :: inner, rest)

/-- the tag after an opening bracket: its text, and the rest after it -/
def tagAfterBracket : Text → Option (Text × Text)
  | [] => none
  | c :: r => if startsTag c then (toBracket r).map fun (inner, rest) => (c :: inner, rest) else none

/-- a part of a markup text: characters, or a tag with its position and the backslashes before it -/
inductive Part where
  | chars (t : Text)
  | tag (position backslashes : Nat) (body : Text)
  deriving DecidableEq, Repr

def backslashes : Text → Nat
  | [] => 0
  | c :: r => if c = '\\' then backslashes r + 1 else 0

/-- the tag that starts a text, with the backslashes before it -/
def leadingTag (t : Text) : Option (Nat × Text × Text) :=
  match t.drop (backslashes t) with
  | '[' :: r => (tagAfterBracket r).map fun (body, rest) => (backslashes t, body, rest)
  | _ => none

def consChar (c : Char) : List Part → List Part
  | .chars t :: parts => .chars (c :: t) :: parts
  | parts => .chars [c] :: parts

/-- the parts of a text, from left to right, `skip` characters of it having been taken already -/
def partsFrom (position skip : Nat) : Text → List Part
  | [] => []
  | c :: r =>
    if 0 < skip then partsFrom (position + 1) (skip - 1) r
    else
      match leadingTag (c :: r) with
      | some (n, body, _) => .tag position n body :: partsFrom (position + 1) (n + body.length + 1) r
      | none => consChar c (partsFrom (position + 1) 0 r)

def parts (t : Text) : List Part := partsFrom 0 0 t

/-! ## Showing -/

/-- characters of a text that holds a bracket: an escaped bracket is one bracket -/
def unescapeBrackets : Text → Text
  | [] => []
  | '\\' :: '[' :: r => '[' :: unescapeBrackets r
  | c :: r => c :: unescapeBrackets r

/-- characters that are never shown: bell, backspace, vertical tab, form feed, carriage return -/
def isDropped (c : Char) : Bool := c.toNat = 7 || c.toNat = 8 || c.toNat = 11 || c.toNat = 12 || c.toNat = 13

/-- text as it goes to the screen -/
def shown (t : Text) : Text := t.filter fun c => !isDropped c

/-- the name in a tag's text, which ends at the first equals sign -/
def nameIn (body : Text) : Text := body.takeWhile (· ≠ '=')

/-- what follows the equals sign in a tag's text, if there is one -/
def parametersIn (body : Text) : Option Text := (body.dropWhile (· ≠ '=')).tail?

/-- a closing tag as it was written -/
def writtenTag (body : Text) : Text := '[' :: (body ++ [']'])

/-- a tag that is open: its name, its parameters, and how much was shown before it -/
structure Opened where
  name : Text
  parameters : Option Text
  start : Nat
  deriving DecidableEq, Repr

/-- the stretch of a tag that ends where so much has been shown -/
def Opened.stretch (o : Opened) (length : Nat) : Stretch :=
  ⟨o.start, length, match o.parameters with
    | none => o.name
    | some t => o.name ++ (' ' :: t)⟩

/-- close a tag; a handler leaves no style behind, but its parameters have to be right -/
def Opened.close (screen : Screen) (o : Opened) (length : Nat) : Except MarkupFault (List Stretch) :=
  if o.name.head? = some '@' then
    match (o.parameters.filter (· ≠ [])).bind screen.parameterFault? with
    | some message => throw (.parameters message)
    | none => pure []
  else pure [o.stretch length]

/-- the innermost open tag of a name, and the others -/
def popNamed (name : Text) : List Opened → Option (Opened × List Opened)
  | [] => none
  | o :: r => if o.name = name then some (o, r) else (popNamed name r).map fun (found, rest) => (found, o :: rest)

/-- the open tags after a tag, the innermost first, and the stretch of the one that it closes -/
def applyTag (screen : Screen) (position : Nat) (body : Text) (length : Nat) (opened : List Opened) :
    Except MarkupFault (List Opened × List Stretch) :=
  match nameIn body with
  | '/' :: r => do
    let name := Text.trim r
    let found ←
      if name.isEmpty then
        match opened with
        | [] => throw (.nothingOpen position)
        | o :: rest => pure (o, rest)
      else
        match popNamed (← (tagName name).mapError .style) opened with
        | none => throw (.unmatched (writtenTag body) position)
        | some found => pure found
    pure (found.2, ← found.1.close screen length)
  | name => do pure (⟨← (tagName name).mapError .style, parametersIn body, length⟩ :: opened, [])

/-- what parts show, given the tags that are open and how much has been shown -/
def showParts (screen : Screen) (length : Nat) (opened : List Opened) : List Part → Except MarkupFault Shown
  | [] => pure ⟨[], opened.map fun o => o.stretch length⟩
  | .chars t :: r => do
    let u := shown (screen.pictures (unescapeBrackets t))
    pure ((← showParts screen (length + u.length) opened r).behind u [])
  | .tag position n body :: r => do
    let slashes := List.replicate (n / 2) '\\'
    if n % 2 = 1 then
      let u := slashes ++ shown (screen.pictures (writtenTag body))
      pure ((← showParts screen (length + u.length) opened r).behind u [])
    else do
      let (opened, closed) ← applyTag screen (position + n) body (length + n / 2) opened
      pure ((← showParts screen (length + n / 2) opened r).behind slashes closed)

/-- a markup text as it shows, its stretches in order of their starts -/
def read (screen : Screen) (t : Text) : Except MarkupFault Shown := do
  if t.contains '[' then
    let s ← showParts screen 0 [] (parts t)
    pure ⟨s.text, s.stretches.reverse.mergeSort fun r s => r.start ≤ s.start⟩
  else pure ⟨shown (screen.pictures t), []⟩

def render (screen : Screen) (t : Text) : Except MarkupFault Text := Shown.text <$> read screen t

/-! ## Escaping -/

/-- write parts so that every tag shows as text -/
def escapeParts : List Part → Text
  | [] => []
  | .chars t :: r => t ++ escapeParts r
  | .tag _ n body :: r => List.replicate (2 * n + 1) '\\' ++ ('[' :: (body ++ (']' :: escapeParts r)))

/-- markup that shows as the given text; a single backslash at the end is doubled, so that it escapes nothing after
it -/
def escape (t : Text) : Text :=
  let written := escapeParts (parts t)
  if written.getLast? = some '\\' && written.dropLast.getLast? ≠ some '\\' then written ++ ['\\'] else written

end Markup

end RepoLens.Console
