import RepoLens.Text.Blank
import RepoLens.Text.Lower
import RepoLens.Text.Number
/-!
Version numbers of released packages, and version names in order. A version has an epoch, a release, and optional
marks for a pre-release, a post-release, a development release and a local build. It is read in two steps: first its
parts are found as they are written, which says whether the text is a version at all, and then its numerals become
numbers, which fails if one is too long. The rank of a version is a list of lists of numbers, compared
lexicographically twice over: the parts in order of weight, an absent part standing where its absence ranks.
-/
namespace RepoLens

/-- a segment of a local build -/
inductive Segment where
  | word (t : Text)
  | number (n : Nat)
  deriving DecidableEq, Repr

/-- a version; a mark has its letters and its number -/
structure Version where
  epoch : Nat
  release : List Nat
  pre : Option (Text × Nat)
  post : Option (Text × Nat)
  dev : Option (Text × Nat)
  build : Option (List Segment)
  deriving DecidableEq, Repr

namespace Version

/-! ## Rank -/

/-- a release without the zeros at its end -/
def trimZeros (release : List Nat) : List Nat := (release.reverse.dropWhile (· = 0)).reverse

/-- words come before numbers -/
def segmentRank : Segment → List Nat
  | .word t => 0 :: t.points
  | .number n => [1, n]

/-- pre-releases come before the release; a development release without other marks comes before them -/
def preRank (v : Version) : List (List Nat) :=
  match v.pre with
  | some (letters, n) => [1 :: letters.points, [n]]
  | none => if v.post.isNone && v.dev.isSome then [[0], []] else [[2], []]

def postRank (v : Version) : List (List Nat) :=
  match v.post with
  | some (letters, n) => [1 :: letters.points, [n]]
  | none => [[0], []]

def devRank (v : Version) : List (List Nat) :=
  match v.dev with
  | some (letters, n) => [0 :: letters.points, [n]]
  | none => [[1], []]

/-- what a version is compared by -/
def rank (v : Version) : List (List Nat) :=
  [[v.epoch], trimZeros v.release] ++ v.preRank ++ v.postRank ++ v.devRank ++
    (match v.build with | none => [] | some segments => segments.map segmentRank)

/-! ## Finding the parts -/

/-- which letters a version may be written in, besides the small and capital ones of ASCII: none, or the few that are
one of these up to case -/
inductive Letters where
  | ascii
  | unicode
  deriving DecidableEq, Repr

/-- the small letter of ASCII that a character is taken for -/
def Letters.taken : Letters → Char → Char
  | ascii, c => c.toLower
  | unicode, c =>
    if c.toNat = 0x17F then 's'
    else if c.toNat = 0x130 || c.toNat = 0x131 then 'i'
    else if c.toNat = 0x212A then 'k'
    else c.toLower

/-- the parts of a version as they are written; a numeral that is not there is empty -/
structure Written where
  epoch : Text
  release : List Text
  pre : Option (Text × Text)
  post : Option (Text × Text)
  dev : Option (Text × Text)
  build : Option (List Text)
  deriving DecidableEq, Repr

/-- the characters that may stand between the parts of a mark -/
def isSeparator (c : Char) : Bool := c = '-' || c = '_' || c = '.'

def dropSeparator : Text → Text
  | [] => []
  | c :: r => if isSeparator c then r else c :: r

def digits (t : Text) : Text × Text := (t.takeWhile Char.isDigit, t.dropWhile Char.isDigit)

/-- the numerals of a release that starts the text, and the rest: a point goes on only before a digit -/
def numerals : Text → List Text × Text
  | [] => ([[]], [])
  | '.' :: d :: r =>
    if d.isDigit then
      let (ns, rest) := numerals (d :: r)
      ([] :: ns, rest)
    else ([[]], '.' :: d :: r)
  | c :: r =>
    if c.isDigit then
      let (ns, rest) := numerals r
      (Text.consHead c ns, rest)
    else ([[]], c :: r)

/-- a mark: a word with an optional separator before it, then an optional separator and an optional number; a word in
other letters than those of ASCII stays as it is -/
def mark (letters : Letters) (words : List (Text × Text)) (t : Text) : Option ((Text × Text) × Text) :=
  let u := dropSeparator t
  match words.find? fun w => w.1.isPrefixOf (u.map letters.taken) with
  | none => none
  | some (word, name) =>
    let found := Text.lower (u.take word.length)
    let (ds, rest) := digits (dropSeparator (u.drop word.length))
    some ((if found = word then name else found, ds), rest)

/-- a part that may be absent -/
def optional {α : Type} (read : Text → Option (α × Text)) (t : Text) : Option α × Text :=
  match read t with
  | none => (none, t)
  | some (a, rest) => (some a, rest)

def preWords : List (Text × Text) :=
  [("alpha", "a"), ("a", "a"), ("beta", "b"), ("b", "b"), ("preview", "rc"), ("pre", "rc"), ("c", "rc"), ("rc", "rc")]

def postWords : List (Text × Text) := [("post", "post"), ("rev", "post"), ("r", "post")]

/-- a post-release: a hyphen and a number, or a word -/
def postMark (letters : Letters) (t : Text) : Option ((Text × Text) × Text) :=
  let (ds, rest) := digits (t.drop 1)
  if t.head? = some '-' && !ds.isEmpty then some (("post", ds), rest) else mark letters postWords t

/-- the epoch, a number before an exclamation mark -/
def epochMark (t : Text) : Option (Text × Text) :=
  let (ds, rest) := digits t
  match rest with
  | '!' :: r => if ds.isEmpty then none else some (ds, r)
  | _ => none

def segments (letters : Letters) (t : Text) : Option (List Text) :=
  let parts := Text.cutAt isSeparator t
  if parts.all fun p => !p.isEmpty && p.all fun c => (letters.taken c).isAlphanum then some parts else none

/-- the parts of a version without blanks around it -/
def findBare (letters : Letters) (t : Text) : Option Written :=
  let t := if t.head?.map letters.taken = some 'v' then t.drop 1 else t
  let (epoch, t) := optional epochMark t
  if !t.head?.any Char.isDigit then none
  else
    let (release, t) := numerals t
    let (pre, t) := optional (mark letters preWords) t
    let (post, t) := optional (postMark letters) t
    let (dev, t) := optional (mark letters [("dev", "dev")]) t
    match t with
    | [] => some ⟨epoch.getD [], release, pre, post, dev, none⟩
    | '+' :: r => (segments letters r).map fun build => ⟨epoch.getD [], release, pre, post, dev, some build⟩
    | _ => none

/-- the parts of a version, in any case and with blanks around it -/
def find (letters : Letters) (t : Text) : Option Written := findBare letters t.trim

/-! ## Reading the parts -/

/-- the number of a numeral, zero if it is not there -/
def numeral (digits : Text) : Except NumberFault Nat := if digits.isEmpty then pure 0 else Text.number digits

def readMark : Option (Text × Text) → Except NumberFault (Option (Text × Nat))
  | none => pure none
  | some (letters, digits) => do pure (some (letters, ← numeral digits))

def readSegment (t : Text) : Except NumberFault Segment :=
  if t.all Char.isDigit then .number <$> Text.number t else pure (.word t.lower)

def readBuild : Option (List Text) → Except NumberFault (Option (List Segment))
  | none => pure none
  | some parts => some <$> parts.mapM readSegment

def Written.read (w : Written) : Except NumberFault Version := do
  let epoch ← numeral w.epoch
  let release ← w.release.mapM Text.number
  let pre ← readMark w.pre
  let post ← readMark w.post
  let dev ← readMark w.dev
  let build ← readBuild w.build
  pure ⟨epoch, release, pre, post, dev, build⟩

/-! ## Names in order -/

/-- the version of a name, after any number of `v`, if it is one -/
def ofName (letters : Letters) (name : Text) : Except NumberFault (Option Version) :=
  match find letters (name.dropWhile (· = 'v')) with
  | none => pure none
  | some w => some <$> w.read

/-- order of version names: by version, then by code point -/
def nameOrder (a b : Version × Text) : Ordering := (compare a.1.rank b.1.rank).then (a.2.order b.2)

/-- version names in order of version, then the other names in order of code point -/
def sortNames (letters : Letters) (names : List Text) : Except NumberFault (List Text) := do
  let read ← names.mapM fun n => do pure (← ofName letters n, n)
  let versions := read.filterMap fun r => r.1.map fun v => (v, r.2)
  let others := (read.filter fun r => r.1.isNone).map Prod.snd
  pure ((versions.mergeSort fun a b => (nameOrder a b).isLE).map Prod.snd ++
    others.mergeSort fun a b => (a.order b).isLE)

end Version

end RepoLens
