import RepoLens.Text
/-!
Paths by their text alone: an optional root and the names below it. Empty names and single dots vanish when a path is
read; double dots stay until the path is resolved, and then each takes the name before it away. There are no links, so
a resolved path names one place.
-/
namespace RepoLens

/-- where a path starts -/
inductive Root where
  | here
  | top
  /-- exactly two slashes, which are kept apart from one -/
  | doubled
  deriving DecidableEq, Repr

structure Path where
  root : Root
  names : List Text
  deriving DecidableEq, Repr

namespace Path

/-- the root that so many slashes at the start stand for -/
def rootOf : Nat → Root
  | 0 => .here
  | 2 => .doubled
  | _ => .top

def namesOf (t : Text) : List Text := (Text.cutAt (· = '/') t).filter fun n => n ≠ [] && n ≠ ['.']

def ofText (t : Text) : Path := ⟨rootOf (t.takeWhile (· = '/')).length, namesOf t⟩

def rootText : Root → Text
  | .here => ""
  | .top => "/"
  | .doubled => "//"

/-- text of a path; a path without root and names is the current directory -/
def toText (p : Path) : Text :=
  if p.root = .here && p.names.isEmpty then "." else rootText p.root ++ Text.joinWith ['/'] p.names

/-- the second path seen from the first -/
def join (p q : Path) : Path := if q.root = .here then ⟨p.root, p.names ++ q.names⟩ else q

def child (p : Path) (name : Text) : Path := ⟨p.root, p.names ++ [name]⟩

/-- one name further: two dots go back, from the top they stay there -/
def walk (names : List Text) (name : Text) : List Text := if name = ['.', '.'] then names.dropLast else names ++ [name]

/-- the place that a path names when it is followed from a directory -/
def resolve (cwd p : Path) : Path := ⟨.top, (cwd.join p).names.foldl walk []⟩

/-- a leading tilde as the home directory; nothing if it names the home of somebody else -/
def expandHome (p home : Path) : Option Path :=
  match p.root, p.names with
  | .here, ['~'] :: rest => some ⟨home.root, home.names ++ rest⟩
  | .here, ('~' :: _) :: _ => none
  | _, _ => some p

/-- whether a place is the other or above it -/
def isAbove (p q : Path) : Bool := p.root = q.root && p.names.isPrefixOf q.names

end Path

end RepoLens
