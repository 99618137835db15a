import RepoLens.Change
import RepoLens.Text.Blank
import RepoLens.Text.Lines
import RepoLens.Text.Digit
/-!
Listings that git prints, read line by line: commit identifiers, the files of a commit, the files of the working tree,
branch names and tag names. Empty lines carry nothing; of the others the first one that does not have its form decides
the error.
-/
namespace RepoLens

/-- what a line should have been -/
inductive LineForm where
  | committed
  | status
  | statusRename
  | name
  deriving DecidableEq, Repr

def LineForm.expected : LineForm → Text
  | committed => "'<code>\\t<path>'"
  | status => "'<code> <path>'"
  | statusRename => "'<code> <old> -> <new>'"
  | name => "a name"

/-- why a listing cannot be read -/
inductive ListingFault where
  /-- a change code outside the vocabulary -/
  | unknownCode (code : Text)
  /-- a line without the form it should have -/
  | malformed (form : LineForm) (line : Text)
  deriving DecidableEq, Repr

def ListingFault.message : ListingFault → Text
  | unknownCode code => "Unknown change type " ++ code
  | malformed form line => "Expected " ++ (form.expected ++ (", got " ++ line.quoted))

namespace Listing

/-! ## Change codes -/

/-- the codes that stand for a change as they are -/
def codeTable : List (Text × Action) :=
  [("A", .add), ("D", .delete), ("R", .rename), ("RM", .rename), ("M", .modify), ("C", .copy), ("AM", .copy),
   ("??", .add)]

/-- whether a text is digits only, at least one, with at most one newline after them -/
def isScore (t : Text) : Bool :=
  let digits := Text.chopNewline t
  !digits.isEmpty && digits.all Text.isDigit

/-- a rename or copy code without its similarity score -/
def dropScore : Text → Text
  | 'R' :: score => if isScore score then ['R'] else 'R' :: score
  | 'C' :: score => if isScore score then ['C'] else 'C' :: score
  | code => code

def changeOfCode (code : Text) : Except ListingFault Action :=
  match codeTable.lookup (dropScore code) with
  | some a => pure a
  | none => throw (.unknownCode code)

/-! ## Lines -/

/-- commit identifiers, oldest first, from a listing with the newest first -/
def commitIds (t : Text) : List Text := t.nonEmptyLines.reverse

/-- one line of the files of a commit: a code and, after tabs, the paths; the last path counts -/
def committedFile (commitId : Text) (line : Text) : Except ListingFault File :=
  match line.tabFields with
  | code :: path :: more => do
    let action ← changeOfCode code.trim
    pure ⟨.text (((path :: more).getLastD path).trim), action, .text commitId⟩
  | _ => throw (.malformed .committed line)

def committedFiles (t commitId : Text) : Except ListingFault (List File) :=
  t.nonEmptyLines.mapM (committedFile commitId)

/-- the fields of a line of the working tree listing -/
def statusFields (line : Text) : List Text := line.collapseFirst.trim.fields

/-- one line of the working tree listing; a rename reports the new path -/
def statusFile (line : Text) : Except ListingFault File :=
  match statusFields line with
  | code :: path :: more => do
    let action ← changeOfCode code
    if action = .rename then
      match more with
      | _ :: new :: _ => pure ⟨.text new, action, .null⟩
      | _ => throw (.malformed .statusRename line)
    else pure ⟨.text path, action, .null⟩
  | _ => throw (.malformed .status line)

/-- the files of the working tree that are not committed -/
def statusFiles (t : Text) : Except ListingFault (List File) := t.nonEmptyLines.mapM statusFile

/-- one name, after a fixed number of characters; something must be left -/
def nameOfLine (width : Int) (line : Text) : Except ListingFault Text :=
  let name := line.dropFrom width
  if name.allBlank then throw (.malformed .name line) else pure name

/-- one name a line -/
def names (width : Int) (t : Text) : Except ListingFault (List Text) := t.nonEmptyLines.mapM (nameOfLine width)

def markerWidth : Int := 2

/-- branch names, without the marker of the branch that is checked out -/
def branches (t : Text) : Except ListingFault (List Text) := names markerWidth t

def tags (t : Text) : Except ListingFault (List Text) := names 0 t

end Listing

end RepoLens
