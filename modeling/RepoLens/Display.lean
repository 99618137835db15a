import RepoLens.Fault
import RepoLens.Console.Table
import RepoLens.Value.Json
/-!
Listings as they are shown: commits with their files, changed files, and names, each as JSON or as a table, and a line
of its own when there is nothing to list. The base of a branch is the commit without files.
-/
namespace RepoLens

/-- how a listing is shown -/
inductive Format where
  | json
  | table
  deriving DecidableEq, Repr

/-- only one word asks for JSON; every other one means a table -/
def Format.ofText (t : Text) : Format := if t = "json" then .json else .table

/-- a setting that is no text means a table -/
def Format.ofValue : Value → Format
  | .text t => ofText t
  | _ => .table

namespace Display

open Console (Screen)

/-! ## Printing -/

def say (screen : Screen) (markup : Text) : Except Fault Text := (Console.print screen markup).mapError .markup

/-- print a value as JSON; its text is markup like any other -/
def json (screen : Screen) (v : Value) : Except Fault Text := do
  let t ← (Json.render 0 v).mapError .mismatch
  say screen t

def table (screen : Screen) (t : Console.Table) : Except Fault Text := (t.print screen).mapError .markup

def cell : Value → Except Mismatch Text
  | .null => pure []
  | .text t => pure t
  | v => throw (.noCell v.kind)

def bold (t : Text) : Text := "[bold]" ++ (t ++ "[/bold]")

/-! ## Tables -/

def actionColumn : Console.Column := ⟨"Action", some 8, .ellipsis⟩

/-- the column of a file name, which is never cut -/
def fileColumn : Console.Column := ⟨"File", none, .fold⟩

def commitColumn : Console.Column := ⟨"Commit", some 10, .ellipsis⟩

def baseLabel : Text := "[dim](base commit)[/dim]"

/-- the row of a file, next to what stands for its commit -/
def changeRow (id : Text) (f : File) : Except Mismatch (List Text) := do pure [id, f.action.label, ← cell f.filename]

/-- the rows of a commit: its identifier stands in the first -/
def commitRows (c : Commit) : Except Mismatch (List (List Text)) := do
  let id ← cell (← c.shortId)
  match c.files with
  | [] => pure [[id, [], baseLabel]]
  | f :: r => do pure ((← changeRow id f) :: (← r.mapM (changeRow [])))

def commitTable (commits : List Commit) (title : Text) : Except Mismatch Console.Table := do
  let rows ← commits.mapM commitRows
  pure ⟨title, [commitColumn, actionColumn, fileColumn], rows.flatten, true, true⟩

def fileRow (f : File) : Except Mismatch (List Text) := do
  let id ← shortId f.commitId
  pure [f.action.label, ← cell f.filename, ← cell id]

def fileTable (files : List File) (title : Text) : Except Mismatch Console.Table := do
  pure ⟨title, [actionColumn, fileColumn, commitColumn], ← files.mapM fileRow, true, true⟩

/-- the row of a name; the current one has a star -/
def nameRow (current name : Text) : List Text := [if name = current then bold ("* " ++ name) else "  " ++ name]

def nameTable (names : List Text) (title current : Text) : Console.Table :=
  ⟨title, [⟨"Name", none, .ellipsis⟩], names.map (nameRow current), false, false⟩

/-! ## Listings -/

def commits (screen : Screen) (commits : List Commit) (branch : Text) : Format → Except Fault Text
  | .json => json screen (.list none (commits.map Commit.toValue))
  | .table =>
    if commits.isEmpty then say screen ("[yellow]No commits found on " ++ (branch ++ "[/yellow]"))
    else do table screen (← (commitTable commits (bold ("Commits on " ++ branch))).mapError .mismatch)

def files (screen : Screen) (files : List File) (title : Text) : Format → Except Fault Text
  | .json => json screen (.list none (files.map File.toValue))
  | .table =>
    if files.isEmpty then say screen "[dim]No changes[/dim]"
    else do table screen (← (fileTable files title).mapError .mismatch)

def names (screen : Screen) (names : List Text) (title current : Text) : Format → Except Fault Text
  | .json => json screen (.list none (names.map .text))
  | .table =>
    if names.isEmpty then say screen ("[dim]No " ++ (title.lower ++ " found[/dim]"))
    else table screen (nameTable names (bold title) current)

end Display

end RepoLens
