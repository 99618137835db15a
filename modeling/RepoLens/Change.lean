import RepoLens.Value.Shown
import RepoLens.Mismatch
/-!
Changed files and commits: the five ways a file changes, a file with its change and the commit that owns it, a commit
with its files in diff order, and the record form of both. A record is read field by field in a fixed order and the
first fault wins. Names and identifiers are kept as they come, whatever their kind, so a record that is read and
written again is only reduced to its known fields.
-/
namespace RepoLens

/-- how a file was changed -/
inductive Action where
  | add
  | delete
  | rename
  | modify
  | copy
  deriving DecidableEq, Repr, Inhabited

namespace Action

def name : Action → Text
  | add => "ADD"
  | delete => "DELETE"
  | rename => "RENAME"
  | modify => "MODIFY"
  | copy => "COPY"

def all : List Action := [add, delete, rename, modify, copy]

def ofName? (t : Text) : Option Action := all.find? fun a => a.name = t

def colour : Action → Text
  | add => "green"
  | delete => "red"
  | rename => "cyan"
  | modify => "yellow"
  | copy => "blue"

/-- the label of a change: its name, coloured -/
def label (a : Action) : Text :=
  '[' :: (a.colour ++ (']' :: (a.name ++ ("[/" ++ (a.colour ++ [']'])))))

end Action

/-- a changed file; the commit identifier is null while no commit owns the change -/
structure File where
  filename : Value
  action : Action
  commitId : Value
  deriving Repr, Inhabited

/-- a commit and the files it changed, in diff order -/
structure Commit where
  id : Value
  files : List File
  deriving Repr, Inhabited

/-- why a record is no file or no commit -/
inductive RecordFault where
  /-- a field is not there -/
  | missing (field : Text)
  /-- the change is none of the five -/
  | notAnAction (value : Value)
  /-- a value of a wrong kind -/
  | mismatch (cause : Mismatch)
  deriving Repr

namespace RecordFault

def message : RecordFault → Text
  | missing field => field.quoted
  | notAnAction v => v.inside ++ " is not a valid Action"
  | mismatch m => m.message

end RecordFault

/-! ## Fields -/

namespace Value

def field (key : Text) : Value → Except RecordFault Value
  | map _ entries =>
    match lookup key entries with
    | some v => pure v
    | none => throw (.missing key)
  | text _ => throw (.mismatch .textEntry)
  | list .. => throw (.mismatch .listEntry)
  | v => throw (.mismatch (.noEntries v.kind))

/-- the items of a value: those of a list, the keys of a mapping, the characters of a text -/
def items : Value → Except Mismatch (List Value)
  | list _ vs => pure vs
  | map _ entries => pure (entries.map Prod.fst)
  | text t => pure (t.map fun c => text [c])
  | v => throw (.noItems v.kind)

end Value

namespace Action

def ofValue : Value → Except RecordFault Action
  | .text t =>
    match ofName? t with
    | some a => pure a
    | none => throw (.notAnAction (.text t))
  | v => throw (.notAnAction v)

/-- the label of whatever stands for a change: anything but the name of one is left as it is -/
def labelOf : Value → Except Mismatch Value
  | .text t =>
    match ofName? t with
    | some a => pure (.text a.label)
    | none => pure (.text t)
  | v@(.list ..) => throw (.unhashable v.kind)
  | v@(.map ..) => throw (.unhashable v.kind)
  | v => pure v

end Action

/-! ## Identifiers -/

/-- the first eight characters of an identifier -/
def shortText (id : Text) : Text := id.take 8

/-- the first eight characters of whatever stands for an identifier; nothing at all is shown as empty -/
def shortId (v : Value) : Except Mismatch Value :=
  if v.isNothing then pure (.text "")
  else
    match v with
    | .text t => pure (.text (shortText t))
    | .list m vs => pure (.list m (vs.take 8))
    | .map m es => if es.length < 8 then pure (.map m es) else throw .mappingSlice
    | v => throw (.noLength v.kind)

/-! ## Records -/

namespace File

/-- the file of a record: name, then change, then owner -/
def ofValue (v : Value) : Except RecordFault File := do
  let filename ← v.field "filename"
  let action ← (← v.field "action") |> Action.ofValue
  pure ⟨filename, action, (v.get? "commit_id").getD .null⟩

def toValue (f : File) : Value :=
  .map none [(.text "filename", f.filename), (.text "action", .text f.action.name), (.text "commit_id", f.commitId)]

def withCommitId (f : File) (id : Value) : File := { f with commitId := id }

def same (f g : File) : Bool := f.filename.same g.filename && f.action = g.action && f.commitId.same g.commitId

end File

namespace Commit

/-- the commit of a record: identifier first, then its files in order -/
def ofValue (v : Value) : Except RecordFault Commit := do
  let id ← v.field "id"
  let records ← ((v.get? "files").getD (.list none [])).items.mapError .mismatch
  let files ← records.mapM File.ofValue
  pure ⟨id, files⟩

def toValue (c : Commit) : Value :=
  .map none [(.text "id", c.id), (.text "files", .list none (c.files.map File.toValue))]

def shortId (c : Commit) : Except Mismatch Value := RepoLens.shortId c.id

/-- abbreviated identifier and number of files -/
def summary (c : Commit) : Except Mismatch Text := do
  let id ← c.shortId
  pure (id.shown ++ (" (" ++ (Text.ofNat c.files.length ++ " files)")))

end Commit

end RepoLens
