import RepoLens.Job
import RepoLens.Yaml.Load
import RepoLens.Yaml.Dump
import RepoLens.Value.Json
/-!
Settings: a document in the home directory with a section of defaults (the repository, its mainline branch, its remote,
the git binary) and a section of preferences. A setting that is not there, or that counts as nothing, has a fixed
default. The two commands that set something load the document, change one entry, and save it; everything else only
reads.
-/
namespace RepoLens.Settings

/-! ## The document -/

def defaultSection : Text := "default"

def preferenceSection : Text := "preferences"

def mainlineDefault : Text := "master"

def remoteDefault : Text := "origin"

def binaryDefault : Text := "git"

/-- settings where there is no file -/
def initial : Value :=
  .map none
    [(.text defaultSection,
      .map none
        [(.text "repo_path", .null), (.text "mainline_branch", .text mainlineDefault),
         (.text "remote", .text remoteDefault), (.text "git_binary", .text binaryDefault)]),
     (.text preferenceSection, .map none [(.text "default_format", .text "table")])]

/-- the directory of the settings file, which is made -/
def folder (p : Place) : Job Text := do
  modify fun d => { d with folder := true }
  pure p.folder.toText

/-- the settings file, whose directory is made -/
def file (p : Place) : Job Text := do
  let _ ← folder p
  pure p.file.toText

def readFault : Yaml.ReadFault → Fault
  | .malformed => .document
  | .calendar cause => .calendar cause
  | .number cause => .number cause

/-- the settings; a document that counts as nothing is empty -/
def load (p : Place) : Job Value := do
  let _ ← folder p
  match (← get).settings with
  | none => pure initial
  | some t =>
    if p.runtime.reads t then do
      let v ← Job.ofExcept readFault (Yaml.load t.unifyNewlines)
      pure (if v.isNothing then .map none [] else v)
    else throw .tooDeep

/-- replace the settings file; it is emptied first, and stays empty if the document cannot be written -/
def save (p : Place) (v : Value) : Job Unit := do
  let _ ← folder p
  modify fun d => { d with settings := some [] }
  if p.runtime.writes v then
    let t ← Job.ofExcept .number (Yaml.write v)
    modify fun d => { d with settings := some t }
  else throw .tooDeep

/-! ## Reading -/

/-- a section of the settings; one that is not there is empty -/
def part (name : Text) : Value → Except Mismatch Value
  | .map _ entries => pure ((Value.lookup name entries).getD (.map none []))
  | v => throw (.noMethod v.kind "get")

/-- an entry of a section, null if it is not there or the section is no mapping -/
def entry (p : Place) (name key : Text) : Job Value := do
  let v ← load p
  let v ← Job.ofExcept .mismatch (part name v)
  pure ((v.get? key).getD .null)

/-- a value, or a text if it counts as nothing -/
def orElse (v : Value) (t : Text) : Value := if v.isNothing then .text t else v

def repoPath (p : Place) : Job (Option Text) := do
  match ← entry p defaultSection "repo_path" with
  | .text t => pure (some t)
  | _ => pure none

def mainline (p : Place) : Job Value := do
  pure (orElse (← entry p defaultSection "mainline_branch") mainlineDefault)

def remote (p : Place) : Job Value := do pure (orElse (← entry p defaultSection "remote") remoteDefault)

def binary (p : Place) : Job Value := do pure (orElse (← entry p defaultSection "git_binary") binaryDefault)

def format (p : Place) : Job Value := do pure (orElse (← entry p preferenceSection "default_format") "table")

/-! ## Writing -/

/-- settings with one entry of the defaults set, wherever that section stands -/
def withDefault (key : Text) (value : Value) : Value → Except Mismatch Value
  | .map mark entries =>
    match Value.lookup defaultSection entries with
    | none => pure (.map mark (Value.assign (.text defaultSection) (.map none [(.text key, value)]) entries))
    | some (.map none es) =>
      pure (.map mark (Value.assign (.text defaultSection) (.map none (Value.assign (.text key) value es)) entries))
    | some (.map (some n) es) =>
      pure (Value.replaceMarked n (.map (some n) (Value.assign (.text key) value es)) (.map mark entries))
    | some (.list ..) => throw .listEntry
    | some v => throw (.noAssignment v.kind)
  | v => throw (.noMethod v.kind "setdefault")

/-- set an entry of the defaults and save -/
def change (p : Place) (key value : Text) : Job Unit := do
  let v ← load p
  save p (← Job.ofExcept .mismatch (withDefault key (.text value) v))

/-- say that something is wrong, and end -/
def refuse {α : Type} (p : Place) (message : Text) : Job α := do
  Job.say p ("[red]Error: " ++ (message ++ "[/red]"))
  throw (.exit 1)

def confirm (p : Place) (message : Text) : Job Unit := Job.say p ("[green]✅ " ++ (message ++ "[/green]"))

def locate (p : Place) (t : Text) : Job Path :=
  match p.locate t with
  | some path => pure path
  | none => throw .noHome

/-- end unless there is a repository at a place -/
def checkRepository (p : Place) (path : Path) : Job Unit := do
  if p.has (← get) (path.child ".git") then pure ()
  else refuse p ("Not a git repository: " ++ path.toText)

/-- set the repository, which has to exist -/
def setRepo (p : Place) (t : Text) : Job Unit := do
  let path ← locate p t
  if p.has (← get) path then pure ()
  else refuse p ("Path does not exist: " ++ path.toText)
  checkRepository p path
  change p "repo_path" path.toText
  confirm p ("Repository path set to: " ++ path.toText)

def setMainline (p : Place) (branch : Text) : Job Unit := do
  change p "mainline_branch" branch
  confirm p ("Mainline branch set to: " ++ branch)

/-! ## Showing -/

/-- a text as a value, null if there is none -/
def ofOption : Option Text → Value
  | none => .null
  | some t => .text t

def showJson (p : Place) (repo : Option Text) : Job Unit := do
  let mainline ← mainline p
  let remote ← remote p
  let binary ← binary p
  let file ← file p
  let v := Value.map none
    [(.text "repo_path", ofOption repo), (.text "mainline_branch", mainline), (.text "remote", remote),
     (.text "git_binary", binary), (.text "config_file", .text file)]
  Job.say p (← Job.ofExcept .mismatch (Json.render 0 v))

def showLines (p : Place) (repo : Option Text) : Job Unit := do
  let path := repo.getD []
  let shown : Text := if path.isEmpty then "[red]Not set[/red]" else path
  Job.say p "[bold]gitrepo Configuration[/bold]"
  Job.say p ("Repository: " ++ shown)
  Job.say p ("Mainline branch: " ++ (← Job.ofExcept .number (← mainline p).told))
  Job.say p ("Remote: " ++ (← Job.ofExcept .number (← remote p).told))
  Job.say p ("Git executable: " ++ (← Job.ofExcept .number (← binary p).told))
  Job.say p ("Config file: " ++ (← file p))
  if path.isEmpty then
    Job.say p "\n[yellow]Commands default to the repository in the current directory[/yellow]"

def showAll (p : Place) (format : Text) : Job Unit := do
  let repo ← repoPath p
  if format = "json" then showJson p repo else showLines p repo

end RepoLens.Settings
