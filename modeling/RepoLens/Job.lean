import RepoLens.Fault
import RepoLens.Console
import RepoLens.Version
/-!
What the program touches: a place in a file system that does not change, and a desk with the settings file, the screen,
and the commands that went to git. A job works on the desk and ends with a value or a fault; what it did before a
fault stays done.
-/
namespace RepoLens

/-- what the installed runtime and its libraries decide -/
structure Runtime where
  /-- texts of settings that the stack is deep enough to read -/
  reads : Text → Bool
  /-- settings that the stack is deep enough to write -/
  writes : Value → Bool
  letters : Version.Letters

/-- a runtime whose stack is always deep enough -/
def Runtime.ample : Runtime := ⟨fun _ => true, fun _ => true, .ascii⟩

/-- where the program runs -/
structure Place where
  home : Text
  cwd : Text
  /-- paths that exist; so does everything above them -/
  paths : List Text
  screen : Console.Screen
  runtime : Runtime

/-- a place with a plain screen and an ample runtime -/
def Place.plain (home cwd : Text) (paths : List Text) (width : Nat) : Place :=
  ⟨home, cwd, paths, .plain width, .ample⟩

/-- what a run of the program changes -/
structure Desk where
  /-- text of the settings file, if there is one -/
  settings : Option Text
  /-- whether the directory of the settings file has been made -/
  folder : Bool
  /-- what has been printed -/
  output : Text
  /-- the commands that git received -/
  sent : List (List Text)
  deriving DecidableEq, Repr

def Desk.fresh (settings : Option Text) : Desk := ⟨settings, settings.isSome, [], []⟩

/-- a part of a run -/
abbrev Job (α : Type) := ExceptT Fault (StateM Desk) α

namespace Job

def put (t : Text) : Job Unit := modify fun d => { d with output := d.output ++ t }

/-- end with a fault, or go on with a value -/
def ofExcept {ε α : Type} (cause : ε → Fault) (e : Except ε α) : Job α :=
  match e with
  | .ok a => pure a
  | .error e => throw (cause e)

def say (p : Place) (markup : Text) : Job Unit := do put (← ofExcept .markup (Console.print p.screen markup))

/-- the outcome of a job, and the desk after it -/
def runOn {α : Type} (job : Job α) (d : Desk) : Except Fault α × Desk := (ExceptT.run job).run d

end Job

namespace Place

def homePath (p : Place) : Path := Path.ofText p.home

/-- the directory of the settings file -/
def folder (p : Place) : Path := p.homePath.child ".gitrepo"

/-- the settings file -/
def file (p : Place) : Path := p.folder.child "config.yml"

/-- the place that a text names, seen from the working directory, with a leading tilde as the home directory -/
def locate (p : Place) (t : Text) : Option Path :=
  ((Path.ofText t).expandHome p.homePath).map (Path.resolve (Path.ofText p.cwd))

def has (p : Place) (d : Desk) (path : Path) : Bool :=
  let fixed := (p.home :: p.cwd :: p.paths).map fun t => Path.resolve (Path.ofText p.cwd) (Path.ofText t)
  let made := (if d.folder then [p.folder] else []) ++ if d.settings.isSome then [p.file] else []
  (fixed ++ made).any path.isAbove

end Place

end RepoLens
