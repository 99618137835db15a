import RepoLens.Settings
import RepoLens.CommandLine
import RepoLens.Repository
import RepoLens.Display
import RepoLens.Version
/-!
The program: one command line, from the words to the screen and the exit status. Every command on a repository opens
it first (the one given, else the configured one, else the working directory), runs its script, and only then shows
what came of it, so a git failure leaves no part of a listing behind; it is reported as one error and ends the program
with status one. A command line that does not fit ends it with status two.
-/
namespace RepoLens.Cli

def versionNumber : Text := "0.1.0"

/-! ## Opening -/

/-- the text that names the repository -/
def target (p : Place) (repo : Option Text) : Job Text := do
  match repo with
  | some (c :: r) => pure (c :: r)
  | _ =>
    match ← Settings.repoPath p with
    | some (c :: r) => pure (c :: r)
    | _ => pure p.cwd

/-- a git binary, which has to be a text to start any command -/
def binaryText : Value → Except Mismatch Text
  | .text t => pure t
  | v => throw (.word 0 v.kind)

def openRepository (p : Place) (o : Options) : Job Handle := do
  let path ← Settings.locate p (← target p o.repo)
  Settings.checkRepository p path
  let mainline ← Settings.mainline p
  let remote ← Settings.remote p
  let binary ← Job.ofExcept .mismatch (binaryText (← Settings.binary p))
  pure ⟨path, mainline.shown, remote.shown, binary, o.verbose⟩

/-! ## Running -/

/-- the markup of a git failure -/
def failureMarkup (f : GitFault) : Text := "[red]Error: " ++ (Console.Markup.escape f.message ++ "[/red]")

/-- report a git failure and end -/
def report {α : Type} (p : Place) (f : GitFault) : Job α := do
  Job.say p (failureMarkup f)
  throw (.exit 1)

/-- run a script on a repository, all of git's replies at hand -/
def perform {α : Type} (p : Place) (h : Handle) (replies : List Reply) (script : Script α) : Job α := do
  let trace := script.run h p.screen [] replies
  modify fun d => { d with output := d.output ++ trace.console, sent := d.sent ++ trace.sent }
  match trace.result with
  | .ok a => pure a
  | .error (.git f) => report p f
  | .error f => throw f

/-- open the repository and run a script on it -/
def query {α : Type} (p : Place) (o : Options) (replies : List Reply) (script : Script α) : Job α := do
  let h ← openRepository p o
  perform p h replies script

/-! ## Showing -/

/-- the format of a listing: the one given, else the preferred one -/
def formatOf (p : Place) (o : Options) : Job Format := do
  match o.format with
  | some (c :: r) => pure (Format.ofText (c :: r))
  | _ => pure (Format.ofValue (← Settings.format p))

def list (p : Place) (o : Options) (listing : Format → Except Fault Text) : Job Unit := do
  let format ← formatOf p o
  Job.put (← Job.ofExcept id (listing format))

/-- the parameters of a terminal sequence and its final letter; what is left after it, if there is one -/
def afterSequence : Text → Option Text
  | [] => none
  | c :: r => if c.isAlpha then some r else if c = ';' || c = '?' || c.isDigit then afterSequence r else none

/-- a text without terminal sequences, `skip` characters of one having been seen -/
def withoutSequences (skip : Nat) : Text → Text
  | [] => []
  | c :: r =>
    if 0 < skip then withoutSequences (skip - 1) r
    else if c.toNat = 0x1B && r.head? = some '[' then
      match afterSequence (r.drop 1) with
      | some rest => withoutSequences (r.length - rest.length) r
      | none => c :: withoutSequences 0 r
    else c :: withoutSequences 0 r

/-- print a text as it is, without terminal sequences -/
def echo (t : Text) : Job Unit := Job.put (withoutSequences 0 t ++ ['\n'])

/-! ## Commands -/

/-- names of the branches, and the one that is checked out -/
def branchesAndCurrent : Script (List Text × Text) := do
  let names ← Repository.branches
  let current ← Repository.currentBranch
  pure (names, current)

def run (p : Place) (replies : List Reply) : Request → Job Unit
  | .log branch o => do
    let commits ← query p o replies (Repository.commits branch)
    list p o (Display.commits p.screen commits branch)
  | .files id o => do
    let files ← query p o replies (Repository.filesIn id)
    list p o (Display.files p.screen files (Display.bold ("Files in " ++ id)))
  | .status o => do
    let files ← query p o replies Repository.uncommitted
    list p o (Display.files p.screen files (Display.bold "Uncommitted files"))
  | .branches o => do
    let (names, current) ← query p o replies branchesAndCurrent
    list p o (Display.names p.screen names "Branches" current)
  | .tags o => do
    let names ← query p o replies Repository.tags
    let names ← if o.sortVersion then Job.ofExcept .number (Version.sortNames p.runtime.letters names) else pure names
    list p o (Display.names p.screen names "Tags" [])
  | .contents id path o => do echo (← query p o replies (Repository.contents id path))
  | .head o => do echo (← query p o replies Repository.head)
  | .currentBranch o => do echo (← query p o replies Repository.currentBranch)
  | .setRepo path => Settings.setRepo p path
  | .setMainline branch => Settings.setMainline p branch
  | .showSettings format => Settings.showAll p format
  | .version => Job.say p ("gitrepo version: " ++ Display.bold versionNumber)

/-! ## Running a command line -/

/-- the text that names the repository of a request, before it is known whether there is one -/
def named (p : Place) (d : Desk) (r : Request) : Option Text :=
  match r, r.options? with
  | .setRepo path, _ => some path
  | _, some o => ((target p o.repo).runOn d).1.toOption
  | _, none => none

/-- the places whose existence decides how a command line runs: the repository and its inner directory -/
def concerned (p : Place) (d : Desk) (words : List Text) : List Text :=
  match ((Request.ofWords words).bind (named p d)).bind p.locate with
  | some path => [path.toText, (path.child ".git").toText]
  | none => []

def runWords (p : Place) (replies : List Reply) (words : List Text) : Job Unit :=
  match Request.ofWords words with
  | some r => run p replies r
  | none => throw (.exit 2)

end RepoLens.Cli
