import RepoLens.Script
/-!
What can be done with a repository: set it up, look at branches, tags, commits and files, record changes, and merge.
Each operation is a script of git commands. A merge goes through the mainline branch and reports whether it came to an
end; everything else fails with the first command that fails.
-/
namespace RepoLens.Repository

open Script

/-- send a command that must not fail -/
def ask (words : List Text) : Script Record := .git (.list words) false .done

/-- send a command that may fail -/
def attempt (words : List Text) : Script Record := .git (.list words) true .done

/-- send commands that must not fail, for what they do -/
def tell (words : List Text) : Script Unit := do
  let _ ← ask words

/-! ## Setting up -/

/-- create the repository with the mainline branch checked out -/
def init (h : Handle) : Script Unit := tell ["init", "--quiet", "--initial-branch=" ++ h.mainline]

/-- set who commits, for this repository only -/
def setUser (email name : Text) : Script Unit := do
  tell ["config", "user.email", email]
  tell ["config", "user.name", name]

/-! ## Branches and tags -/

/-- create or reset a branch and check it out -/
def switchBranch (branch : Text) : Script Unit := tell ["checkout", "--quiet", "-B", branch]

/-- delete a branch, merged or not -/
def removeBranch (branch : Text) : Script Unit := tell ["branch", "--quiet", "-D", branch]

def branches : Script (List Text) := do
  let r ← ask ["branch"]
  ofExcept (.git ∘ .listing) (Listing.branches r.stdout)

def currentBranch : Script Text := do
  let r ← ask ["rev-parse", "--abbrev-ref", "HEAD"]
  pure r.stdout.trim

def tagHead (name : Text) : Script Unit := tell ["tag", name]

def tags : Script (List Text) := do
  let r ← ask ["tag"]
  ofExcept (.git ∘ .tagListing) (Listing.tags r.stdout)

/-! ## Commits and files -/

def head : Script Text := do
  let r ← ask ["rev-parse", "HEAD"]
  pure (r.stdout.filter (· ≠ '\n'))

/-- identifiers of the commits of a branch, oldest first -/
def commitIds (branch : Text) : Script (List Text) := do
  let r ← ask ["log", "--pretty=%H", branch]
  pure (Listing.commitIds r.stdout)

def filesIn (commitId : Text) : Script (List File) := do
  let r ← ask ["diff-tree", "--no-commit-id", "--name-status", "-r", commitId]
  ofExcept (.git ∘ .commitListing commitId) (Listing.committedFiles r.stdout commitId)

def commitWithFiles (id : Text) : Script Commit := do
  let files ← filesIn id
  pure ⟨.text id, files⟩

/-- commits of a branch, oldest first; the oldest is where the branch was cut, so its files are left out -/
def commits (branch : Text) : Script (List Commit) := do
  match ← commitIds branch with
  | [] => pure []
  | base :: later => do
    let rest ← each commitWithFiles later
    pure (⟨.text base, []⟩ :: rest)

/-- files of the working tree that are not committed -/
def uncommitted : Script (List File) := do
  let r ← ask ["status", "--short"]
  ofExcept (.git ∘ .listing) (Listing.statusFiles r.stdout)

def contents (commitId path : Text) : Script Text := do
  let r ← ask ["show", commitId ++ (':' :: path)]
  pure r.stdout.chopNewline

/-! ## Changes -/

/-- stage a path; one that is no text cannot be a word of a command -/
def add : Value → Script Unit
  | .text path => tell ["add", path]
  | v => fail (.mismatch (.word 4 v.kind))

/-- stage files, commit them, and own them by the new commit -/
def commit (files : List File) (message : Text) : Script Commit := do
  let _ ← each (fun f => add f.filename) files
  tell ["commit", "-m", message]
  let id ← head
  pure ⟨.text id, files.map fun f => f.withCommitId (.text id)⟩

/-- move the current branch -/
def reset (ref : Text) (hard : Bool) : Script Unit := tell (if hard then ["reset", "--hard", ref] else ["reset", ref])

/-! ## Remotes -/

def pushAll (h : Handle) : Script Unit := tell ["push", "--quiet", "--all", h.remote]

def pull : Script Unit := tell ["pull", "--quiet"]

/-! ## Merging -/

/-- check out the mainline branch, unless it is -/
def toMainline (h : Handle) : Script Unit := do
  let current ← currentBranch
  if current = h.mainline then pure ()
  else
    .say ("[yellow]You are not on the " ++ (h.mainline ++ " branch[/yellow]"))
      (.say ("[yellow]Switching to the " ++ (h.mainline ++ " branch...[/yellow]"))
        (tell ["checkout", "--quiet", h.mainline]))

/-- whether a merge came to an end; says so if it did not -/
def judge (r : Record) : Script Bool :=
  if r.failed || r.returncode ≠ 0 then
    .say ("[red]Merge did not complete cleanly: " ++ (r.command ++ "[/red]")) (pure false)
  else pure true

/-- merge a branch into the mainline branch, from the remote if so asked -/
def merge (h : Handle) (branch : Text) (remote : Bool) : Script Bool := do
  toMainline h
  if remote then
    let fetched ← attempt ["fetch", "--quiet", h.remote, branch]
    if fetched.failed then fail (.git (.fetch branch fetched.stderr))
    else
      let source := h.remote ++ ('/' :: branch)
      let merged ← attempt ["merge", source, "-m", "Merge remote-tracking branch '" ++ (source ++ "'")]
      judge merged
  else
    let merged ← attempt ["merge", branch]
    judge merged

/-- merge a branch into the mainline branch, its side winning every conflict -/
def mergeTheirs (h : Handle) (branch : Text) : Script Bool := do
  toMainline h
  let merged ← attempt ["merge", branch, "-s", "recursive", "-Xtheirs"]
  judge merged

def isMerged (h : Handle) (branch : Text) : Script Bool := do
  let r ← ask ["branch", "--merged", h.mainline]
  let names ← ofExcept (.git ∘ .listing) (Listing.branches r.stdout)
  pure (names.contains branch)

end RepoLens.Repository
