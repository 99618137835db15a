import RepoLens.Repository
/-!
A session: one handle, and call after call on it. The history holds the records of the commands that went well, oldest
first, over all calls so far; a call that fails midway keeps the records of the commands before the fault.
-/
namespace RepoLens

/-- a call on a repository -/
inductive Op where
  | init
  | setUser (email name : Text)
  | switchBranch (branch : Text)
  | removeBranch (branch : Text)
  | branches
  | currentBranch
  | tagHead (name : Text)
  | tags
  | head
  | commitIds (branch : Text)
  | commits (branch : Text)
  | filesIn (commitId : Text)
  | uncommitted
  | contents (commitId path : Text)
  | add (path : Value)
  /-- the files are records, read when the call is made -/
  | commit (files : List Value) (message : Text)
  | reset (ref : Text) (hard : Bool)
  | pushAll
  | pull
  | merge (branch : Text) (remote : Bool)
  | mergeTheirs (branch : Text)
  | isMerged (branch : Text)
  /-- any command -/
  | run (args : Words) (allowFailure : Bool)
  deriving Repr

inductive Answer where
  | nothing
  | text (t : Text)
  | flag (b : Bool)
  | texts (ts : List Text)
  | files (fs : List File)
  | commit (c : Commit)
  | commits (cs : List Commit)
  | record (r : Record)
  | records (rs : List Record)
  deriving Repr

def Op.script (h : Handle) : Op → Script Answer
  | init => (fun _ => .nothing) <$> Repository.init h
  | setUser email name => (fun _ => .nothing) <$> Repository.setUser email name
  | switchBranch branch => (fun _ => .nothing) <$> Repository.switchBranch branch
  | removeBranch branch => (fun _ => .nothing) <$> Repository.removeBranch branch
  | branches => .texts <$> Repository.branches
  | currentBranch => .text <$> Repository.currentBranch
  | tagHead name => (fun _ => .nothing) <$> Repository.tagHead name
  | tags => .texts <$> Repository.tags
  | head => .text <$> Repository.head
  | commitIds branch => .texts <$> Repository.commitIds branch
  | commits branch => .commits <$> Repository.commits branch
  | filesIn commitId => .files <$> Repository.filesIn commitId
  | uncommitted => .files <$> Repository.uncommitted
  | contents commitId path => .text <$> Repository.contents commitId path
  | add path => (fun _ => .nothing) <$> Repository.add path
  | commit files message => do
    let files ← Script.ofExcept .record (files.mapM File.ofValue)
    .commit <$> Repository.commit files message
  | reset ref hard => (fun _ => .nothing) <$> Repository.reset ref hard
  | pushAll => (fun _ => .nothing) <$> Repository.pushAll h
  | pull => (fun _ => .nothing) <$> Repository.pull
  | merge branch remote => .flag <$> Repository.merge h branch remote
  | mergeTheirs branch => .flag <$> Repository.mergeTheirs h branch
  | isMerged branch => .flag <$> Repository.isMerged h branch
  | run args allow => .git args allow fun r => .done (.record r)

/-- one step of a session -/
inductive Call where
  | op (o : Op)
  /-- the records so far -/
  | history
  /-- the words of a command, not sent -/
  | command (args : Words)
  deriving Repr

/-- a handle in use -/
structure Session where
  handle : Handle
  screen : Console.Screen
  history : List Record

namespace Session

def trace (s : Session) (replies : List Reply) : Call → Trace Answer
  | .op o => (o.script s.handle).run s.handle s.screen s.history replies
  | .history => .ended (.ok (.records s.history))
  | .command args => .ended (.ok (.texts (s.handle.command args)))

def extend (s : Session) (t : Trace Answer) : Session := { s with history := s.history ++ t.added }

def step (s : Session) (c : Call × List Reply) : Session := s.extend (s.trace c.2 c.1)

def run (s : Session) (calls : List (Call × List Reply)) : Session := calls.foldl step s

end Session

end RepoLens
