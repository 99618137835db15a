import RepoLens.Path
import RepoLens.Text.Blank
import RepoLens.Text.Lines
import RepoLens.Text.Utf8
/-!
Git commands and what came of them. A handle fixes the repository; every command starts with the same three words, the
binary and the two places of the repository. What git prints is kept with one newline at the end of each line, and a
command has failed when it wrote anything to its error output, whatever its exit code says.
-/
namespace RepoLens

/-- one repository, and how it is worked on -/
structure Handle where
  path : Path
  mainline : Text
  remote : Text
  binary : Text
  /-- whether every command is shown before it runs -/
  verbose : Bool
  deriving DecidableEq, Repr

/-- the words of a command: given one by one, or as a line that blanks part -/
inductive Words where
  | line (t : Text)
  | list (ws : List Text)
  deriving DecidableEq, Repr

def Words.toList : Words → List Text
  | line t => t.fields
  | list ws => ws

namespace Handle

/-- the words that every command starts with -/
def base (h : Handle) : List Text :=
  [h.binary, "--git-dir=" ++ (h.path.child ".git").toText, "--work-tree=" ++ h.path.toText]

def command (h : Handle) (args : Words) : List Text := h.base ++ args.toList

end Handle

/-- what came of a command -/
structure Record where
  command : Text
  stdout : Text
  stderr : Text
  returncode : Int
  deriving DecidableEq, Repr

namespace Record

/-- whether git wrote anything to its error output -/
def failed (r : Record) : Bool := !r.stderr.isEmpty

/-- captured bytes as text -/
def captured (bytes : List UInt8) : Text := (Text.Utf8.decode bytes).unifyNewlines.closeLines

/-- an earlier command in a diagnostic -/
def block (r : Record) : Text :=
  '\n' :: (r.command ++ ("\nstdout: " ++ (r.stdout ++ ("\nstderr: " ++ r.stderr))))

/-- earlier commands in a diagnostic, newest first, under a heading; nothing if there are none -/
def earlier : List Record → Text
  | [] => []
  | history => "Previous git commands (most recent is on top):\n" ++ history.reverse.flatMap block

/-- the diagnostic of a failed command: the command and its error output, then the earlier commands -/
def diagnostic (r : Record) (history : List Record) : Text :=
  '\n' :: (r.command ++ ('\n' :: (r.stderr ++ earlier history)))

end Record

/-- what git does with one command -/
inductive Reply where
  | output (out err : List UInt8) (code : Int)
  /-- there is no such executable -/
  | missing
  /-- the executable may not be started -/
  | denied
  deriving DecidableEq, Repr

def Reply.silent : Reply := .output [] [] 0

end RepoLens
