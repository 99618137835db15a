import RepoLens.Listing
import RepoLens.Command
import RepoLens.Console.Markup
/-!
Everything that can end an operation, by cause. Faults of git itself (a command that failed, a listing that cannot be
read, a fetch that failed, an executable that is not there) are one type; the command line reports these and lets the
others escape.
-/
namespace RepoLens

/-- why a git operation failed -/
inductive GitFault where
  | listing (cause : ListingFault)
  /-- the files of a commit cannot be read -/
  | commitListing (commitId : Text) (cause : ListingFault)
  /-- the tags cannot be read -/
  | tagListing (cause : ListingFault)
  /-- a command wrote to its error output; with the commands that went well before it -/
  | command (result : Record) (history : List Record)
  /-- a fetch before a merge wrote to its error output -/
  | fetch (branch stderr : Text)
  | noExecutable (binary : Text)
  deriving DecidableEq, Repr

def GitFault.message : GitFault → Text
  | listing cause => cause.message
  | commitListing id cause => "Failed to get files in commit " ++ (id ++ (": " ++ cause.message))
  | tagListing cause => "Get tag list failed: " ++ cause.message
  | command result history => result.diagnostic history
  | fetch branch stderr =>
    "Failed to fetch remote branch before merging '" ++ (branch ++ ("': " ++ stderr))
  | noExecutable binary => "Git executable not found: " ++ binary

/-- why an operation ended -/
inductive Fault where
  | git (cause : GitFault)
  /-- the executable may not be started -/
  | denied (binary : Text)
  | record (cause : RecordFault)
  | mismatch (cause : Mismatch)
  | markup (cause : Console.MarkupFault)
  /-- the settings are no document -/
  | document
  /-- a date or a time in the settings that does not exist -/
  | calendar (cause : CalendarFault)
  | number (cause : NumberFault)
  /-- a value is nested too deep for the stack of the runtime -/
  | tooDeep
  /-- a home directory that nobody knows -/
  | noHome
  /-- the program ends with a status, having said why -/
  | exit (status : Nat)
  deriving Repr

def Fault.message : Fault → Text
  | git cause => cause.message
  | denied binary => "[Errno 13] Permission denied: " ++ binary.quoted
  | record cause => cause.message
  | mismatch cause => cause.message
  | markup cause => cause.message
  | document => []
  | calendar cause => cause.message
  | number cause => cause.message
  | tooDeep => "maximum recursion depth exceeded"
  | noHome => "Could not determine home directory."
  | exit status => Text.ofNat status

end RepoLens
