import RepoLens.Text
/-!
The command line: words are options or arguments. A long option takes its value after an equals sign or from the next
word; short options stand together in one word, and the first that takes a value takes what is left of it. Two dashes
end the options. A command line that does not fit is no command at all.
-/
namespace RepoLens

inductive Setting where
  | repo
  | format
  | verbose
  | sortVersion
  deriving DecidableEq, Repr

namespace Setting

def long : Setting → Text
  | repo => "--repo"
  | format => "--format"
  | verbose => "--verbose"
  | sortVersion => "--sort-version"

def letter? : Setting → Option Char
  | repo => some 'r'
  | verbose => some 'v'
  | _ => none

def takesValue : Setting → Bool
  | repo | format => true
  | verbose | sortVersion => false

end Setting

/-- an option with its value, empty for one that takes none -/
abbrev Given := Setting × Text

/-- what a word with options says: the options that are complete, and one whose value is still to come -/
structure Read where
  given : List Given
  pending : Option Setting
  deriving DecidableEq, Repr

namespace CommandLine

/-- a word of short options, after its dash -/
def shortOptions (allowed : List Setting) : Text → Option Read
  | [] => some ⟨[], none⟩
  | c :: r =>
    match allowed.find? fun s => s.letter? = some c with
    | none => none
    | some s =>
      if s.takesValue then if r.isEmpty then some ⟨[], some s⟩ else some ⟨[(s, r)], none⟩
      else (shortOptions allowed r).map fun read => ⟨(s, []) :: read.given, read.pending⟩

/-- a long option with or without a value behind an equals sign -/
def longOption (s : Setting) (value : Option Text) : Option Read :=
  match value with
  | some v => if s.takesValue then some ⟨[(s, v)], none⟩ else none
  | none => if s.takesValue then some ⟨[], some s⟩ else some ⟨[(s, [])], none⟩

/-- a word that starts with a dash: a long option by its name, else short ones -/
def readOption (allowed : List Setting) (word : Text) : Option Read :=
  let name := word.takeWhile (· ≠ '=')
  let value := if name.length < word.length then some (word.drop (name.length + 1)) else none
  match allowed.find? fun s => s.long = name with
  | some s => longOption s value
  | none => if "--".toList.isPrefixOf word then none else shortOptions allowed (word.drop 1)

def isOption (word : Text) : Bool := word.head? = some '-' && 1 < word.length

/-- options and arguments of some words; unless they may be mixed, the first argument ends the options -/
def split (allowed : List Setting) (mixed : Bool) : List Text → Option (List Given × List Text)
  | [] => some ([], [])
  | word :: rest =>
    if word = ['-', '-'] then some ([], rest)
    else if isOption word then
      match readOption allowed word with
      | none => none
      | some ⟨given, none⟩ => (split allowed mixed rest).map fun (more, args) => (given ++ more, args)
      | some ⟨given, some s⟩ =>
        match rest with
        | [] => none
        | value :: rest =>
          (split allowed mixed rest).map fun (more, args) => (given ++ ((s, value) :: more), args)
    else if mixed then (split allowed mixed rest).map fun (more, args) => (more, word :: args)
    else some ([], word :: rest)

def last? (s : Setting) (given : List Given) : Option Text := (given.reverse.lookup s)

end CommandLine

/-- the options of the commands that work on a repository -/
structure Options where
  repo : Option Text
  format : Option Text
  verbose : Bool
  sortVersion : Bool
  deriving DecidableEq, Repr

def Options.ofGiven (given : List Given) : Options :=
  ⟨CommandLine.last? .repo given, CommandLine.last? .format given, (CommandLine.last? .verbose given).isSome,
    (CommandLine.last? .sortVersion given).isSome⟩

/-- what the program is asked for -/
inductive Request where
  | log (branch : Text) (options : Options)
  | files (commitId : Text) (options : Options)
  | status (options : Options)
  | branches (options : Options)
  | tags (options : Options)
  | contents (commitId path : Text) (options : Options)
  | head (options : Options)
  | currentBranch (options : Options)
  | setRepo (path : Text)
  | setMainline (branch : Text)
  | showSettings (format : Text)
  | version
  deriving DecidableEq, Repr

namespace Request

/-- the options of a request that works on a repository -/
def options? : Request → Option Options
  | log _ o | files _ o | status o | branches o | tags o | contents _ _ o | head o | currentBranch o => some o
  | setRepo _ | setMainline _ | showSettings _ | version => none

/-- options of a listing -/
def listing : List Setting := [.repo, .format, .verbose]

/-- options of a single answer -/
def single : List Setting := [.repo, .verbose]

/-- a request from its options and arguments -/
def read (allowed : List Setting) (words : List Text) (make : Options → List Text → Option Request) : Option Request :=
  match CommandLine.split allowed true words with
  | none => none
  | some (given, args) => make (Options.ofGiven given) args

/-- a request about the settings -/
def ofSettingsWords (words : List Text) : Option Request :=
  match CommandLine.split [] false words with
  | some ([], name :: rest) =>
    if name = "set-repo" then
      read [] rest fun _ args => match args with | [path] => some (setRepo path) | _ => none
    else if name = "set-mainline" then
      read [] rest fun _ args => match args with | [branch] => some (setMainline branch) | _ => none
    else if name = "show" then
      read [.format] rest fun o args => match args with | [] => some (showSettings (o.format.getD "table")) | _ => none
    else none
  | _ => none

/-- the request that the words of a command line make, if they fit -/
def ofWords (words : List Text) : Option Request :=
  match CommandLine.split [] false words with
  | some ([], name :: rest) =>
    if name = "log" then
      read listing rest fun o args => match args with | [branch] => some (log branch o) | _ => none
    else if name = "files" then
      read listing rest fun o args => match args with | [id] => some (files id o) | _ => none
    else if name = "status" then
      read listing rest fun o args => match args with | [] => some (status o) | _ => none
    else if name = "branches" then
      read listing rest fun o args => match args with | [] => some (branches o) | _ => none
    else if name = "tags" then
      read (.sortVersion :: listing) rest fun o args => match args with | [] => some (tags o) | _ => none
    else if name = "show" then
      read single rest fun o args => match args with | [id, path] => some (contents id path o) | _ => none
    else if name = "head" then
      read single rest fun o args => match args with | [] => some (head o) | _ => none
    else if name = "current-branch" then
      read single rest fun o args => match args with | [] => some (currentBranch o) | _ => none
    else if name = "config" then ofSettingsWords rest
    else if name = "version" then
      read [] rest fun _ args => match args with | [] => some version | _ => none
    else none
  | _ => none

end Request

end RepoLens
