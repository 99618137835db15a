import RepoLens.Cli
import RepoLens.Exchange
/-!
The program on a machine: it looks up where it runs, reads the settings file, and lets the library do what the command
line asks. It starts no other program. Every git command is written to the standard error stream as one line, and its
reply is read from the standard input as one line; a reply that does not come or cannot be read is silence.
-/
namespace RepoLens.Main

def pathExists (path : Text) : IO Bool := do
  try
    let _ ← IO.FS.realPath (String.ofList path)
    pure true
  catch _ => pure false

/-- the pictures that are installed with the program: on every line of their file a name, a blank and its picture -/
def installedPictures : IO (List (Text × Text)) := do
  let file := (← IO.appDir).toString ++ "/pictures"
  if ← pathExists file.toList then
    let t ← IO.FS.readFile file
    pure ((Text.cutAt (· = '\n') t.toList).map fun line =>
      (line.takeWhile (· ≠ ' '), (line.dropWhile (· ≠ ' ')).drop 1))
  else pure []

/-- where the program runs, the existing paths left open -/
def here : IO Place := do
  let home ← IO.getEnv "HOME"
  let columns ← IO.getEnv "COLUMNS"
  let cwd ← IO.currentDir
  let pictures ← installedPictures
  let width := (columns.bind String.toNat?).getD 80
  let screen : Console.Screen := ⟨width, fun name => pictures.lookup name, fun _ => none⟩
  pure ⟨(home.getD "/").toList, cwd.toString.toList, [], screen, .ample⟩

/-- the text of the settings file, if there is one -/
def readSettings (p : Place) : IO (Option Text) := do
  if ← pathExists p.file.toText then
    let t ← IO.FS.readFile (String.ofList p.file.toText)
    pure (some t.toList)
  else pure none

def keep (p : Place) (before after : Desk) : IO Unit := do
  if after.folder then IO.FS.createDirAll (String.ofList p.folder.toText)
  match after.settings with
  | some t =>
    if before.settings = some t then pure ()
    else IO.FS.writeFile (String.ofList p.file.toText) (String.ofList t)
  | none => pure ()

def ask (command : List Text) : IO Reply := do
  IO.eprintln (String.ofList (Exchange.line command))
  let line ← (← IO.getStdin).getLine
  pure ((Exchange.reply? line.toList).getD .silent)

/-- run a command line, asking for one reply after the other until every command sent has one -/
partial def converse (p : Place) (d : Desk) (words : List Text) (replies : List Reply) :
    IO (Except Fault Unit × Desk) := do
  let (result, after) := (Cli.runWords p replies words).runOn d
  match after.sent.drop replies.length with
  | [] => pure (result, after)
  | command :: _ =>
    let reply ← ask command
    converse p d words (replies ++ [reply])

end RepoLens.Main

open RepoLens in
def main (args : List String) : IO UInt32 := do
  let words := args.map String.toList
  let place ← Main.here
  let desk := Desk.fresh (← Main.readSettings place)
  let paths ← (Cli.concerned place desk words).filterM Main.pathExists
  let place := { place with paths := paths }
  let (result, after) ← Main.converse place desk words []
  Main.keep place desk after
  IO.print (String.ofList after.output)
  match result with
  | .ok _ => pure 0
  | .error (.exit status) => pure status.toUInt32
  | .error f =>
    IO.eprintln (String.ofList f.message)
    pure 1
