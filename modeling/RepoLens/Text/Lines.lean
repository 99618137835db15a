import RepoLens.Text
/-!
Lines. Captured output is first brought to one line end (`unifyNewlines`), then every line is closed by exactly one
newline (`closeLines`); listings are read from the lines that are not empty (`nonEmptyLines`).
-/
namespace RepoLens.Text

/-- every line end (CR LF, or CR alone) as a newline -/
def unifyNewlines : Text → Text
  | [] => []
  | '\r' :: '\n' :: r => '\n' :: unifyNewlines r
  | '\r' :: r => '\n' :: unifyNewlines r
  | c :: r => c :: unifyNewlines r

/-- a newline after the last line too, unless there is no text at all -/
def closeLines (t : Text) : Text :=
  match t.getLast? with
  | none => []
  | some c => if c = '\n' then t else t ++ ['\n']

/-- the lines between newlines; a CR right before a newline belongs to the line end -/
def lines : Text → List Text
  | [] => [[]]
  | '\r' :: '\n' :: r => [] :: lines r
  | c :: r => if c = '\n' then [] :: lines r else consHead c (lines r)

def nonEmptyLines (t : Text) : List Text := (lines t).filter (· ≠ [])

/-- without one final newline, if there is one -/
def chopNewline (t : Text) : Text :=
  match t.getLast? with
  | some '\n' => t.dropLast
  | _ => t

end RepoLens.Text
