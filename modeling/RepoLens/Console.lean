import RepoLens.Console.Markup
import RepoLens.Console.Wrap
/-!
Printing on a screen: markup is shown and wrapped, and every line ends with a newline. A screen without columns shows
nothing, but faults in the tags of the markup are found all the same.
-/
namespace RepoLens.Console

/-- lines, each with its newline -/
def block (lines : List Text) : Text := lines.flatMap (· ++ ['\n'])

/-- what printing a markup text puts on a console -/
def print (screen : Screen) (markup : Text) : Except MarkupFault Text := do
  let s ← Markup.read screen markup
  if screen.width = 0 then pure [] else block <$> (s.wrap screen.width .fold .asIs).mapError .style

end RepoLens.Console
