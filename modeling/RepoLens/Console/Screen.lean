import RepoLens.Text.Blank
import RepoLens.Text.Lower
/-!
A screen: how many columns it has, and what it looks up when it shows text. A code, which is a name between two colons without
a blank in between, shows as the picture of that name if there is one.
-/
namespace RepoLens.Console

/-- a console; what it looks up is no part of the rules of markup -/
structure Screen where
  width : Nat
  /-- the picture of a name in lower case -/
  picture? : Text → Option Text
  /-- what is said of the parameters of a handler that cannot be read -/
  parameterFault? : Text → Option Text

namespace Screen

/-- a screen without pictures, on which no parameters are at fault -/
def plain (width : Nat) : Screen := ⟨width, fun _ => none, fun _ => none⟩

/-! ## Codes -/

/-- the text up to the nearest colon, if no blank comes first -/
def toColon : Text → Option Text
  | [] => none
  | c :: r =>
    if c = ':' then some []
    else if Text.isBlank c then none
    else (toColon r).map (c :: ·)

/-- the endings of a code that ask for a form of its picture, and the character that selects the form -/
def forms : List (Text × Char) := [("-emoji", '\uFE0F'), ("-text", '\uFE0E')]

/-- what shows in the place of a code -/
def pictureOf (screen : Screen) (code : Text) : Option Text :=
  match forms.find? fun form => form.1.isSuffixOf code with
  | some (ending, selector) =>
    (screen.picture? (Text.lower (code.take (code.length - ending.length)))).map (· ++ [selector])
  | none => screen.picture? code.lower

/-- a text with its pictures, `skip` characters of it having been taken already -/
def picturesFrom (screen : Screen) (skip : Nat) : Text → Text
  | [] => []
  | c :: r =>
    if 0 < skip then screen.picturesFrom (skip - 1) r
    else
      match if c = ':' then toColon r else none with
      | some code => (screen.pictureOf code).getD (':' :: (code ++ [':'])) ++ screen.picturesFrom (code.length + 1) r
      | none => c :: screen.picturesFrom 0 r

def pictures (screen : Screen) (t : Text) : Text := screen.picturesFrom 0 t

end Screen

end RepoLens.Console
