import RepoLens.Text.Blank
import RepoLens.Text.Lower
import RepoLens.Text.Number
/-!
Names of styles. Nothing is coloured here, but a closing tag must find the tag it closes, and two names are the same
tag when they mean the same style: attributes in any order and under any alias, a colour, a background, a link. A name
that is no style stands for itself in lower case.
-/
namespace RepoLens.Console

/-- attributes with their names and aliases, in the order in which a style is written -/
def attributeTable : List (Text × List Text) :=
  [("bold", ["bold", "b"]), ("dim", ["dim", "d"]), ("italic", ["italic", "i"]), ("underline", ["underline", "u"]),
   ("blink", ["blink"]), ("blink2", ["blink2"]), ("reverse", ["reverse", "r"]), ("conceal", ["conceal", "c"]),
   ("strike", ["strike", "s"]), ("underline2", ["underline2", "uu"]), ("frame", ["frame"]),
   ("encircle", ["encircle"]), ("overline", ["overline", "o"])]

def attribute? (word : Text) : Option Text := (attributeTable.find? fun a => a.2.contains word).map Prod.fst

/-- colours that have a name, shades of grey apart -/
def colourNames : List String := [
    "black", "red", "green", "yellow", "blue", "magenta", "cyan", "white", "bright_black", "bright_red",
    "bright_green", "bright_yellow", "bright_blue", "bright_magenta", "bright_cyan", "bright_white", "navy_blue",
    "dark_blue", "blue3", "blue1", "dark_green", "deep_sky_blue4", "dodger_blue3", "dodger_blue2", "green4",
    "spring_green4", "turquoise4", "deep_sky_blue3", "dodger_blue1", "green3", "spring_green3", "dark_cyan",
    "light_sea_green", "deep_sky_blue2", "deep_sky_blue1", "spring_green2", "cyan3", "dark_turquoise", "turquoise2",
    "green1", "spring_green1", "medium_spring_green", "cyan2", "cyan1", "dark_red", "deep_pink4", "purple4",
    "purple3", "blue_violet", "orange4", "medium_purple4", "slate_blue3", "royal_blue1", "chartreuse4",
    "dark_sea_green4", "pale_turquoise4", "steel_blue", "steel_blue3", "cornflower_blue", "chartreuse3",
    "cadet_blue", "sky_blue3", "steel_blue1", "pale_green3", "sea_green3", "aquamarine3", "medium_turquoise",
    "chartreuse2", "sea_green2", "sea_green1", "aquamarine1", "dark_slate_gray2", "dark_magenta", "dark_violet",
    "purple", "light_pink4", "plum4", "medium_purple3", "slate_blue1", "yellow4", "wheat4", "light_slate_grey",
    "light_slate_gray", "medium_purple", "light_slate_blue", "dark_olive_green3", "dark_sea_green",
    "light_sky_blue3", "sky_blue2", "dark_sea_green3", "dark_slate_gray3", "sky_blue1", "chartreuse1",
    "light_green", "pale_green1", "dark_slate_gray1", "red3", "medium_violet_red", "magenta3", "dark_orange3",
    "indian_red", "hot_pink3", "medium_orchid3", "medium_orchid", "medium_purple2", "dark_goldenrod",
    "light_salmon3", "rosy_brown", "medium_purple1", "gold3", "dark_khaki", "navajo_white3", "light_steel_blue3",
    "light_steel_blue", "yellow3", "dark_sea_green2", "light_cyan3", "light_sky_blue1", "green_yellow",
    "dark_olive_green2", "dark_sea_green1", "pale_turquoise1", "deep_pink3", "magenta2", "hot_pink2", "orchid",
    "medium_orchid1", "orange3", "light_pink3", "pink3", "plum3", "violet", "light_goldenrod3", "tan",
    "misty_rose3", "thistle3", "plum2", "khaki3", "light_goldenrod2", "light_yellow3", "light_steel_blue1",
    "yellow2", "dark_olive_green1", "honeydew2", "light_cyan1", "red1", "deep_pink2", "deep_pink1", "magenta1",
    "orange_red1", "indian_red1", "hot_pink", "dark_orange", "salmon1", "light_coral", "pale_violet_red1",
    "orchid2", "orchid1", "orange1", "sandy_brown", "light_salmon1", "light_pink1", "pink1", "plum1", "gold1",
    "navajo_white1", "misty_rose1", "thistle1", "yellow1", "light_goldenrod1", "khaki1", "wheat1", "cornsilk1"]

/-- the shades of grey, which go by two spellings -/
def greyShades : List Nat :=
  [0, 3, 7, 11, 15, 19, 23, 27, 30, 35, 37, 39, 42, 46, 50, 53, 54, 58, 62, 63, 66, 69, 70, 74, 78, 82, 84, 85,
   89, 93, 100]

/-- a number that fits into a byte, in at most three digits of ASCII -/
def isByte (t : Text) : Bool :=
  !t.isEmpty && t.length ≤ 3 && t.all Char.isDigit && t.foldl (fun n c => 10 * n + (c.toNat - 48)) 0 ≤ 255

def between (opening closing t : Text) : Option Text :=
  if opening.isPrefixOf t && closing.isSuffixOf t && opening.length + closing.length ≤ t.length then
    some ((t.drop opening.length).take (t.length - opening.length - closing.length))
  else none

/-- whether the text between brackets holds the three parts of a colour; each has to be a number then -/
def isTriple (t : Text) : Except NumberFault Bool :=
  let parts := Text.cutAt (· = ',') t
  if t.isEmpty || !t.all (fun c => Text.isDigit c || c = ',') || parts.length ≠ 3 then pure false
  else do
    let numbers ← parts.mapM Text.number
    pure (numbers.all (· ≤ 255))

/-- whether a word in lower case names a colour: by name, in hexadecimal, by number, or by its three parts -/
def isColour (word : Text) : Except NumberFault Bool :=
  if word = "default" || colourNames.any (fun n => word = n) ||
      greyShades.any (fun n => word = "grey" ++ Text.ofNat n || word = "gray" ++ Text.ofNat n) ||
      (match word with
        | '#' :: digits => digits.length = 6 && digits.all fun c => c.isDigit || ('a' ≤ c && c ≤ 'f')
        | _ => false) ||
      (match between "color(" ")" word with
        | some n => isByte n
        | none => false) then pure true
  else
    match between "rgb(" ")" word with
    | some parts => isTriple parts
    | none => pure false

/-- a style: attributes switched on or off, colour, background, link -/
structure Style where
  attributes : List (Text × Bool)
  colour : Option Text
  background : Option Text
  link : Option Text
  deriving DecidableEq, Repr

namespace Style

/-- the style that changes nothing -/
def plain : Style := ⟨[], none, none, none⟩

/-- switch an attribute; the last word on it counts -/
def switch (s : Style) (name : Text) (on : Bool) : Style :=
  { s with attributes := (name, on) :: s.attributes.filter fun a => a.1 ≠ name }

/-- read the words of a style, up to the first that does not fit -/
def readWords (s : Style) : List Text → Except NumberFault (Option Style)
  | [] => pure (some s)
  | word :: rest =>
    let word := word.lower
    if word = "on" then
      match rest with
      | colour :: rest => do
        if ← isColour colour.lower then readWords { s with background := some colour.lower } rest else pure none
      | [] => pure none
    else if word = "not" then
      match rest with
      | name :: rest =>
        match attribute? name with
        | some a => readWords (s.switch a false) rest
        | none => pure none
      | [] => pure none
    else if word = "link" then
      match rest with
      | target :: rest => readWords { s with link := some target } rest
      | [] => pure none
    else
      match attribute? word with
      | some a => readWords (s.switch a true) rest
      | none => do if ← isColour word then readWords { s with colour := some word } rest else pure none

/-- the style that a text describes, if it describes one -/
def read (t : Text) : Except NumberFault (Option Style) :=
  if t.trim.isEmpty || t.trim = "none" then pure (some plain) else plain.readWords t.fields

/-- a style in its one written form -/
def written (s : Style) : Text :=
  let attributes := attributeTable.filterMap fun a =>
    (s.attributes.lookup a.1).map fun on => if on then a.1 else "not " ++ a.1
  let background := s.background.toList.map fun c => 'o' :: 'n' :: ' ' :: c
  let link := s.link.toList.map fun t => 'l' :: 'i' :: 'n' :: 'k' :: ' ' :: t
  let words := attributes ++ s.colour.toList ++ background ++ link
  if words.isEmpty then "none" else Text.joinWith [' '] words

end Style

/-- the name under which a tag is opened and closed -/
def tagName (t : Text) : Except NumberFault Text := do
  match ← Style.read t with
  | some s => pure s.written
  | none => pure t.trim.lower

end RepoLens.Console
