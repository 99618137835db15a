import RepoLens.Console.Style
import RepoLens.Console.Wrap
/-!
Text with styles. A style lies over a stretch of the text; when the text is laid out in a column, the stretches are cut where
its lines are, and a stretch of which nothing is left on the screen is gone. The styles of the others have to be read, which
can fail.
-/
namespace RepoLens.Console

/-- a stretch of a text, with its style -/
structure Stretch where
  start : Nat
  stop : Nat
  style : Text
  deriving DecidableEq, Repr

/-- the part of a stretch that lies in a piece of the text, seen from the start of the piece -/
def Stretch.within (s : Stretch) (start stop : Nat) : Option Stretch :=
  if max s.start start < min s.stop stop then some ⟨max s.start start - start, min s.stop stop - start, s.style⟩ else none

/-- text as it is shown, with its styles -/
structure Shown where
  text : Text
  stretches : List Stretch
  deriving DecidableEq, Repr

namespace Shown

/-- a shown text with more text before it, whose stretches have been counted already -/
def behind (t : Text) (stretches : List Stretch) (s : Shown) : Shown := ⟨t ++ s.text, stretches ++ s.stretches⟩

/-- pieces one after the other with so many characters between them, each with its part of the stretches -/
def divide (gap start : Nat) (stretches : List Stretch) : List Text → List Shown
  | [] => []
  | t :: r =>
    ⟨t, stretches.filterMap fun s => s.within start (start + t.length)⟩ ::
      divide gap (start + t.length + gap) stretches r

/-- the pieces of a text; if there is only one, its empty stretches stay -/
def pieces (gap : Nat) (stretches : List Stretch) : List Text → List Shown
  | [t] => [⟨t, stretches⟩]
  | ts => divide gap 0 stretches ts

/-- a line with every tab as spaces, which belong to the stretches of the tab -/
def expandTabs (s : Shown) : Shown :=
  let place (n : Nat) : Nat := (Text.expandTabs (s.text.take n)).length
  if s.text.contains '\t' then
    ⟨s.text.expandTabs, s.stretches.filterMap fun r =>
      if r.start < r.stop then some ⟨place r.start, place r.stop, r.style⟩ else none⟩
  else s

/-- another text in the place of the old one, at the end of which stretches are lost if it is shorter -/
def recut (s : Shown) (t : Text) : Shown :=
  ⟨t, if t.length < s.text.length then s.stretches.filter fun r => r.start < t.length else s.stretches⟩

/-- a piece of a line as it stands in a column, blanks before it left out -/
def finish (width : Nat) (overflow : Overflow) (how : Justify) (s : Shown) : Shown :=
  let s := s.recut (dropOverhang width s.text)
  let s := match how with
    | .centre => s.recut s.text.trimRight
    | _ => s
  s.recut (truncate width overflow s.text)

/-- the pieces of a text that show in a column -/
def laidOut (width : Nat) (overflow : Overflow) (how : Justify) (s : Shown) : List Shown :=
  (pieces 1 s.stretches (Text.cutAt (· = '\n') s.text)).flatMap fun line =>
    (pieces 0 line.expandTabs.stretches (breakLine width overflow line.expandTabs.text)).map (finish width overflow how)

/-- the lines of a shown text in a column, once the styles that are left have been read -/
def wrap (width : Nat) (overflow : Overflow) (how : Justify) (s : Shown) : Except NumberFault (List Text) := do
  let _ ← ((s.laidOut width overflow how).flatMap stretches).mapM fun r => Style.read r.style
  pure (Console.wrap width overflow how s.text)

end Shown

end RepoLens.Console
