import RepoLens.Text.Number
import RepoLens.Value
/-!
Faults that arise when an operation meets a value that it does not apply to: a record that is no mapping, an identifier
that is no text, a setting that cannot hold an entry, a number too large to be written. Each constructor is one cause, and `message` words it.
-/
namespace RepoLens

/-- an operation met a value that it does not apply to -/
inductive Mismatch where
  /-- an entry was looked up in a value that has none -/
  | noEntries (kind : Text)
  /-- an entry was looked up by name in a text -/
  | textEntry
  /-- an entry was looked up or set by name in a list -/
  | listEntry
  /-- items were asked of a value that has none -/
  | noItems (kind : Text)
  /-- the length of a value that has none -/
  | noLength (kind : Text)
  /-- a slice of a mapping -/
  | mappingSlice
  /-- a collection as a key -/
  | unhashable (kind : Text)
  /-- a word of a command that is no text, with its position -/
  | word (position : Nat) (kind : Text)
  /-- an entry was set in a value that can hold none -/
  | noAssignment (kind : Text)
  /-- a value that has no JSON form -/
  | noJson (kind : Text)
  /-- a key that has no JSON form -/
  | noJsonKey (kind : Text)
  /-- a cell of a table that is no text -/
  | noCell (kind : Text)
  /-- a method was called on a value that does not have it -/
  | noMethod (kind name : Text)
  | number (cause : NumberFault)
  deriving DecidableEq, Repr

namespace Mismatch

/-- a kind without the module it belongs to -/
def shortKind (kind : Text) : Text := (Text.cutAt (· = '.') kind).getLastD kind

def message : Mismatch → Text
  | noEntries kind => '\'' :: (kind ++ "' object is not subscriptable")
  | textEntry => "string indices must be integers, not 'str'"
  | listEntry => "list indices must be integers or slices, not str"
  | noItems kind => '\'' :: (kind ++ "' object is not iterable")
  | noLength kind => "object of type '" ++ (kind ++ "' has no len()")
  | mappingSlice => "unhashable type: 'slice'"
  | unhashable kind => "unhashable type: '" ++ (kind ++ "'")
  | word position kind =>
    "sequence item " ++ (Text.ofNat position ++ (": expected str instance, " ++ (kind ++ " found")))
  | noAssignment kind => '\'' :: (kind ++ "' object does not support item assignment")
  | noJson kind => "Object of type " ++ (shortKind kind ++ " is not JSON serializable")
  | noJsonKey kind => "keys must be str, int, float, bool or None, not " ++ shortKind kind
  | noCell kind =>
    "unable to render " ++ (shortKind kind ++ "; a string or other renderable object is required")
  | noMethod kind name => '\'' :: (kind ++ ("' object has no attribute '" ++ (name ++ "'")))
  | number cause => cause.message

end Mismatch

end RepoLens
