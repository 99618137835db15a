import RepoLens.Decimal
import RepoLens.Calendar
/-!
Values as settings files and records hold them: null, booleans, integers, doubles, texts, stamps, lists and mappings.
A mapping keeps the order in which its entries came. A collection that a document refers to from several places
carries a mark, the same at every place, so that a change to it shows wherever it stands; a collection without a mark
stands at one place only.
-/
namespace RepoLens

/-- a value of a settings file or of a record -/
inductive Value where
  | null
  | bool (b : Bool)
  | int (n : Int)
  | float (x : Float)
  | text (t : Text)
  | stamp (s : Stamp)
  | list (mark : Option Nat) (items : List Value)
  | map (mark : Option Nat) (entries : List (Value × Value))
  deriving Repr, Inhabited

namespace Value

/-- the name of the kind of a value, as messages give it -/
def kind : Value → Text
  | null => "NoneType"
  | bool _ => "bool"
  | int _ => "int"
  | float _ => "float"
  | text _ => "str"
  | stamp (.day _) => "datetime.date"
  | stamp (.moment ..) => "datetime.datetime"
  | list .. => "list"
  | map .. => "dict"

/-- null, false, zero and whatever is empty count as nothing -/
def isNothing : Value → Bool
  | null => true
  | bool b => !b
  | int n => n = 0
  | float x => x == 0
  | text t => t.isEmpty
  | stamp _ => false
  | list _ items => items.isEmpty
  | map _ entries => entries.isEmpty

/-- a value as an exact number: booleans count as zero and one -/
def number? : Value → Option Int
  | bool b => some (if b then 1 else 0)
  | int n => some n
  | float x => Decimal.toInt? x
  | _ => none

/-- equality of values that are no collections: numbers by value, all else by kind and content -/
def sameScalar : Value → Value → Bool
  | null, null => true
  | text s, text t => s = t
  | stamp s, stamp t => s = t
  | float x, float y => x == y
  | v, w =>
    match v.number?, w.number? with
    | some n, some m => n = m
    | _, _ => false

mutual

/-- equality of values: lists item by item, mappings by what stands under each key -/
def same : Value → Value → Bool
  | list _ xs, list _ ys => sameItems xs ys
  | map _ es, map _ fs => es.length = fs.length && sameEntries es fs
  | v, w => sameScalar v w

def sameItems : List Value → List Value → Bool
  | [], [] => true
  | v :: r, w :: s => same v w && sameItems r s
  | _, _ => false

/-- every entry of the first has an equal one among the second -/
def sameEntries : List (Value × Value) → List (Value × Value) → Bool
  | [], _ => true
  | (k, v) :: r, fs => (fs.any fun e => same k e.1 && same v e.2) && sameEntries r fs

end

/-- the entry under a text key -/
def lookup (key : Text) : List (Value × Value) → Option Value
  | [] => none
  | (k, v) :: r => if same k (text key) then some v else lookup key r

/-- the entries with one of them set; a new key goes last -/
def assign (key value : Value) : List (Value × Value) → List (Value × Value)
  | [] => [(key, value)]
  | (k, v) :: r => if same k key then (k, value) :: r else (k, v) :: assign key value r

mutual

/-- a value with every collection of a mark replaced -/
def replaceMarked (n : Nat) (new : Value) : Value → Value
  | list mark items => if mark = some n then new else list mark (replaceMarkedItems n new items)
  | map mark entries => if mark = some n then new else map mark (replaceMarkedEntries n new entries)
  | v => v

def replaceMarkedItems (n : Nat) (new : Value) : List Value → List Value
  | [] => []
  | v :: r => replaceMarked n new v :: replaceMarkedItems n new r

def replaceMarkedEntries (n : Nat) (new : Value) : List (Value × Value) → List (Value × Value)
  | [] => []
  | (k, v) :: r => (k, replaceMarked n new v) :: replaceMarkedEntries n new r

end

/-- the entry of a mapping under a text key -/
def get? (key : Text) : Value → Option Value
  | map _ entries => lookup key entries
  | _ => none

end Value

end RepoLens
