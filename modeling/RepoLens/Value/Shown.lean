import RepoLens.Value
import RepoLens.Text.Number
import RepoLens.Text.Quoted
/-!
How a value is shown to a reader: a text as it is, every other value as it stands in a list, where texts are quoted.
-/
namespace RepoLens.Value

mutual

/-- a value inside a list or a mapping -/
def inside : Value → Text
  | null => "None"
  | bool true => "True"
  | bool false => "False"
  | int n => Text.ofInt n
  | float x => Decimal.ofFloat "nan" "inf" x
  | text t => t.quoted
  | stamp s => s.shown
  | list _ items => '[' :: (insideItems items ++ [']'])
  | map _ entries => '{' :: (insideEntries entries ++ ['}'])

def insideItems : List Value → Text
  | [] => []
  | [v] => inside v
  | v :: w :: r => inside v ++ (", " ++ insideItems (w :: r))

def insideEntries : List (Value × Value) → Text
  | [] => []
  | [(k, v)] => inside k ++ (": " ++ inside v)
  | (k, v) :: e :: r => inside k ++ (": " ++ (inside v ++ (", " ++ insideEntries (e :: r))))

end

/-- a value on its own -/
def shown : Value → Text
  | text t => t
  | stamp s => s.written
  | v => inside v

/-! ## Numbers that are too large -/

mutual

/-- whether every integer of a value has few enough digits to be written -/
def numbersFit : Value → Bool
  | .int n => Text.canWrite n
  | .list _ items => numbersFitItems items
  | .map _ entries => numbersFitEntries entries
  | _ => true

def numbersFitItems : List Value → Bool
  | [] => true
  | v :: r => numbersFit v && numbersFitItems r

def numbersFitEntries : List (Value × Value) → Bool
  | [] => true
  | (k, v) :: r => numbersFit k && numbersFit v && numbersFitEntries r

end

/-- what is said of a value, if all of it can be written -/
def told (v : Value) : Except NumberFault Text := if numbersFit v then pure (shown v) else throw .tooLarge

end RepoLens.Value
