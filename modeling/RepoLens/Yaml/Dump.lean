import RepoLens.Yaml.Print
import RepoLens.Yaml.Kind
import RepoLens.Value.Shown
/-!
The document of a value. Keys are in order where they can be compared; a text that would be read as something else is
quoted; a collection that stands at several places is written once, under an anchor, and as an alias from then on.
-/
namespace RepoLens.Yaml

/-! ## Order of keys -/

/-- how two keys compare, if they do: texts by code point, numbers by value, days with days -/
def keyOrder? : Value → Value → Option Ordering
  | .text s, .text t => some (s.order t)
  | .stamp (.day d), .stamp (.day e) => some (compare [d.year, d.month, d.day] [e.year, e.month, e.day])
  | .stamp (.moment d c none), .stamp (.moment e f none) =>
    some (compare [d.year, d.month, d.day, c.hour, c.minute, c.second, c.micro]
      [e.year, e.month, e.day, f.hour, f.minute, f.second, f.micro])
  | v, w =>
    match v.number?, w.number?, v, w with
    | some n, some m, _, _ => some (compare n m)
    | some n, none, _, .float y => some (if Float.ofInt n < y then .lt else .gt)
    | none, some m, .float x, _ => some (if x < Float.ofInt m then .lt else .gt)
    | none, none, .float x, .float y => some (if x < y then .lt else .gt)
    | _, _, _, _ => none

/-- whether each of some keys compares with every later one -/
def comparable : List Value → Bool
  | [] => true
  | k :: r => (r.all fun l => (keyOrder? k l).isSome) && comparable r

/-- entries in order of their keys, if the keys compare -/
def sortEntries (entries : List (Value × Value)) : List (Value × Value) :=
  if comparable (entries.map Prod.fst) then
    entries.mergeSort fun a b => ((keyOrder? a.1 b.1).getD .lt).isLE
  else entries

mutual

/-- a value with all its mappings in order -/
def arranged : Value → Value
  | .list mark items => .list mark (arrangedItems items)
  | .map mark entries => .map mark (sortEntries (arrangedEntries entries))
  | v => v

def arrangedItems : List Value → List Value
  | [] => []
  | v :: r => arranged v :: arrangedItems r

def arrangedEntries : List (Value × Value) → List (Value × Value)
  | [] => []
  | (k, v) :: r => (k, arranged v) :: arrangedEntries r

end

/-! ## What stands at several places -/

/-- marks that have been met, and those that have been met again, in order -/
structure Meetings where
  once : List Nat
  again : List Nat
  deriving DecidableEq, Repr

/-- meet a mark; also says whether it is new -/
def Meetings.meet (m : Meetings) : Option Nat → Meetings × Bool
  | none => (m, true)
  | some n =>
    if m.once.contains n then (if m.again.contains n then m else ⟨m.once, m.again ++ [n]⟩, false)
    else (⟨n :: m.once, m.again⟩, true)

mutual

/-- meet the collections of a value; those inside one that has been met are not met again -/
def meetings (m : Meetings) : Value → Meetings
  | .list mark items => if (m.meet mark).2 then meetItems (m.meet mark).1 items else (m.meet mark).1
  | .map mark entries => if (m.meet mark).2 then meetEntries (m.meet mark).1 entries else (m.meet mark).1
  | _ => m

def meetItems (m : Meetings) : List Value → Meetings
  | [] => m
  | v :: r => meetItems (meetings m v) r

def meetEntries (m : Meetings) : List (Value × Value) → Meetings
  | [] => m
  | (_, v) :: r => meetEntries (meetings m v) r

end

/-- the name of the anchor of a mark that is met again -/
def anchorName? (again : List Nat) (mark : Option Nat) : Option Text :=
  mark.bind fun n => (again.idxOf? n).map fun i => 'i' :: 'd' :: Text.padded 3 (i + 1)

/-! ## Nodes -/

/-- the text of a number with a point; an exponent needs one too -/
def floatText (x : Float) : Text :=
  let t := Decimal.ofFloat ".nan" ".inf" x
  if t.contains '.' then t
  else
    let digits := t.takeWhile (· ≠ 'e')
    digits ++ (".0" ++ t.drop digits.length)

def scalarNode : Value → Node
  | .null => .scalar .none true "null"
  | .bool b => .scalar .none true (if b then "true" else "false")
  | .int n => .scalar .none true (Text.ofInt n)
  | .float x => .scalar .none true (floatText x)
  | .stamp s => .scalar .none true s.written
  | .text t => .scalar .none (Kind.ofPlain t = .text && canBePlain t) t
  | _ => .empty .none

mutual

/-- the node of a value, and the anchors that have been written -/
def nodeOf (again : List Nat) (written : List Text) : Value → Node × List Text
  | .list mark items =>
    match anchorName? again mark with
    | none =>
      let (nodes, written) := nodesOf again written items
      (.seq .none nodes, written)
    | some name =>
      if written.contains name then (.alias name, written)
      else
        let (nodes, written) := nodesOf again (name :: written) items
        (.seq ⟨some name, none⟩ nodes, written)
  | .map mark entries =>
    match anchorName? again mark with
    | none =>
      let (nodes, written) := entryNodesOf again written entries
      (.map .none nodes, written)
    | some name =>
      if written.contains name then (.alias name, written)
      else
        let (nodes, written) := entryNodesOf again (name :: written) entries
        (.map ⟨some name, none⟩ nodes, written)
  | v => (scalarNode v, written)

def nodesOf (again : List Nat) (written : List Text) : List Value → List Node × List Text
  | [] => ([], written)
  | v :: r =>
    let (n, written) := nodeOf again written v
    let (ns, written) := nodesOf again written r
    (n :: ns, written)

def entryNodesOf (again : List Nat) (written : List Text) : List (Value × Value) → List (Node × Node) × List Text
  | [] => ([], written)
  | (k, v) :: r =>
    let (n, written) := nodeOf again written v
    let (ns, written) := entryNodesOf again written r
    ((scalarNode k, n) :: ns, written)

end

def documentNode (v : Value) : Node :=
  let v := arranged v
  (nodeOf (meetings ⟨[], []⟩ v).again [] v).1

def dump (v : Value) : Text := printNode (documentNode v)

/-- write a document; nothing of it is written if a number is too large -/
def write (v : Value) : Except NumberFault Text := if v.numbersFit then pure (dump v) else throw .tooLarge

end RepoLens.Yaml
