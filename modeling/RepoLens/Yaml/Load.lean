import RepoLens.Yaml.Node
import RepoLens.Yaml.Kind
/-!
The value of a document. Scalars become values by their tag or by how they look, mappings keep the first place and the
last value of a key, and a merge key brings in entries that the mapping's own ones override. An alias stands for the
value of its anchor; where a document has aliases, its collections carry marks, so that what stands in two places is
known to be one.
-/
namespace RepoLens.Yaml

/-! ## Scalars -/

/-- start of the tags of the common kinds -/
def commonTag : Text := "tag:yaml.org,2002:"

def tagKinds : List (Text × Kind) :=
  [("null", .null), ("bool", .bool), ("int", .int), ("float", .float), ("timestamp", .stamp), ("str", .text)]

def scalarKind (props : Props) (plain : Bool) (t : Text) : Except ReadFault Kind :=
  match props.tag with
  | none => pure (if plain then Kind.ofPlain t else .text)
  | some tag =>
    if tag = ['!'] then pure (Kind.ofPlain t)
    else if commonTag.isPrefixOf tag then
      match tagKinds.lookup (tag.drop commonTag.length) with
      | some k => pure k
      | none => throw .malformed
    else throw .malformed

def checkStamp : Stamp → Except CalendarFault Unit
  | .day d => d.check
  | .moment d c offset => do
    Stamp.checkOffset offset
    d.check
    c.check

def required {α : Type} : Option α → Except ReadFault α
  | some a => pure a
  | none => throw .malformed

def readInt (t : Text) : Except ReadFault Int := do
  let n ← required (Kind.intOf? t)
  let digits := (Kind.decimalDigits t).length
  if Text.digitLimit < digits then throw (.number (.tooLong digits)) else pure n

/-- the value of a scalar of a kind; a floating-point number by its tag may lack the point -/
def scalarValue (k : Kind) (t : Text) : Except ReadFault Value :=
  match k with
  | .null => pure .null
  | .bool =>
    if Kind.trueWords.contains t then pure (.bool true)
    else if Kind.falseWords.contains t then pure (.bool false)
    else throw .malformed
  | .int => .int <$> readInt t
  | .float => .float <$> required ((Kind.floatOf? t).or (Kind.floatOf? (t ++ ['.'])))
  | .stamp => do
    let s ← required (Kind.stampOf? t)
    match checkStamp s with
    | .ok _ => pure (.stamp s)
    | .error e => throw (.calendar e)
  | .text => pure (.text t)
  | .merge | .default => throw .malformed

/-! ## Collections -/

/-- what is known while a document is read: the values of the anchors, and the next mark -/
structure Memory where
  anchors : List (Text × Value)
  next : Nat
  deriving Repr

/-- remember the value of an anchor; no two nodes share one -/
def Memory.bind (m : Memory) (props : Props) (v : Value) : Except ReadFault Memory :=
  match props.anchor with
  | none => pure m
  | some name =>
    if (m.anchors.lookup name).isSome then throw .malformed
    else pure { m with anchors := (name, v) :: m.anchors }

def checkTag (kind : Text) (props : Props) : Except ReadFault Unit :=
  match props.tag with
  | none => pure ()
  | some tag => if tag = ['!'] || tag = commonTag ++ kind then pure () else throw .malformed

def isKey : Value → Bool
  | .list .. | .map .. => false
  | _ => true

/-- the entries that a value of a merge key brings in; of several mappings an earlier one overrides a later -/
def merged : Value → Except ReadFault (List (Value × Value))
  | .map _ entries => pure entries
  | .list _ vs => do
    let parts ← vs.mapM fun v =>
      match v with
      | .map _ entries => pure entries
      | _ => throw .malformed
    pure parts.reverse.flatten
  | _ => throw .malformed

def isOfKind (k : Kind) : Node → Bool
  | .scalar props plain t =>
    match scalarKind props plain t with
    | .ok k' => k = k'
    | .error _ => false
  | _ => false

/-- entries one after the other: a key keeps its first place and its last value -/
def collect (entries : List (Value × Value)) : List (Value × Value) :=
  entries.foldl (fun es e => Value.assign e.1 e.2 es) []

/-- entries of a mapping: the ones that merge keys bring in, and its own -/
structure Gathered where
  inherited : List (Value × Value)
  own : List (Value × Value)
  deriving Repr

mutual

/-- the value of a node, in a document with aliases or without -/
def build (marked : Bool) (m : Memory) : Node → Except ReadFault (Value × Memory)
  | .alias name => do
    let v ← required (m.anchors.lookup name)
    pure (v, m)
  | .scalar props plain t => do
    let k ← scalarKind props plain t
    let v ← scalarValue k t
    pure (v, ← m.bind props v)
  | .seq props items => do
    checkTag "seq" props
    let (vs, m') ← buildItems marked { m with next := m.next + 1 } items
    let v := Value.list (if marked then some m.next else none) vs
    pure (v, ← m'.bind props v)
  | .map props entries => do
    checkTag "map" props
    let (g, m') ← buildEntries marked { m with next := m.next + 1 } entries
    let all := g.inherited ++ g.own
    if !all.all (fun e => isKey e.1) then throw .malformed
    let v := Value.map (if marked then some m.next else none) (collect all)
    pure (v, ← m'.bind props v)

def buildItems (marked : Bool) (m : Memory) : List Node → Except ReadFault (List Value × Memory)
  | [] => pure ([], m)
  | n :: r => do
    let (v, m) ← build marked m n
    let (vs, m) ← buildItems marked m r
    pure (v :: vs, m)

def buildEntries (marked : Bool) (m : Memory) : List (Node × Node) → Except ReadFault (Gathered × Memory)
  | [] => pure (⟨[], []⟩, m)
  | (k, v) :: r =>
    if isOfKind .merge k then do
      let (value, m) ← build marked m v
      let first ← merged value
      let (g, m) ← buildEntries marked m r
      pure (⟨first ++ g.inherited, g.own⟩, m)
    else do
      let (key, m) ← if isOfKind .default k then pure (Value.text ['='], m) else build marked m k
      let (value, m) ← build marked m v
      let (g, m) ← buildEntries marked m r
      pure (⟨g.inherited, (key, value) :: g.own⟩, m)

end

def isAlias : Token → Bool
  | .alias _ => true
  | _ => false

/-- the value of a document; one without content is null -/
def load (t : Text) : Except ReadFault Value := do
  let ts ← tokens t
  match ← nodeOfTokens ts with
  | none => pure .null
  | some n => Prod.fst <$> build (ts.any isAlias) ⟨[], 0⟩ n

end RepoLens.Yaml
