import RepoLens.Yaml.Token
/-!
The nodes of a document: scalars, sequences and mappings, each with an optional anchor and tag, and aliases. A reader
takes the tokens one by one and keeps the collections that are open, the innermost first; in every one of them either a
node is due (it has a hole) or one of a few signs is. A node that is due and does not come is empty.
-/
namespace RepoLens.Yaml

/-- what may stand before a node -/
structure Props where
  anchor : Option Text
  tag : Option Text
  deriving DecidableEq, Repr

def Props.none : Props := ⟨.none, .none⟩

inductive Node where
  | alias (name : Text)
  /-- a text, with whether its kind is told by how it looks -/
  | scalar (props : Props) (plain : Bool) (t : Text)
  | seq (props : Props) (items : List Node)
  | map (props : Props) (entries : List (Node × Node))
  deriving Repr, Inhabited

/-- the node that does not come -/
def Node.empty (props : Props) : Node := .scalar props true []

/-- what is due in a mapping -/
inductive Stage where
  /-- the next key, or the end -/
  | ready
  | keyHole
  | keyDone (key : Node)
  | valueHole (key : Node)
  deriving Repr

/-- what is due in a flow collection -/
inductive FlowStage where
  /-- an item, a key sign, or the end -/
  | itemHole
  /-- a comma, or the end -/
  | itemDone
  | keyHole
  | keyDone (key : Node)
  | valueHole (key : Node)
  deriving Repr

/-- a collection that is open; items and entries come last first -/
inductive Frame where
  /-- a block sequence; a dash without more indentation than the key before it opens one that is bare -/
  | seq (bare : Bool) (props : Props) (items : List Node) (hole : Bool)
  | map (props : Props) (entries : List (Node × Node)) (stage : Stage)
  | flowSeq (props : Props) (items : List Node) (stage : FlowStage)
  | flowMap (props : Props) (entries : List (Node × Node)) (stage : FlowStage)
  deriving Repr

/-- where a reader stands in the stream -/
inductive Phase where
  /-- nothing has been read -/
  | fresh
  /-- directives have been read, so a document start must come -/
  | directives
  /-- the document has started with a sign -/
  | marked
  /-- the document has started without a sign -/
  | bare
  /-- the document is complete -/
  | complete (root : Node)
  deriving Repr

structure Reader where
  phase : Phase
  stack : List Frame
  /-- what stands before the node that is due -/
  pending : Props
  /-- handles of tags -/
  handles : List (Text × Text)
  /-- whether the version has been given -/
  versioned : Bool
  deriving Repr

namespace Reader

def start : Reader := ⟨.fresh, [], .none, [], false⟩

/-- handles that every document has -/
def commonHandles : List (Text × Text) := [("!", "!"), ("!!", "tag:yaml.org,2002:")]

/-! ## Holes -/

def Frame.hasHole : Frame → Bool
  | .seq _ _ _ hole => hole
  | .map _ _ .keyHole | .map _ _ (.valueHole _) => true
  | .map .. => false
  | .flowSeq _ _ stage | .flowMap _ _ stage =>
    match stage with
    | .itemHole | .keyHole | .valueHole _ => true
    | _ => false

/-- whether a node is due -/
def hasHole (r : Reader) : Bool :=
  match r.stack with
  | f :: _ => Frame.hasHole f
  | [] => match r.phase with | .complete _ => false | _ => true

/-- whether a dash opens a sequence without more indentation -/
def allowsBare (r : Reader) : Bool :=
  match r.stack with
  | .map _ _ .keyHole :: _ | .map _ _ (.valueHole _) :: _ => true
  | _ => false

def Frame.fill (n : Node) : Frame → Frame
  | .seq bare props items _ => .seq bare props (n :: items) false
  | .map props entries .keyHole => .map props entries (.keyDone n)
  | .map props entries (.valueHole k) => .map props ((k, n) :: entries) .ready
  | .map props entries stage => .map props entries stage
  | .flowSeq props items .keyHole => .flowSeq props items (.keyDone n)
  | .flowSeq props items (.valueHole k) => .flowSeq props (.map .none [(k, n)] :: items) .itemDone
  | .flowSeq props items _ => .flowSeq props (n :: items) .itemDone
  | .flowMap props entries .keyHole => .flowMap props entries (.keyDone n)
  | .flowMap props entries (.valueHole k) => .flowMap props ((k, n) :: entries) .itemDone
  | .flowMap props entries _ => .flowMap props ((n, .empty .none) :: entries) .itemDone

/-- the node that is due has come -/
def attach (n : Node) (r : Reader) : Reader :=
  match r.stack with
  | f :: rest => { r with stack := Frame.fill n f :: rest, pending := .none }
  | [] => { r with phase := .complete n, pending := .none }

/-- open a collection where a node is due -/
def enter (f : Props → Frame) (r : Reader) : Reader := { r with stack := f r.pending :: r.stack, pending := .none }

/-! ## Signs -/

/-- whether a node that is due may be left out before a token, with nothing standing before it -/
def mayBeEmpty (r : Reader) (t : Token) : Bool :=
  match r.stack with
  | .seq false _ _ _ :: _ => t = .dash || t = .blockEnd
  | .seq true _ _ _ :: _ => t = .dash || t = .key || t = .value || t = .blockEnd
  | .map .. :: _ => t = .key || t = .value || t = .blockEnd
  | .flowSeq _ _ .keyHole :: _ => t = .value || t = .comma || t = .flowSeqEnd
  | .flowSeq _ _ (.valueHole _) :: _ => t = .comma || t = .flowSeqEnd
  | .flowMap _ _ .keyHole :: _ => t = .value || t = .comma || t = .flowMapEnd
  | .flowMap _ _ (.valueHole _) :: _ => t = .comma || t = .flowMapEnd
  | _ :: _ => false
  | [] =>
    match r.phase, t with
    | .marked, .directive _ | .marked, .documentStart | .marked, .documentEnd => true
    | _, _ => false

/-- a sign in a block mapping in which no node is due -/
def mapSign (props : Props) (entries : List (Node × Node)) (stage : Stage) (t : Token) (rest : List Frame)
    (r : Reader) : Except ReadFault Reader :=
  let ready (entries : List (Node × Node)) : Except ReadFault Reader :=
    match t with
    | .key => pure { r with stack := .map props entries .keyHole :: rest }
    | .blockEnd => pure (attach (.map props entries.reverse) { r with stack := rest })
    | _ => throw .malformed
  match stage with
  | .keyDone k =>
    if t = .value then pure { r with stack := .map props entries (.valueHole k) :: rest }
    else ready ((k, .empty .none) :: entries)
  | _ => ready entries

/-- a sign in a flow sequence in which no node is due, or at the place of an item -/
def flowSeqSign (props : Props) (items : List Node) (stage : FlowStage) (t : Token) (rest : List Frame)
    (r : Reader) : Except ReadFault Reader :=
  let close (items : List Node) : Reader := attach (.seq props items.reverse) { r with stack := rest }
  let done (items : List Node) : Except ReadFault Reader :=
    match t with
    | .comma => pure { r with stack := .flowSeq props items .itemHole :: rest }
    | .flowSeqEnd => pure (close items)
    | _ => throw .malformed
  match stage with
  | .itemHole =>
    match t with
    | .flowSeqEnd => pure (close items)
    | .key => pure { r with stack := .flowSeq props items .keyHole :: rest }
    | _ => throw .malformed
  | .keyDone k =>
    if t = .value then pure { r with stack := .flowSeq props items (.valueHole k) :: rest }
    else done (.map .none [(k, .empty .none)] :: items)
  | _ => done items

/-- a sign in a flow mapping in which no node is due, or at the place of an entry -/
def flowMapSign (props : Props) (entries : List (Node × Node)) (stage : FlowStage) (t : Token) (rest : List Frame)
    (r : Reader) : Except ReadFault Reader :=
  let close (entries : List (Node × Node)) : Reader := attach (.map props entries.reverse) { r with stack := rest }
  let done (entries : List (Node × Node)) : Except ReadFault Reader :=
    match t with
    | .comma => pure { r with stack := .flowMap props entries .itemHole :: rest }
    | .flowMapEnd => pure (close entries)
    | _ => throw .malformed
  match stage with
  | .itemHole =>
    match t with
    | .flowMapEnd => pure (close entries)
    | .key => pure { r with stack := .flowMap props entries .keyHole :: rest }
    | _ => throw .malformed
  | .keyDone k =>
    if t = .value then pure { r with stack := .flowMap props entries (.valueHole k) :: rest }
    else done ((k, .empty .none) :: entries)
  | _ => done entries

/-- a sign between documents -/
def streamSign (t : Token) (r : Reader) : Except ReadFault Reader :=
  match r.phase, t with
  | .complete _, .documentEnd => pure r
  | _, _ => throw .malformed

/-- a sign where no node is due -/
def sign (t : Token) (r : Reader) : Except ReadFault Reader :=
  match r.stack with
  | .seq false props items _ :: rest =>
    match t with
    | .dash => pure { r with stack := .seq false props items true :: rest }
    | .blockEnd => pure (attach (.seq props items.reverse) { r with stack := rest })
    | _ => throw .malformed
  | .seq true props items _ :: rest =>
    if t = .dash then pure { r with stack := .seq true props items true :: rest }
    else
      match rest with
      | f :: rest =>
        match Frame.fill (.seq props items.reverse) f with
        | .map props entries stage => mapSign props entries stage t rest r
        | _ => throw .malformed
      | [] => throw .malformed
  | .map props entries stage :: rest => mapSign props entries stage t rest r
  | .flowSeq props items stage :: rest => flowSeqSign props items stage t rest r
  | .flowMap props entries stage :: rest => flowMapSign props entries stage t rest r
  | [] => streamSign t r

/-! ## Nodes -/

def fullTag (handles : List (Text × Text)) : Option Text → Text → Except ReadFault Text
  | none, suffix => pure suffix
  | some handle, suffix =>
    match handles.lookup handle with
    | some full => pure (full ++ suffix)
    | none => throw .malformed

/-- a token where a node is due, if it starts one -/
def nodeStart (t : Token) (r : Reader) : Option (Except ReadFault Reader) :=
  match t with
  | .alias name => some (if r.pending = .none then pure (r.attach (.alias name)) else throw .malformed)
  | .scalar plain text => some (pure (r.attach (.scalar r.pending plain text)))
  | .flowSeqStart => some (pure (r.enter fun p => .flowSeq p [] .itemHole))
  | .flowMapStart => some (pure (r.enter fun p => .flowMap p [] .itemHole))
  | .blockSeq => some (pure (r.enter fun p => .seq false p [] false))
  | .blockMap => some (pure (r.enter fun p => .map p [] .ready))
  | .dash => if r.allowsBare then some (pure (r.enter fun p => .seq true p [] true)) else none
  | .anchor name =>
    some (if r.pending.anchor.isSome then throw .malformed
      else pure { r with pending := { r.pending with anchor := some name } })
  | .tag handle suffix =>
    some (if r.pending.tag.isSome then throw .malformed
      else do
        let full ← fullTag r.handles handle suffix
        pure { r with pending := { r.pending with tag := some full } })
  | _ => none

def inside (t : Token) (r : Reader) : Except ReadFault Reader :=
  if r.hasHole then
    match r.nodeStart t with
    | some result => result
    | none =>
      if r.pending ≠ .none || r.mayBeEmpty t then sign t (r.attach (.empty r.pending))
      else
        match r.stack with
        | .flowSeq props items .itemHole :: rest => flowSeqSign props items .itemHole t rest r
        | .flowMap props entries .itemHole :: rest => flowMapSign props entries .itemHole t rest r
        | _ => throw .malformed
  else sign t r

/-! ## Documents -/

def direct (d : Directive) (r : Reader) : Except ReadFault Reader :=
  let r := { r with phase := .directives }
  match d with
  | .version major _ => if r.versioned || major ≠ 1 then throw .malformed else pure { r with versioned := true }
  | .handle handle full =>
    if (r.handles.lookup handle).isSome then throw .malformed
    else pure { r with handles := (handle, full) :: r.handles }
  | .other => pure r

def step (r : Reader) (t : Token) : Except ReadFault Reader :=
  match r.phase, t with
  | .fresh, .directive d | .directives, .directive d => direct d r
  | .fresh, .documentStart | .directives, .documentStart =>
    pure { r with phase := .marked, handles := r.handles ++ commonHandles }
  | .directives, _ => throw .malformed
  | .fresh, t => inside t { r with phase := .bare, handles := commonHandles }
  | _, t => inside t r

/-- the document after the last token, if there is one -/
def finish (r : Reader) : Except ReadFault (Option Node) :=
  match r.stack with
  | _ :: _ => throw .malformed
  | [] =>
    match r.phase with
    | .fresh => pure none
    | .directives => throw .malformed
    | .marked => pure (some (.empty r.pending))
    | .bare => if r.pending = .none then throw .malformed else pure (some (.empty r.pending))
    | .complete root => pure (some root)

end Reader

/-- the one document that some tokens make up -/
def nodeOfTokens (ts : List Token) : Except ReadFault (Option Node) := do
  let r ← ts.foldlM Reader.step Reader.start
  r.finish

end RepoLens.Yaml
