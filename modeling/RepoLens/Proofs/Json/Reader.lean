import RepoLens.Value.Json
import RepoLens.Yaml.Kind
/-!
Reading JSON. A text is read character by character into tokens, and the tokens one by one into a value, by two machines that
take one step at a time. The grammar is the strict one: no control characters in a string, no stray commas, no characters
after the value, surrogates only in pairs. Of two entries under one key the later one counts.
-/
namespace RepoLens.Json

open Text

/-! ## Tokens -/

inductive Token where
  | openList
  | closeList
  | openMap
  | closeMap
  | comma
  | colon
  /-- a string, a number, or one of the three words -/
  | item (v : Value)

/-- the token that a character is -/
def mark? (c : Char) : Option Token :=
  if c = '[' then some .openList
  else if c = ']' then some .closeList
  else if c = '{' then some .openMap
  else if c = '}' then some .closeMap
  else if c = ',' then some .comma
  else if c = ':' then some .colon
  else none

/-- the words, by their first letter: the letters that follow, and the value -/
def word? (c : Char) : Option (Text × Value) :=
  if c = 'n' then some ("ull", .null)
  else if c = 't' then some ("rue", .bool true)
  else if c = 'f' then some ("alse", .bool false)
  else none

/-- the digits at the start of a text, of which there has to be one, and what follows -/
def digits? (t : Text) : Option (Text × Text) :=
  let ds := t.takeWhile Char.isDigit
  if ds.isEmpty then none else some (ds, t.drop ds.length)

/-- the digits before the point: a zero stands alone -/
def whole? (t : Text) : Option (Text × Text) := do
  let (ds, rest) ← digits? t
  if ds.head? = some '0' && 1 < ds.length then none else some (ds, rest)

/-- the digits after the point, if there is one -/
def fraction? : Text → Option (Text × Text)
  | '.' :: r => digits? r
  | t => some ([], t)

/-- the exponent, if there is one; nothing may follow it -/
def exponent? : Text → Option (Option Int)
  | [] => some none
  | e :: r =>
    if e = 'e' || e = 'E' then
      let (sign, r) : Int × Text := match r with
        | '-' :: r => (-1, r)
        | '+' :: r => (1, r)
        | r => (1, r)
      match digits? r with
      | some (ds, []) => some (some (sign * Yaml.Kind.natOf 10 ds))
      | _ => none
    else none

/-- the number that a text stands for: an integer, or a double if there is a fraction or an exponent -/
def number? (t : Text) : Option Value := do
  let (negative, t) : Bool × Text := match t with
    | '-' :: r => (true, r)
    | t => (false, t)
  let (whole, t) ← whole? t
  let (fraction, t) ← fraction? t
  match ← exponent? t, fraction with
  | none, [] =>
    let n : Int := Yaml.Kind.natOf 10 whole
    pure (.int (if negative then -n else n))
  | e, _ =>
    let x := Yaml.Kind.scaled (Yaml.Kind.natOf 10 (whole ++ fraction)) (e.getD 0 - fraction.length)
    pure (.float (if negative then -x else x))

/-- the character of a short escape -/
def escaped? (c : Char) : Option Nat :=
  if c = '"' || c = '\\' || c = '/' then some c.toNat
  else if c = 'n' then some 10
  else if c = 'r' then some 13
  else if c = 't' then some 9
  else if c = 'b' then some 8
  else if c = 'f' then some 12
  else none

/-- the code units of a character: one of sixteen bits, or a pair of surrogates -/
def units (c : Char) : List Nat :=
  if c.toNat < 0x10000 then [c.toNat] else [0xD800 + (c.toNat - 0x10000) / 1024, 0xDC00 + (c.toNat - 0x10000) % 1024]

/-- the text that code units stand for; surrogates stand in pairs -/
def text? : List Nat → Option Text
  | [] => some []
  | n :: r =>
    if 0xD800 ≤ n && n < 0xDC00 then
      match r with
      | [] => none
      | m :: r =>
        if 0xDC00 ≤ m && m < 0xE000 then
          (text? r).map (Char.ofNat (0x10000 + (n - 0xD800) * 1024 + (m - 0xDC00)) :: ·)
        else none
    else if 0xDC00 ≤ n && n < 0xE000 || 0x10000 ≤ n then none
    else (text? r).map (Char.ofNat n :: ·)

/-! ## Scanning -/

/-- where in a token a scan stands -/
inductive Mode where
  | between
  /-- in a number -/
  | number (t : Text)
  /-- in a word, with the letters that have to come -/
  | word (left : Text) (v : Value)
  /-- in a string, with the code units so far -/
  | chars (us : List Nat)
  /-- after a backslash -/
  | escape (us : List Nat)
  /-- in an escape that gives a code unit, with the number of digits that have to come and the value of the others -/
  | unit (us : List Nat) (left n : Nat)

/-- a scan: the tokens that are complete, and the one in hand -/
structure Scan where
  tokens : List Token
  mode : Mode

namespace Scan

/-- the first character of a token, or a blank -/
def start (tokens : List Token) (c : Char) : Option Scan :=
  if c = ' ' || c = '\n' || c = '\r' || c = '\t' then some ⟨tokens, .between⟩
  else if c = '"' then some ⟨tokens, .chars []⟩
  else if c = '-' || c.isDigit then some ⟨tokens, .number [c]⟩
  else
    match word? c with
    | some (left, v) => some ⟨tokens, .word left v⟩
    | none => (mark? c).map fun m => ⟨tokens ++ [m], .between⟩

def step (s : Scan) (c : Char) : Option Scan :=
  match s.mode with
  | .between => start s.tokens c
  | .number t =>
    if c.isDigit || c = '.' || c = 'e' || c = 'E' || c = '+' || c = '-' then some ⟨s.tokens, .number (t ++ [c])⟩
    else (number? t).bind fun v => start (s.tokens ++ [.item v]) c
  | .word [] _ => none
  | .word (d :: left) v =>
    if c ≠ d then none
    else if left.isEmpty then some ⟨s.tokens ++ [.item v], .between⟩
    else some ⟨s.tokens, .word left v⟩
  | .chars us =>
    if c = '"' then (text? us).map fun t => ⟨s.tokens ++ [.item (.text t)], .between⟩
    else if c = '\\' then some ⟨s.tokens, .escape us⟩
    else if c.toNat < 0x20 then none
    else some ⟨s.tokens, .chars (us ++ units c)⟩
  | .escape us =>
    if c = 'u' then some ⟨s.tokens, .unit us 4 0⟩
    else (escaped? c).map fun n => ⟨s.tokens, .chars (us ++ [n])⟩
  | .unit us left n =>
    (hexValue? c).map fun d =>
      if left ≤ 1 then ⟨s.tokens, .chars (us ++ [16 * n + d])⟩ else ⟨s.tokens, .unit us (left - 1) (16 * n + d)⟩

/-- the tokens at the end of the text -/
def finish (s : Scan) : Option (List Token) :=
  match s.mode with
  | .between => some s.tokens
  | .number t => (number? t).map fun v => s.tokens ++ [.item v]
  | _ => none

end Scan

def tokens? (t : Text) : Option (List Token) := (t.foldlM Scan.step ⟨[], .between⟩).bind Scan.finish

/-! ## Values from tokens -/

/-- a collection that is not complete -/
inductive Frame where
  | list (items : List Value)
  /-- a mapping, and the key whose value has to come -/
  | map (entries : List (Value × Value)) (key : Text)

/-- what has to come next, with the collections around it, the innermost first -/
inductive Awaited where
  | value (stack : List Frame)
  /-- a value, or the end of a list that has just begun -/
  | first (stack : List Frame)
  /-- a key, or the end of a mapping that has just begun -/
  | key (entries : List (Value × Value)) (fresh : Bool) (stack : List Frame)
  | colon (entries : List (Value × Value)) (key : Text) (stack : List Frame)
  /-- a comma or the end of the collection that the value stands in; or the end of the text -/
  | more (v : Value) (stack : List Frame)

namespace Awaited

/-- the first token of a value -/
def begin (stack : List Frame) : Token → Option Awaited
  | .item v => some (.more v stack)
  | .openList => some (.first stack)
  | .openMap => some (.key [] true stack)
  | _ => none

/-- one more token -/
def step : Awaited → Token → Option Awaited
  | value stack, m => begin stack m
  | first stack, .closeList => some (.more (.list none []) stack)
  | first stack, m => begin (.list [] :: stack) m
  | key es _ stack, .item (.text k) => some (.colon es k stack)
  | key es true stack, .closeMap => some (.more (.map none es) stack)
  | colon es k stack, .colon => some (.value (.map es k :: stack))
  | more v (.list vs :: stack), .comma => some (.value (.list (vs ++ [v]) :: stack))
  | more v (.list vs :: stack), .closeList => some (.more (.list none (vs ++ [v])) stack)
  | more v (.map es k :: stack), .comma => some (.key (Value.assign (.text k) v es) false stack)
  | more v (.map es k :: stack), .closeMap => some (.more (.map none (Value.assign (.text k) v es)) stack)
  | _, _ => none

def finish : Awaited → Option Value
  | more v [] => some v
  | _ => none

end Awaited

def read (t : Text) : Option Value := do
  let tokens ← tokens? t
  let awaited ← tokens.foldlM Awaited.step (.value [])
  awaited.finish

end RepoLens.Json
