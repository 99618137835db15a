import RepoLens.Mismatch
/-!
JSON text of a value, one item a line and two spaces of indentation a level. Everything outside printable ASCII is
written with `\u` escapes, characters above U+FFFF as a surrogate pair, so the text is pure ASCII.
-/
namespace RepoLens.Json

def unitEscape (n : Nat) : Text := '\\' :: 'u' :: Text.hex 4 n

def stringChar (c : Char) : Text :=
  if c = '"' || c = '\\' then ['\\', c]
  else if c = '\n' then "\\n"
  else if c = '\r' then "\\r"
  else if c = '\t' then "\\t"
  else if c.toNat = 8 then "\\b"
  else if c.toNat = 12 then "\\f"
  else if 0x20 ≤ c.toNat && c.toNat < 0x7F then [c]
  else if c.toNat < 0x10000 then unitEscape c.toNat
  else
    let n := c.toNat - 0x10000
    unitEscape (0xD800 + n / 1024) ++ unitEscape (0xDC00 + n % 1024)

def string (t : Text) : Text := '"' :: (t.flatMap stringChar ++ ['"'])

/-- a new line at a level of indentation -/
def newLine (level : Nat) : Text := '\n' :: Text.spaces (2 * level)

def number (x : Float) : Text := Decimal.ofFloat "NaN" "Infinity" x

def integer (n : Int) : Except Mismatch Text := if Text.canWrite n then pure (Text.ofInt n) else throw (.number .tooLarge)

/-- the text of a key: numbers, booleans and null are written as strings too -/
def key : Value → Except Mismatch Text
  | .text t => pure t
  | .int n => integer n
  | .float x => pure (number x)
  | .bool b => pure (if b then "true" else "false")
  | .null => pure "null"
  | v => throw (.noJsonKey v.kind)

mutual

/-- the text of a value at a level of indentation -/
def render (level : Nat) : Value → Except Mismatch Text
  | .null => pure "null"
  | .bool b => pure (if b then "true" else "false")
  | .int n => integer n
  | .float x => pure (number x)
  | .text t => pure (string t)
  | .stamp s => throw (.noJson (Value.stamp s).kind)
  | .list _ [] => pure "[]"
  | .list _ (v :: r) => do
    let first ← render (level + 1) v
    let rest ← renderItems (level + 1) r
    pure ('[' :: (newLine (level + 1) ++ (first ++ (rest ++ (newLine level ++ [']'])))))
  | .map _ [] => pure ['{', '}']
  | .map _ ((k, v) :: r) => do
    let name ← key k
    let first ← render (level + 1) v
    let rest ← renderEntries (level + 1) r
    pure ('{' :: (newLine (level + 1) ++ (string name ++ (": " ++ (first ++ (rest ++ (newLine level ++ ['}'])))))))

def renderItems (level : Nat) : List Value → Except Mismatch Text
  | [] => pure []
  | v :: r => do
    let item ← render level v
    let rest ← renderItems level r
    pure (',' :: (newLine level ++ (item ++ rest)))

def renderEntries (level : Nat) : List (Value × Value) → Except Mismatch Text
  | [] => pure []
  | (k, v) :: r => do
    let name ← key k
    let item ← render level v
    let rest ← renderEntries level r
    pure (',' :: (newLine level ++ (string name ++ (": " ++ (item ++ rest)))))

end

end RepoLens.Json
