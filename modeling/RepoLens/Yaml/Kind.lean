import RepoLens.Value
/-!
What a plain scalar means by how it looks: null, a boolean, an integer in one of five notations, a floating-point
number, a date or a moment, one of two signs for keys, or else a text.
-/
namespace RepoLens.Yaml

inductive Kind where
  | null
  | bool
  | int
  | float
  | stamp
  /-- the key that merges other mappings -/
  | merge
  /-- the key that stands for a default -/
  | default
  | text
  deriving DecidableEq, Repr

namespace Kind

/-! ## Null and booleans -/

def nullWords : List Text := ["~", "null", "Null", "NULL", ""]

def trueWords : List Text := ["yes", "Yes", "YES", "true", "True", "TRUE", "on", "On", "ON"]

def falseWords : List Text := ["no", "No", "NO", "false", "False", "FALSE", "off", "Off", "OFF"]

/-! ## Numbers -/

/-- a text without a sign at its start -/
def unsigned : Text → Text
  | [] => []
  | c :: r => if c = '+' || c = '-' then r else c :: r

def isNegative (t : Text) : Bool := t.head? = some '-'

/-- digits of a base, with underscores -/
def isDigitOf (base : Nat) (c : Char) : Bool :=
  c = '_' || (c.isDigit && c.toNat - 48 < base) || (base = 16 && (('a' ≤ c && c ≤ 'f') || ('A' ≤ c && c ≤ 'F')))

def allDigits (base : Nat) (t : Text) : Bool := !t.isEmpty && t.all (isDigitOf base)

def digitValue (c : Char) : Nat := if c.isDigit then c.toNat - 48 else c.toLower.toNat - 87

/-- value of some digits; underscores count for nothing -/
def natOf (base : Nat) (t : Text) : Nat :=
  (t.filter (· ≠ '_')).foldl (fun n c => base * n + digitValue c) 0

/-- minutes or seconds after a colon: one digit, or two below sixty -/
def isSixtieth (t : Text) : Bool :=
  match t with
  | [a] => a.isDigit
  | [a, b] => '0' ≤ a && a ≤ '5' && b.isDigit
  | _ => false

/-- a number that starts with a digit other than zero -/
def isCounting (t : Text) : Bool := allDigits 10 t && t.head?.any fun c => '1' ≤ c && c ≤ '9'

/-- value of parts between colons, each worth sixty of the next -/
def sexagesimal (parts : List Nat) : Nat := parts.foldl (fun n p => 60 * n + p) 0

/-- the size of an integer: binary, octal, hexadecimal, decimal, or in sixtieths -/
def natOfInt? : Text → Option Nat
  | ['0'] => some 0
  | '0' :: 'b' :: r => if allDigits 2 r then some (natOf 2 r) else none
  | '0' :: 'x' :: r => if allDigits 16 r then some (natOf 16 r) else none
  | '0' :: r => if allDigits 8 r then some (natOf 8 r) else none
  | t =>
    match Text.cutAt (· = ':') t with
    | [digits] => if isCounting digits then some (natOf 10 digits) else none
    | first :: rest =>
      if isCounting first && rest.all isSixtieth then some (sexagesimal ((first :: rest).map (natOf 10))) else none
    | [] => none

/-- the digits of an integer that are read to base ten -/
def decimalDigits (t : Text) : Text :=
  match unsigned t with
  | '0' :: _ => []
  | t => ((Text.cutAt (· = ':') t).headD []).filter (· ≠ '_')

def intOf? (t : Text) : Option Int :=
  (natOfInt? (unsigned t)).map fun n => if isNegative t then -(n : Int) else n

/-- a number times a power of ten, rounded once; powers that leave the range of doubles are not computed -/
def scaled (m : Nat) (e : Int) : Float :=
  let size := (Nat.toDigits 10 m).length
  if m = 0 || e + size < -400 then 0
  else if 400 < e + size then 1 / 0
  else if 0 ≤ e then OfScientific.ofScientific m false e.toNat
  else OfScientific.ofScientific m true (-e).toNat

/-- an exponent: nothing, or a letter, a sign and digits -/
def exponentOf? : Text → Option Int
  | [] => some 0
  | e :: s :: r =>
    if (e = 'e' || e = 'E') && (s = '+' || s = '-') && !r.isEmpty && r.all Char.isDigit then
      some (if s = '-' then -(natOf 10 r : Int) else natOf 10 r)
    else none
  | _ => none

/-- a number with a point: digits before it, digits after it, an exponent -/
def decimalOf? (whole fraction : Text) (exponent : Int) : Float :=
  let digits (t : Text) := t.filter (· ≠ '_')
  scaled (natOf 10 (whole ++ fraction)) (exponent - (digits fraction).length)

def floatSize? (t : Text) : Option Float :=
  let whole := t.takeWhile fun c => c ≠ '.'
  match t.drop whole.length with
  | [] => none
  | _ :: r =>
    let fraction := r.takeWhile (isDigitOf 10)
    let rest := r.drop fraction.length
    match Text.cutAt (· = ':') whole with
    | [digits] =>
      let starts := if digits.isEmpty then fraction.head?.any Char.isDigit
        else allDigits 10 digits && digits.head?.any Char.isDigit
      if starts then (exponentOf? rest).map (decimalOf? digits fraction) else none
    | first :: more =>
      if rest.isEmpty && allDigits 10 first && first.head?.any Char.isDigit && more.all isSixtieth then
        let parts := (first :: more).map (natOf 10)
        let before := sexagesimal (parts.dropLast) * 60
        some (Float.ofNat before + decimalOf? (more.getLastD []) fraction 0)
      else none
    | [] => none

def isInfinity (t : Text) : Bool :=
  let u := unsigned t
  u = ".inf" || u = ".Inf" || u = ".INF"

/-- the floating-point number of a plain scalar; a sign needs a digit before the point -/
def floatOf? (t : Text) : Option Float :=
  let sign (x : Float) : Float := if isNegative t then -x else x
  if isInfinity t then some (sign (1 / 0))
  else if t = ".nan" || t = ".NaN" || t = ".NAN" then some (0 / 0)
  else if (unsigned t).head? = some '.' && (unsigned t).length < t.length then none
  else (floatSize? (unsigned t)).map sign

/-! ## Dates -/

/-- so many digits, or one more if it may be, and the text after them -/
def someDigits (least most : Nat) (t : Text) : Option (Nat × Text) :=
  let digits := (t.take most).takeWhile Char.isDigit
  if least ≤ digits.length then some (natOf 10 digits, t.drop digits.length) else none

/-- the text after a sign -/
def afterSign (c : Char) (t : Text) : Option Text :=
  match t with
  | d :: r => if d = c then some r else none
  | [] => none

/-- millionths of a second after a point; more digits are dropped -/
def micros (digits : Text) : Nat := natOf 10 ((digits ++ List.replicate 6 '0').take 6)

/-- the distance from universal time at the end of a moment -/
def offsetOf? (t : Text) : Option (Option Int) :=
  match t.dropWhile fun c => c = ' ' || c = '\t' with
  | [] => if t.isEmpty then some none else none
  | ['Z'] => some (some 0)
  | s :: r =>
    if s = '+' || s = '-' then do
      let (hours, r) ← someDigits 1 2 r
      let minutes ← match r with
        | [] => some 0
        | ':' :: r => do
          let (minutes, r) ← someDigits 2 2 r
          if r.isEmpty then some minutes else none
        | _ => none
      let total : Int := hours * 60 + minutes
      some (some (if s = '-' then -total else total))
    else none

/-- a time of day and the distance after it -/
def clockOf? (t : Text) : Option (Clock × Option Int) := do
  let (hour, t) ← someDigits 1 2 t
  let t ← afterSign ':' t
  let (minute, t) ← someDigits 2 2 t
  let t ← afterSign ':' t
  let (second, t) ← someDigits 2 2 t
  let (fraction, t) := match t with
    | '.' :: r => (r.takeWhile Char.isDigit, r.dropWhile Char.isDigit)
    | t => ([], t)
  let offset ← offsetOf? t
  some (⟨hour, minute, second, micros fraction⟩, offset)

/-- the stamp of a plain scalar, whether it exists or not; a day alone has two digits for month and day -/
def stampOf? (t : Text) : Option Stamp := do
  let (year, t) ← someDigits 4 4 t
  let t ← afterSign '-' t
  let (month, u) ← someDigits 1 2 t
  let u ← afterSign '-' u
  let (day, r) ← someDigits 1 2 u
  let date : Date := ⟨year, month, day⟩
  match r with
  | [] => if t.length = 5 && u.length = 2 then some (.day date) else none
  | c :: s => do
    let s ← if c = 'T' || c = 't' then some s
      else if c = ' ' || c = '\t' then some (s.dropWhile fun c => c = ' ' || c = '\t') else none
    let (clock, offset) ← clockOf? s
    some (.moment date clock offset)

/-! ## The kind -/

def ofPlain (t : Text) : Kind :=
  if nullWords.contains t then .null
  else if trueWords.contains t || falseWords.contains t then .bool
  else if (floatOf? t).isSome then .float
  else if (intOf? t).isSome then .int
  else if t = "<<" then .merge
  else if (stampOf? t).isSome then .stamp
  else if t = "=" then .default
  else .text

end Kind

end RepoLens.Yaml
