import RepoLens.Text
/-!
The shortest decimal of a binary double: the fewest digits that read back as the same number, and of those the ones
nearest to it. Everything is exact arithmetic on natural numbers. A finite positive double is `m * 2 ^ q`; the reals
that round to it form an interval around it, closed when `m` is even. For one digit, two digits and so on, the two
neighbours of the value on that decimal grid are tried, and the first grid with a hit gives the digits.
-/
namespace RepoLens.Decimal

/-- an exact non-negative quotient -/
structure Quotient where
  num : Nat
  den : Nat
  deriving DecidableEq, Repr

def Quotient.le (a b : Quotient) : Bool := a.num * b.den ≤ b.num * a.den

def Quotient.lt (a b : Quotient) : Bool := a.num * b.den < b.num * a.den

/-- a quotient times a power of a base with any exponent -/
def Quotient.scale (a : Quotient) (base : Nat) (e : Int) : Quotient :=
  if 0 ≤ e then ⟨a.num * base.pow e.toNat, a.den⟩ else ⟨a.num, a.den * base.pow (-e).toNat⟩

/-- a value and the interval of reals that round to it -/
structure Target where
  value : Quotient
  low : Quotient
  high : Quotient
  closed : Bool
  deriving DecidableEq, Repr

def Target.hit (t : Target) (x : Quotient) : Bool :=
  if t.closed then t.low.le x && x.le t.high else t.low.lt x && x.lt t.high

/-- how many fractions a double has under one exponent -/
def fractions : Nat := 0x10000000000000

/-- the target of the double with the given exponent field and fraction field -/
def target (exponent fraction : Nat) : Target :=
  let m := if exponent = 0 then fraction else fraction + fractions
  let q : Int := if exponent = 0 then -1074 else (exponent : Int) - 1075
  let below := if fraction = 0 && 1 < exponent then 1 else 2
  let quarters (n : Nat) : Quotient := Quotient.scale ⟨n, 1⟩ 2 (q - 2)
  ⟨quarters (4 * m), quarters (4 * m - below), quarters (4 * m + 2), m % 2 = 0⟩

/-- the exponent of the first decimal digit of a positive quotient, within the range of doubles -/
def leadingExponent (v : Quotient) : Int :=
  match (List.range 640).find? fun i : Nat => v.lt (Quotient.scale ⟨1, 1⟩ 10 ((i : Int) - 330 + 1)) with
  | some i => (i : Int) - 330
  | none => 310

/-- the hit nearest to the value on the grid of step `10 ^ k`, as a multiple of the step -/
def onGrid (t : Target) (k : Int) : Option Nat :=
  let scaled := t.value.scale 10 (-k)
  let below := scaled.num / scaled.den
  let point (d : Nat) : Quotient := Quotient.scale ⟨d, 1⟩ 10 k
  let twiceRest := 2 * (scaled.num % scaled.den)
  match t.hit (point below), t.hit (point (below + 1)) with
  | true, true =>
    if twiceRest < scaled.den then some below
    else if scaled.den < twiceRest then some (below + 1)
    else some (if below % 2 = 0 then below else below + 1)
  | true, false => some below
  | false, true => some (below + 1)
  | false, false => none

/-- digits of a positive number and the place of its point: `(d, p)` is `0.d * 10 ^ p` -/
def shortest (t : Target) : Text × Int :=
  let e := leadingExponent t.value
  match (List.range 17).findSome? fun n : Nat => (onGrid t (e - (n : Int))).map fun d => (d, e - (n : Int)) with
  | some (d, k) =>
    let digits := Nat.toDigits 10 d
    let kept := (digits.reverse.dropWhile (· = '0')).reverse
    (kept, k + digits.length)
  | none => (['0'], 1)

/-- positional from 10⁻⁴ up to 10¹⁶, with a point and at least one digit after it; otherwise with a two-digit
exponent -/
def layOut (digits : Text) (point : Int) : Text :=
  if -4 < point && point ≤ 16 then
    if point ≤ 0 then "0." ++ (List.replicate (-point).toNat '0' ++ digits)
    else
      let whole := point.toNat
      if digits.length ≤ whole then digits ++ (List.replicate (whole - digits.length) '0' ++ ".0")
      else digits.take whole ++ ('.' :: digits.drop whole)
  else
    let e := point - 1
    let body : Text :=
      match digits with
      | [d] => [d]
      | d :: r => d :: '.' :: r
      | [] => ['0']
    let size := Nat.toDigits 10 e.natAbs
    body ++ ('e' :: (if e < 0 then '-' else '+') :: (List.replicate (2 - size.length) '0' ++ size))

/-- the bits of a double: sign, exponent field and fraction field -/
def parts (x : Float) : Bool × Nat × Nat :=
  let bits := x.toBits.toNat
  (bits / (2048 * fractions) = 1, bits / fractions % 2048, bits % fractions)

/-- the shortest text of a double, with the given texts for what is not a number and for infinity -/
def ofFloat (nan inf : Text) (x : Float) : Text :=
  let (negative, exponent, fraction) := parts x
  if exponent = 2047 && fraction ≠ 0 then nan
  else
    let size :=
      if exponent = 2047 then inf
      else if exponent = 0 && fraction = 0 then "0.0"
      else
        let (digits, point) := shortest (target exponent fraction)
        layOut digits point
    if negative then '-' :: size else size

/-- the integer that a double is equal to, if there is one -/
def toInt? (x : Float) : Option Int :=
  let (negative, exponent, fraction) := parts x
  if exponent = 2047 then none
  else
    let v := (target exponent fraction).value
    if v.num % v.den = 0 then
      let n : Int := v.num / v.den
      some (if negative then -n else n)
    else none

end RepoLens.Decimal
