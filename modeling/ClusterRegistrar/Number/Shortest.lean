import ClusterRegistrar.Number.Binary64

/-! Shortest decimal text of a double: of the decimals that read back as the number, those with
the fewest digits, and of these the nearest one. `shortest` finds digits and exponent in exact
arithmetic; a `FloatStyle` says how they are laid out. -/
namespace ClusterRegistrar

structure Decimal where
  digits : Nat
  exponent : Int
deriving DecidableEq, Repr

namespace Binary64

def stripZeros : Nat → Decimal → Decimal
  | 0, d => d
  | fuel + 1, d =>
    if d.digits ≠ 0 ∧ d.digits % 10 = 0 then stripZeros fuel ⟨d.digits / 10, d.exponent + 1⟩ else d

/-- Factors `(a, b)` such that `x * 2 ^ s` compares with `c * 10 ^ k` as `x * a` with `c * b`. -/
def crossFactors (s k : Int) : Nat × Nat :=
  (Nat.pow 2 s.toNat * Nat.pow 10 (-k).toNat, Nat.pow 2 (-s).toNat * Nat.pow 10 k.toNat)

/-- The greatest `p` with `10 ^ p ≤ x * 2 ^ s`, for positive `x`. -/
def decimalOrder (x : Nat) (s : Int) : Int :=
  let guess : Int := Int.fdiv (((x.log2 : Int) + s) * 30103) 100000
  let reaches (k : Int) : Bool :=
    let f := crossFactors s k
    f.2 ≤ x * f.1
  if reaches (guess + 1) then guess + 1 else if reaches guess then guess else guess - 1

/-- The grid of decimals with `n` digits: its point in the rounding interval of `m * 2 ^ q` that is
nearest to it, if one of the two neighbours of the number lies there. -/
def onGrid? (m : Nat) (q : Int) (n : Nat) : Option Decimal :=
  let s := q - 2
  let value := 4 * m
  let low := if m = Nat.pow 2 52 ∧ -1074 < q then value - 1 else value - 2
  let high := value + 2
  let k := decimalOrder value s - n + 1
  let f := crossFactors s k
  let inside (c : Nat) : Bool :=
    if m % 2 = 0 then low * f.1 ≤ c * f.2 ∧ c * f.2 ≤ high * f.1
    else low * f.1 < c * f.2 ∧ c * f.2 < high * f.1
  let below := value * f.1 / f.2
  let above := below + 1
  let fromBelow := value * f.1 - below * f.2
  let toAbove := above * f.2 - value * f.1
  let pick (c : Nat) : Option Decimal := some ⟨c, k⟩
  if inside below && inside above then
    if fromBelow < toAbove then pick below
    else if toAbove < fromBelow then pick above
    else if below % 2 = 0 then pick below else pick above
  else if inside below then pick below
  else if inside above then pick above
  else none

/-- The first grid, from one digit to seventeen, that has a point in the rounding interval. -/
def shortest (m : Nat) (q : Int) : Decimal :=
  if m = 0 then ⟨0, 0⟩
  else
    match (List.range 17).findSome? fun i => onGrid? m q (i + 1) with
    | some d => stripZeros 17 d
    | none => ⟨0, 0⟩

end Binary64

structure FloatStyle where
  /-- The least power of ten of the leading digit that is written positionally. -/
  leastPositional : Int
  greatestPositional : Int
  exponentWidth : Nat
  pointBeforeExponent : Bool
  positiveInfinity : String
  negativeInfinity : String
  notANumber : String

namespace FloatStyle

/-- Significand and exponent in a style: `1.5e-07`. -/
def scientific (style : FloatStyle) (digits : List Char) (order : Int) : List Char :=
  let significand := match digits with
    | [] => []
    | [d] => if style.pointBeforeExponent then [d, '.', '0'] else [d]
    | d :: rest => d :: '.' :: rest
  let sign := if order < 0 then '-' else '+'
  significand ++ 'e' :: sign :: Numeral.decimalPadded style.exponentWidth order.natAbs

/-- Digits with the point at its place; a whole number ends in `.0`. -/
def positional (digits : List Char) (order : Int) : List Char :=
  if order < 0 then
    '0' :: '.' :: (List.replicate ((-order).toNat - 1) '0' ++ digits)
  else
    let whole := order.toNat + 1
    let left := digits.take whole ++ List.replicate (whole - digits.length) '0'
    let right := digits.drop whole
    left ++ '.' :: (if right.isEmpty then ['0'] else right)

def write (style : FloatStyle) (x : Binary64) : String :=
  match x.form with
  | .nan => style.notANumber
  | .infinity negative => if negative then style.negativeInfinity else style.positiveInfinity
  | .finite negative m q =>
    let d := Binary64.shortest m q
    let digits := Numeral.decimal d.digits
    let order : Int := if m = 0 then 0 else d.exponent + digits.length - 1
    let body :=
      if style.leastPositional ≤ order ∧ order ≤ style.greatestPositional then
        positional digits order
      else style.scientific digits order
    String.ofList (if negative then '-' :: body else body)

end FloatStyle
end ClusterRegistrar
