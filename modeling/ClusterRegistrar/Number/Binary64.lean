import ClusterRegistrar.Text.Numeral

/-! Double precision numbers by their bit pattern. `form` takes a pattern apart into sign,
significand and exponent; `ofRatio` rounds an exact quotient to the nearest pattern, a tie to the
even one. Everything here is exact arithmetic on natural numbers. -/
namespace ClusterRegistrar

structure Binary64 where
  bits : UInt64
deriving DecidableEq, Repr, Inhabited

namespace Binary64

/-- What a bit pattern stands for; `finite neg m q` is `m * 2 ^ q` under the sign. -/
inductive Form where
  | nan
  | infinity (negative : Bool)
  | finite (negative : Bool) (m : Nat) (q : Int)
deriving DecidableEq, Repr

def isNegative (x : Binary64) : Bool := Nat.pow 2 63 ≤ x.bits.toNat

def magnitude (x : Binary64) : Nat := x.bits.toNat % Nat.pow 2 63

def form (x : Binary64) : Form :=
  let biased : Nat := x.magnitude / Nat.pow 2 52
  let fraction : Nat := x.magnitude % Nat.pow 2 52
  if biased = 2047 then
    if fraction = 0 then .infinity x.isNegative else .nan
  else if biased = 0 then .finite x.isNegative fraction (-1074)
  else .finite x.isNegative (Nat.pow 2 52 + fraction) ((biased : Int) - 1075)

def ofMagnitude (negative : Bool) (magnitude : Nat) : Binary64 :=
  ⟨UInt64.ofNat (if negative then Nat.pow 2 63 + magnitude else magnitude)⟩

def infinity (negative : Bool) : Binary64 := ofMagnitude negative (2047 * Nat.pow 2 52)

def nan : Binary64 := ofMagnitude false (2047 * Nat.pow 2 52 + Nat.pow 2 51)

def zero (negative : Bool) : Binary64 := ofMagnitude negative 0

def roundDiv (num den : Nat) : Nat :=
  let quotient := num / den
  let rest := 2 * (num % den)
  if rest < den then quotient
  else if den < rest then quotient + 1
  else quotient + quotient % 2

def scaledRound (num den : Nat) (e : Int) : Nat :=
  if e < 0 then roundDiv (num * Nat.pow 2 (-e).toNat) den
  else roundDiv num (den * Nat.pow 2 e.toNat)

/-- The number nearest to a quotient of naturals, a tie to the even significand. A significand
that rounds up to `2 ^ 53` carries into the exponent field by plain addition. -/
def ofRatio (negative : Bool) (num den : Nat) : Binary64 :=
  if num = 0 ∨ den = 0 then zero negative else
  let guess : Int := (num.log2 : Int) - den.log2
  let below : Bool :=
    if guess < 0 then num * Nat.pow 2 (-guess).toNat < den else num < den * Nat.pow 2 guess.toNat
  let exponent : Int := max ((if below then guess - 1 else guess) - 52) (-1074)
  let magnitude := (exponent + 1074).toNat * Nat.pow 2 52 + scaledRound num den exponent
  if 2047 * Nat.pow 2 52 ≤ magnitude then infinity negative else ofMagnitude negative magnitude

/-- The number nearest to `m * 10 ^ e`. Exponents far outside the range are decided by the number
of digits alone. -/
def ofDecimal (negative : Bool) (m : Nat) (e : Int) : Binary64 :=
  if m = 0 then zero negative
  else
    let size : Int := (Numeral.decimal m).length + e
    if 310 < size then infinity negative
    else if size < -330 then zero negative
    else if e < 0 then ofRatio negative m (Nat.pow 10 (-e).toNat)
    else ofRatio negative (m * Nat.pow 10 e.toNat) 1

def ofNat (n : Nat) : Binary64 := ofRatio false n 1

/-- The number nearest to a natural number, unless it is beyond all finite ones. -/
def ofNat? (n : Nat) : Option Binary64 :=
  let x := ofNat n
  if x = infinity false then none else some x

def toFloat (x : Binary64) : Float := Float.ofBits x.bits

def ofFloat (x : Float) : Binary64 := if x.isNaN then nan else ⟨x.toBits⟩

def add (x y : Binary64) : Binary64 := ofFloat (x.toFloat + y.toFloat)

def mul (x y : Binary64) : Binary64 := ofFloat (x.toFloat * y.toFloat)

def neg (x : Binary64) : Binary64 := ofMagnitude (!x.isNegative) x.magnitude

def isZero (x : Binary64) : Bool := x.magnitude = 0

def isNan (x : Binary64) : Bool := x.form = .nan

def same (x y : Binary64) : Bool :=
  !x.isNan && !y.isNan && (x.bits = y.bits || (x.isZero && y.isZero))

def isInt (x : Binary64) (i : Int) : Bool :=
  match x.form with
  | .finite negative m q =>
    let signed : Int := if negative then -(m : Int) else m
    if q < 0 then signed = i * Int.pow 2 (-q).toNat else signed * Int.pow 2 q.toNat = i
  | _ => false

end Binary64
end ClusterRegistrar
