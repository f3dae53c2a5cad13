import ClusterRegistrar.Number.Binary64
import ClusterRegistrar.Text.Blank
import ClusterRegistrar.Yaml.Error

/-! Numbers of YAML 1.1: integers in base 2, 8, 10, 16 and 60, and doubles in base 10 and 60.
Underscores separate digits and mean nothing. An explicit tag brings text here that no scalar of
that form would match, so every reader can refuse. -/
namespace ClusterRegistrar.Yaml

def takeSign (cs : List Char) : Bool × List Char :=
  match cs with
  | '-' :: rest => (true, rest)
  | '+' :: rest => (false, rest)
  | _ => (false, cs)

def baseLetter? (base : Nat) : Option Char :=
  if base = 16 then some 'x' else if base = 8 then some 'o' else if base = 2 then some 'b' else none

def dropBase (base : Nat) (cs : List Char) : List Char :=
  match cs with
  | '0' :: letter :: rest => if baseLetter? base = some letter.toLower then rest else cs
  | _ => cs

def readInt (base : Nat) (cs : List Char) : Except Fault Int :=
  let (negative, cs) := takeSign ((Blank.trim cs).map Blank.latinDigit)
  let digits := dropBase base cs
  if base = 10 ∧ Numeral.maxDecimal < digits.length then .error .malformedNumber
  else
    match Numeral.ofDigits? base digits with
    | some n => .ok (if negative then -(n : Int) else n)
    | none => .error .malformedNumber

def splitColons (cs : List Char) : List (List Char) := cs.splitOn ':'

def intOf (text : List Char) : Except Fault Int :=
  match text.filter (· ≠ '_') with
  | [] => .error .emptyNumber
  | cs =>
    let (negative, cs) := takeSign cs
    let signed (i : Int) : Int := if negative then -i else i
    match cs with
    | [] => .error .emptyNumber
    | ['0'] => .ok 0
    | '0' :: 'b' :: rest => (readInt 2 rest).map signed
    | '0' :: 'x' :: rest => (readInt 16 rest).map signed
    | '0' :: _ => (readInt 8 cs).map signed
    | _ =>
      if cs.contains ':' then do
        let places ← (splitColons cs).mapM (readInt 10)
        return signed (places.foldl (fun acc place => acc * 60 + place) 0)
      else (readInt 10 cs).map signed

def floatWord? (negative : Bool) (cs : List Char) : Option Binary64 :=
  if cs = "inf".toList ∨ cs = "infinity".toList then some (Binary64.infinity negative)
  else if cs = "nan".toList then some Binary64.nan
  else none

def decimalFloat? (negative : Bool) (cs : List Char) : Option Binary64 := do
  let whole := cs.takeWhile Numeral.isDigit
  let rest := cs.drop whole.length
  let (fraction, rest) := match rest with
    | '.' :: rest => rest.span Numeral.isDigit
    | _ => ([], rest)
  let m ← Numeral.ofDigits? 10 (whole ++ fraction)
  let exponent ← match rest with
    | [] => some 0
    | 'e' :: rest =>
      let (negative, digits) := takeSign rest
      (Numeral.ofDigits? 10 digits).map fun n => if negative then -(n : Int) else n
    | _ => none
  return Binary64.ofDecimal negative m (exponent - fraction.length)

def readFloat (cs : List Char) : Except Fault Binary64 :=
  let (negative, cs) := takeSign ((Blank.trim cs).map Blank.latinDigit)
  match floatWord? negative cs <|> decimalFloat? negative cs with
  | some x => .ok x
  | none => .error .malformedNumber

/-- Places in base 60, the least first, with the value of the place that comes next, which has to
be within the doubles even if the place holds zero. -/
def sexagesimal : List Binary64 → Nat → Binary64 → Except Fault Binary64
  | [], _, acc => .ok acc
  | digit :: rest, base, acc =>
    match Binary64.ofNat? base with
    | some factor => sexagesimal rest (base * 60) (acc.add (digit.mul factor))
    | none => .error .excessiveNumber

def isNanWord (text : List Char) : Bool :=
  (takeSign ((text.filter (· ≠ '_')).map Char.toLower)).2 = ".nan".toList

def floatOf (text : List Char) : Except Fault Binary64 :=
  match (text.filter (· ≠ '_')).map Char.toLower with
  | [] => .error .emptyNumber
  | cs =>
    let (negative, cs) := takeSign cs
    let signed (x : Binary64) : Binary64 := if negative then x.neg else x
    if cs = ".inf".toList then .ok (Binary64.infinity negative)
    else if cs = ".nan".toList then .ok Binary64.nan
    else if cs.contains ':' then do
      let places ← (splitColons cs).mapM readFloat
      return signed (← sexagesimal places.reverse 1 (Binary64.zero false))
    else (readFloat cs).map signed

end ClusterRegistrar.Yaml
