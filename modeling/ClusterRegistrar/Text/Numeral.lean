/-! Digits and numerals: reading digits in a base, writing them in a fixed or a free width.
Reading and writing share `digitValue?` and `digitChar`, which undo each other below sixteen. -/
namespace ClusterRegistrar.Numeral

def digitValue? (c : Char) : Option Nat :=
  if '0' ≤ c ∧ c ≤ '9' then some (c.toNat - '0'.toNat)
  else if 'a' ≤ c ∧ c ≤ 'z' then some (c.toNat - 'a'.toNat + 10)
  else if 'A' ≤ c ∧ c ≤ 'Z' then some (c.toNat - 'A'.toNat + 10)
  else none

def digitIn? (base : Nat) (c : Char) : Option Nat :=
  (digitValue? c).filter (· < base)

def isDigit (c : Char) : Bool := '0' ≤ c && c ≤ '9'

def isHexDigit (c : Char) : Bool := (digitIn? 16 c).isSome

/-- The number that a list of digits writes, most significant first; nothing for an empty list
or for a character that is no digit of the base. -/
def ofDigits? (base : Nat) (cs : List Char) : Option Nat :=
  match cs with
  | [] => none
  | _ => cs.foldl (fun acc c => do return (← acc) * base + (← digitIn? base c)) (some 0)

def hexValue (cs : List Char) : Nat :=
  cs.foldl (fun acc c => acc * 16 + (digitValue? c).getD 0) 0

def decimal (n : Nat) : List Char := Nat.toDigits 10 n

def decimalInt (i : Int) : List Char :=
  if i < 0 then '-' :: decimal i.natAbs else decimal i.natAbs

def padZero (width : Nat) (cs : List Char) : List Char :=
  List.replicate (width - cs.length) '0' ++ cs

/-- The most digits of a decimal numeral that is read or written. -/
def maxDecimal : Nat := 4300

def decimalInt? (i : Int) : Option (List Char) :=
  if i.natAbs < Nat.pow 10 maxDecimal then some (decimalInt i) else none

def decimalPadded (width n : Nat) : List Char := padZero width (decimal n)

def hexLower (width n : Nat) : List Char := padZero width (Nat.toDigits 16 n)

def hexUpper (width n : Nat) : List Char :=
  (hexLower width n).map Char.toUpper

end ClusterRegistrar.Numeral
