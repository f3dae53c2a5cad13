import ClusterRegistrar.Text.Numeral

/-! Base64 of RFC 4648. `encode` writes groups of four digits with padding; `decode` reads them back
under one of two policies. The strict one refuses every character outside the alphabet and padding
that does not complete the last group; the lenient one skips what it does not know. Neither asks
that the unused bits of the last digit be zero. -/
namespace ClusterRegistrar.Base64

inductive DecodeError where
  | leadingPadding
  | foreignCharacter
  | discontinuousPadding
  | excessData
  | incorrectPadding
  /-- One digit is left over; the number of digits read up to it, itself included. -/
  | danglingDigit (count : Nat)
deriving DecidableEq, Repr

def DecodeError.message : DecodeError → String
  | .leadingPadding => "Leading padding not allowed"
  | .foreignCharacter => "Only base64 data is allowed"
  | .discontinuousPadding => "Discontinuous padding not allowed"
  | .excessData => "Excess data after padding"
  | .incorrectPadding => "Incorrect padding"
  | .danglingDigit count =>
    "Invalid base64-encoded string: number of data characters (" ++ toString count ++
      ") cannot be 1 more than a multiple of 4"

def digit (n : Nat) : Char :=
  if n < 26 then Char.ofNat ('A'.toNat + n)
  else if n < 52 then Char.ofNat ('a'.toNat + (n - 26))
  else if n < 62 then Char.ofNat ('0'.toNat + (n - 52))
  else if n = 62 then '+'
  else '/'

def value? (c : Char) : Option Nat :=
  if 'A' ≤ c ∧ c ≤ 'Z' then some (c.toNat - 'A'.toNat)
  else if 'a' ≤ c ∧ c ≤ 'z' then some (c.toNat - 'a'.toNat + 26)
  else if '0' ≤ c ∧ c ≤ '9' then some (c.toNat - '0'.toNat + 52)
  else if c = '+' then some 62
  else if c = '/' then some 63
  else none

def encode : List UInt8 → List Char
  | [] => []
  | [a] => [digit (a.toNat / 4), digit (a.toNat % 4 * 16), '=', '=']
  | [a, b] =>
    [digit (a.toNat / 4), digit (a.toNat % 4 * 16 + b.toNat / 16), digit (b.toNat % 16 * 4), '=']
  | a :: b :: c :: rest =>
    digit (a.toNat / 4) :: digit (a.toNat % 4 * 16 + b.toNat / 16) ::
      digit (b.toNat % 16 * 4 + c.toNat / 64) :: digit (c.toNat % 64) :: encode rest

/-- Where a reader stands: `place` digits of the current group are read, `left` holds those of
their bits that fill no byte yet, and `count` bytes are complete. -/
structure Progress where
  place : Nat
  left : Nat
  pads : Nat
  padded : Bool
  count : Nat

def Progress.push (p : Progress) (d : Nat) : Progress × Option UInt8 :=
  match p.place with
  | 0 => (⟨1, d, 0, p.padded, p.count⟩, none)
  | 1 => (⟨2, d % 16, 0, p.padded, p.count + 1⟩, some (UInt8.ofNat (p.left * 4 + d / 16)))
  | 2 => (⟨3, d % 4, 0, p.padded, p.count + 1⟩, some (UInt8.ofNat (p.left * 16 + d / 4)))
  | _ => (⟨0, 0, 0, p.padded, p.count + 1⟩, some (UInt8.ofNat (p.left * 64 + d)))

def Progress.finish (p : Progress) : Except DecodeError Unit :=
  match p.place with
  | 0 => .ok ()
  | 1 => .error (.danglingDigit (p.count / 3 * 4 + 1))
  | _ => .error .incorrectPadding

def readFrom (strict : Bool) (p : Progress) : List Char → Except DecodeError (List UInt8)
  | [] => do p.finish; return []
  | c :: rest =>
    if c = '=' then
      if 2 ≤ p.place then
        if 4 ≤ p.place + p.pads + 1 then
          if strict && !rest.isEmpty then .error .excessData else .ok []
        else readFrom strict { p with pads := p.pads + 1, padded := true } rest
      else readFrom strict { p with padded := true } rest
    else
      match value? c with
      | none => if strict then .error .foreignCharacter else readFrom strict p rest
      | some d =>
        if strict && p.padded then .error .discontinuousPadding
        else do
          let (next, byte?) := p.push d
          let bytes ← readFrom strict next rest
          return byte?.toList ++ bytes

def start : Progress := ⟨0, 0, 0, false, 0⟩

def decode (cs : List Char) : Except DecodeError (List UInt8) :=
  match cs with
  | '=' :: _ => .error .leadingPadding
  | _ => readFrom true start cs

def decodeLenient (cs : List Char) : Except DecodeError (List UInt8) := readFrom false start cs

/-- Lines of 76 digits, each ended by a line break. -/
def encodeLines : List UInt8 → List Char
  | [] => []
  | b :: rest => encode ((b :: rest).take 57) ++ '\n' :: encodeLines ((b :: rest).drop 57)
termination_by bytes => bytes.length
decreasing_by simp only [List.length_drop, List.length_cons]; omega

end ClusterRegistrar.Base64
