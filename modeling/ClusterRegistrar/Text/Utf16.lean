/-! Decoding UTF-16. -/
namespace ClusterRegistrar.Utf16

/-- Units of two bytes, the low one first or last; nothing for an odd number of bytes. -/
def units? (lowFirst : Bool) : List UInt8 → Option (List Nat)
  | [] => some []
  | [_] => none
  | a :: b :: rest =>
    let unit := if lowFirst then b.toNat * 256 + a.toNat else a.toNat * 256 + b.toNat
    (units? lowFirst rest).map (unit :: ·)

/-- The characters of units; surrogates have to come in pairs. -/
def ofUnits? : List Nat → Option (List Char)
  | [] => some []
  | high :: rest =>
    if 0xd800 ≤ high ∧ high < 0xdc00 then
      match rest with
      | low :: rest =>
        if 0xdc00 ≤ low ∧ low < 0xe000 then
          (ofUnits? rest).map
            (Char.ofNat (0x10000 + (high - 0xd800) * 0x400 + (low - 0xdc00)) :: ·)
        else none
      | [] => none
    else if 0xdc00 ≤ high ∧ high < 0xe000 then none
    else (ofUnits? rest).map (Char.ofNat high :: ·)

def decode? (lowFirst : Bool) (bytes : List UInt8) : Option (List Char) :=
  (units? lowFirst bytes).bind ofUnits?

end ClusterRegistrar.Utf16
