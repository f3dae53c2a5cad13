import ClusterRegistrar.Base64
import ClusterRegistrar.Value.Basic

/-! Base64 in values: text of ASCII alone, or bytes that stand for such text. -/
namespace ClusterRegistrar.Value

def asciiChars? (t : Text) : Option (List Char) := t.chars?.filter (·.all (·.toNat < 128))

def encodedChars : Value → Except Fault (List Char)
  | .atom (.str t) =>
    match asciiChars? t with
    | some cs => .ok cs
    | none => .error .wideBase64
  | .atom (.bytes b) => .ok (b.data.toList.map fun x => Char.ofNat x.toNat)
  | _ => .error .notBase64Source

def decodeBase64 (v : Value) : Except Fault (Except Base64.DecodeError (List UInt8)) :=
  return Base64.decode (← v.encodedChars)

end ClusterRegistrar.Value
