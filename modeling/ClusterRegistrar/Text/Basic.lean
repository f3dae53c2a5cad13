import ClusterRegistrar.Text.Numeral

/-! Text as documents hold it. An escape can write half of a surrogate pair, which is no character,
so a text is a list of code points; `Text.chars?` and `Text.utf8?` are for texts that hold
characters only. -/
namespace ClusterRegistrar

/-- A character, or half of a surrogate pair that stands alone. -/
inductive CodePoint where
  | char (c : Char)
  | surrogate (n : Fin 0x800)
deriving DecidableEq, Repr

namespace CodePoint

instance : Coe Char CodePoint := ⟨char⟩

def number : CodePoint → Nat
  | char c => c.toNat
  | surrogate n => 0xd800 + n

def ofNat (n : Nat) : CodePoint :=
  if h : 0xd800 ≤ n ∧ n < 0xe000 then surrogate ⟨n - 0xd800, by omega⟩ else char (Char.ofNat n)

def char? : CodePoint → Option Char
  | char c => some c
  | surrogate _ => none

end CodePoint

abbrev Text := List CodePoint

namespace Text

def ofChars (cs : List Char) : Text := cs.map .char

def ofString (s : String) : Text := ofChars s.toList

instance : Coe String Text := ⟨ofString⟩

instance : Coe (List Char) Text := ⟨ofChars⟩

def chars? (t : Text) : Option (List Char) := t.mapM CodePoint.char?

theorem chars?_ofChars (cs : List Char) : chars? (ofChars cs) = some cs := by
  induction cs with
  | nil => rfl
  | cons c rest ih =>
    have h : List.mapM CodePoint.char? (rest.map CodePoint.char) = some rest := ih
    simp [chars?, ofChars, CodePoint.char?, h]

/-- The characters of a text, the replacement character for each half pair. -/
def toChars (t : Text) : List Char := t.map fun p => p.char?.getD '\ufffd'

def utf8? (t : Text) : Option ByteArray := t.chars?.map fun cs => (String.ofList cs).toUTF8

/-- The characters of a text, half pairs by their numbers. -/
def escaped (t : Text) : List Char :=
  t.flatMap fun
    | .char c => [c]
    | p => '\\' :: 'u' :: Numeral.hexLower 4 p.number

def before : Text → Text → Bool
  | [], other => !other.isEmpty
  | _ :: _, [] => false
  | a :: rest, b :: others => if a = b then before rest others else a.number < b.number

def split (separator : CodePoint) : Text → List Text
  | [] => [[]]
  | p :: rest =>
    if p = separator then [] :: split separator rest
    else
      match split separator rest with
      | [] => [[p]]
      | part :: parts => (p :: part) :: parts

theorem split_ne_nil (separator : CodePoint) (t : Text) : split separator t ≠ [] := by
  fun_cases split separator t <;> simp_all

def separated (separator : Text) (parts : List Text) : Text := separator.intercalate parts

end Text
end ClusterRegistrar
