import ClusterRegistrar.Value.Shown

/-! JSON values. An object keeps its fields in order. `Json.ofValue` and `Json.toValue` go between
JSON and document values; bytes, dates, times and sets have no JSON form. -/
namespace ClusterRegistrar

inductive Json where
  | null
  | bool (b : Bool)
  | int (i : Int)
  | float (x : Binary64)
  | str (text : Text)
  | arr (items : List Json)
  | obj (fields : List (Text × Json))
deriving Inhabited

namespace Json

instance : Coe String Json := ⟨fun s => .str s⟩

inductive Refusal where
  | kind (name : String)
  | circular
  | longNumeral
  | nestedTooDeep
deriving DecidableEq, Repr

/-- Doubles are written as in messages but for the words of the values that are no numbers. -/
def floatStyle : FloatStyle :=
  { Value.floatStyle with
    positiveInfinity := "Infinity", negativeInfinity := "-Infinity", notANumber := "NaN" }

def checkedInt (i : Int) : Except Refusal Int :=
  if (Numeral.decimalInt? i).isSome then .ok i else .error .longNumeral

def nameOfKey : Atom → Except Refusal Text
  | .str t => .ok t
  | .null => .ok "null"
  | .bool b => .ok (if b then "true" else "false")
  | .int i => return Text.ofChars (Numeral.decimalInt (← checkedInt i))
  | .float x _ => .ok (floatStyle.write x)
  | .bytes _ => .error (.kind "bytes")
  | .date .. => .error (.kind "date")
  | .time .. => .error (.kind "datetime")

def ofAtom : Atom → Except Refusal Json
  | .null => .ok .null
  | .bool b => .ok (.bool b)
  | .int i => return .int (← checkedInt i)
  | .float x _ => .ok (.float x)
  | .str t => .ok (.str t)
  | .bytes _ => .error (.kind "bytes")
  | .date .. => .error (.kind "date")
  | .time .. => .error (.kind "datetime")

def ofLayer : Layer (Except Refusal Json) → Except Refusal Json
  | .list items => return .arr (← items.mapM id)
  | .pair a b => return .arr [← a, ← b]
  | .set _ => .error (.kind "set")
  | .map entries => return .obj (← entries.mapM fun (key, value) => do
      let name ← nameOfKey key
      return (name, ← value))

def forming : Folder (Except Refusal Json) := ⟨ofAtom, ofLayer, fun _ => .error .circular⟩

/-- A value that is nested deeper than this has no JSON form. -/
def maxDepth : Nat := 983

def ofValue (v : Value) : Except Refusal Json :=
  if maxDepth < v.depth then .error .nestedTooDeep else forming.value v

mutual

/-- The value that a JSON text stands for; of equal field names the last one wins. -/
def toValue : Json → Value
  | .null => .null
  | .bool b => .bool b
  | .int i => .int i
  | .float x => .atom (.float x none)
  | .str t => .str t
  | .arr items => .list (toValues items)
  | .obj fields => .map (Keyed.putAll [] (toEntries fields))

def toValues : List Json → List Value
  | [] => []
  | j :: rest => toValue j :: toValues rest

def toEntries : List (Text × Json) → Entries
  | [] => []
  | (name, j) :: rest => (.str name, toValue j) :: toEntries rest

end

end Json
end ClusterRegistrar
