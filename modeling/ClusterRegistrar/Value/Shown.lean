import ClusterRegistrar.Number.Shortest
import ClusterRegistrar.Text.Quoted
import ClusterRegistrar.Value.Fold

/-! The text of a value in messages. Text at the top stands as it is; inside a collection it is
quoted. A collection inside itself is left out. A value that holds an integer of very many digits
has no text, and neither has one that is nested very deeply. -/
namespace ClusterRegistrar

def Numeral.written (i : Int) : Except Fault Text :=
  match Numeral.decimalInt? i with
  | some digits => .ok (.ofChars digits)
  | none => .error .longNumeral

namespace Value

/-- Doubles are written positionally from `0.0001` to below `10 ^ 16`. -/
def floatStyle : FloatStyle :=
  ⟨-4, 15, 2, false, "inf", "-inf", "nan"⟩

def shownDate (d : Date) : String :=
  s!"datetime.date({d.year}, {d.month}, {d.day})"

/-- An offset as days and seconds, the seconds never negative. -/
def shownOffset (seconds : Int) : String :=
  if seconds = 0 then "datetime.timezone.utc"
  else
    let days := Int.fdiv seconds 86400
    let rest := Int.fmod seconds 86400
    let parts := (if days = 0 then [] else [s!"days={days}"]) ++
      (if rest = 0 then [] else [s!"seconds={rest}"])
    "datetime.timezone(datetime.timedelta(" ++ ", ".intercalate parts ++ "))"

/-- Seconds are left out if they and the fraction are zero. -/
def shownTime (t : DateTime) : String :=
  let clock := [t.date.year, t.date.month, t.date.day, t.hour, t.minute] ++
    (if t.microsecond = 0 then (if t.second = 0 then [] else [t.second])
     else [t.second, t.microsecond])
  let zone := match t.offset with
    | none => []
    | some o => ["tzinfo=" ++ shownOffset o]
  "datetime.datetime(" ++ ", ".intercalate (clock.map toString ++ zone) ++ ")"

def quotedAtom : Atom → Except Fault Text
  | .null => .ok "None"
  | .bool b => .ok (if b then "True" else "False")
  | .int i => Numeral.written i
  | .float x _ => .ok (floatStyle.write x)
  | .str t => .ok (.ofChars (Quoted.ofText t))
  | .bytes b => .ok (.ofChars (Quoted.ofBytes b))
  | .date d _ => .ok (shownDate d)
  | .time t _ => .ok (shownTime t)

def enclosed (opening closing : String) (parts : List Text) : Text :=
  opening ++ Text.separated ", " parts ++ closing

def quotedEntry (key : Atom) (value : Except Fault Text) : Except Fault Text := do
  let name ← quotedAtom key
  return name ++ ": " ++ (← value)

def quotedLayer : Layer (Except Fault Text) → Except Fault Text
  | .list items => return enclosed "[" "]" (← items.mapM id)
  | .pair a b => return enclosed "(" ")" [← a, ← b]
  | .set [] => .ok "set()"
  | .set members => return enclosed "\x7b" "\x7d" (← members.mapM quotedAtom)
  | .map entries =>
    return enclosed "\x7b" "\x7d" (← entries.mapM fun (key, value) => quotedEntry key value)

/-- What stands for a collection inside itself. -/
def elided : Cell → Text
  | .map _ => "\x7b...\x7d"
  | _ => "[...]"

def quoting : Folder (Except Fault Text) := ⟨quotedAtom, quotedLayer, fun cell => .ok (elided cell)⟩

def levels : Layer Nat → Nat
  | .list items => items.foldl max 0 + 1
  | .pair a b => max a b + 1
  | .set _ => 1
  | .map entries => (entries.map (·.2)).foldl max 0 + 1

def depth (v : Value) : Nat := Folder.value ⟨fun _ => 0, levels, fun _ => 0⟩ v

/-- A value that is nested deeper than this has no text. -/
def maxShownDepth : Nat := 985

def quoted (v : Value) : Except Fault Text :=
  if maxShownDepth < v.depth then .error .nestedTooDeep else quoting.value v

def shown : Value → Except Fault Text
  | .atom (.str t) => .ok t
  | .atom (.date d _) => .ok (.ofChars d.iso)
  | .atom (.time t _) => .ok (.ofChars (t.iso ' '))
  | v => v.quoted

end Value

/-- The text of a field of any kind, null if the field is missing or null; nothing if its value has
no text. -/
def Entries.shownField? (fields : Entries) (name : Text) : Option Value :=
  match fields.field name with
  | .null => some .null
  | v => v.shown.toOption.map .str

end ClusterRegistrar
