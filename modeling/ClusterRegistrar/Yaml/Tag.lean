import ClusterRegistrar.Text.Basic
import ClusterRegistrar.Yaml.Timestamp

/-! Tags, and how the form of a plain scalar decides its tag. The forms are those of YAML 1.1:
`yes` and `off` are truth values, a leading zero makes an integer octal, colons make base 60, and a
double needs a point. The same test tells a writer which texts it has to quote. -/
namespace ClusterRegistrar.Yaml

inductive Tag where
  | null
  | bool
  | int
  | float
  | binary
  | timestamp
  | orderedMap
  | pairs
  | set
  | str
  | seq
  | map
  /-- The key `<<`. -/
  | merge
  /-- The key `=`. -/
  | value
  | unknown (uri : String)
deriving DecidableEq, Repr

namespace Tag

def standardLead : String := "tag:yaml.org,2002:"

def standard : List (String × Tag) := [
  ("null", .null), ("bool", .bool), ("int", .int), ("float", .float), ("binary", .binary),
  ("timestamp", .timestamp), ("omap", .orderedMap), ("pairs", .pairs), ("set", .set), ("str", .str),
  ("seq", .seq), ("map", .map), ("merge", .merge), ("value", .value)]

def ofUri (uri : String) : Tag :=
  match standard.find? fun (name, _) => standardLead ++ name = uri with
  | some (_, tag) => tag
  | none => .unknown uri

end Tag

/-! ### Forms of plain scalars -/

def boolWords : List String := [
  "yes", "Yes", "YES", "no", "No", "NO", "true", "True", "TRUE", "false", "False", "FALSE",
  "on", "On", "ON", "off", "Off", "OFF"]

def nullWords : List String := ["~", "null", "Null", "NULL", ""]

def someAll (test : Char → Bool) (cs : List Char) : Bool := !cs.isEmpty && cs.all test

def isDigitOr_ (c : Char) : Bool := Numeral.isDigit c || c = '_'

def sexagesimalTail : List Char → Bool
  | [] => true
  | ':' :: rest =>
    match rest with
    | a :: b :: more =>
      if '0' ≤ a && a ≤ '5' && Numeral.isDigit b then sexagesimalTail more
      else Numeral.isDigit a && sexagesimalTail (b :: more)
    | [a] => Numeral.isDigit a
    | [] => false
  | _ :: _ => false

def dropSign (cs : List Char) : List Char :=
  match cs with
  | '-' :: rest | '+' :: rest => rest
  | _ => cs

def isIntForm (cs : List Char) : Bool :=
  match dropSign cs with
  | ['0'] => true
  | '0' :: 'b' :: rest => someAll (fun c => c = '0' || c = '1' || c = '_') rest
  | '0' :: 'x' :: rest => someAll (fun c => Numeral.isHexDigit c || c = '_') rest
  | '0' :: rest => someAll (fun c => ('0' ≤ c && c ≤ '7') || c = '_') rest
  | c :: rest =>
    Numeral.isDigit c &&
      (let tail := rest.dropWhile isDigitOr_
       tail.isEmpty || sexagesimalTail tail)
  | [] => false

/-- Nothing, or an exponent, which has a sign. -/
def isExponentOrEnd (cs : List Char) : Bool :=
  match cs with
  | [] => true
  | e :: sign :: digits => (e = 'e' || e = 'E') && (sign = '+' || sign = '-') &&
      someAll Numeral.isDigit digits
  | _ => false

def infinityWords : List String := [".inf", ".Inf", ".INF"]

def nanWords : List String := [".nan", ".NaN", ".NAN"]

def sexagesimalBeforePoint (cs : List Char) : Bool :=
  !cs.isEmpty && sexagesimalTail cs

def isFloatForm (cs : List Char) : Bool :=
  let unsigned := dropSign cs
  if infinityWords.any (·.toList = unsigned) then true
  else if nanWords.any (·.toList = cs) then true
  else
    match unsigned with
    | '.' :: c :: rest =>
      cs = unsigned && Numeral.isDigit c && isExponentOrEnd (rest.dropWhile isDigitOr_)
    | c :: rest =>
      Numeral.isDigit c &&
        match rest.dropWhile isDigitOr_ with
        | '.' :: more => isExponentOrEnd (more.dropWhile isDigitOr_)
        | tail =>
          let places := tail.takeWhile (· ≠ '.')
          match tail.drop places.length with
          | '.' :: more => sexagesimalBeforePoint places && more.all isDigitOr_
          | _ => false
    | [] => false

/-- A date alone needs two digits each for month and day. -/
def isTimestampForm (cs : List Char) : Bool :=
  match Timestamp.read? cs with
  | some t => t.clock.isSome || t.twoDigits
  | none => false

def dropFinalBreak (cs : List Char) : List Char :=
  if cs.getLast? = some '\n' then cs.dropLast else cs

def Tag.ofChars (text : List Char) : Tag :=
  let cs := dropFinalBreak text
  if boolWords.any (·.toList = cs) then .bool
  else if isFloatForm cs then .float
  else if isIntForm cs then .int
  else if cs = "<<".toList then .merge
  else if text.isEmpty ∨ (!cs.isEmpty ∧ nullWords.any (·.toList = cs)) then .null
  else if isTimestampForm cs then .timestamp
  else if cs = "=".toList then .value
  else if cs = ['!'] ∨ cs = ['&'] ∨ cs = ['*'] then .unknown (Tag.standardLead ++ "yaml")
  else .str

/-- The tag that the form of a text gives it; half pairs are in none of the forms. -/
def Tag.ofForm (text : Text) : Tag :=
  match text.chars? with
  | some cs => .ofChars cs
  | none => .str

end ClusterRegistrar.Yaml
