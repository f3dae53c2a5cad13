import ClusterRegistrar.Json.Basic

/-! Reading JSON text. A number with a point or an exponent is a double, any other an integer of
any size; a pair of escaped surrogates is one character and a lone one stays as it is. Each reader
returns the value and the rest of the text; `fuel` bounds the depth and the number of elements and
is the length of the text. -/
namespace ClusterRegistrar.Json

def isBlank (c : Char) : Bool := c = ' ' || c = '\t' || c = '\n' || c = '\r'

def skipBlanks (cs : List Char) : List Char := cs.dropWhile isBlank

def readUnit? (cs : List Char) : Option (Nat × List Char) :=
  match cs with
  | a :: b :: c :: d :: rest =>
    if [a, b, c, d].all Numeral.isHexDigit then some (Numeral.hexValue [a, b, c, d], rest) else none
  | _ => none

def readLow? (cs : List Char) : Option (Nat × List Char) :=
  match cs with
  | '\\' :: 'u' :: rest => (readUnit? rest).filter fun (n, _) => 0xdc00 ≤ n && n < 0xe000
  | _ => none

def readUnicode? (cs : List Char) : Option (CodePoint × List Char) := do
  let (n, rest) ← readUnit? cs
  if 0xd800 ≤ n ∧ n < 0xdc00 then
    match readLow? rest with
    | some (low, rest) =>
      return (.ofNat (0x10000 + (n - 0xd800) * 0x400 + (low - 0xdc00)), rest)
    | none => return (.ofNat n, rest)
  else return (.ofNat n, rest)

def namedEscape? (c : Char) : Option Char :=
  if c = '"' ∨ c = '\\' ∨ c = '/' then some c
  else if c = 'n' then some '\n'
  else if c = 'r' then some '\r'
  else if c = 't' then some '\t'
  else if c = 'f' then some '\x0c'
  else if c = 'b' then some '\x08'
  else none

def readString? : Nat → List Char → Option (Text × List Char)
  | 0, _ => none
  | fuel + 1, cs =>
    match cs with
    | [] => none
    | '"' :: rest => some ([], rest)
    | '\\' :: 'u' :: rest => do
      let (p, rest) ← readUnicode? rest
      let (text, rest) ← readString? fuel rest
      return (p :: text, rest)
    | '\\' :: e :: rest => do
      let c ← namedEscape? e
      let (text, rest) ← readString? fuel rest
      return (.char c :: text, rest)
    | c :: rest => do
      if c = '\\' ∨ c < ' ' then none
      let (text, rest) ← readString? fuel rest
      return (.char c :: text, rest)

def spanDigits (cs : List Char) : List Char × List Char := cs.span Numeral.isDigit

def readFraction? (cs : List Char) : Option (List Char × List Char) :=
  match cs with
  | '.' :: rest =>
    let (digits, rest) := spanDigits rest
    if digits.isEmpty then none else some (digits, rest)
  | _ => none

def readExponent? (cs : List Char) : Option (Int × List Char) :=
  match cs with
  | e :: rest =>
    if e = 'e' ∨ e = 'E' then
      let (negative, rest) := match rest with
        | '-' :: rest => (true, rest)
        | '+' :: rest => (false, rest)
        | _ => (false, rest)
      let (digits, rest) := spanDigits rest
      match Numeral.ofDigits? 10 digits with
      | some n => some (if negative then -(n : Int) else n, rest)
      | none => none
    else none
  | [] => none

def readUnsigned? (negative : Bool) (cs : List Char) : Option (Json × List Char) := do
  let (whole, rest) := spanDigits cs
  if whole.isEmpty || (whole.head? == some '0' && whole.length ≠ 1) then none
  let n ← Numeral.ofDigits? 10 whole
  let fraction? := readFraction? rest
  let afterFraction := match fraction? with
    | some (_, r) => r
    | none => rest
  let exponent? := readExponent? afterFraction
  match fraction?, exponent? with
  | none, none => return (.int (if negative then -(n : Int) else n), rest)
  | _, _ =>
    let digits := match fraction? with
      | some (d, _) => d
      | none => []
    let exponent := match exponent? with
      | some (e, _) => e
      | none => 0
    let m := (Numeral.ofDigits? 10 (whole ++ digits)).getD 0
    let after := match exponent? with
      | some (_, r) => r
      | none => afterFraction
    return (.float (Binary64.ofDecimal negative m (exponent - digits.length)), after)

def afterWord? (word : String) (cs : List Char) : Option (List Char) :=
  if word.toList.isPrefixOf cs then some (cs.drop word.length) else none

def readAtom? (cs : List Char) : Option (Json × List Char) :=
  (afterWord? "null" cs).map (Json.null, ·) <|>
  (afterWord? "true" cs).map (Json.bool true, ·) <|>
  (afterWord? "false" cs).map (Json.bool false, ·) <|>
  (afterWord? "NaN" cs).map (Json.float Binary64.nan, ·) <|>
  (afterWord? "Infinity" cs).map (Json.float (Binary64.infinity false), ·) <|>
  (afterWord? "-Infinity" cs).map (Json.float (Binary64.infinity true), ·) <|>
  match cs with
  | '-' :: rest => readUnsigned? true rest
  | _ => readUnsigned? false cs

mutual

def readValue? : Nat → List Char → Option (Json × List Char)
  | 0, _ => none
  | fuel + 1, cs =>
    match cs with
    | '"' :: rest => do
      let (text, rest) ← readString? (rest.length + 1) rest
      return (.str text, rest)
    | '[' :: rest =>
      match skipBlanks rest with
      | ']' :: rest => some (.arr [], rest)
      | rest => do
        let (items, rest) ← readItems? fuel rest
        return (.arr items, rest)
    | '{' :: rest =>
      match skipBlanks rest with
      | '}' :: rest => some (.obj [], rest)
      | rest => do
        let (fields, rest) ← readFields? fuel rest
        return (.obj fields, rest)
    | cs => readAtom? cs

def readItems? : Nat → List Char → Option (List Json × List Char)
  | 0, _ => none
  | fuel + 1, cs => do
    let (item, rest) ← readValue? fuel cs
    match skipBlanks rest with
    | ',' :: rest =>
      let (items, rest) ← readItems? fuel (skipBlanks rest)
      return (item :: items, rest)
    | ']' :: rest => return ([item], rest)
    | _ => none

def readFields? : Nat → List Char → Option (List (Text × Json) × List Char)
  | 0, _ => none
  | fuel + 1, cs =>
    match cs with
    | '"' :: rest => do
      let (name, rest) ← readString? (rest.length + 1) rest
      match skipBlanks rest with
      | ':' :: rest =>
        let (value, rest) ← readValue? fuel (skipBlanks rest)
        match skipBlanks rest with
        | ',' :: rest =>
          let (fields, rest) ← readFields? fuel (skipBlanks rest)
          return ((name, value) :: fields, rest)
        | '}' :: rest => return ([(name, value)], rest)
        | _ => none
      | _ => none
    | _ => none

end

def read? (cs : List Char) : Option Json := do
  let (value, rest) ← readValue? (2 * cs.length + 2) (skipBlanks cs)
  if (skipBlanks rest).isEmpty then some value else none

def ofText? (s : String) : Option Json := read? s.toList

end ClusterRegistrar.Json
