import ClusterRegistrar.Json.Basic

/-! JSON text, in ASCII: compact or indented. Every code point outside `' '` to `'~'` is escaped,
one beyond the basic plane as a pair of surrogates. -/
namespace ClusterRegistrar.Json

def escapeUnit (n : Nat) : List Char := '\\' :: 'u' :: Numeral.hexLower 4 n

def escapeChar (c : Char) : List Char :=
  if c = '"' then ['\\', '"']
  else if c = '\\' then ['\\', '\\']
  else if ' ' ≤ c ∧ c ≤ '~' then [c]
  else if c = '\n' then ['\\', 'n']
  else if c = '\r' then ['\\', 'r']
  else if c = '\t' then ['\\', 't']
  else if c = '\x0c' then ['\\', 'f']
  else if c = '\x08' then ['\\', 'b']
  else if c.toNat < 0x10000 then escapeUnit c.toNat
  else
    let n := c.toNat - 0x10000
    escapeUnit (0xd800 + n / 0x400) ++ escapeUnit (0xdc00 + n % 0x400)

def escape : CodePoint → List Char
  | .char c => escapeChar c
  | p => escapeUnit p.number

def quote (t : Text) : List Char := '"' :: (t.flatMap escape ++ ['"'])

def separated (separator : List Char) : List (List Char) → List Char
  | [] => []
  | [x] => x
  | x :: rest => x ++ separator ++ separated separator rest

def scalar : Json → List Char
  | .null => "null".toList
  | .bool b => if b then "true".toList else "false".toList
  | .int i => Numeral.decimalInt i
  | .float x => (floatStyle.write x).toList
  | .str t => quote t
  | .arr _ | .obj _ => []

mutual

def compact : Json → List Char
  | .arr items => '[' :: (separated [','] (compactAll items) ++ [']'])
  | .obj fields => '{' :: (separated [','] (compactFields fields) ++ ['}'])
  | j => scalar j

def compactAll : List Json → List (List Char)
  | [] => []
  | j :: rest => compact j :: compactAll rest

def compactFields : List (Text × Json) → List (List Char)
  | [] => []
  | (name, j) :: rest => (quote name ++ ':' :: compact j) :: compactFields rest

end

def freshLine (width level : Nat) : List Char := '\n' :: List.replicate (width * level) ' '

def bracketed (width level : Nat) (opening closing : Char) (elements : List (List Char)) :
    List Char :=
  if elements.isEmpty then [opening, closing]
  else
    opening :: (freshLine width (level + 1) ++
      separated (',' :: freshLine width (level + 1)) elements ++ freshLine width level ++ [closing])

mutual

def indented (width level : Nat) : Json → List Char
  | .arr items => bracketed width level '[' ']' (indentedAll width (level + 1) items)
  | .obj fields => bracketed width level '{' '}' (indentedFields width (level + 1) fields)
  | j => scalar j

def indentedAll (width level : Nat) : List Json → List (List Char)
  | [] => []
  | j :: rest => indented width level j :: indentedAll width level rest

def indentedFields (width level : Nat) : List (Text × Json) → List (List Char)
  | [] => []
  | (name, j) :: rest =>
    (quote name ++ ':' :: ' ' :: indented width level j) :: indentedFields width level rest

end

def compactText (j : Json) : String := String.ofList (compact j)

end ClusterRegistrar.Json
