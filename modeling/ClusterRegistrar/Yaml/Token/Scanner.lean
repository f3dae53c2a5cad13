import ClusterRegistrar.Yaml.Token.Property
import ClusterRegistrar.Yaml.Token.Scalar

/-! Scanning a text into tokens. A key needs no indicator of its own if a colon follows it on its
line, so the scanner remembers for each flow level where a key could have started, and inserts the
key token there once it meets the colon. Indentation is a stack of columns; what opens and closes
its levels are tokens too. -/
namespace ClusterRegistrar.Yaml

structure PossibleKey where
  place : Nat
  /-- At the indentation of a block mapping nothing but a key can stand. -/
  required : Bool
  index : Nat
  line : Nat
  column : Nat
deriving DecidableEq, Repr

structure Scanner where
  cursor : Cursor
  latest : List Token
  count : Nat
  /-- The column of the innermost block collection, `-1` outside of all. -/
  indent : Int
  outer : List Int
  keyAllowed : Bool
  /-- The possible key of each flow level, the innermost first. -/
  keys : List (Option PossibleKey)

namespace Scanner

def start (text : List Char) : Scanner :=
  ⟨Cursor.start text, [], 0, -1, [], true, [none]⟩

def flow (s : Scanner) : Nat := s.keys.length - 1

def inFlow (s : Scanner) : Bool := s.flow ≠ 0

def emit (s : Scanner) (token : Token) : Scanner :=
  { s with latest := token :: s.latest, count := s.count + 1 }

def insert (s : Scanner) (place : Nat) (token : Token) : Scanner :=
  let (after, before) := s.latest.splitAt (s.count - place)
  { s with latest := after ++ token :: before, count := s.count + 1 }

def firstTokens (s : Scanner) (n : Nat) : List Token := (s.latest.drop (s.count - n)).reverse

def fail (error : Error) : Except Trouble α := .error (.malformed error)

/-! ### Keys -/

/-- A key ends on its line and within 1024 characters. -/
def isStale (c : Cursor) (key : PossibleKey) : Bool :=
  key.line ≠ c.line || 1024 < c.index - key.index

def dropStaleKeys (s : Scanner) : Except Trouble Scanner :=
  let stale (key : Option PossibleKey) : Bool := key.any (isStale s.cursor)
  if s.keys.any fun key => stale key && key.any (·.required) then fail .missingColon
  else .ok { s with keys := s.keys.map fun key => if stale key then none else key }

def dropKey (s : Scanner) : Except Trouble Scanner :=
  match s.keys with
  | some key :: rest =>
    if key.required then fail .missingColon else .ok { s with keys := none :: rest }
  | _ => .ok s

def saveKey (s : Scanner) : Except Trouble Scanner :=
  if s.keyAllowed then do
    let s ← s.dropKey
    let c := s.cursor
    let required := !s.inFlow && s.indent = c.column
    return { s with keys := some ⟨s.count, required, c.index, c.line, c.column⟩ :: s.keys.tail }
  else .ok s

/-! ### Indentation -/

def unwindFrom (column : Int) : List Int → Scanner → Scanner
  | [], s => s
  | outer :: rest, s =>
    if column < s.indent then
      unwindFrom column rest { s.emit .blockEnd with indent := outer, outer := rest }
    else s

/-- Indentation means nothing inside flow collections. -/
def unwind (column : Int) (s : Scanner) : Scanner :=
  if s.inFlow then s else unwindFrom column s.outer s

/-- Opens a level at a column, unless the current one is as deep. -/
def deepen (column : Nat) (s : Scanner) : Option Scanner :=
  if s.indent < column then some { s with indent := column, outer := s.indent :: s.outer } else none

def openBlock (token : Token) (s : Scanner) : Scanner :=
  match s.deepen s.cursor.column with
  | some s => s.emit token
  | none => s

/-! ### Between tokens -/

def skipBlanksFrom : List Char → Scanner → Scanner
  | [], s => s
  | _ :: fuel, s =>
    let c := s.cursor.skipSpaces.skipComment
    match c.takeBreak? with
    | some (_, c) =>
      skipBlanksFrom fuel { s with cursor := c, keyAllowed := s.keyAllowed || !s.inFlow }
    | none => { s with cursor := c }

/-- Past spaces, comments and line breaks; a byte order mark may start the text. A line break in
block context allows a key. -/
def skipBlanks (s : Scanner) : Scanner :=
  let c := s.cursor
  let c := if c.index = 0 ∧ c.rest.head? = some '\ufeff' then c.next else c
  skipBlanksFrom c.rest { s with cursor := c }

/-! ### Tokens -/

def indicator (token : Token) (length : Nat) (s : Scanner) : Scanner :=
  { s.emit token with cursor := s.cursor.skip length }

def fetchStreamEnd (s : Scanner) : Except Trouble Scanner := do
  let s ← (s.unwind (-1)).dropKey
  return { s.emit .streamEnd with keyAllowed := false, keys := [none] }

def fetchDirective (s : Scanner) : Except Trouble Scanner := do
  let s ← (s.unwind (-1)).dropKey
  let (token, c) ← scanDirective s.cursor
  return { s.emit token with cursor := c, keyAllowed := false }

def fetchDocumentMark (token : Token) (s : Scanner) : Except Trouble Scanner := do
  let s ← (s.unwind (-1)).dropKey
  return { s.indicator token 3 with keyAllowed := false }

def fetchFlowStart (token : Token) (s : Scanner) : Except Trouble Scanner := do
  let s ← s.saveKey
  return { s.indicator token 1 with keyAllowed := true, keys := none :: s.keys }

/-- A closing bracket outside of all flow collections is left to the parser. -/
def fetchFlowEnd (token : Token) (s : Scanner) : Except Trouble Scanner := do
  let s ← s.dropKey
  let keys := if s.inFlow then s.keys.tail else s.keys
  return { s.indicator token 1 with keyAllowed := false, keys := keys }

def fetchFlowEntry (s : Scanner) : Except Trouble Scanner := do
  let s ← s.dropKey
  return { s.indicator .flowEntry 1 with keyAllowed := true }

def fetchBlockEntry (s : Scanner) : Except Trouble Scanner := do
  if !s.inFlow && !s.keyAllowed then fail .misplacedEntry
  let s := if s.inFlow then s else s.openBlock .blockSequenceStart
  let s ← s.dropKey
  return { s.indicator .blockEntry 1 with keyAllowed := true }

def fetchKey (s : Scanner) : Except Trouble Scanner := do
  if !s.inFlow && !s.keyAllowed then fail .misplacedKey
  let s := if s.inFlow then s else s.openBlock .blockMappingStart
  let s ← s.dropKey
  return { s.indicator .key 1 with keyAllowed := !s.inFlow }

/-- The colon behind a key that was remembered: the key token goes in front of the key, and so does
the start of a mapping that the key opens. -/
def fetchSimpleValue (key : PossibleKey) (s : Scanner) : Scanner :=
  let opens := !s.inFlow && s.indent < key.column
  let outer := if opens then s.indent :: s.outer else s.outer
  let indent : Int := if opens then key.column else s.indent
  let s := { s.insert key.place .key with keys := none :: s.keys.tail }
  let s := if opens then s.insert key.place .blockMappingStart else s
  { s.indicator .value 1 with keyAllowed := false, indent, outer }

def fetchValue (s : Scanner) : Except Trouble Scanner :=
  match s.keys with
  | some key :: _ => .ok (s.fetchSimpleValue key)
  | _ => do
    if !s.inFlow && !s.keyAllowed then fail .misplacedValue
    let s := if s.inFlow then s else s.openBlock .blockMappingStart
    let s ← s.dropKey
    return { s.indicator .value 1 with keyAllowed := !s.inFlow }

def scanNamed (token : String → Token) (c : Cursor) : Except Trouble (Token × Cursor) :=
  (scanAnchor c).map fun (name, c) => (token name, c)

/-- An alias, anchor or tag, in front of which a key can start. -/
def fetchProperty (scan : Cursor → Except Trouble (Token × Cursor)) (s : Scanner) :
    Except Trouble Scanner := do
  let s ← s.saveKey
  let (token, c) ← scan s.cursor
  return { s.emit token with cursor := c, keyAllowed := false }

def fetchBlockScalar (folded : Bool) (s : Scanner) : Except Trouble Scanner := do
  let s ← s.dropKey
  let (text, c) ← scanBlock folded s.indent s.cursor
  return { s.emit (.scalar (.ofChars text) false) with cursor := c, keyAllowed := true }

def fetchQuoted (double : Bool) (s : Scanner) : Except Trouble Scanner := do
  let s ← s.saveKey
  let (text, c) ← scanQuoted double s.cursor
  return { s.emit (.scalar text false) with cursor := c, keyAllowed := false }

def fetchPlain (s : Scanner) : Except Trouble Scanner := do
  let s ← s.saveKey
  let (text, c, ended) := scanPlain s.inFlow (s.indent + 1) s.cursor
  return { s.emit (.scalar (.ofChars text) true) with cursor := c, keyAllowed := ended }

def startsPlain (flow : Bool) (c : Char) (rest : List Char) : Bool :=
  !(isSpaceOrTab c || isBreak c || "-?:,[]\x7b\x7d#&*!|>'\"%@`".toList.contains c) ||
    (!atBlank rest && (c = '-' || (!flow && (c = '?' || c = ':'))))

/-- The token at the cursor, and whether it was the last one. -/
def fetch (s : Scanner) : Except Trouble (Scanner × Bool) := do
  let s := s.skipBlanks
  let s ← s.dropStaleKeys
  let s := s.unwind s.cursor.column
  let text := s.cursor.rest
  let atColumnZero := s.cursor.column = 0
  let more (result : Except Trouble Scanner) : Except Trouble (Scanner × Bool) :=
    result.map (·, false)
  match text with
  | [] => s.fetchStreamEnd.map (·, true)
  | c :: rest =>
    if c = '%' && atColumnZero then more s.fetchDirective
    else if atColumnZero && atMark '-' text then more (s.fetchDocumentMark .documentStart)
    else if atColumnZero && atMark '.' text then more (s.fetchDocumentMark .documentEnd)
    else if c = '[' then more (s.fetchFlowStart .flowSequenceStart)
    else if c = '{' then more (s.fetchFlowStart .flowMappingStart)
    else if c = ']' then more (s.fetchFlowEnd .flowSequenceEnd)
    else if c = '}' then more (s.fetchFlowEnd .flowMappingEnd)
    else if c = ',' then more s.fetchFlowEntry
    else if c = '-' && atBlank rest then more s.fetchBlockEntry
    else if c = '?' && (s.inFlow || atBlank rest) then more s.fetchKey
    else if c = ':' && (s.inFlow || atBlank rest) then more s.fetchValue
    else if c = '*' then more (s.fetchProperty (scanNamed .alias))
    else if c = '&' then more (s.fetchProperty (scanNamed .anchor))
    else if c = '!' then more (s.fetchProperty scanTag)
    else if c = '|' && !s.inFlow then more (s.fetchBlockScalar false)
    else if c = '>' && !s.inFlow then more (s.fetchBlockScalar true)
    else if c = '\'' then more (s.fetchQuoted false)
    else if c = '"' then more (s.fetchQuoted true)
    else if startsPlain s.inFlow c rest then more s.fetchPlain
    else fail .strayCharacter

/-- The tokens that are settled: those before the first place where a key could still start. -/
def settled (s : Scanner) : List Token :=
  let live := s.keys.filterMap fun key =>
    key.bind fun k => if isStale s.cursor k && !k.required then none else some k.place
  match live.min? with
  | some place => s.firstTokens place
  | none => s.firstTokens s.count

def run : Nat → Scanner → List Token × Option Trouble
  | 0, s => (s.settled, none)
  | fuel + 1, s =>
    match s.fetch with
    | .error trouble => (s.settled, some trouble)
    | .ok (s, true) => (s.firstTokens s.count, none)
    | .ok (s, false) => run fuel s

end Scanner

/-- The tokens of a text as far as it is well formed, and what is wrong behind them. -/
def scan (text : List Char) : List Token × Option Trouble :=
  (Scanner.start text).run (text.length + 1)

end ClusterRegistrar.Yaml
