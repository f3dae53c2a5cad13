import ClusterRegistrar.Yaml.Writer.Scalar
import ClusterRegistrar.Yaml.Writer.Sharing

/-! The block layout of documents. Collections are indented by two columns under what they belong
to, but a list under a key starts at the column of the key. A key is written on one line before its
value if it is short and has no line end; otherwise key and value get a mark each. -/
namespace ClusterRegistrar.Yaml

namespace Block

def step : Nat := 2

def freshLine (indent : Nat) : List Char := '\n' :: List.replicate indent ' '

def stacked (indent : Nat) : List (List Char) → List Char
  | [] => []
  | [part] => part
  | part :: rest => part ++ freshLine indent ++ stacked indent rest

def anchorName (anchor : Nat) : List Char := "id".toList ++ Numeral.decimalPadded 3 anchor

/-- The tag of a block in its short form, if it is always written. -/
def explicitTag? : Block Nat → Option String
  | .binary _ => some "!!binary"
  | .seq _ true _ => some "!!python/tuple"
  | .map _ true _ => some "!!set"
  | _ => none

def anchor? : Block Nat → Option Nat
  | .word anchor _ _ | .seq anchor _ _ | .map anchor _ _ => anchor
  | _ => none

/-- Anchor and tag in front of a block, each behind a space. -/
def properties (b : Block Nat) : List Char :=
  (match b.anchor? with
   | some anchor => ' ' :: '&' :: anchorName anchor
   | none => []) ++
  (match b.explicitTag? with
   | some tag => ' ' :: tag.toList
   | none => [])

/-- The lengths of the short forms of the tags that are not written, which count nevertheless when
the length of a key is taken. -/
def tagLength : Tag → Nat
  | .null | .bool => 6
  | .int | .str => 5
  | .float => 7
  | .timestamp => 11
  | _ => 0

def keyLimit : Nat := 128

def isShortKey : Block Nat → Bool
  | .alias anchor => (anchorName anchor).length < keyLimit
  | .word anchor tag w =>
    (anchor.map fun a => (anchorName a).length).getD 0 + tagLength tag + w.length < keyLimit
  | .text t => t ≠ [] && !Style.isMultiline t.toChars && tagLength .str + t.length < keyLimit
  | _ => false

/-- The text of bytes under a line of their own each. -/
def literal (indent : Nat) (bytes : ByteArray) : List Char :=
  let lines := (Base64.encodeLines bytes.data.toList).splitOn '\n'
  '|' :: (lines.filter (!·.isEmpty)).flatMap fun line => freshLine indent ++ line

def scalarText (p : Scalar.Place) (column : Nat) : Block Nat → List Char
  | .alias anchor => '*' :: anchorName anchor
  | .word _ _ w => Scalar.plain p column w
  | .text t => Scalar.ofText p column t
  | .binary bytes => if bytes.size = 0 then ['"', '"'] else literal p.indent bytes
  | _ => []

def keyText (column : Nat) (key : Block Nat) : List Char :=
  match key.properties with
  | [] => scalarText ⟨false, 0⟩ column key
  | _ :: shown => shown ++ ' ' :: scalarText ⟨false, 0⟩ (column + shown.length + 1) key

/-- What a block stands behind: the colon of a key on one line, the dash of an item, or the mark of
a key or value of its own. -/
inductive Behind where
  | key
  | dash
  | mark
deriving DecidableEq, Repr

/-- Whether a collection starts on the line of what it stands behind. -/
def startsInline (behind : Behind) (properties : List Char) : Bool :=
  behind ≠ .key && properties.isEmpty

def itemColumn (behind : Behind) (indent : Nat) (inline : Bool) : Nat :=
  if inline || behind = .dash then indent + step else indent

def lead (inline : Bool) (indent : Nat) : List Char := if inline then [' '] else freshLine indent

mutual

/-- A block behind something at a column, in a collection whose parts start at `indent`. -/
def write (behind : Behind) (indent column : Nat) (b : Block Nat) : List Char :=
  let properties := b.properties
  let inline := startsInline behind properties
  match b with
  | .seq _ _ [] => properties ++ [' ', '[', ']']
  | .map _ _ [] => properties ++ [' ', '{', '}']
  | .seq _ _ (item :: items) =>
    let start := itemColumn behind indent inline
    properties ++ lead inline start ++ stacked start (writeItems start (item :: items))
  | .map _ _ (entry :: entries) =>
    let start := indent + step
    properties ++ lead inline start ++ stacked start (writeEntries start (entry :: entries))
  | scalar =>
    properties ++ ' ' ::
      scalarText ⟨true, indent + step⟩ (column + properties.length + 1) scalar

def writeItems (indent : Nat) : List (Block Nat) → List (List Char)
  | [] => []
  | b :: rest => ('-' :: write .dash indent (indent + 1) b) :: writeItems indent rest

def writeEntries (indent : Nat) : List (Block Nat × Block Nat) → List (List Char)
  | [] => []
  | (key, value) :: rest =>
    (if key.isShortKey then
      let name := keyText indent key
      name ++ ':' :: write .key indent (indent + name.length + 1) value
    else
      '?' :: write .mark indent (indent + 1) key ++ freshLine indent ++
        ':' :: write .mark indent (indent + 1) value) :: writeEntries indent rest

end

end Block

def writeDocument (entries : Entries) : Except Fault (List Char) := do
  let body := match ← Sharing.blockOf (.map entries) with
    | .map _ _ (entry :: rest) =>
      '\n' :: Block.stacked 0 (Block.writeEntries 0 (entry :: rest))
    | _ => " {}".toList
  return "---".toList ++ body ++ ['\n']

def writeDocuments (docs : List Entries) : Except Fault (List Char) :=
  return (← docs.mapM writeDocument).flatten

end ClusterRegistrar.Yaml
