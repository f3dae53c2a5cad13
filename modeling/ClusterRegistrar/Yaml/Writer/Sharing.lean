import ClusterRegistrar.Base64
import ClusterRegistrar.Value.Shown
import ClusterRegistrar.Yaml.Tag

/-! Values as they are written. What occurs more than once in a document is written once under an
anchor and as an alias from then on. First all that occurs is marked by what it is; then the marks
that aliases need become anchors, numbered from one in the order in which the aliases come. -/
namespace ClusterRegistrar.Yaml

inductive Block (α : Type) where
  | alias (anchor : α)
  | word (anchor : Option α) (tag : Tag) (text : List Char)
  | text (text : Text)
  | binary (bytes : ByteArray)
  | seq (anchor : Option α) (isPair : Bool) (items : List (Block α))
  /-- A mapping, or a set as a mapping to null. -/
  | map (anchor : Option α) (isSet : Bool) (entries : List (Block α × Block α))

instance : Inhabited (Block α) := ⟨.text []⟩

namespace Sharing

inductive Mark where
  | atom (origin : Origin)
  | cell (document index : Nat)
deriving DecidableEq, Repr

abbrev Marking := StateT (List Mark) (Except Fault)

/-- What to write for an occurrence: an alias unless it is the first. -/
def occur (mark : Mark) (first : Marking (Block Mark)) : Marking (Block Mark) := do
  if (← get).contains mark then return .alias mark
  else
    modify (mark :: ·)
    first

def occurAt (origin : Option Origin) (tag : Tag) (text : List Char) : Marking (Block Mark) :=
  match origin with
  | some o => occur (.atom o) (return .word (some (.atom o)) tag text)
  | none => return .word none tag text

/-- Doubles have a point, also before an exponent. -/
def floatStyle : FloatStyle :=
  { Value.floatStyle with
    positiveInfinity := ".inf", negativeInfinity := "-.inf", notANumber := ".nan" }

/-- A double as a word; a whole significand gets a point too. -/
def floatText (x : Binary64) : List Char :=
  let text := (floatStyle.write x).toList
  if text.contains '.' then text
  else
    let significand := text.takeWhile (· ≠ 'e')
    let exponent := text.drop significand.length
    significand ++ if exponent.isEmpty then [] else '.' :: '0' :: exponent

def nullWord : Block Mark := .word none .null "null".toList

def ofAtom : Atom → Marking (Block Mark)
  | .null => return nullWord
  | .bool b => return .word none .bool (if b then "true" else "false").toList
  | .int i =>
    match Numeral.decimalInt? i with
    | some digits => return .word none .int digits
    | none => throw .longNumeral
  | .float x _ => return .word none .float (floatText x)
  | .str t => return .text t
  | .bytes b => return .binary b
  | .date d origin => occurAt origin .timestamp d.iso
  | .time t origin => occurAt origin .timestamp (t.iso ' ')

/-- Collections that have parts cannot be written if they are nested deeper than this. -/
def maxDepth : Nat := 326

def deeper (isEmpty : Bool) (room : Nat) : Marking Nat :=
  if isEmpty then return room
  else
    match room with
    | 0 => throw .nestedTooDeep
    | room + 1 => return room

def ofMembers (members : List Atom) : Marking (List (Block Mark × Block Mark)) :=
  members.mapM fun member => return (← ofAtom member, nullWord)

/-- A part of a cell, given how cells are written that lie inside so many collections. -/
def ofPart (cell : Nat → Nat → Marking (Block Mark)) (room : Nat) : Part → Marking (Block Mark)
  | .atom a => ofAtom a
  | .cell index => cell room index
  | .pair a b => do
    let room ← deeper false room
    let first ← ofPart cell room a
    return .seq none true [first, ← ofPart cell room b]

def ofCell (g : Graph) : Nat → Nat → Nat → Marking (Block Mark)
  | 0, _, index => return .alias (.cell g.document index)
  | steps + 1, room, index =>
    let mark : Mark := .cell g.document index
    occur mark do
      let room ← deeper (g.cell index).isEmpty room
      let part := ofPart (ofCell g steps) room
      match g.cell index with
      | .list items => return .seq (some mark) false (← items.mapM part)
      | .pair a b => return .seq (some mark) true [← part a, ← part b]
      | .set members => return .map (some mark) true (← ofMembers members)
      | .map entries =>
        return .map (some mark) false (← entries.mapM fun (key, p) => do
          return (← ofAtom key, ← part p))

mutual

/-- A value that lies inside collections, of which `room` more may be opened. -/
def ofValue (room : Nat) : Value → Marking (Block Mark)
  | .atom a => ofAtom a
  | .list items => do
    let room ← deeper items.isEmpty room
    return .seq none false (← ofValues room items)
  | .pair a b => do
    let room ← deeper false room
    let first ← ofValue room a
    return .seq none true [first, ← ofValue room b]
  | .map entries => do
    let room ← deeper entries.isEmpty room
    return .map none false (← ofEntries room entries)
  | .node g index => ofCell g (g.cells.size + 1) room index

def ofValues (room : Nat) : List Value → Marking (List (Block Mark))
  | [] => return []
  | v :: rest => do
    let block ← ofValue room v
    return block :: (← ofValues room rest)

def ofEntries (room : Nat) : List (Atom × Value) → Marking (List (Block Mark × Block Mark))
  | [] => return []
  | (key, v) :: rest => do
    let name ← ofAtom key
    let block ← ofValue room v
    return (name, block) :: (← ofEntries room rest)

end

mutual

def aliases : Block Mark → List Mark
  | .alias mark => [mark]
  | .seq _ _ items => aliasesAll items
  | .map _ _ entries => aliasesEntries entries
  | _ => []

def aliasesAll : List (Block Mark) → List Mark
  | [] => []
  | b :: rest => aliases b ++ aliasesAll rest

def aliasesEntries : List (Block Mark × Block Mark) → List Mark
  | [] => []
  | (key, b) :: rest => aliases key ++ aliases b ++ aliasesEntries rest

end

/-- The number of the anchor of a mark that aliases need. -/
def anchorOf (needed : List Mark) (mark : Mark) : Option Nat := (needed.idxOf? mark).map (· + 1)

mutual

/-- A block with numbers for the marks that aliases need. -/
def number (needed : List Mark) : Block Mark → Block Nat
  | .alias mark => .alias ((anchorOf needed mark).getD 0)
  | .word mark tag text => .word (mark.bind (anchorOf needed)) tag text
  | .text t => .text t
  | .binary b => .binary b
  | .seq mark isPair items => .seq (mark.bind (anchorOf needed)) isPair (numberAll needed items)
  | .map mark isSet entries =>
    .map (mark.bind (anchorOf needed)) isSet (numberEntries needed entries)

def numberAll (needed : List Mark) : List (Block Mark) → List (Block Nat)
  | [] => []
  | b :: rest => number needed b :: numberAll needed rest

def numberEntries (needed : List Mark) :
    List (Block Mark × Block Mark) → List (Block Nat × Block Nat)
  | [] => []
  | (key, b) :: rest => (number needed key, number needed b) :: numberEntries needed rest

end

def blockOf (v : Value) : Except Fault (Block Nat) := do
  let (block, _) ← (ofValue maxDepth v).run []
  return number (aliases block).eraseDups block

end Sharing
end ClusterRegistrar.Yaml
