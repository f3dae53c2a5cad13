import ClusterRegistrar.Base64
import ClusterRegistrar.Value.Basic
import ClusterRegistrar.Yaml.Node.Merge
import ClusterRegistrar.Yaml.Number

/-! The value of a document. Scalars are read under their tags; of equal keys the last one wins and
the first one gives the place. A node that occurs several times is one value. A scalar is read where
it is met, while a collection waits until those that were met before it are built: this decides what
is reported of a document with several mistakes, and what a mapping holds that is part of itself. -/
namespace ClusterRegistrar.Yaml

namespace Scalar

def fail (error : Error) : Except Trouble α := .error (.malformed error)

def liftFault (result : Except Fault α) : Except Trouble α := result.mapError .fault

def boolOf (text : List Char) : Except Fault Bool :=
  let word := String.ofList (text.map Char.toLower)
  if ["yes", "true", "on"].contains word then .ok true
  else if ["no", "false", "off"].contains word then .ok false
  else .error .unknownTruthWord

def bytesOf (text : List Char) : Except Trouble ByteArray :=
  if text.any fun c => 0x7f < c.toNat then fail .malformedBinary
  else
    match Base64.decodeLenient text with
    | .ok bytes => .ok ⟨bytes.toArray⟩
    | .error _ => fail .malformedBinary

def timeOf (origin : Origin) (text : List Char) : Except Fault Atom :=
  match Timestamp.read? (dropFinalBreak text) with
  | none => .error .malformedTime
  | some t =>
    t.resolve.map fun
      | .inl date => .date date (some origin)
      | .inr time => .time time (some origin)

/-- Every NaN that is not written as YAML writes it is one of its own. -/
def floatAtom (origin : Origin) (text : List Char) : Except Fault Atom := do
  let x ← floatOf text
  return .float x (if x.isNan && !isNanWord text then some origin else none)

def isCollectionTag : Tag → Bool
  | .orderedMap | .pairs | .set | .seq | .map => true
  | _ => false

def isForeignTag : Tag → Bool
  | .merge | .value | .unknown _ => true
  | _ => false

def read (origin : Origin) (tag : Tag) (text : Text) : Except Trouble Atom :=
  let cs := text.toChars
  match tag with
  | .null => .ok .null
  | .bool => liftFault ((boolOf cs).map .bool)
  | .int => liftFault ((intOf cs).map .int)
  | .float => liftFault (floatAtom origin cs)
  | .binary => (bytesOf cs).map .bytes
  | .timestamp => liftFault (timeOf origin cs)
  | .str => .ok (.str text)
  | .merge | .value | .unknown _ => fail .unknownTag
  | .orderedMap | .pairs | .set | .seq | .map => fail .wrongNodeKind

end Scalar

namespace Nodes

/-- The text that a node gives to a tag for scalars: its own, or that of the key `=` in a mapping. A
chain of such mappings that is longer than there are nodes does not end. -/
def scalarText (n : Nodes) : Nat → NodeId → Except Trouble Text
  | 0, _ => .error (.fault .endlessText)
  | steps + 1, id =>
    match n.content id with
    | .scalar text => .ok text
    | .seq _ => .error (.malformed .wrongNodeKind)
    | .map entries =>
      match entries.find? fun (key, _) => n.tag key = .value with
      | some (_, value) => scalarText n steps value
      | none => .error (.malformed .wrongNodeKind)

def atom (n : Nodes) (document : Nat) (id : NodeId) : Except Trouble Atom := do
  let tag := n.tag id
  if Scalar.isForeignTag tag then .error (.malformed .unknownTag)
  let text ← n.scalarText (n.all.size + 1) id
  match tag, n.content id with
  | .timestamp, .map _ => .error (.fault .listForText)
  | _, _ => Scalar.read ⟨document, id⟩ tag text

end Nodes

/-! ### Building -/

structure Builder where
  document : Nat
  nodes : Nodes
  met : Array (Option Part)
  /-- The collections that have been met; the one met first becomes the first cell. -/
  waiting : Array NodeId
  cells : Array Cell
  entryCount : Nat

namespace Builder

abbrev Build := StateT Builder (Except Trouble)

def fail (error : Error) : Build α := throw (.malformed error)

def start (document : Nat) (nodes : Nodes) : Builder :=
  ⟨document, nodes, Array.replicate nodes.all.size none, #[], #[], nodes.entryCount⟩

/-- The part that a node is, when it is met for the first time. -/
def firstPart (id : NodeId) : Build Part := do
  if Scalar.isCollectionTag ((← get).nodes.tag id) then
    modifyGet fun b => (.cell b.waiting.size, { b with waiting := b.waiting.push id })
  else
    match (← get).nodes.atom (← get).document id with
    | .ok a => return .atom a
    | .error trouble => throw trouble

def part (id : NodeId) : Build Part := do
  match (← get).met[id]? with
  | some (some p) => return p
  | _ =>
    let p ← firstPart id
    modify fun b => { b with met := b.met.setIfInBounds id (some p) }
    return p

/-- The entries of a mapping in which the last one of a key wins. Keys have to be scalars. -/
def entries (id : NodeId) : Build (Keyed Part) := do
  (← get).nodes.entries id |>.foldlM (fun acc (key, value) => do
    match ← part key with
    | .atom k => return acc.put k (← part value)
    | _ => fail .unhashableKey) []

def mergedEntries (id : NodeId) : Build (Keyed Part) := do
  match (← get).nodes.content id with
  | .map _ =>
    match (← get).nodes.merge ((← get).entryCount + 1) id with
    | .ok nodes =>
      modify fun b => { b with nodes := nodes }
      entries id
    | .error trouble => throw trouble
  | _ => fail .wrongNodeKind

def singleEntries (items : List NodeId) : Build (List Part) :=
  items.mapM fun item => do
    match (← get).nodes.content item with
    | .map [(key, value)] => return .pair (← part key) (← part value)
    | _ => fail .wrongNodeKind

/-- The members of a set in order: integers ascend, all else stays as it came. -/
def ordered (members : List Atom) : List Atom :=
  match members.mapM Atom.asInt? with
  | some _ => members.mergeSort fun a b => a.asInt?.getD 0 ≤ b.asInt?.getD 0
  | none => members

def cell (id : NodeId) : Build Cell := do
  let n := (← get).nodes
  match n.tag id, n.content id with
  | .seq, .seq items => return .list (← items.mapM part)
  | .map, _ => return .map (← mergedEntries id)
  | .set, _ => return .set (ordered ((← mergedEntries id).map (·.1)))
  | .orderedMap, .seq items => return .list (← singleEntries items)
  | .pairs, .seq items => return .list (← singleEntries items)
  | _, _ => fail .wrongNodeKind

/-- Builds the collections that wait, those that they hold included; there are at most as many as
there are nodes. -/
def finish : Nat → Build Unit
  | 0 => return ()
  | steps + 1 => do
    match (← get).waiting[(← get).cells.size]? with
    | none => return ()
    | some id =>
      let c ← cell id
      modify fun b => { b with cells := b.cells.push c }
      finish steps

end Builder

def Nodes.value (n : Nodes) (document : Nat) (root : NodeId) : Except Trouble Value := do
  let build : Builder.Build Part := do
    let p ← Builder.part root
    Builder.finish (n.all.size + 1)
    return p
  let (p, b) ← build.run (.start document n)
  return p.toValue ⟨document, b.cells⟩

end ClusterRegistrar.Yaml
