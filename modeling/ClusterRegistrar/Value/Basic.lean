import ClusterRegistrar.Fault
import ClusterRegistrar.Number.Binary64
import ClusterRegistrar.Text.Basic
import ClusterRegistrar.Time

/-! Values of documents. A manifest is read before anyone has checked it, so its fields hold values
of any kind. An atom is a value without parts, and only atoms can be keys. A collection is built
from its parts, or it is a cell of a graph: the collections of a document that was read refer to
each other by number, so that one can be part of several others and even of itself. `Value.layer?`
shows either kind one layer deep, and all but the printers look no deeper. -/
namespace ClusterRegistrar

/-- Where an atom was read: the number of the document and that of the node within it. -/
structure Origin where
  document : Nat
  node : Nat
deriving DecidableEq, Repr

/-- A value without parts. One date, time or NaN can occur in several places, which its origin
tells; the NaN without an origin is a single one. -/
inductive Atom where
  | null
  | bool (b : Bool)
  | int (i : Int)
  | float (x : Binary64) (origin : Option Origin)
  | str (text : Text)
  | bytes (bytes : ByteArray)
  | date (date : Date) (origin : Option Origin)
  | time (time : DateTime) (origin : Option Origin)
deriving Inhabited

namespace Atom

instance : Coe String Atom := ⟨fun s => .str s⟩

def asInt? : Atom → Option Int
  | .bool b => some (if b then 1 else 0)
  | .int i => some i
  | _ => none

/-- Equality of numbers of any kind. A NaN equals only itself. -/
def sameNumber (a b : Atom) : Bool :=
  match asInt? a, asInt? b, a, b with
  | some i, some j, _, _ => i = j
  | some i, none, _, .float y _ => y.isInt i
  | none, some j, .float x _, _ => x.isInt j
  | none, none, .float x p, .float y q => x.same y || (x.isNan && y.isNan && p = q)
  | _, _, _, _ => false

/-- Equality: numbers by value, whatever their kind, all else within its kind. -/
def same : Atom → Atom → Bool
  | .null, .null => true
  | .str s, .str t => s = t
  | .bytes s, .bytes t => s.data = t.data
  | .date d _, .date e _ => d = e
  | .time t _, .time u _ => t.same u
  | a, b => sameNumber a b

theorem same_str {k : Atom} {t : Text} : k.same (.str t) = true ↔ k = .str t := by
  cases k <;> simp [same, sameNumber, asInt?]

def truthy : Atom → Bool
  | .null => false
  | .bool b => b
  | .int i => i ≠ 0
  | .float x _ => !x.isZero
  | .str t => t ≠ []
  | .bytes b => b.size ≠ 0
  | .date .. | .time .. => true

end Atom

/-- Values under pairwise different keys, in order. -/
abbrev Keyed (α : Type) := List (Atom × α)

namespace Keyed

def get? (entries : Keyed α) (key : Atom) : Option α :=
  match entries with
  | [] => none
  | (k, a) :: rest => if k.same key then some a else get? rest key

/-- Sets what is under a key: in its place if it is there, else at the end. The key that is there
stays. -/
def put (entries : Keyed α) (key : Atom) (a : α) : Keyed α :=
  match entries with
  | [] => [(key, a)]
  | (k, b) :: rest => if k.same key then (k, a) :: rest else (k, b) :: put rest key a

/-- Sets one entry after another; the last one of a key wins and the first one gives its place. -/
def putAll (entries more : Keyed α) : Keyed α :=
  more.foldl (fun acc entry => put acc entry.1 entry.2) entries

theorem get?_put_same (entries : Keyed α) (t : Text) (a : α) :
    get? (put entries (.str t) a) (.str t) = some a := by
  induction entries with
  | nil => simp [put, get?, Atom.same]
  | cons entry rest ih =>
    obtain ⟨k, b⟩ := entry
    by_cases h : k.same (.str t) <;> simp [put, get?, h, ih]

theorem get?_put_other (entries : Keyed α) {t u : Text} (a : α) (h : t ≠ u) :
    get? (put entries (.str t) a) (.str u) = get? entries (.str u) := by
  induction entries with
  | nil => simp [put, get?, Atom.same, h]
  | cons entry rest ih =>
    obtain ⟨k, b⟩ := entry
    by_cases hk : k.same (.str t)
    · rw [Atom.same_str] at hk
      subst hk
      simp [put, get?, Atom.same, h]
    · simp [put, get?, hk, ih]

end Keyed

inductive Layer (α : Type) where
  | list (items : List α)
  | pair (first second : α)
  | set (members : List Atom)
  | map (entries : Keyed α)

namespace Layer

instance : Functor Layer where
  map f
    | list items => .list (items.map f)
    | pair a b => .pair (f a) (f b)
    | set members => .set members
    | map entries => .map (entries.map fun (key, a) => (key, f a))

def isEmpty : Layer α → Bool
  | list items => items.isEmpty
  | pair .. => false
  | set members => members.isEmpty
  | map entries => entries.isEmpty

end Layer

/-- What stands in a cell: an atom, another cell by its number, or a pair. -/
inductive Part where
  | atom (a : Atom)
  | cell (index : Nat)
  | pair (first second : Part)

abbrev Cell := Layer Part

structure Graph where
  document : Nat
  cells : Array Cell

def Graph.cell (g : Graph) (index : Nat) : Cell := g.cells[index]?.getD (.list [])

inductive Value where
  | atom (a : Atom)
  | list (items : List Value)
  | pair (first second : Value)
  | map (entries : List (Atom × Value))
  | node (graph : Graph) (index : Nat)

instance : Inhabited Value := ⟨.atom .null⟩

abbrev Entries := Keyed Value

def Part.toValue (g : Graph) : Part → Value
  | .atom a => .atom a
  | .cell index => .node g index
  | .pair a b => .pair (toValue g a) (toValue g b)

namespace Value

abbrev null : Value := .atom .null

abbrev bool (b : Bool) : Value := .atom (.bool b)

abbrev int (i : Int) : Value := .atom (.int i)

abbrev str (t : Text) : Value := .atom (.str t)

abbrev bytes (b : ByteArray) : Value := .atom (.bytes b)

abbrev empty : Value := .map []

instance : Coe String Value := ⟨fun s => .str s⟩

def layer? : Value → Option (Layer Value)
  | .atom _ => none
  | .list items => some (.list items)
  | .pair a b => some (.pair a b)
  | .map entries => some (.map entries)
  | .node g index => some (Part.toValue g <$> g.cell index)

def atom? : Value → Option Atom
  | .atom a => some a
  | _ => none

def entries? (v : Value) : Option Entries :=
  match v.layer? with
  | some (.map entries) => some entries
  | _ => none

def truthy (v : Value) : Bool :=
  match v.atom?, v.layer? with
  | some a, _ => a.truthy
  | none, some layer => !layer.isEmpty
  | none, none => true

def orElse (a b : Value) : Value := if a.truthy then a else b

def fields (v : Value) : Except Fault Entries :=
  match v.entries? with
  | some entries => .ok entries
  | none => .error .noFields

def key (v : Value) : Except Fault Atom :=
  match v.atom? with
  | some a => .ok a
  | none => .error .unhashable

def text : Value → Except Fault Text
  | .atom (.str t) => .ok t
  | .atom (.bytes _) => .error .bytesForText
  | _ => .error .notText

def isText (v : Value) (t : Text) : Bool :=
  match v with
  | .atom (.str s) => s = t
  | _ => false

/-- The elements of a value, in order: items, members, keys, characters or bytes. -/
def elements (v : Value) : Except Fault (List Value) :=
  match v.atom?, v.layer? with
  | some (.str t), _ => .ok (t.map fun p => .str [p])
  | some (.bytes b), _ => .ok (b.data.toList.map fun x => .int x.toNat)
  | _, some (.list items) => .ok items
  | _, some (.pair a b) => .ok [a, b]
  | _, some (.set members) => .ok (members.map .atom)
  | _, some (.map entries) => .ok (entries.map fun (key, _) => .atom key)
  | _, none => .error .notIterable

def asEntry (v : Value) : Except Fault (Atom × Value) := do
  match ← v.elements with
  | [key, value] => return (← key.key, value)
  | _ => .error .notAPair

/-- The entries of a mapping, or those that a listing of pairs stands for. -/
def toEntries (v : Value) : Except Fault Entries :=
  match v.entries? with
  | some entries => .ok entries
  | none => do
    (← v.elements).foldlM (fun acc item => do
      let (key, value) ← asEntry item
      return acc.put key value) []

end Value

namespace Entries

def field? (entries : Entries) (name : Text) : Option Value := entries.get? (.str name)

def field (entries : Entries) (name : Text) : Value := (field? entries name).getD .null

end Entries
end ClusterRegistrar
