import ClusterRegistrar.Value.Basic

/-! Folding a whole value from its atoms up. A collection that is met inside itself is not entered
again, so that a fold is finite although a value need not be. -/
namespace ClusterRegistrar

/-- What a fold makes of each kind of value. -/
structure Folder (β : Type) where
  atom : Atom → β
  layer : Layer β → β
  again : Cell → β

namespace Folder

def part (f : Folder β) (cell : Nat → β) : Part → β
  | .atom a => f.atom a
  | .cell index => cell index
  | .pair a b => f.layer (.pair (part f cell a) (part f cell b))

/-- What is made of a cell that lies inside others. As many steps as there are cells suffice. -/
def cell (f : Folder β) (g : Graph) : Nat → List Nat → Nat → β
  | 0, _, index => f.again (g.cell index)
  | steps + 1, around, index =>
    if around.contains index then f.again (g.cell index)
    else f.layer (f.part (cell f g steps (index :: around)) <$> g.cell index)

mutual

def value (f : Folder β) : Value → β
  | .atom a => f.atom a
  | .list items => f.layer (.list (values f items))
  | .pair a b => f.layer (.pair (value f a) (value f b))
  | .map entries => f.layer (.map (entriesOf f entries))
  | .node g index => f.cell g g.cells.size [] index

def values (f : Folder β) : List Value → List β
  | [] => []
  | v :: rest => value f v :: values f rest

def entriesOf (f : Folder β) : List (Atom × Value) → List (Atom × β)
  | [] => []
  | (key, v) :: rest => (key, value f v) :: entriesOf f rest

end

theorem values_eq_map (f : Folder β) (items : List Value) : f.values items = items.map f.value := by
  induction items with
  | nil => rfl
  | cons v rest ih => simp [values, ih]

theorem entriesOf_eq_map (f : Folder β) (entries : List (Atom × Value)) :
    f.entriesOf entries = entries.map fun (key, v) => (key, f.value v) := by
  induction entries with
  | nil => rfl
  | cons entry rest ih =>
    obtain ⟨key, v⟩ := entry
    simp [entriesOf, ih]

end Folder
end ClusterRegistrar
