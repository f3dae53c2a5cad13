import ClusterRegistrar.Value.Order
import ClusterRegistrar.Value.Shown

/-! The names of namespaced resources. They are ordered by namespace and then by name, and stand as
`namespace/name` in messages. -/
namespace ClusterRegistrar

structure NamespacedName where
  space : Value
  name : Value
deriving Inhabited

namespace NamespacedName

/-- `namespace/name`. -/
def id (n : NamespacedName) : Except Fault Text := do
  let space ← n.space.shown
  return space ++ "/" ++ (← n.name.shown)

def key (n : NamespacedName) : Except Fault (Atom × Atom) :=
  return (← n.space.key, ← n.name.key)

def before (a b : NamespacedName) : Except Fault Bool :=
  if !a.space.same b.space then a.space.before b.space
  else if !a.name.same b.name then a.name.before b.name
  else .ok false

/-! ### Sorting

Names without an order among each other make sorting fail if two of them are compared, so it is
fixed which ones are: the run at the front is taken as it is, and every other name finds its place
by bisection. -/

/-- The rest of a run behind a name, and what follows the run: names each of which comes before its
predecessor, or none of which does. -/
def runFrom (descending : Bool) (previous : NamespacedName) :
    List NamespacedName → Except Fault (List NamespacedName × List NamespacedName)
  | [] => .ok ([], [])
  | n :: rest => do
    if (← n.before previous) = descending then
      let (run, rest) ← runFrom descending n rest
      return (n :: run, rest)
    else return ([], n :: rest)

def frontRun : List NamespacedName → Except Fault (List NamespacedName × List NamespacedName)
  | first :: second :: rest => do
    let descending ← second.before first
    let (run, rest) ← runFrom descending second rest
    let run := first :: second :: run
    return (if descending then run.reverse else run, rest)
  | names => .ok (names, [])

/-- The place of a name between `low` and `high` of those that are sorted, behind its equals; the
distance of the two bounds the steps. -/
def bisect (n : NamespacedName) (sorted : Array NamespacedName) :
    Nat → Nat → Nat → Except Fault Nat
  | 0, low, _ => .ok low
  | steps + 1, low, high =>
    if low < high then do
      let middle := low + (high - low) / 2
      if ← n.before (sorted[middle]?.getD n) then bisect n sorted steps low middle
      else bisect n sorted steps (middle + 1) high
    else .ok low

def insertSorted (sorted : Array NamespacedName) (n : NamespacedName) :
    Except Fault (Array NamespacedName) :=
  return sorted.insertIdxIfInBounds (← bisect n sorted sorted.size 0 sorted.size) n

def sort (names : List NamespacedName) : Except Fault (List NamespacedName) := do
  let (run, rest) ← frontRun names
  return (← rest.foldlM insertSorted run.toArray).toList

end NamespacedName
end ClusterRegistrar
