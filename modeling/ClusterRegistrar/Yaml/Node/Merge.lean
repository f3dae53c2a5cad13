import ClusterRegistrar.Yaml.Error
import ClusterRegistrar.Yaml.Node.Basic

/-! Merging: the entries under a key `<<` are those of other mappings, and they come before a
mapping's own. A mapping is merged in place, and so are those whose entries it takes; one that is
part of itself gives what it has left at that moment. -/
namespace ClusterRegistrar.Yaml

abbrev Merging := StateT Nodes (Except Trouble)

namespace Nodes

def isMerge (n : Nodes) (entry : NodeId × NodeId) : Bool := n.tag entry.1 = .merge

/-- A key `=` of a mapping is text. -/
def readDefaultAsText (n : Nodes) (entry : NodeId × NodeId) : Nodes :=
  if n.tag entry.1 = .value then n.setTag entry.1 .str else n

/-- Merges a mapping from its entry `index` on; `brought` are the entries that keys `<<` before it
have brought. Every step takes one such key away, so as many steps as there are entries suffice. -/
def mergeFrom : Nat → NodeId → Nat → List (NodeId × NodeId) → Merging Unit
  | 0, _, _, _ => return ()
  | steps + 1, id, index, brought => do
    let n ← get
    let entries := n.entries id
    let own := (entries.drop index).takeWhile (!n.isMerge ·)
    set (own.foldl readDefaultAsText n)
    let place := index + own.length
    match entries[place]? with
    | none =>
      if !brought.isEmpty then modify (·.setContent id (.map (brought ++ entries)))
    | some (_, value) =>
      modify (·.setContent id (.map (entries.eraseIdx place)))
      let mergeOne (source : NodeId) : Merging (List (NodeId × NodeId)) := do
        mergeFrom steps source 0 []
        return (← get).entries source
      let more ← match n.content value with
        | .map _ => mergeOne value
        | .seq items => do
          let parts ← items.mapM fun item => do
            match n.content item with
            | .map _ => mergeOne item
            | _ => throw (.malformed .malformedMerge)
          pure parts.reverse.flatten
        | .scalar _ => throw (.malformed .malformedMerge)
      mergeFrom steps id place (brought ++ more)

def merge (n : Nodes) (steps : Nat) (id : NodeId) : Except Trouble Nodes := do
  let ((), n) ← (mergeFrom steps id 0 []).run n
  return n

end Nodes
end ClusterRegistrar.Yaml
