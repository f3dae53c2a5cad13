import ClusterRegistrar.Yaml.Tag

/-! Nodes of a YAML document: scalars, sequences and mappings under tags. Nodes refer to each other
by number, since an alias stands for the node that its anchor names, also from within that node. -/
namespace ClusterRegistrar.Yaml

abbrev NodeId := Nat

inductive Content where
  | scalar (text : Text)
  | seq (items : List NodeId)
  | map (entries : List (NodeId × NodeId))

structure Node where
  tag : Tag
  content : Content

instance : Inhabited Node := ⟨⟨.null, .scalar []⟩⟩

structure Nodes where
  all : Array Node

namespace Nodes

def empty : Nodes := ⟨#[]⟩

/-- A node by its number; a number that was not given out counts as an empty scalar. -/
def node (n : Nodes) (id : NodeId) : Node := n.all[id]?.getD default

def tag (n : Nodes) (id : NodeId) : Tag := (n.node id).tag

def content (n : Nodes) (id : NodeId) : Content := (n.node id).content

def entries (n : Nodes) (id : NodeId) : List (NodeId × NodeId) :=
  match n.content id with
  | .map entries => entries
  | _ => []

def add (n : Nodes) (node : Node) : Nodes := ⟨n.all.push node⟩

def setContent (n : Nodes) (id : NodeId) (content : Content) : Nodes :=
  ⟨n.all.modify id fun node => { node with content }⟩

def setTag (n : Nodes) (id : NodeId) (tag : Tag) : Nodes :=
  ⟨n.all.modify id fun node => { node with tag }⟩

def entryCount (n : Nodes) : Nat :=
  n.all.foldl (fun count node => match node.content with
    | .map entries => count + entries.length
    | _ => count) 0

end Nodes
end ClusterRegistrar.Yaml
