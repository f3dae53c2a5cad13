import ClusterRegistrar.Proofs.Yaml.Documents
import ClusterRegistrar.Yaml.Stream

/-! The tokens of a tree are parsed into its nodes, numbered in the order in which a parser meets them: a
mapping before its keys, and a key before its value. -/
namespace ClusterRegistrar

open Yaml

namespace TextTree

mutual

def nodeCount : TextTree → Nat
  | .text _ => 1
  | .map entries => entryNodeCount entries + 1

def entryNodeCount : List (Text × TextTree) → Nat
  | [] => 0
  | (_, tree) :: rest => 1 + nodeCount tree + entryNodeCount rest

end

def entryIds (base : Nat) : List (Text × TextTree) → List (NodeId × NodeId)
  | [] => []
  | (_, tree) :: rest => (base, base + 1) :: entryIds (base + 1 + nodeCount tree) rest

mutual

def nodes (base : Nat) : TextTree → List Node
  | .text t => [⟨.str, .scalar t⟩]
  | .map entries => ⟨.map, .map (entryIds (base + 1) entries)⟩ :: entryNodes (base + 1) entries

def entryNodes (base : Nat) : List (Text × TextTree) → List Node
  | [] => []
  | (key, tree) :: rest =>
    ⟨.str, .scalar key⟩ :: nodes (base + 1) tree ++ entryNodes (base + 1 + nodeCount tree) rest

end

theorem length_nodes (tree : TextTree) (base : Nat) : (tree.nodes base).length = tree.nodeCount := by
  induction tree generalizing base with
  | text t => rfl
  | map entries ih =>
    have hentries (rest : List (Text × TextTree)) (hrest : rest ⊆ entries) (base : Nat) :
        (entryNodes base rest).length = entryNodeCount rest := by
      induction rest generalizing base with
      | nil => rfl
      | cons entry rest ihRest =>
        obtain ⟨hentry, hrest⟩ := List.cons_subset.mp hrest
        rw [entryNodes, entryNodeCount, List.length_append, List.length_cons, ih entry hentry,
          ihRest hrest, Nat.add_comm 1]
    rw [nodes, List.length_cons, nodeCount, hentries entries (List.Subset.refl _)]

end TextTree

namespace Yaml.Parser

def resume (p : Parser) (tokens : List Token) (nodes : List Node) : Parser :=
  { p with tokens, nodes := ⟨nodes.toArray⟩ }

variable {p : Parser} {rest : List Token} {before more : List Node} {block indentless : Bool}
  {room fuel : Nat}

/-! ### Steps -/

@[simp]
theorem peek_resume (token : Token) : peek.run (p.resume (token :: rest) before) =
    .ok (token, p.resume (token :: rest) before) := rfl

@[simp]
theorem drop_resume (token : Token) : drop.run (p.resume (token :: rest) before) =
    .ok ((), p.resume rest before) := rfl

@[simp]
theorem accept_resume (token next : Token) : (accept token).run (p.resume (next :: rest) before) =
    if next = token then .ok (true, p.resume rest before)
    else .ok (false, p.resume (next :: rest) before) := by
  rw [accept, StateT.run_bind, peek_resume]
  by_cases h : next = token
  · simp [h]
  · simp [h]
    rfl

@[simp]
theorem expect_resume (token : Token) : (expect token).run (p.resume (token :: rest) before) =
    .ok ((), p.resume rest before) := by
  simp [expect]
  rfl

@[simp]
theorem add_resume (node : Node) : (add node).run (p.resume rest before) =
    .ok (before.length, p.resume rest (before ++ [node])) := by
  simp [add, resume, Nodes.add]
  rfl

@[simp]
theorem setContent_resume (tag : Tag) (content content' : Content) (more : List Node) :
    (setContent before.length content').run (p.resume rest (before ++ ⟨tag, content⟩ :: more)) =
      .ok ((), p.resume rest (before ++ ⟨tag, content'⟩ :: more)) := by
  have h : (before ++ ⟨tag, content⟩ :: more).modify before.length
      (fun node => { node with content := content' }) = before ++ ⟨tag, content'⟩ :: more := by
    induction before with
    | nil => rfl
    | cons node before ih => simpa using ih
  simp [setContent, resume, Nodes.setContent, h]
  rfl

@[simp]
theorem properties_scalar (t : Text) (plain : Bool) :
    properties.run (p.resume (.scalar t plain :: rest) before) =
      .ok ((none, none), p.resume (.scalar t plain :: rest) before) := rfl

@[simp]
theorem properties_blockMapping : properties.run (p.resume (.blockMappingStart :: rest) before) =
    .ok ((none, none), p.resume (.blockMappingStart :: rest) before) := rfl

@[simp]
theorem properties_flowMapping : properties.run (p.resume (.flowMappingStart :: rest) before) =
    .ok ((none, none), p.resume (.flowMappingStart :: rest) before) := rfl

/-! ### Nodes -/

theorem scalarTag_ofText (t : Text) : scalarTag none (decide (Style.ofText t = .plain)) t = .str := by
  obtain ⟨style, hstyle, hform⟩ : ∃ style, Style.ofText t = style ∧ Scalar.HasStyle t style :=
    ⟨_, rfl, Scalar.hasStyle t⟩
  rw [hstyle]
  cases hform with
  | plain _ _ htag => exact htag
  | single => rfl
  | double => rfl

theorem node_text (t : Text) :
    (node block indentless room (fuel + 1)).run (p.resume (.ofText t :: rest) before) =
      .ok (before.length, p.resume rest (before ++ [⟨.str, .scalar t⟩])) := by
  rw [node]
  simp [Token.ofText, scalarTag_ofText, name]

theorem node_braces :
    (node block indentless (room + 1) (fuel + 2)).run
        (p.resume (.flowMappingStart :: .flowMappingEnd :: rest) before) =
      .ok (before.length, p.resume rest (before ++ [⟨.map, .map []⟩])) := by
  rw [node]
  simp [name, deeper, collectionTag, flowEntries]

theorem node_blockMapping {tokens : List Token} {ids : List (NodeId × NodeId)}
    (h : (blockEntries room fuel).run (p.resume tokens (before ++ [⟨.map, .map []⟩])) =
      .ok (ids, p.resume rest (before ++ ⟨.map, .map []⟩ :: more))) :
    (node true indentless (room + 1) (fuel + 1)).run (p.resume (.blockMappingStart :: tokens) before) =
      .ok (before.length, p.resume rest (before ++ ⟨.map, .map ids⟩ :: more)) := by
  rw [node]
  simp [name, deeper, collectionTag, h]

def Parses (room : Nat) (tree : TextTree) : Prop :=
  ∀ (p : Parser) (rest : List Token) (before : List Node) (indentless : Bool) (fuel : Nat),
    tree.tokens.length ≤ fuel →
      (node true indentless room fuel).run (p.resume (tree.tokens ++ rest) before) =
        .ok (before.length, p.resume rest (before ++ tree.nodes before.length))

theorem endsBlockPart_tokens (tree : TextTree) (rest : List Token) :
    ∃ token more, tree.tokens ++ rest = token :: more ∧ endsBlockPart token = false := by
  cases tree with
  | text t => exact ⟨_, _, rfl, rfl⟩
  | map entries => cases entries <;> exact ⟨_, _, rfl, rfl⟩

theorem blockEntries_entries (p : Parser) (rest : List Token) (before : List Node)
    {entries : List (Text × TextTree)} (h : ∀ entry ∈ entries, Parses room entry.2)
    (hfuel : (TextTree.entryTokens entries).length < fuel) :
    (blockEntries room fuel).run
        (p.resume (TextTree.entryTokens entries ++ .blockEnd :: rest) before) =
      .ok (TextTree.entryIds before.length entries,
        p.resume rest (before ++ TextTree.entryNodes before.length entries)) := by
  induction entries generalizing before fuel with
  | nil =>
    obtain ⟨fuel, rfl⟩ := Nat.exists_eq_add_of_lt hfuel
    simp [TextTree.entryTokens, TextTree.entryIds, TextTree.entryNodes, blockEntries]
  | cons entry entries ih =>
    obtain ⟨key, tree⟩ := entry
    obtain ⟨hentry, hentries⟩ := List.forall_mem_cons.mp h
    replace hentry : Parses room tree := hentry
    simp only [TextTree.entryTokens, List.length_cons, List.length_append] at hfuel
    obtain ⟨fuel, rfl⟩ : ∃ fuel', fuel = fuel' + 2 := ⟨fuel - 2, by omega⟩
    obtain ⟨token, more, htokens, hcontent⟩ := endsBlockPart_tokens tree
      (TextTree.entryTokens entries ++ .blockEnd :: rest)
    have hkey : endsBlockPart (.ofText key) = false := rfl
    have hvalue := hentry p (TextTree.entryTokens entries ++ .blockEnd :: rest)
      (before ++ [⟨.str, .scalar key⟩]) true (fuel + 1) (by omega)
    have hlength : (before ++ ⟨.str, .scalar key⟩ :: tree.nodes (before.length + 1)).length =
        before.length + 1 + tree.nodeCount := by
      rw [List.length_append, List.length_cons, TextTree.length_nodes]
      omega
    have hrest := ih (before ++ ⟨.str, .scalar key⟩ :: tree.nodes (before.length + 1)) hentries
      (Nat.lt_of_le_of_lt (Nat.le_add_left _ tree.tokens.length) (by omega : _ < fuel + 1))
    rw [htokens] at hvalue
    rw [hlength] at hrest
    rw [blockEntries]
    simp [TextTree.entryTokens, TextTree.entryIds, TextTree.entryNodes, hkey, hcontent, htokens, node_text,
      hvalue, hrest]

/-- The tokens of a tree are parsed into its nodes. -/
theorem parses {tree : TextTree} {depth : Nat} (h : tree.Fits depth) (hdepth : depth ≤ room) :
    Parses room tree := by
  induction tree generalizing depth room with
  | text t =>
    intro p rest before indentless fuel hfuel
    obtain ⟨fuel, rfl⟩ := Nat.exists_eq_add_of_lt hfuel
    simp [TextTree.tokens, TextTree.nodes, node_text]
  | map entries ih =>
    obtain _ | @⟨depth, _, -, hinner⟩ := h
    obtain ⟨room, rfl⟩ := Nat.exists_eq_add_of_lt hdepth
    intro p rest before indentless fuel hfuel
    cases entries with
    | nil =>
      obtain ⟨fuel, rfl⟩ : ∃ fuel', fuel = fuel' + 2 := Nat.exists_eq_add_of_le' hfuel
      exact node_braces
    | cons entry entries =>
      rw [TextTree.tokens, List.length_append, List.length_cons] at hfuel
      obtain ⟨fuel, rfl⟩ : ∃ fuel', fuel = fuel' + 1 := Nat.exists_eq_add_of_le' (Nat.le_of_add_left_le hfuel)
      have hentries := blockEntries_entries p rest (before ++ [⟨.map, .map []⟩])
        (fun entry' hentry => ih entry' hentry (hinner entry' hentry) (Nat.le_add_right depth room))
        (Nat.le_of_succ_le_succ hfuel)
      rw [List.length_append, List.length_singleton, List.append_assoc] at hentries
      rw [TextTree.tokens, TextTree.nodes, List.cons_append, List.cons_append, List.append_assoc]
      exact node_blockMapping hentries

/-! ### Documents -/

inductive AtBoundary : List Token → Prop where
  | document (rest : List Token) : AtBoundary (.documentStart :: rest)
  | stop : AtBoundary [.streamEnd]

theorem atBoundary_documents (docs : List (List (Text × TextTree))) :
    AtBoundary (docs.flatMap documentTokens ++ [.streamEnd]) := by
  cases docs with
  | nil => exact .stop
  | cons entries docs => exact .document _

theorem content_tokens {tree : TextTree} {depth : Nat} (h : tree.Fits depth) (hdepth : depth ≤ maxDepth)
    (hfuel : tree.tokens.length ≤ fuel) :
    (content fuel).run (p.resume (tree.tokens ++ rest) before) =
      .ok (before.length, p.resume rest (before ++ tree.nodes before.length)) := by
  have hnode := parses h hdepth p rest before false fuel hfuel
  rw [content]
  cases tree with
  | text t => simpa [TextTree.tokens, Token.ofText] using hnode
  | map entries => cases entries <;> simpa [TextTree.tokens] using hnode

theorem document?_atBoundary {tokens : List Token} (h : AtBoundary tokens) (first : Bool) :
    (document? fuel first).run (p.resume tokens before) =
      (do
        skipDocumentEnds fuel
        if (← peek) = .streamEnd then return none
        documentStart fuel
        return some (← finish (← content fuel)) : Parse (Option Parsed)).run
        ({ p with anchors := [] }.resume tokens []) := by
  cases h <;> cases first <;> rfl

theorem skipDocumentEnds_resume {token : Token} (h : token ≠ .documentEnd) :
    (skipDocumentEnds fuel).run (p.resume (token :: rest) before) =
      .ok ((), p.resume (token :: rest) before) := by
  cases fuel with
  | zero => rfl
  | succ fuel =>
    simp [skipDocumentEnds, h]
    rfl

theorem documentStart_resume (fuel : Nat) :
    (documentStart fuel).run (p.resume (.documentStart :: rest) before) =
      .ok ((), { p with handles := defaultHandles }.resume rest before) := by
  cases fuel <;>
    (rw [documentStart, directives]
     simp
     exact expect_resume (p := { p with handles := defaultHandles }) _)

theorem finish_resume (h : AtBoundary rest) (root : NodeId) :
    (finish root).run (p.resume rest before) = .ok (⟨⟨before.toArray⟩, root⟩, p.resume rest before) := by
  cases h <;> rfl

theorem document?_tokens (p : Parser) (before : List Node) (first : Bool)
    {entries : List (Text × TextTree)} {depth : Nat} (h : (TextTree.map entries).Fits depth) (hdepth : depth ≤ maxDepth)
    (hfuel : (TextTree.map entries).tokens.length ≤ fuel) (hrest : AtBoundary rest) :
    ∃ p' : Parser, (document? fuel first).run (p.resume (documentTokens entries ++ rest) before) =
      .ok (some ⟨⟨((TextTree.map entries).nodes 0).toArray⟩, 0⟩,
        p'.resume rest ((TextTree.map entries).nodes 0)) := by
  refine ⟨{ p with anchors := [], handles := defaultHandles }, ?_⟩
  rw [documentTokens, List.cons_append, document?_atBoundary (.document _)]
  simp [skipDocumentEnds_resume, documentStart_resume, content_tokens h hdepth hfuel, finish_resume hrest]

theorem document?_end (p : Parser) (before : List Node) (fuel : Nat) (first : Bool) :
    ∃ p', (document? fuel first).run (p.resume [.streamEnd] before) = .ok (none, p') := by
  refine ⟨{ p with anchors := [] }.resume [.streamEnd] [], ?_⟩
  rw [document?_atBoundary .stop]
  simp [skipDocumentEnds_resume]
  rfl

end Yaml.Parser
end ClusterRegistrar
