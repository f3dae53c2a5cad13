import ClusterRegistrar.Proofs.Run
import ClusterRegistrar.Proofs.TextTree
import ClusterRegistrar.Yaml.Writer.Layout

/-! What a writer makes of documents of mappings and texts. Nothing in such a document is written twice,
so that there are neither anchors nor aliases. -/
namespace ClusterRegistrar

open Yaml

namespace TextTree

mutual

def block {α : Type} : TextTree → Block α
  | .text t => .text t
  | .map entries => .map none false (blockEntries entries)

def blockEntries {α : Type} : List (Text × TextTree) → List (Block α × Block α)
  | [] => []
  | (key, tree) :: rest => (.text key, block tree) :: blockEntries rest

end

end TextTree

namespace Yaml

open Sharing

theorem ofAtom_str (t : Text) : ofAtom (.str t) = pure (.text t) := rfl

theorem ofValue_value {tree : TextTree} {depth room : Nat} (h : tree.Fits depth)
    (hroom : depth ≤ room) : ofValue room tree.value = pure tree.block := by
  induction tree generalizing depth room with
  | text t => rfl
  | map entries ih =>
    obtain _ | @⟨depth, _, -, hinner⟩ := h
    have hentries {inside : Nat} (hinside : depth ≤ inside) (rest : List (Text × TextTree))
        (hrest : rest ⊆ entries) :
        ofEntries inside (TextTree.valueEntries rest) = pure (TextTree.blockEntries rest) := by
      induction rest with
      | nil => simp only [TextTree.valueEntries, ofEntries, TextTree.blockEntries]
      | cons entry rest ihRest =>
        obtain ⟨hentry, hrest⟩ := List.cons_subset.mp hrest
        have hvalue := ih entry hentry (hinner entry hentry) hinside
        simp only [TextTree.valueEntries, ofEntries, ofAtom_str, hvalue, ihRest hrest, pure_bind,
          TextTree.blockEntries]
    obtain ⟨room, rfl⟩ := Nat.exists_eq_succ_of_ne_zero (Nat.ne_zero_of_lt hroom)
    have hdeeper : ∃ inside, depth ≤ inside ∧ deeper (TextTree.valueEntries entries).isEmpty (room + 1) =
        pure inside := by
      cases entries with
      | nil => exact ⟨room + 1, Nat.le_of_lt hroom, rfl⟩
      | cons => exact ⟨room, Nat.le_of_succ_le_succ hroom, rfl⟩
    obtain ⟨inside, hinside, hdeeper⟩ := hdeeper
    simp only [TextTree.value, ofValue, hdeeper, pure_bind, hentries hinside entries (List.Subset.refl _),
      TextTree.block]

theorem aliases_block (tree : TextTree) : aliases tree.block = [] := by
  induction tree with
  | text t => rfl
  | map entries ih =>
    have hentries (rest : List (Text × TextTree)) (hrest : rest ⊆ entries) :
        aliasesEntries (TextTree.blockEntries rest) = [] := by
      induction rest with
      | nil => rfl
      | cons entry rest ihRest =>
        obtain ⟨hentry, hrest⟩ := List.cons_subset.mp hrest
        rw [TextTree.blockEntries, aliasesEntries, ih entry hentry, ihRest hrest]
        rfl
    exact hentries entries (List.Subset.refl _)

theorem number_block (needed : List Mark) (tree : TextTree) : number needed tree.block = tree.block := by
  induction tree with
  | text t => rfl
  | map entries ih =>
    have hentries (rest : List (Text × TextTree)) (hrest : rest ⊆ entries) :
        numberEntries needed (TextTree.blockEntries rest) = TextTree.blockEntries rest := by
      induction rest with
      | nil => rfl
      | cons entry rest ihRest =>
        obtain ⟨hentry, hrest⟩ := List.cons_subset.mp hrest
        rw [TextTree.blockEntries, numberEntries, ih entry hentry, ihRest hrest]
        rfl
    rw [TextTree.block, number, hentries entries (List.Subset.refl _)]
    rfl

theorem blockOf_value {tree : TextTree} {depth : Nat} (h : tree.Fits depth) (hdepth : depth ≤ maxDepth) :
    blockOf tree.value = .ok tree.block := by
  rw [blockOf, ofValue_value h hdepth]
  show Except.ok (number (aliases tree.block).eraseDups tree.block) = _
  rw [aliases_block, number_block]

end Yaml
end ClusterRegistrar
