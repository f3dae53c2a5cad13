import ClusterRegistrar.Proofs.Value.Matching
import Mathlib.Data.List.Nodup

/-! Copies of a value that was read, told by the cells and origins that correspond to each other. This
covers what manifests are made of for the most part: mappings under texts, texts and dates. -/
namespace ClusterRegistrar

open Yaml.Sharing (Mark)

def Correspondence.ofPairs (marks : List (Mark × Mark)) (hleft : (marks.map Prod.fst).Nodup)
    (hright : (marks.map Prod.snd).Nodup) : Correspondence where
  relates a b := (a, b) ∈ marks
  unique := by
    constructor
    · intro a b c h h'
      exact (Prod.ext_iff.mp (List.inj_on_of_nodup_map hright h h' rfl)).1
    · intro a b c h h'
      exact (Prod.ext_iff.mp (List.inj_on_of_nodup_map hleft h h' rfl)).2

variable (origins : List (Origin × Origin)) (cells : List (Nat × Nat))

def marksOf (d e : Nat) : List (Mark × Mark) :=
  (origins.map fun (o, p) => (.atom o, .atom p)) ++ cells.map fun (i, j) => (.cell d i, .cell e j)

def Part.isCopied : Part → Part → Bool
  | .atom (.str s), .atom (.str t) => s = t
  | .atom (.date day (some o)), .atom (.date other (some p)) =>
    day = other && origins.contains (o, p)
  | .cell i, .cell j => cells.contains (i, j)
  | _, _ => false

def Cell.isCopied : Cell → Cell → Bool
  | .map entries, .map others =>
    entries.length = others.length && (entries.zip others).all fun (entry, other) =>
      (Part.atom entry.1).isCopied origins cells (.atom other.1) &&
        entry.2.isCopied origins cells other.2
  | _, _ => false

/-- Whether a resource of mappings, texts and dates is copied, given its origins and cells and those of
the copy. -/
def Value.isCopied : Value → Value → Bool
  | .node g i, .node h j =>
    decide ((marksOf origins cells g.document h.document).map Prod.fst).Nodup &&
      decide ((marksOf origins cells g.document h.document).map Prod.snd).Nodup &&
      cells.contains (i, j) && cells.all fun (i, j) =>
        i < g.cells.size && j < h.cells.size && (g.cell i).isCopied origins cells (h.cell j)
  | _, _ => false

variable {origins cells} {d e : Nat}

theorem cell_mem_marksOf {i j : Nat} :
    (Mark.cell d i, Mark.cell e j) ∈ marksOf origins cells d e ↔ (i, j) ∈ cells := by
  simp [marksOf]

theorem atom_mem_marksOf {o p : Origin} :
    (Mark.atom o, Mark.atom p) ∈ marksOf origins cells d e ↔ (o, p) ∈ origins := by
  simp [marksOf]

section

variable {hleft : ((marksOf origins cells d e).map Prod.fst).Nodup}
  {hright : ((marksOf origins cells d e).map Prod.snd).Nodup}

theorem Part.matches_of_isCopied {p q : Part} (h : p.isCopied origins cells q = true) :
    p.Matches (.ofPairs _ hleft hright) d e q := by
  unfold Part.isCopied at h
  split at h
  · obtain rfl := of_decide_eq_true h
    exact .atom (.plain rfl)
  · obtain ⟨hday, horigins⟩ := Bool.and_eq_true_iff.mp h
    obtain rfl := of_decide_eq_true hday
    exact .atom (.date (atom_mem_marksOf.mpr (List.contains_iff_mem.mp horigins)))
  · exact .cell (cell_mem_marksOf.mpr (List.contains_iff_mem.mp h))
  · cases h

theorem Cell.rel_of_isCopied {c c' : Cell} (h : c.isCopied origins cells c' = true) :
    Layer.Rel (Atom.Matches (.ofPairs _ hleft hright))
      (Part.Matches (.ofPairs _ hleft hright) d e) c c' := by
  unfold Cell.isCopied at h
  split at h
  · rw [Bool.and_eq_true, decide_eq_true_eq, List.all_eq_true] at h
    refine .map (List.forall₂_iff_zip.mpr ⟨h.1, fun {entry other} hmem => ?_⟩)
    obtain ⟨hkey, hpart⟩ := Bool.and_eq_true_iff.mp (h.2 _ hmem)
    have hkey : (Part.atom entry.1).Matches (.ofPairs _ hleft hright) d e (.atom other.1) :=
      Part.matches_of_isCopied hkey
    cases hkey with
    | atom hkey => exact .mk hkey (Part.matches_of_isCopied hpart)
  · cases h

end

theorem Value.exists_matches_of_isCopied {v w : Value} (h : v.isCopied origins cells w = true) :
    ∃ M : Correspondence, (M.Keeps fun o p => (o, p) ∈ origins) ∧ v.Matches M w := by
  unfold Value.isCopied at h
  split at h
  · simp only [Bool.and_eq_true, decide_eq_true_eq, List.all_eq_true] at h
    obtain ⟨⟨⟨hleft, hright⟩, hroot⟩, hcells⟩ := h
    refine ⟨.ofPairs _ hleft hright, fun o p => atom_mem_marksOf, ?_⟩
    refine .node (cell_mem_marksOf.mpr (List.contains_iff_mem.mp hroot)) fun i j hcell => ?_
    obtain ⟨⟨hi, hj⟩, hcopied⟩ := hcells _ (cell_mem_marksOf.mp hcell)
    exact ⟨hi, hj, Cell.rel_of_isCopied hcopied⟩
  · cases h

end ClusterRegistrar
