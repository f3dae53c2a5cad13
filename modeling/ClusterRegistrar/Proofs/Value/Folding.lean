import ClusterRegistrar.Json.Basic
import ClusterRegistrar.Proofs.Value.Matching
import Mathlib.Data.List.Nodup

/-! Folds of values that match. A fold enters each cell at most once on its way down, so the steps
that it is given last in a graph of any size, and two graphs of different sizes are folded alike. The
text of a value, its depth and its JSON form are such folds. -/
namespace ClusterRegistrar

open Yaml.Sharing (Mark)

variable {M : Correspondence}

def Correspondence.cells (M : Correspondence) (d e : Nat) (i j : Nat) : Prop :=
  M.relates (.cell d i) (.cell e j)

theorem Correspondence.biUnique_cells (M : Correspondence) (d e : Nat) :
    Relator.BiUnique (M.cells d e) := by
  constructor
  · intro i i' j h h'
    exact (Mark.cell.inj (M.unique.1 h h')).2
  · intro i j j' h h'
    exact (Mark.cell.inj (M.unique.2 h h')).2

namespace Folder

/-- A fold that does not see where values were read. -/
structure Respects (M : Correspondence) (f : Folder β) : Prop where
  atom : ∀ a b, a.Matches M b → f.atom a = f.atom b
  layer : ∀ l l', Layer.Rel (Atom.Matches M) (· = ·) l l' → f.layer l = f.layer l'
  again : ∀ d e c c', Layer.Rel (Atom.Matches M) (Part.Matches M d e) c c' → f.again c = f.again c'

variable {f : Folder β}

theorem part_eq (hf : f.Respects M) {d e : Nat} {left right : Nat → β}
    (hcells : ∀ i j, M.cells d e i j → left i = right j) {p q : Part} (h : p.Matches M d e q) :
    f.part left p = f.part right q := by
  induction h with
  | atom h => exact hf.atom _ _ h
  | cell h => exact hcells _ _ h
  | pair _ _ hfirst hsecond => exact hf.layer _ _ (.pair hfirst hsecond)

theorem cell_of_mem {g : Graph} {around : List Nat} {i : Nat} (h : i ∈ around) (steps : Nat) :
    f.cell g steps around i = f.again (g.cell i) := by
  cases steps with
  | zero => rfl
  | succ steps => rw [cell, if_pos (List.contains_iff_mem.mpr h)]

theorem cell_of_not_mem {g : Graph} {around : List Nat} {i : Nat} (h : i ∉ around) (steps : Nat) :
    f.cell g (steps + 1) around i =
      f.layer (f.part (f.cell g steps (i :: around)) <$> g.cell i) := by
  rw [cell, if_neg (fun hmem => h (List.contains_iff_mem.mp hmem))]

/-- A cell that is not among those around it leaves a step to enter it. -/
private theorem exists_step {size steps i : Nat} {around : List Nat} (hdistinct : around.Nodup)
    (hbounds : ∀ k ∈ around, k < size) (hi : i < size) (hnot : i ∉ around)
    (hsteps : size ≤ steps + around.length) : ∃ rest, steps = rest + 1 := by
  have hsubset : i :: around ⊆ List.range size := by
    intro k hk
    rw [List.mem_range]
    rcases List.mem_cons.mp hk with rfl | hk
    · exact hi
    · exact hbounds k hk
  have hlength := (List.nodup_cons.mpr ⟨hnot, hdistinct⟩).length_le_of_subset hsubset
  rw [List.length_range, List.length_cons] at hlength
  exact Nat.exists_eq_succ_of_ne_zero (by omega)

theorem cell_eq (hf : f.Respects M) {g h : Graph} (hgraph : g.Matches M h) {steps steps' i j : Nat}
    {around around' : List Nat} (hij : M.cells g.document h.document i j)
    (haround : List.Forall₂ (M.cells g.document h.document) around around')
    (hdistinct : around.Nodup) (hsteps : g.cells.size ≤ steps + around.length)
    (hsteps' : h.cells.size ≤ steps' + around'.length) :
    f.cell g steps around i = f.cell h steps' around' j := by
  -- The steps on the left decrease; that those on the right last follows from the cells around.
  induction steps generalizing steps' i j around around' with
  | zero =>
    obtain ⟨hi, -, hlayer⟩ := hgraph i j hij
    have hmem : i ∈ around := by
      by_contra hnot
      obtain ⟨_, hstep⟩ := exists_step hdistinct
        (forall_left_of_forall₂ haround fun k l hkl => (hgraph k l hkl).1) hi hnot hsteps
      cases hstep
    have hmem' := (List.rel_mem (M.biUnique_cells g.document h.document) hij haround).mp hmem
    rw [cell_of_mem hmem, cell_of_mem hmem', hf.again _ _ _ _ hlayer]
  | succ steps ih =>
    obtain ⟨-, hj, hlayer⟩ := hgraph i j hij
    have hunique := M.biUnique_cells g.document h.document
    have hmem : i ∈ around ↔ j ∈ around' := List.rel_mem hunique hij haround
    by_cases hi : i ∈ around
    · rw [cell_of_mem hi, cell_of_mem (hmem.mp hi), hf.again _ _ _ _ hlayer]
    · have hnot := fun h => hi (hmem.mpr h)
      obtain ⟨steps', rfl⟩ := exists_step ((List.rel_nodup hunique haround).mp hdistinct)
        (forall_right_of_forall₂ haround fun k l hkl => (hgraph k l hkl).2.1) hj hnot hsteps'
      rw [cell_of_not_mem hi, cell_of_not_mem hnot]
      refine hf.layer _ _ (hlayer.map_of_imp fun p q hpq => part_eq hf (fun k l hkl => ?_) hpq)
      refine ih hkl (.cons hij haround) (List.nodup_cons.mpr ⟨hi, hdistinct⟩) ?_ ?_
      · rw [List.length_cons]
        omega
      · rw [List.length_cons]
        omega

mutual

theorem value_eq (hf : f.Respects M) : ∀ {v w : Value}, v.Matches M w → f.value v = f.value w
  | .atom _, _, h => by
    cases h with
    | atom h => exact hf.atom _ _ h
  | .list _, _, h => by
    cases h with
    | list h => exact hf.layer _ _ (.list (values_rel hf h))
  | .pair _ _, _, h => by
    cases h with
    | pair hfirst hsecond => exact hf.layer _ _ (.pair (value_eq hf hfirst) (value_eq hf hsecond))
  | .map _, _, h => by
    cases h with
    | map h => exact hf.layer _ _ (.map (entries_rel hf h))
  | .node _ _, _, h => by
    cases h with
    | node hcell hgraph =>
      exact cell_eq hf hgraph hcell .nil List.nodup_nil (Nat.le_refl _) (Nat.le_refl _)

theorem values_rel (hf : f.Respects M) :
    ∀ {items others : List Value}, List.Forall₂ (Value.Matches M) items others →
      List.Forall₂ (· = ·) (f.values items) (f.values others)
  | [], _, h => by
    cases h
    exact .nil
  | _ :: _, _, h => by
    cases h with
    | cons h hrest => exact .cons (value_eq hf h) (values_rel hf hrest)

theorem entries_rel (hf : f.Respects M) :
    ∀ {entries others : List (Atom × Value)}, Entries.Matches M entries others →
      List.Forall₂ (Entry.Rel (Atom.Matches M) (· = ·)) (f.entriesOf entries) (f.entriesOf others)
  | [], _, h => by
    cases h
    exact .nil
  | (_, _) :: _, _, h => by
    cases h with
    | cons h hrest =>
      cases h with
      | mk hkey h => exact .cons (.mk hkey (value_eq hf h)) (entries_rel hf hrest)

end

theorem value_list_eq {items others : List Value}
    (h : List.Forall₂ (fun v w => f.value v = f.value w) items others) :
    f.value (.list items) = f.value (.list others) := by
  rw [value, value, values_eq_map, values_eq_map, map_eq_of_forall₂ h fun _ _ h => h]

end Folder

/-! ### Texts -/

theorem Atom.Matches.quotedAtom_eq {a b : Atom} (h : a.Matches M b) :
    Value.quotedAtom a = Value.quotedAtom b := by
  cases h <;> rfl

namespace Value

theorem respects_depth : Folder.Respects M ⟨fun _ => 0, levels, fun _ => 0⟩ where
  atom _ _ _ := rfl
  layer l l' h := by
    cases h with
    | list h =>
      rw [List.forall₂_eq_eq_eq] at h
      rw [h]
    | pair hfirst hsecond => rw [hfirst, hsecond]
    | set => rfl
    | map h =>
      have hvalues := map_eq_of_forall₂ (f := Prod.snd) (g := Prod.snd) h <| by
        rintro _ _ ⟨-, hvalue⟩
        exact hvalue
      simp only [levels, hvalues]
  again _ _ _ _ _ := rfl

theorem respects_quoting : Folder.Respects M quoting where
  atom _ _ h := h.quotedAtom_eq
  layer l l' h := by
    cases h with
    | list h =>
      rw [List.forall₂_eq_eq_eq] at h
      rw [h]
    | pair hfirst hsecond => rw [hfirst, hsecond]
    | set h =>
      have hmembers := mapM_eq_of_forall₂ h fun _ _ => Atom.Matches.quotedAtom_eq
      cases h with
      | nil => rfl
      | cons => exact congrArg (· >>= fun parts => pure (enclosed _ _ parts)) hmembers
    | map h =>
      have hentries := mapM_eq_of_forall₂ (f := fun entry => quotedEntry entry.1 entry.2)
        (g := fun entry => quotedEntry entry.1 entry.2) h <| by
          rintro _ _ ⟨hkey, hvalue⟩
          simp only [quotedEntry, hkey.quotedAtom_eq, hvalue]
      exact congrArg (· >>= fun parts => pure (enclosed _ _ parts)) hentries
  again _ _ _ _ h := by
    cases h <;> rfl

variable {v w : Value}

theorem Matches.depth_eq (h : v.Matches M w) : v.depth = w.depth :=
  Folder.value_eq respects_depth h

theorem Matches.quoted_eq (h : v.Matches M w) : v.quoted = w.quoted := by
  rw [quoted, quoted, h.depth_eq, Folder.value_eq respects_quoting h]

theorem Matches.shown_eq (h : v.Matches M w) : v.shown = w.shown := by
  have hquoted := h.quoted_eq
  cases h with
  | atom ha => cases ha <;> rfl
  | _ => exact hquoted

end Value

/-! ### JSON forms -/

namespace Json

private def formField (entry : Atom × Except Refusal Json) : Except Refusal (Text × Json) := do
  let name ← nameOfKey entry.1
  return (name, ← entry.2)

theorem respects_forming : Folder.Respects M forming where
  atom _ _ h := by
    cases h <;> rfl
  layer l l' h := by
    cases h with
    | list h =>
      rw [List.forall₂_eq_eq_eq] at h
      rw [h]
    | pair hfirst hsecond => rw [hfirst, hsecond]
    | set => rfl
    | map h =>
      have hentries := mapM_eq_of_forall₂ (f := formField) (g := formField) h <| by
        rintro _ _ ⟨hkey, hvalue⟩
        simp only [formField, hvalue]
        cases hkey <;> rfl
      exact congrArg (· >>= fun fields => pure (obj fields)) hentries
  again _ _ _ _ _ := rfl

/-- Values that match one by one have the same JSON form in lists, which tells nothing of what items
share with each other. -/
theorem ofValue_list_eq {items others : List Value}
    (h : List.Forall₂ (fun v w => ∃ M : Correspondence, v.Matches M w) items others) :
    ofValue (.list items) = ofValue (.list others) := by
  have hdepth : (Value.list items).depth = (Value.list others).depth :=
    Folder.value_list_eq (h.imp fun _ _ ⟨_, h⟩ => h.depth_eq)
  have hformed : forming.value (.list items) = forming.value (.list others) :=
    Folder.value_list_eq (h.imp fun _ _ ⟨_, h⟩ => Folder.value_eq respects_forming h)
  rw [ofValue, ofValue, hdepth, hformed]

end Json
end ClusterRegistrar
