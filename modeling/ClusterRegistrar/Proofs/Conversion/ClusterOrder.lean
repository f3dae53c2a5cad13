import ClusterRegistrar.Proofs.Conversion.Isolation
import ClusterRegistrar.Proofs.Value.Equality
import ClusterRegistrar.Value.Order

/-! The order of the clusters. Clusters of different names can come in any order: at most one of them
has the name that a secret asks for, for what equals that name equals each other. -/
namespace ClusterRegistrar

def SourceCluster.sharesName (c d : SourceCluster) : Bool := c.space.same d.space && c.name.same d.name

namespace Conversion

private theorem find?_perm {p : α → Bool} {left right : List α} (h : left.Perm right)
    (hapart : left.Pairwise fun a b => ¬(p a = true ∧ p b = true)) :
    left.find? p = right.find? p := by
  induction h with
  | nil => rfl
  | cons a _ ih => rw [List.find?_cons, List.find?_cons, ih (List.pairwise_cons.mp hapart).2]
  | swap a b rest =>
    have hnot : ¬(p b = true ∧ p a = true) := (List.pairwise_cons.mp hapart).1 a List.mem_cons_self
    simp only [List.find?_cons]
    cases ha : p a <;> cases hb : p b <;> simp_all
  | trans h _ ih ih' =>
    rw [ih hapart, ih' ((h.pairwise_iff fun hnot hboth => hnot hboth.symm).mp hapart)]

theorem sharesName_of_key {c d : SourceCluster} {key other : Atom × Atom}
    (h : c.identity.key = .ok key) (h' : d.identity.key = .ok other) :
    c.sharesName d = (key.1.same other.1 && key.2.same other.2) := by
  obtain ⟨hspace, hname⟩ : c.space = .atom key.1 ∧ c.name = .atom key.2 := NamespacedName.key_eq_ok.mp h
  obtain ⟨hspace', hname'⟩ : d.space = .atom other.1 ∧ d.name = .atom other.2 :=
    NamespacedName.key_eq_ok.mp h'
  rw [SourceCluster.sharesName, hspace, hname, hspace', hname', Value.same, Value.same]

theorem pairwise_entries {clusters : List SourceCluster}
    {keyed : List ((Atom × Atom) × SourceCluster)} (h : List.Forall₂ IsEntry clusters keyed)
    (hapart : clusters.Pairwise fun c d => ¬c.sharesName d = true) (space name : Atom) :
    keyed.Pairwise fun e f => ¬((e.1.1.same space && e.1.2.same name) = true ∧
      (f.1.1.same space && f.1.2.same name) = true) := by
  have hclusters : clusters = keyed.map (·.2) := by
    have hmap : clusters.map id = keyed.map (·.2) :=
      map_eq_of_forall₂ h fun c e hentry => hentry.2.symm
    rwa [List.map_id] at hmap
  have hkeys : ∀ e ∈ keyed, e.2.identity.key = .ok e.1 :=
    forall_right_of_forall₂ h fun c e hentry => hentry.2 ▸ hentry.1
  rw [hclusters, List.pairwise_map] at hapart
  refine hapart.imp_of_mem fun {e f} he hf hne hboth => hne ?_
  simp only [Bool.and_eq_true] at hboth
  obtain ⟨⟨hspace, hname⟩, hspace', hname'⟩ := hboth
  rw [sharesName_of_key (hkeys e he) (hkeys f hf), Bool.and_eq_true]
  exact ⟨Atom.same_of_same hspace hspace', Atom.same_of_same hname hname'⟩

theorem exists_index_perm {left right : List SourceCluster} (h : left.Perm right)
    (hapart : left.Pairwise fun c d => ¬c.sharesName d = true) {i : ClusterIndex}
    (hi : ClusterIndex.ofList left = .ok i) :
    ∃ j, ClusterIndex.ofList right = .ok j ∧ ∀ name, i.get? name = j.get? name := by
  obtain ⟨keyed, hkeyed, rfl⟩ := ofList_eq_ok.mp hi
  obtain ⟨moved, hmoved, hperm⟩ := List.perm_comp_forall₂ h.symm hkeyed
  refine ⟨⟨moved.reverse⟩, ofList_eq_ok.mpr ⟨moved, hmoved, rfl⟩, fun name => ?_⟩
  refine bind_congr fun ⟨space, base⟩ => ?_
  have hpairs := pairwise_entries hkeyed hapart space base
  have hleft := find?_perm (List.reverse_perm keyed).symm hpairs
  have hright := find?_perm (hperm.symm.trans (List.reverse_perm moved).symm) hpairs
  exact congrArg (fun found => Except.ok (Option.map (·.2) found)) (hleft.symm.trans hright)

theorem fault_of_key {c : SourceCluster} {f : Fault} (h : c.identity.key = .error f) :
    f = .unhashable := by
  have hfault {v : Value} (h : v.key = .error f) : f = .unhashable := by
    cases v <;> cases h <;> rfl
  rcases Except.bind_eq_error.mp h with hspace | ⟨_, -, h⟩
  · exact hfault hspace
  · rcases Except.bind_eq_error.mp h with hname | ⟨_, -, h⟩
    · exact hfault hname
    · cases h

theorem ofList_eq_error {clusters : List SourceCluster} {f : Fault}
    (h : ClusterIndex.ofList clusters = .error f) : f = .unhashable := by
  rcases Except.bind_eq_error.mp h with hkeyed | ⟨_, -, h⟩
  · obtain ⟨c, -, hc⟩ := Except.exists_of_mapM_error hkeyed
    rcases Except.bind_eq_error.mp hc with hkey | ⟨_, -, h⟩
    · exact fault_of_key hkey
    · cases h
  · cases h

theorem convert_perm {left right : List SourceCluster} (h : left.Perm right)
    (hapart : left.Pairwise fun c d => ¬c.sharesName d = true) (settings : Settings)
    (secrets : List SourceSecret) :
    convert settings secrets left = convert settings secrets right := by
  unfold convert
  cases hleft : ClusterIndex.ofList left with
  | ok i =>
    obtain ⟨j, hright, hfound⟩ := exists_index_perm h hapart hleft
    rw [hright]
    exact convertAll_congr (fun s _ _ => bind_congr hfound) settings
  | error f =>
    cases hright : ClusterIndex.ofList right with
    | ok j =>
      obtain ⟨keyed, hkeyed, -⟩ := ofList_eq_ok.mp hright
      obtain ⟨moved, hmoved, -⟩ := List.perm_comp_forall₂ h hkeyed
      cases hleft.symm.trans (ofList_eq_ok.mpr ⟨moved, hmoved, rfl⟩)
    | error g => rw [ofList_eq_error hleft, ofList_eq_error hright]

end Conversion
end ClusterRegistrar
