import ClusterRegistrar.Proofs.Value
import ClusterRegistrar.Proofs.Yaml.Parse
import Mathlib.Data.List.Nodup
import Mathlib.Data.List.TakeWhile

/-! The nodes of a tree are built into a value that shows the tree. -/
namespace ClusterRegistrar

namespace Yaml

mutual

inductive Nodes.Holds (n : Nodes) : NodeId → TextTree → Prop where
  | text {id : NodeId} {t : Text} (h : n.all[id]? = some ⟨.str, .scalar t⟩) : Nodes.Holds n id (.text t)
  | map {id : NodeId} {ids : List (NodeId × NodeId)} {entries : List (Text × TextTree)}
    (h : n.all[id]? = some ⟨.map, .map ids⟩) (distinct : (entries.map Prod.fst).Nodup)
    (inner : Nodes.HoldsEntries n ids entries) : Nodes.Holds n id (.map entries)

inductive Nodes.HoldsEntries (n : Nodes) : List (NodeId × NodeId) → List (Text × TextTree) → Prop where
  | nil : Nodes.HoldsEntries n [] []
  | cons {key value : NodeId} {t : Text} {tree : TextTree} {ids : List (NodeId × NodeId)}
    {entries : List (Text × TextTree)} (hkey : n.all[key]? = some ⟨.str, .scalar t⟩)
    (hvalue : Nodes.Holds n value tree) (rest : Nodes.HoldsEntries n ids entries) :
    Nodes.HoldsEntries n ((key, value) :: ids) ((t, tree) :: entries)

end

namespace Nodes

theorem holds_nodes {tree : TextTree} {depth : Nat} (h : tree.Fits depth) (before after : List Node) :
    (Nodes.mk (before ++ (tree.nodes before.length ++ after)).toArray).Holds before.length tree := by
  induction tree generalizing depth before after with
  | text t => exact .text (by simp [TextTree.nodes])
  | map entries ih =>
    obtain _ | @⟨depth, _, hdistinct, hinner⟩ := h
    have hentries (rest : List (Text × TextTree)) (hrest : rest ⊆ entries) (before after : List Node) :
        (Nodes.mk (before ++ (TextTree.entryNodes before.length rest ++ after)).toArray).HoldsEntries
          (TextTree.entryIds before.length rest) rest := by
      induction rest generalizing before with
      | nil => exact .nil
      | cons entry rest ihRest =>
        obtain ⟨key, tree⟩ := entry
        obtain ⟨hentry, hrest⟩ := List.cons_subset.mp hrest
        have hvalue := ih _ hentry (hinner _ hentry) (before ++ [⟨.str, .scalar key⟩])
          (TextTree.entryNodes (before.length + 1 + tree.nodeCount) rest ++ after)
        have hothers := ihRest hrest (before ++ ⟨.str, .scalar key⟩ :: tree.nodes (before.length + 1))
        have hlength : (before ++ ⟨.str, .scalar key⟩ :: tree.nodes (before.length + 1)).length =
            before.length + 1 + tree.nodeCount := by
          rw [List.length_append, List.length_cons, TextTree.length_nodes]
          omega
        rw [hlength] at hothers
        simp only [List.length_append, List.length_singleton, List.append_assoc, List.cons_append,
          List.nil_append] at hvalue hothers
        simp only [TextTree.entryNodes, TextTree.entryIds, List.append_assoc, List.cons_append]
        exact .cons (by simp) hvalue hothers
    have hnodes := hentries entries (List.Subset.refl _)
      (before ++ [⟨.map, .map (TextTree.entryIds (before.length + 1) entries)⟩]) after
    simp only [List.length_append, List.length_singleton, List.append_assoc, List.cons_append,
      List.nil_append] at hnodes
    rw [TextTree.nodes, List.cons_append]
    exact .map (by simp) hdistinct hnodes

variable {n : Nodes} {id : NodeId} {ids : List (NodeId × NodeId)} {t : Text}

theorem entries_of_mapping (h : n.all[id]? = some ⟨.map, .map ids⟩) : n.entries id = ids := by
  rw [entries, content, node, h]
  rfl

theorem tag_of_node {node : Node} (h : n.all[id]? = some node) : n.tag id = node.tag := by
  rw [tag, Nodes.node, h]
  rfl

theorem content_of_node {node : Node} (h : n.all[id]? = some node) : n.content id = node.content := by
  rw [content, Nodes.node, h]
  rfl

theorem HoldsEntries.tag_eq {entries : List (Text × TextTree)} (h : n.HoldsEntries ids entries) :
    ∀ pair ∈ ids, n.tag pair.1 = .str := by
  induction entries generalizing ids with
  | nil =>
    cases h
    exact nofun
  | cons entry entries ih =>
    obtain _ | ⟨hkey, -, hrest⟩ := h
    exact List.forall_mem_cons.mpr ⟨tag_of_node hkey, ih hrest⟩

theorem merge_of_holds {entries : List (Text × TextTree)} (h : n.Holds id (.map entries)) (steps : Nat) :
    n.merge (steps + 1) id = .ok n := by
  obtain _ | @⟨_, ids, _, hnode, -, hinner⟩ := h
  have htags := hinner.tag_eq
  have hown : ids.takeWhile (fun pair => !n.isMerge pair) = ids :=
    List.takeWhile_eq_self_iff.mpr fun pair hpair => by simp [isMerge, htags pair hpair]
  have hread : ids.foldl readDefaultAsText n = n := by
    clear hown hinner hnode
    induction ids with
    | nil => rfl
    | cons pair ids ih =>
      obtain ⟨htag, htags⟩ := List.forall_mem_cons.mp htags
      simpa [readDefaultAsText, htag] using ih htags
  rw [merge, mergeFrom]
  simp [entries_of_mapping hnode, hown, hread]
  rfl

end Nodes

namespace Builder

variable {n : Nodes} {b : Builder} {id : NodeId} {ids : List (NodeId × NodeId)} {tree : TextTree}
  {entries : List (Text × TextTree)}

inductive IsPart (n : Nodes) (waiting : Array NodeId) (id : NodeId) : Part → Prop where
  | text {t : Text} (h : n.all[id]? = some ⟨.str, .scalar t⟩) : IsPart n waiting id (.atom (.str t))
  | cell {ids : List (NodeId × NodeId)} {index : Nat} (h : n.all[id]? = some ⟨.map, .map ids⟩)
    (hwaits : waiting[index]? = some id) : IsPart n waiting id (.cell index)

inductive AreParts (n : Nodes) (waiting : Array NodeId) : List (NodeId × NodeId) → Keyed Part → Prop where
  | nil : AreParts n waiting [] []
  | cons {key value : NodeId} {t : Text} {p : Part} {ids : List (NodeId × NodeId)} {parts : Keyed Part}
    (hkey : n.all[key]? = some ⟨.str, .scalar t⟩) (hvalue : IsPart n waiting value p)
    (rest : AreParts n waiting ids parts) : AreParts n waiting ((key, value) :: ids) ((.str t, p) :: parts)

inductive IsCell (n : Nodes) (waiting : Array NodeId) (id : NodeId) : Cell → Prop where
  | map {ids : List (NodeId × NodeId)} {parts : Keyed Part} (h : n.all[id]? = some ⟨.map, .map ids⟩)
    (hparts : AreParts n waiting ids parts) : IsCell n waiting id (.map parts)

/-- Every node that has been met is right, and so is every cell; what waits is a mapping that has been
met. -/
structure Sound (n : Nodes) (b : Builder) : Prop where
  nodes : b.nodes = n
  size : b.met.size = n.all.size
  met : ∀ (id : NodeId) (p : Part), b.met[id]? = some (some p) → IsPart n b.waiting id p
  waits : ∀ (index : Nat) (id : NodeId), b.waiting[index]? = some id →
    b.met[id]? = some (some (.cell index)) ∧ ∃ entries, n.Holds id (.map entries)
  built : ∀ (index : Nat) (c : Cell), b.cells[index]? = some c → ∃ id, b.waiting[index]? = some id ∧ IsCell n b.waiting id c

/-- What waits goes on to wait in its place. -/
def Grows (waiting waiting' : Array NodeId) : Prop :=
  ∀ (index : Nat) (id : NodeId), waiting[index]? = some id → waiting'[index]? = some id

theorem Grows.trans {waiting waiting' waiting'' : Array NodeId} (h : Grows waiting waiting')
    (h' : Grows waiting' waiting'') : Grows waiting waiting'' :=
  fun index id hid => h' index id (h index id hid)

structure Meets (b b' : Builder) : Prop where
  grows : Grows b.waiting b'.waiting
  cells : b'.cells = b.cells

theorem Meets.refl (b : Builder) : b.Meets b := ⟨fun _ _ h => h, rfl⟩

theorem Meets.trans {b' b'' : Builder} (h : b.Meets b') (h' : b'.Meets b'') : b.Meets b'' :=
  ⟨h.grows.trans h'.grows, h'.cells.trans h.cells⟩

section

variable {waiting waiting' : Array NodeId} (hgrows : Grows waiting waiting')

include hgrows

theorem IsPart.of_grows {p : Part} (h : IsPart n waiting id p) : IsPart n waiting' id p := by
  cases h with
  | text h => exact .text h
  | cell h hwaits => exact .cell h (hgrows _ _ hwaits)

theorem AreParts.of_grows {parts : Keyed Part} (h : AreParts n waiting ids parts) :
    AreParts n waiting' ids parts := by
  induction h with
  | nil => exact .nil
  | cons hkey hvalue _ ih => exact .cons hkey (hvalue.of_grows hgrows) ih

theorem IsCell.of_grows {c : Cell} (h : IsCell n waiting id c) : IsCell n waiting' id c := by
  obtain ⟨h, hparts⟩ := h
  exact .map h (hparts.of_grows hgrows)

end

theorem sound_start (document : Nat) (n : Nodes) : (start document n).Sound n := by
  refine ⟨rfl, Array.size_replicate, fun id p h => ?_, fun index id h => ?_, fun index c h => ?_⟩
  · simp [start, Array.getElem?_replicate] at h
  · simp [start] at h
  · simp [start] at h

theorem part_of_met {p : Part} (h : b.met[id]? = some (some p)) : (part id).run b = .ok (p, b) := by
  rw [part]
  simp [h]
  rfl

theorem part_of_unmet (h : ∀ p, b.met[id]? ≠ some (some p)) {p : Part} {b' : Builder}
    (hfirst : (firstPart id).run b = .ok (p, b')) :
    (part id).run b = .ok (p, { b' with met := b'.met.setIfInBounds id (some p) }) := by
  rw [part]
  simp [hfirst]

theorem firstPart_text (hb : b.Sound n) {t : Text} (h : n.all[id]? = some ⟨.str, .scalar t⟩) :
    (firstPart id).run b = .ok (.atom (.str t), b) := by
  have htag := Nodes.tag_of_node h
  have hcontent := Nodes.content_of_node h
  rw [firstPart]
  simp [hb.nodes, htag, Scalar.isCollectionTag, Nodes.atom, Scalar.isForeignTag, Nodes.scalarText, hcontent]
  rfl

theorem firstPart_map (hb : b.Sound n) (h : n.all[id]? = some ⟨.map, .map ids⟩) :
    (firstPart id).run b = .ok (.cell b.waiting.size, { b with waiting := b.waiting.push id }) := by
  have htag := Nodes.tag_of_node h
  rw [firstPart]
  simp [hb.nodes, htag, Scalar.isCollectionTag]
  rfl

theorem Sound.met_setIfInBounds (hb : b.Sound n) (hmet : ∀ p, b.met[id]? ≠ some (some p)) {other : NodeId}
    {index : Nat} (h : b.waiting[index]? = some other) (p : Part) :
    (b.met.setIfInBounds id (some p))[other]? = some (some (.cell index)) := by
  obtain ⟨hother, -⟩ := hb.waits index other h
  have hne : id ≠ other := by
    rintro rfl
    exact hmet _ hother
  rw [Array.getElem?_setIfInBounds_ne hne, hother]

theorem Sound.meet_text (hb : b.Sound n) (hmet : ∀ p, b.met[id]? ≠ some (some p)) {t : Text}
    (h : n.all[id]? = some ⟨.str, .scalar t⟩) :
    Sound n { b with met := b.met.setIfInBounds id (some (.atom (.str t))) } := by
  refine ⟨hb.nodes, by simp [hb.size], fun other p hp => ?_, fun index other hother => ?_, hb.built⟩
  · rw [Array.getElem?_setIfInBounds] at hp
    split at hp
    · next heq =>
      subst heq
      simp at hp
      obtain ⟨-, rfl⟩ := hp
      exact .text h
    · exact hb.met other p hp
  · exact ⟨hb.met_setIfInBounds hmet hother _, (hb.waits index other hother).2⟩

theorem meets_push (b : Builder) (id : NodeId) (met : Array (Option Part)) :
    b.Meets { b with waiting := b.waiting.push id, met } := by
  refine ⟨fun index other hother => ?_, rfl⟩
  have hindex : index < b.waiting.size := (Array.getElem?_eq_some_iff.mp hother).1
  rw [Array.getElem?_push, if_neg (Nat.ne_of_lt hindex), hother]

theorem Sound.meet_map (hb : b.Sound n) (hmet : ∀ p, b.met[id]? ≠ some (some p))
    (h : n.all[id]? = some ⟨.map, .map ids⟩) (hholds : n.Holds id (.map entries)) :
    Sound n { b with
      waiting := b.waiting.push id
      met := b.met.setIfInBounds id (some (.cell b.waiting.size)) } := by
  have hmeets := b.meets_push id (b.met.setIfInBounds id (some (.cell b.waiting.size)))
  have hid : id < b.met.size := by
    rw [hb.size]
    exact (Array.getElem?_eq_some_iff.mp h).1
  refine ⟨hb.nodes, by simp [hb.size], fun other p hp => ?_, fun index other hother => ?_,
    fun index c hc => ?_⟩
  · rw [Array.getElem?_setIfInBounds] at hp
    split at hp
    · next heq =>
      subst heq
      simp at hp
      obtain ⟨-, rfl⟩ := hp
      exact .cell h Array.getElem?_push_size
    · exact (hb.met other p hp).of_grows hmeets.grows
  · rw [Array.getElem?_push] at hother
    split at hother
    · next heq =>
      obtain rfl : id = other := Option.some.inj hother
      subst heq
      exact ⟨Array.getElem?_setIfInBounds_self_of_lt hid, entries, hholds⟩
    · exact ⟨hb.met_setIfInBounds hmet hother _, (hb.waits index other hother).2⟩
  · obtain ⟨other, hother, hcell⟩ := hb.built index c hc
    exact ⟨other, hmeets.grows index other hother, hcell.of_grows hmeets.grows⟩

theorem part_run (hb : b.Sound n) (h : n.Holds id tree) : ∃ p b', (part id).run b = .ok (p, b') ∧
    b'.Sound n ∧ b.Meets b' ∧ IsPart n b'.waiting id p := by
  by_cases hmet : ∃ p, b.met[id]? = some (some p)
  · obtain ⟨p, hp⟩ := hmet
    exact ⟨p, b, part_of_met hp, hb, .refl b, hb.met id p hp⟩
  · rw [not_exists] at hmet
    cases h with
    | text hnode =>
      exact ⟨_, _, part_of_unmet hmet (firstPart_text hb hnode), hb.meet_text hmet hnode,
        ⟨fun _ _ h => h, rfl⟩, .text hnode⟩
    | map hnode hdistinct hinner =>
      exact ⟨_, _, part_of_unmet hmet (firstPart_map hb hnode),
        hb.meet_map hmet hnode (.map hnode hdistinct hinner), meets_push b id _,
        .cell hnode Array.getElem?_push_size⟩

/-! ### Cells -/

def putEntry (acc : Keyed Part) (entry : NodeId × NodeId) : Build (Keyed Part) := do
  match ← part entry.1 with
  | .atom k => return acc.put k (← part entry.2)
  | _ => fail .unhashableKey

theorem run_entries (id : NodeId) :
    (Builder.entries id).run b = ((b.nodes.entries id).foldlM putEntry []).run b := rfl

theorem putEntry_run (hb : b.Sound n) {key value : NodeId} {t : Text}
    (hkey : n.all[key]? = some ⟨.str, .scalar t⟩) (hvalue : n.Holds value tree) (acc : Keyed Part)
    (hmissing : .str t ∉ acc.map Prod.fst) :
    ∃ p b', (putEntry acc (key, value)).run b = .ok (acc ++ [(.str t, p)], b') ∧ b'.Sound n ∧
      b.Meets b' ∧ IsPart n b'.waiting value p := by
  obtain ⟨q, b₁, hfirst, hb₁, hmeets₁, hq⟩ := part_run hb (.text hkey)
  obtain ⟨p, b₂, hsecond, hb₂, hmeets₂, hp⟩ := part_run hb₁ hvalue
  obtain rfl : q = .atom (.str t) := by
    cases hq with
    | text h =>
      rw [hkey] at h
      cases h
      rfl
    | cell h _ =>
      rw [hkey] at h
      cases h
  refine ⟨p, b₂, ?_, hb₂, hmeets₁.trans hmeets₂, hp⟩
  rw [putEntry]
  simp [hfirst, hsecond, Keyed.put_of_missing hmissing]

theorem putEntries_run (hb : b.Sound n) (h : n.HoldsEntries ids entries) (acc : Keyed Part)
    (hdistinct : (acc.map Prod.fst ++ entries.map fun entry => Atom.str entry.1).Nodup) :
    ∃ parts b', (ids.foldlM putEntry acc).run b = .ok (acc ++ parts, b') ∧ b'.Sound n ∧ b.Meets b' ∧
      AreParts n b'.waiting ids parts := by
  induction entries generalizing ids b acc with
  | nil =>
    cases h
    refine ⟨[], b, ?_, hb, .refl b, .nil⟩
    simp
    rfl
  | cons entry entries ih =>
    obtain _ | @⟨key, value, t, _, _, _, hkey, hvalue, hrest⟩ := h
    have hmissing : .str t ∉ acc.map Prod.fst := by
      intro hmem
      exact (List.nodup_append.mp hdistinct).2.2 _ hmem _ List.mem_cons_self rfl
    obtain ⟨p, b₁, hput, hb₁, hmeets₁, hp⟩ := putEntry_run hb hkey hvalue acc hmissing
    have hnext : ((acc ++ [(Atom.str t, p)]).map Prod.fst ++
        entries.map fun entry => Atom.str entry.1).Nodup := by
      simpa using hdistinct
    obtain ⟨parts, b₂, hparts, hb₂, hmeets₂, hall⟩ := ih hb₁ hrest _ hnext
    refine ⟨(.str t, p) :: parts, b₂, ?_, hb₂, hmeets₁.trans hmeets₂, .cons hkey (hp.of_grows hmeets₂.grows) hall⟩
    rw [List.foldlM_cons]
    simp [hput, hparts]

theorem cell_run (hb : b.Sound n) (h : n.Holds id (.map entries)) :
    ∃ c b', (cell id).run b = .ok (c, b') ∧ b'.Sound n ∧ b.Meets b' ∧ IsCell n b'.waiting id c := by
  have hmerge := Nodes.merge_of_holds h b.entryCount
  obtain _ | @⟨_, ids, _, hnode, hdistinct, hinner⟩ := h
  have hkeys : (([] : Keyed Part).map Prod.fst ++ entries.map fun entry => Atom.str entry.1).Nodup := by
    show (entries.map (Atom.str ∘ Prod.fst)).Nodup
    rw [← List.map_map]
    exact hdistinct.map fun _ _ => Atom.str.inj
  obtain ⟨parts, b', hparts, hb', hmeets, hall⟩ := putEntries_run hb hinner [] hkeys
  refine ⟨.map parts, b', ?_, hb', hmeets, .map hnode hall⟩
  have htag := Nodes.tag_of_node hnode
  have hcontent := Nodes.content_of_node hnode
  have hsame : { b with nodes := n } = b := by rw [← hb.nodes]
  have hentries : (Builder.entries id).run b = .ok (parts, b') := by
    rw [run_entries, hb.nodes, Nodes.entries_of_mapping hnode, hparts, List.nil_append]
  rw [cell]
  simp [hb.nodes, htag, hcontent, mergedEntries, hmerge, hsame, hentries]

theorem Sound.push (hb : b.Sound n) {c : Cell} (hwaits : b.waiting[b.cells.size]? = some id)
    (hc : IsCell n b.waiting id c) : Sound n { b with cells := b.cells.push c } := by
  refine ⟨hb.nodes, hb.size, hb.met, hb.waits, fun index other hother => ?_⟩
  rw [Array.getElem?_push] at hother
  split at hother
  · next heq =>
    subst heq
    cases hother
    exact ⟨id, hwaits, hc⟩
  · exact hb.built index other hother

theorem Sound.size_waiting_le (hb : b.Sound n) : b.waiting.size ≤ n.all.size := by
  have hdistinct : b.waiting.toList.Nodup := by
    refine List.nodup_iff_getElem?_ne_getElem?.mpr fun i j hij hj heq => ?_
    simp only [Array.getElem?_toList] at heq
    have hlast := Array.getElem?_eq_getElem (Array.length_toList ▸ hj)
    have hi := (hb.waits i _ (heq.trans hlast)).1
    have hj := (hb.waits j _ hlast).1
    rw [hi] at hj
    cases hj
    exact Nat.lt_irrefl i hij
  have hsubset : b.waiting.toList ⊆ List.range n.all.size := by
    intro id hid
    obtain ⟨index, hindex⟩ := List.mem_iff_getElem?.mp hid
    have hmet := (hb.waits index id (by rwa [Array.getElem?_toList] at hindex)).1
    rw [List.mem_range, ← hb.size]
    exact (Array.getElem?_eq_some_iff.mp hmet).1
  simpa using hdistinct.length_le_of_subset hsubset

theorem Sound.size_cells_le (hb : b.Sound n) : b.cells.size ≤ b.waiting.size := by
  by_contra hlt
  have hindex : b.waiting.size < b.cells.size := Nat.lt_of_not_le hlt
  obtain ⟨id, hid, -⟩ := hb.built b.waiting.size _ (Array.getElem?_eq_getElem hindex)
  simp at hid

/-- All mappings that wait are built, those included that are met on the way. -/
theorem finish_run (hb : b.Sound n) {steps : Nat} (hsteps : n.all.size < b.cells.size + steps) :
    ∃ b', (finish steps).run b = .ok ((), b') ∧ b'.Sound n ∧ b'.cells.size = b'.waiting.size ∧
      Grows b.waiting b'.waiting := by
  induction steps generalizing b with
  | zero =>
    exact absurd (Nat.le_trans hb.size_cells_le hb.size_waiting_le) (Nat.not_le_of_lt hsteps)
  | succ steps ih =>
    cases hnext : b.waiting[b.cells.size]? with
    | none =>
      have hsize := Nat.le_antisymm hb.size_cells_le (Array.getElem?_eq_none_iff.mp hnext)
      refine ⟨b, ?_, hb, hsize, fun _ _ h => h⟩
      rw [finish]
      simp [hnext]
      rfl
    | some id =>
      obtain ⟨-, entries, hholds⟩ := hb.waits _ id hnext
      obtain ⟨c, b₁, hcell, hb₁, hmeets, hc⟩ := cell_run hb hholds
      have hwaits : b₁.waiting[b₁.cells.size]? = some id := by
        rw [hmeets.cells]
        exact hmeets.grows _ _ hnext
      obtain ⟨b₂, hfinish, hb₂, hsize, hgrows⟩ := ih (hb₁.push hwaits hc) (by
        rw [Array.size_push, hmeets.cells]
        omega)
      refine ⟨b₂, ?_, hb₂, hsize, hmeets.grows.trans hgrows⟩
      rw [finish]
      simp [hnext, hcell, hfinish]

/-! ### Values -/

theorem shows_toValue (hb : b.Sound n) (hsize : b.cells.size = b.waiting.size) (document : Nat) {p : Part}
    (hp : IsPart n b.waiting id p) (h : n.Holds id tree) : (p.toValue ⟨document, b.cells⟩).Shows tree := by
  induction tree generalizing id p with
  | text t =>
    obtain ⟨hnode⟩ := h
    cases hp with
    | text h =>
      rw [hnode] at h
      cases h
      exact .text t
    | cell h =>
      rw [hnode] at h
      cases h
  | map entries ih =>
    have hentries (rest : List (Text × TextTree)) (hrest : rest ⊆ entries) {ids : List (NodeId × NodeId)}
        {parts : Keyed Part} (hparts : AreParts n b.waiting ids parts) (hholds : n.HoldsEntries ids rest) :
        Entries.Show (parts.map fun entry => (entry.1, entry.2.toValue ⟨document, b.cells⟩)) rest := by
      induction rest generalizing ids parts with
      | nil =>
        cases hholds
        cases hparts
        exact .nil
      | cons entry rest ihRest =>
        obtain _ | ⟨hkey, hvalue, hothers⟩ := hholds
        obtain _ | ⟨hkey', hpart, hparts⟩ := hparts
        obtain ⟨hentry, hrest⟩ := List.cons_subset.mp hrest
        rw [hkey] at hkey'
        cases hkey'
        exact .cons _ (ih _ hentry hpart hvalue) (ihRest hrest hparts hothers)
    obtain _ | ⟨hnode, -, hinner⟩ := h
    obtain h | @⟨_, index, -, hwaits⟩ := hp
    · rw [hnode] at h
      cases h
    · have hindex : index < b.cells.size := by
        rw [hsize]
        exact (Array.getElem?_eq_some_iff.mp hwaits).1
      have hcell := Array.getElem?_eq_getElem hindex
      obtain ⟨other, hother, hbuilt⟩ := hb.built index _ hcell
      obtain rfl : id = other := Option.some.inj (hwaits.symm.trans hother)
      generalize hlayer : b.cells[index] = c at hcell hbuilt
      obtain ⟨hbuilt, hparts⟩ := hbuilt
      rw [hnode] at hbuilt
      cases hbuilt
      refine .map ?_ (hentries entries (List.Subset.refl _) hparts hinner)
      simp [Part.toValue, Value.entries?, Value.layer?, Graph.cell, hcell]
      rfl

end Builder

theorem Nodes.exists_value {n : Nodes} {root : NodeId} {tree : TextTree} (document : Nat)
    (h : n.Holds root tree) : ∃ v, n.value document root = .ok v ∧ v.Shows tree := by
  obtain ⟨p, b₁, hpart, hb₁, hmeets, hp⟩ := Builder.part_run (Builder.sound_start document n) h
  obtain ⟨b₂, hfinish, hb₂, hsize, hgrows⟩ := Builder.finish_run hb₁
    (Nat.lt_of_lt_of_le (Nat.lt_succ_self _) (Nat.le_add_left _ _))
  refine ⟨p.toValue ⟨document, b₂.cells⟩, ?_, Builder.shows_toValue hb₂ hsize document ?_ h⟩
  · rw [value]
    simp [hpart, hfinish]
  · exact hp.of_grows hgrows

end Yaml
end ClusterRegistrar
