import ClusterRegistrar.Listing.Basic
import ClusterRegistrar.Proofs.GeneratedSecret.Tree
import ClusterRegistrar.Proofs.Json.Indented
import ClusterRegistrar.Proofs.Text.Lines

/-! JSON listings denote the secrets that they list. What is printed is one JSON text, cut into lines
between its line feeds, and it reads back as the documents of the secrets. JSON writes a character
beyond the basic plane as its two halves are written, so that halves which stand together are read as
the character. -/
namespace ClusterRegistrar

namespace GeneratedSecret

structure IsUnpaired (g : GeneratedSecret) : Prop where
  name : ∀ t, g.name = .str t → t.IsUnpaired
  space : ∀ t, g.space = .str t → t.IsUnpaired
  labels : ∀ entries, g.labels.entries? = some entries → ∀ key t, (.str key, .str t) ∈ entries →
    key.IsUnpaired ∧ t.IsUnpaired
  data : ∀ part ∈ g.data, part.1.IsUnpaired

def IsTreeOf (tree : TextTree) (g : GeneratedSecret) : Prop :=
  g.toDocument = .ok tree.value ∧ tree.Fits 3 ∧
    (g.IsUnpaired → tree.Everywhere Text.IsUnpaired Text.IsUnpaired)

theorem isTreeOf_tree {g : GeneratedSecret} {name space : Text} {labels : List (Text × Text)}
    (hname : g.name = .str name) (hspace : g.space = .str space)
    (hlabels : g.labels.entries? = some (.ofTexts labels)) (hdistinct : (labels.map Prod.fst).Nodup)
    (hdata : (g.data.map Prod.fst).Nodup) : IsTreeOf (g.tree name space labels) g := by
  refine ⟨?_, fits_tree hdistinct hdata name space, fun hunpaired => ?_⟩
  · rw [toDocument_of_entries hlabels, value_tree hname hspace]
  · have hfixed (s : String) : (s : Text).IsUnpaired := Text.IsScalar.isUnpaired ⟨_, rfl⟩
    refine everywhere_tree ?_ ⟨hfixed _, hfixed _⟩ (hunpaired.name _ hname)
      (hunpaired.space _ hspace) (fun label hlabel => ?_) (fun part hpart => ?_)
    · simp only [List.forall_mem_cons]
      exact ⟨hfixed _, hfixed _, hfixed _, hfixed _, hfixed _, hfixed _, hfixed _, nofun⟩
    · exact hunpaired.labels _ hlabels _ _ (List.mem_map_of_mem hlabel)
    · exact ⟨hunpaired.data part hpart, Text.IsScalar.isUnpaired ⟨_, rfl⟩⟩

theorem IsTextual.exists_tree {g : GeneratedSecret} (h : g.IsTextual) :
    ∃ tree, IsTreeOf tree g := by
  obtain ⟨name, hname⟩ := h.name
  obtain ⟨space, hspace⟩ := h.space
  obtain ⟨labels, hlabels, hdistinct⟩ := h.labels
  exact ⟨_, isTreeOf_tree hname hspace hlabels hdistinct h.data⟩

theorem exists_trees {secrets : List GeneratedSecret} (h : ∀ g ∈ secrets, g.IsTextual) :
    ∃ trees, List.Forall₂ IsTreeOf trees secrets :=
  exists_forall₂ fun g hg => (h g hg).exists_tree

theorem mapM_toDocument {trees : List TextTree} {secrets : List GeneratedSecret}
    (h : List.Forall₂ IsTreeOf trees secrets) :
    secrets.mapM toDocument = .ok (trees.map TextTree.value) := by
  rw [Except.mapM_eq_ok, List.forall₂_map_right_iff]
  exact (h.imp fun tree g htree => htree.1).flip

end GeneratedSecret

namespace Listing

open GeneratedSecret (IsTreeOf)

theorem jsonText_of_trees {trees : List TextTree} {secrets : List GeneratedSecret}
    (h : List.Forall₂ IsTreeOf trees secrets) :
    jsonText secrets = .ok (Json.indented 4 0 (.arr (trees.map TextTree.json))) := by
  have hfits := forall_left_of_forall₂ h fun tree g htree => htree.2.1
  rw [jsonText, GeneratedSecret.mapM_toDocument h, Except.ok_bind,
    TextTree.ofValue_list hfits (by decide)]
  rfl

theorem print_json_of_trees {trees : List TextTree} {secrets : List GeneratedSecret}
    (h : List.Forall₂ IsTreeOf trees secrets) :
    json.print secrets =
      ⟨Lines.split (.ofChars (Json.indented 4 0 (.arr (trees.map TextTree.json)))), none⟩ := by
  rw [print, jsonLines, jsonText_of_trees h]
  rfl

theorem isTextual_list (trees : List TextTree) :
    (Json.arr (trees.map TextTree.json)).IsTextual := by
  refine .arr fun j hj => ?_
  obtain ⟨tree, -, rfl⟩ := List.mem_map.mp hj
  exact tree.isTextual_json

/-- Secrets whose texts are texts are listed in JSON. The lines between line feeds are one JSON text,
which reads back, with a line feed behind it as it is printed, as the list of the documents; only halves
of a character that stand together are joined. -/
theorem json_listing_denotes_documents {secrets : List GeneratedSecret}
    (h : ∀ g ∈ secrets, g.IsTextual) :
    ∃ docs form text lines, secrets.mapM GeneratedSecret.toDocument = .ok docs ∧
      Json.ofValue (.list docs) = .ok form ∧ text = Json.indented 4 0 form ∧
      json.print secrets = ⟨lines, none⟩ ∧ (∀ line ∈ lines, Lines.lineFeed ∉ line) ∧
      Text.separated [Lines.lineFeed] lines = .ofChars text ∧
      Lines.join lines = .ofChars (text ++ ['\n']) ∧
      Json.read? (text ++ ['\n']) = some form.joined ∧
      ((∀ g ∈ secrets, g.IsUnpaired) → form.joined = form ∧ form.toValue = .list docs) := by
  obtain ⟨trees, htrees⟩ := GeneratedSecret.exists_trees h
  have hfits := forall_left_of_forall₂ htrees fun tree g htree => htree.2.1
  refine ⟨_, _, _, _, GeneratedSecret.mapM_toDocument htrees,
    TextTree.ofValue_list hfits (by decide), rfl, print_json_of_trees htrees,
    fun line hline => Text.not_mem_of_mem_split hline, Text.separated_split _ _, ?_,
    Json.read?_of_reads_line (Json.reads_indented 4 (isTextual_list trees) 0), fun hunpaired => ?_⟩
  · rw [Lines.join_split, Text.ofChars_append]
    rfl
  · have heverywhere : ∀ tree ∈ trees, tree.Everywhere Text.IsUnpaired Text.IsUnpaired := by
      clear hfits
      induction htrees with
      | nil => exact nofun
      | cons htree _ ih =>
        obtain ⟨hg, hrest⟩ := List.forall_mem_cons.mp hunpaired
        obtain ⟨-, hothers⟩ := List.forall_mem_cons.mp h
        exact List.forall_mem_cons.mpr ⟨htree.2.2 hg, ih hothers hrest⟩
    exact ⟨TextTree.joined_list heverywhere, TextTree.toValue_list hfits⟩

def escapedSecrets : List GeneratedSecret := [
  { name := "cluster-\"p\""
    space := "argo\ncd"
    labels := .map (Entries.ofTexts [("a\\b", "\u00e9\ud7ff"), ([], [.char (Char.ofNat 0x1f600)])])
    data := [("\x00\x7f\u2028", ⟨#[0, 255]⟩), ("config", ⟨#[]⟩)] },
  { name := "", space := "", labels := .map [], data := [] }]

theorem isTextual_escapedSecrets : ∀ g ∈ escapedSecrets, g.IsTextual := by
  have hlabels : (([("a\\b", "\u00e9\ud7ff"), ([], [.char (Char.ofNat 0x1f600)])] :
      List (Text × Text)).map Prod.fst).Nodup := by decide
  simp only [escapedSecrets, List.forall_mem_cons]
  exact ⟨⟨⟨_, rfl⟩, ⟨_, rfl⟩, ⟨_, rfl, hlabels⟩, by decide⟩,
    ⟨⟨_, rfl⟩, ⟨_, rfl⟩, ⟨[], rfl, by decide⟩, by decide⟩, nofun⟩

theorem isUnpaired_escapedSecrets : ∀ g ∈ escapedSecrets, g.IsUnpaired := by
  have htext (cs : List Char) : Text.IsUnpaired (.ofChars cs) := Text.IsScalar.isUnpaired ⟨cs, rfl⟩
  simp only [escapedSecrets, List.forall_mem_cons]
  refine ⟨⟨?_, ?_, ?_, ?_⟩, ⟨?_, ?_, ?_, nofun⟩, nofun⟩
  · rintro _ ⟨⟩
    exact htext _
  · rintro _ ⟨⟩
    exact htext _
  · rintro _ ⟨⟩ key t hmem
    simp only [Entries.ofTexts, List.map_cons, List.map_nil, List.mem_cons, Prod.mk.injEq,
      Atom.str.injEq, Value.atom.injEq, List.not_mem_nil, or_false] at hmem
    rcases hmem with ⟨rfl, rfl⟩ | ⟨rfl, rfl⟩
    · exact ⟨htext _, htext _⟩
    · exact ⟨htext [], htext [_]⟩
  · simp only [List.forall_mem_cons]
    exact ⟨htext _, htext _, nofun⟩
  · rintro _ ⟨⟩
    exact htext _
  · rintro _ ⟨⟩
    exact htext _
  · rintro _ ⟨⟩
    exact nofun

theorem escapedSecrets_denoted : ∃ docs form text lines,
    escapedSecrets.mapM GeneratedSecret.toDocument = .ok docs ∧
      json.print escapedSecrets = ⟨lines, none⟩ ∧ Lines.join lines = .ofChars (text ++ ['\n']) ∧
      Json.read? (text ++ ['\n']) = some form ∧ form.toValue = .list docs := by
  obtain ⟨docs, form, text, lines, hdocs, -, -, hprint, -, -, hjoin, hread, hexact⟩ :=
    json_listing_denotes_documents isTextual_escapedSecrets
  obtain ⟨hjoined, hvalue⟩ := hexact isUnpaired_escapedSecrets
  rw [hjoined] at hread
  exact ⟨docs, form, text, lines, hdocs, hprint, hjoin, hread, hvalue⟩

def halvedLabel : GeneratedSecret where
  name := "cluster-p"
  space := "argocd"
  labels := .map (Entries.ofTexts [("half", [.surrogate 0x3d, .surrogate 0x600])])
  data := []

def labelsOf (doc : Value) : Entries :=
  (((doc.entries?.getD []).field "metadata").entries?.bind
    fun metadata => (metadata.field "labels").entries?).getD []

theorem halvedLabel_joined : halvedLabel.IsTextual ∧ ∃ doc lines text form read,
    halvedLabel.toDocument = .ok doc ∧ json.print [halvedLabel] = ⟨lines, none⟩ ∧
      Lines.join lines = .ofChars text ∧ Json.read? text = some form ∧ form.toValue = .list [read] ∧
      (labelsOf doc).field "half" = .str [.surrogate 0x3d, .surrogate 0x600] ∧
      (labelsOf read).field "half" = .str [.char (Char.ofNat 0x1f600)] ∧ read ≠ doc := by
  let labels : List (Text × Text) := [("half", [.surrogate 0x3d, .surrogate 0x600])]
  have htree : IsTreeOf (halvedLabel.tree "cluster-p" "argocd" labels) halvedLabel :=
    GeneratedSecret.isTreeOf_tree rfl rfl rfl (by decide) (by decide)
  have htrees : List.Forall₂ IsTreeOf [_] [halvedLabel] := .cons htree .nil
  have hwritten : (labelsOf (halvedLabel.tree "cluster-p" "argocd" labels).value).field "half" =
      .str [.surrogate 0x3d, .surrogate 0x600] := Value.isText_iff.mp (by decide +kernel)
  have hread : (labelsOf (halvedLabel.tree "cluster-p" "argocd" labels).json.joined.toValue).field
      "half" = .str [.char (Char.ofNat 0x1f600)] := Value.isText_iff.mp (by decide +kernel)
  refine ⟨⟨⟨_, rfl⟩, ⟨_, rfl⟩, ⟨labels, rfl, by decide⟩, by decide⟩, _, _, _, _, _,
    htree.1, print_json_of_trees htrees,
    (Lines.join_split _).trans (Text.ofChars_append _ ['\n']).symm,
    Json.read?_of_reads_line (Json.reads_indented 4 (isTextual_list _) 0), rfl, hwritten, hread,
    fun heq => ?_⟩
  rw [heq, hwritten] at hread
  cases hread

end Listing
end ClusterRegistrar
