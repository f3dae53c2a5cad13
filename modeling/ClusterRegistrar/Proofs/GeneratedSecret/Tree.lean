import ClusterRegistrar.Proofs.GeneratedSecret
import ClusterRegistrar.Proofs.TextTree

/-! The document of a generated secret whose names and labels are texts. It is a document of mappings
and texts, whatever bytes the secret holds, and three mappings deep. -/
namespace ClusterRegistrar

def Entries.ofTexts (texts : List (Text × Text)) : Entries :=
  texts.map fun (key, t) => (.str key, .str t)

namespace GeneratedSecret

structure IsTextual (g : GeneratedSecret) : Prop where
  name : ∃ t, g.name = .str t
  space : ∃ t, g.space = .str t
  labels : ∃ texts, g.labels.entries? = some (.ofTexts texts) ∧ (texts.map Prod.fst).Nodup
  data : (g.data.map Prod.fst).Nodup

def encodedText (bytes : ByteArray) : Text := .ofChars (Base64.encode bytes.data.toList)

def labelTree (labels : List (Text × Text)) : TextTree :=
  .map (labels.map fun (key, t) => (key, .text t))

def dataTree (data : List (Text × ByteArray)) : TextTree :=
  .map (data.map fun (key, bytes) => (key, .text (encodedText bytes)))

def metadataTree (name space : Text) (labels : List (Text × Text)) : TextTree :=
  .map [("name", .text name), ("namespace", .text space), ("labels", labelTree labels)]

def tree (g : GeneratedSecret) (name space : Text) (labels : List (Text × Text)) : TextTree :=
  .map [("apiVersion", .text apiVersion), ("kind", .text kind),
    ("metadata", metadataTree name space labels), ("data", dataTree g.data)]

theorem value_tree {g : GeneratedSecret} {name space : Text} {labels : List (Text × Text)}
    (hname : g.name = .str name) (hspace : g.space = .str space) :
    (g.tree name space labels).value = .map (g.writtenFields (.ofTexts labels)) := by
  have hlabels : (labelTree labels).value = .map (Entries.ofTexts labels) := by
    rw [labelTree, TextTree.value_map, List.map_map]
    rfl
  have hdata : (dataTree g.data).value = .map g.writtenData := by
    rw [dataTree, TextTree.value_map, List.map_map]
    rfl
  simp only [tree, metadataTree, TextTree.value, TextTree.valueEntries, hlabels, hdata,
    writtenFields, writtenMetadata, hname, hspace]

theorem fits_labelTree {labels : List (Text × Text)} (h : (labels.map Prod.fst).Nodup) :
    TextTree.Fits 1 (labelTree labels) := by
  refine .map (by rwa [List.map_map]) fun entry hentry => ?_
  obtain ⟨label, -, rfl⟩ := List.mem_map.mp hentry
  exact .text _

theorem fits_dataTree {data : List (Text × ByteArray)} (h : (data.map Prod.fst).Nodup) :
    TextTree.Fits 2 (dataTree data) := by
  refine .map (by rwa [List.map_map]) fun entry hentry => ?_
  obtain ⟨part, -, rfl⟩ := List.mem_map.mp hentry
  exact .text _

theorem fits_tree {g : GeneratedSecret} {labels : List (Text × Text)}
    (hlabels : (labels.map Prod.fst).Nodup) (hdata : (g.data.map Prod.fst).Nodup)
    (name space : Text) : TextTree.Fits 3 (g.tree name space labels) := by
  have hmetadata : TextTree.Fits 2 (metadataTree name space labels) := by
    refine .map (show ([("name" : Text), "namespace", "labels"]).Nodup by decide) ?_
    simp only [List.forall_mem_cons]
    exact ⟨.text _, .text _, fits_labelTree hlabels, by simp⟩
  refine .map (show ([("apiVersion" : Text), "kind", "metadata", "data"]).Nodup by decide) ?_
  simp only [List.forall_mem_cons]
  exact ⟨.text _, .text _, hmetadata, fits_dataTree hdata, by simp⟩

/-- What holds of the fixed keys and texts of a document, and of the names, the labels and the data,
holds everywhere in it. -/
theorem everywhere_tree {key text : Text → Prop} {g : GeneratedSecret} {name space : Text}
    {labels : List (Text × Text)}
    (hkeys : ∀ k ∈ [("apiVersion" : Text), "kind", "metadata", "data", "name", "namespace", "labels"],
      key k)
    (hfixed : text apiVersion ∧ text kind) (hname : text name) (hspace : text space)
    (hlabels : ∀ label ∈ labels, key label.1 ∧ text label.2)
    (hdata : ∀ part ∈ g.data, key part.1 ∧ text (encodedText part.2)) :
    (g.tree name space labels).Everywhere key text := by
  have hlabelTree : (labelTree labels).Everywhere key text := by
    refine .map (fun entry hentry => ?_) fun entry hentry => ?_
    all_goals obtain ⟨label, hlabel, rfl⟩ := List.mem_map.mp hentry
    · exact (hlabels label hlabel).1
    · exact .text (hlabels label hlabel).2
  have hdataTree : (dataTree g.data).Everywhere key text := by
    refine .map (fun entry hentry => ?_) fun entry hentry => ?_
    all_goals obtain ⟨part, hpart, rfl⟩ := List.mem_map.mp hentry
    · exact (hdata part hpart).1
    · exact .text (hdata part hpart).2
  simp only [List.forall_mem_cons] at hkeys
  obtain ⟨hversion, hkind, hmetadata, hdata, hnameKey, hspaceKey, hlabelsKey, -⟩ := hkeys
  refine .map ?_ ?_ <;> simp only [List.forall_mem_cons]
  · exact ⟨hversion, hkind, hmetadata, hdata, by simp⟩
  · refine ⟨.text hfixed.1, .text hfixed.2, .map ?_ ?_, hdataTree, by simp⟩ <;>
      simp only [List.forall_mem_cons]
    · exact ⟨hnameKey, hspaceKey, hlabelsKey, by simp⟩
    · exact ⟨.text hname, .text hspace, hlabelTree, by simp⟩

end GeneratedSecret
end ClusterRegistrar
