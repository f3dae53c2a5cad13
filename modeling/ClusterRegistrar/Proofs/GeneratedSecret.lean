import ClusterRegistrar.Proofs.Base64
import ClusterRegistrar.Proofs.Conversion.ClusterOrder
import ClusterRegistrar.Proofs.Manifest.Document

/-! Generated secrets that are read again. The document of a generated secret gives back its names, its
labels and its data, and no type, so that a conversion passes over what a conversion has made. -/
namespace ClusterRegistrar

theorem Value.asciiChars?_ofChars {cs : List Char} (h : ∀ c ∈ cs, c.toNat < 128) :
    asciiChars? (.ofChars cs) = some cs := by
  rw [asciiChars?, Text.chars?_ofChars, Option.filter_eq_some_iff]
  exact ⟨rfl, List.all_eq_true.mpr fun c hc => decide_eq_true (h c hc)⟩

theorem Value.orElse_empty (entries : Entries) : (Value.map entries).orElse .empty = .map entries := by
  cases entries <;> rfl

namespace GeneratedSecret

/-! ### The document -/

theorem decodeBase64_encodeData (bytes : ByteArray) :
    (encodeData bytes).decodeBase64 = .ok (.ok bytes.data.toList) := by
  have hascii : ∀ c ∈ Base64.encode bytes.data.toList, c.toNat < 128 := by
    intro c hc
    rcases Base64.mem_encode hc with rfl | ⟨n, hn, rfl⟩
    · decide
    · exact Base64.digit_toNat_lt hn
  simp only [encodeData, Value.decodeBase64, Value.encodedChars, Value.asciiChars?_ofChars hascii]
  exact congrArg Except.ok (Base64.decode_encode _)

/-- A name that is not empty, a namespace that is text, and labels that are texts under texts. -/
structure IsPlain (g : GeneratedSecret) : Prop where
  name : ∃ t, g.name = .str t ∧ t ≠ []
  space : ∃ t, g.space = .str t
  labels : g.labels.IsTextMap

/-- A secret that the document of a generated secret is read as. -/
def ReadsBack (g : GeneratedSecret) (s : SourceSecret) : Prop :=
  ∃ doc, g.toDocument = .ok doc ∧ (Manifest.ofResource doc).result = .ok (some (.secret s))

def writtenMetadata (g : GeneratedSecret) (labels : Entries) : Entries :=
  [(.str "name", g.name), (.str "namespace", g.space), (.str "labels", .map labels)]

def writtenData (g : GeneratedSecret) : Entries :=
  g.data.map fun (key, bytes) => (.str key, encodeData bytes)

def writtenFields (g : GeneratedSecret) (labels : Entries) : Entries :=
  [(.str "apiVersion", .str apiVersion), (.str "kind", .str kind),
    (.str "metadata", .map (g.writtenMetadata labels)), (.str "data", .map g.writtenData)]

theorem toDocument_of_entries {g : GeneratedSecret} {labels : Entries}
    (h : g.labels.entries? = some labels) : g.toDocument = .ok (.map (g.writtenFields labels)) := by
  unfold toDocument Value.toEntries
  rw [h]
  rfl

def toSource (g : GeneratedSecret) (labels : Entries) : SourceSecret where
  name := g.name
  space := g.space
  type := .null
  labels := .map labels
  data := .map g.writtenData

theorem readsBack_toSource {g : GeneratedSecret} {labels : Entries}
    (hname : g.name.truthy = true) (h : g.labels.entries? = some labels) :
    g.ReadsBack (g.toSource labels) := by
  refine ⟨_, toDocument_of_entries h, ?_⟩
  have hmetadata : ((g.writtenFields labels).field "metadata").entries? =
      some (g.writtenMetadata labels) := rfl
  have hread : Manifest.header .secret (.map (g.writtenFields labels)) = .ok
      ⟨g.writtenFields labels, g.writtenMetadata labels, g.name, g.space⟩ :=
    Manifest.header_of_metadata rfl .secret hmetadata hname
  rw [Manifest.result_ofResource_of_announces rfl .secret, hread]
  show Except.ok (some (Manifest.secret ⟨g.name, g.space, .null, Value.orElse (.map labels) .empty,
    Value.orElse (.map g.writtenData) .empty⟩)) = _
  rw [Value.orElse_empty, Value.orElse_empty]
  rfl

theorem ReadsBack.unique {g : GeneratedSecret} {s t : SourceSecret} (hs : g.ReadsBack s)
    (ht : g.ReadsBack t) : s = t := by
  obtain ⟨doc, hdoc, hs⟩ := hs
  obtain ⟨doc', hdoc', ht⟩ := ht
  cases hdoc.symm.trans hdoc'
  cases hs.symm.trans ht
  rfl

theorem IsPlain.readsBack {g : GeneratedSecret} (h : g.IsPlain) :
    ∃ labels, g.labels.entries? = some labels ∧ g.ReadsBack (g.toSource labels) := by
  obtain ⟨name, hname, hne⟩ := h.name
  obtain ⟨labels, hlabels, -⟩ := h.labels
  have htruthy : g.name.truthy = true := by
    rw [hname]
    exact decide_eq_true hne
  exact ⟨labels, hlabels, readsBack_toSource htruthy hlabels⟩

end GeneratedSecret

/-! ### Conversion -/

/-- The name and the namespace of a cluster are atoms, as a key needs. -/
def SourceCluster.HasAtomicName (c : SourceCluster) : Prop :=
  (∃ space, c.space = .atom space) ∧ ∃ name, c.name = .atom name

theorem SourceCluster.hasAtomicName_iff {c : SourceCluster} :
    c.HasAtomicName ↔ ∃ key, c.identity.key = .ok key := by
  simp only [NamespacedName.key_eq_ok]
  constructor
  · rintro ⟨⟨space, hspace⟩, ⟨name, hname⟩⟩
    exact ⟨(space, name), hspace, hname⟩
  · rintro ⟨key, hspace, hname⟩
    exact ⟨⟨key.1, hspace⟩, ⟨key.2, hname⟩⟩

namespace Conversion

theorem exists_index_iff {clusters : List SourceCluster} :
    (∃ index, ClusterIndex.ofList clusters = .ok index) ↔ ∀ c ∈ clusters, c.HasAtomicName := by
  have hentry (c : SourceCluster) :
      (∃ entry, (do return (← c.identity.key, c)) = (.ok entry : Except Fault _)) ↔
        c.HasAtomicName := by
    rw [SourceCluster.hasAtomicName_iff]
    cases c.identity.key <;> simp [pure, Except.pure]
  simp only [← hentry]
  rw [← Except.exists_mapM_eq_ok]
  unfold ClusterIndex.ofList
  simp only [Except.bind_eq_ok]
  exact ⟨fun ⟨_, keyed, h, _⟩ => ⟨keyed, h⟩, fun ⟨keyed, h⟩ => ⟨_, keyed, h, rfl⟩⟩

theorem result_convertAll_of_foreign {secrets : List SourceSecret}
    (h : ∀ s ∈ secrets, s.isCapi = false) (settings : Settings) (index : ClusterIndex) :
    (convertAll settings index secrets).result = .ok [] := by
  have hsteps (s : SourceSecret) (hs : s ∈ secrets) :
      (convertSecret settings index s).result = .ok none := by
    have hforeign : ¬IsSource s := fun hsource => by cases hsource.1.symm.trans (h s hs)
    rw [result_convertSecret_foreign hforeign, h s hs]
    rfl
  refine convertAll_eq_ok.mpr ⟨secrets.map fun _ => none, ?_, ?_⟩
  · rw [List.forall₂_map_right_iff, List.forall₂_same]
    exact hsteps
  · simp

theorem result_convert_of_foreign {secrets : List SourceSecret}
    (h : ∀ s ∈ secrets, s.isCapi = false) (settings : Settings) (clusters : List SourceCluster) :
    ((∀ c ∈ clusters, c.HasAtomicName) → (convert settings secrets clusters).result = .ok []) ∧
      ((∃ c ∈ clusters, ¬c.HasAtomicName) →
        (convert settings secrets clusters).result = .error (.fault .unhashable)) := by
  constructor
  · intro hnames
    obtain ⟨index, hindex⟩ := exists_index_iff.mpr hnames
    exact convert_eq_ok.mpr ⟨index, hindex, result_convertAll_of_foreign h settings index⟩
  · rintro ⟨c, hc, hname⟩
    unfold convert
    cases hindex : ClusterIndex.ofList clusters with
    | ok index => exact absurd (exists_index_iff.mp ⟨index, hindex⟩ c hc) hname
    | error f =>
      rw [ofList_eq_error hindex]
      rfl

end Conversion

namespace GeneratedSecret

/-- The document of a plain generated secret is read as a secret without a type that has its names,
its labels and its bytes. Such secrets are converted to nothing, if the clusters beside them can be
told by their names. -/
theorem readsBack_and_passedOver :
    (∀ g : GeneratedSecret, g.IsPlain → ∃ s, g.ReadsBack s ∧
      s.name = g.name ∧ s.space = g.space ∧ s.type = .null ∧
      s.labels.entries? = g.labels.entries? ∧
      ∃ data, s.data.entries? = some data ∧ List.Forall₂ (fun entry written =>
        entry.1 = .str written.1 ∧ entry.2.decodeBase64 = .ok (.ok written.2.data.toList))
        data g.data) ∧
    ∀ (secrets : List SourceSecret), (∀ s ∈ secrets, ∃ g : GeneratedSecret, g.IsPlain ∧ g.ReadsBack s) →
      ∀ (settings : Settings) (clusters : List SourceCluster),
      ((∀ c ∈ clusters, c.HasAtomicName) →
        (Conversion.convert settings secrets clusters).result = .ok []) ∧
      ((∃ c ∈ clusters, ¬c.HasAtomicName) →
        (Conversion.convert settings secrets clusters).result = .error (.fault .unhashable)) := by
  constructor
  · intro g hg
    obtain ⟨labels, hlabels, hread⟩ := hg.readsBack
    refine ⟨g.toSource labels, hread, rfl, rfl, rfl, hlabels.symm, g.writtenData, rfl, ?_⟩
    rw [writtenData, List.forall₂_map_left_iff, List.forall₂_same]
    exact fun written _ => ⟨rfl, decodeBase64_encodeData written.2⟩
  · intro secrets hsecrets
    apply Conversion.result_convert_of_foreign
    intro s hs
    obtain ⟨g, hg, hread⟩ := hsecrets s hs
    obtain ⟨labels, -, hsource⟩ := hg.readsBack
    rw [hread.unique hsource]
    rfl

def sample : GeneratedSecret where
  name := "cluster-p"
  space := "argocd"
  labels := .map [(.str "owner", .str "ops")]
  data := [(.ofString "none", ⟨#[]⟩), (.ofString "one", ⟨#[255]⟩), (.ofString "two", ⟨#[0, 254]⟩),
    (.ofString "three", ⟨#[1, 2, 3]⟩)]

theorem isPlain_sample : sample.IsPlain where
  name := ⟨_, rfl, by decide⟩
  space := ⟨_, rfl⟩
  labels := ⟨_, rfl, by simp⟩

theorem readsBack_sample :
    (∃ s, sample.ReadsBack s ∧ s.name = "cluster-p" ∧ s.type = .null) ∧
      ∀ s, sample.ReadsBack s →
        (Conversion.convert {} [s, s] [{ name := "p", space := "ns" }]).result = .ok [] := by
  constructor
  · obtain ⟨s, hread, hname, -, htype, -⟩ := readsBack_and_passedOver.1 sample isPlain_sample
    exact ⟨s, hread, hname, htype⟩
  · intro s hs
    refine (readsBack_and_passedOver.2 [s, s] ?_ {} _).1 ?_
    · simpa using ⟨sample, isPlain_sample, hs⟩
    · simpa using ⟨⟨_, rfl⟩, ⟨_, rfl⟩⟩

theorem list_name_faults_beside_sample :
    sample.IsPlain ∧ ∃ s, sample.ReadsBack s ∧
      (Conversion.convert {} [s] [{ name := .list ["a"], space := "ns" }]).result =
        .error (.fault .unhashable) :=
  ⟨isPlain_sample, _, readsBack_toSource rfl rfl, rfl⟩

end GeneratedSecret
end ClusterRegistrar
