import ClusterRegistrar.Manifest.Document
import ClusterRegistrar.Proofs.Run
import ClusterRegistrar.Proofs.Value

/-! What a resource is read as. The kind and the API version say for what it is taken, and then its
header is read: it needs metadata with a name, and all else has a default. -/
namespace ClusterRegistrar.Manifest

/-! ### Kinds -/

/-- A kind and an API version announce a manifest. Of the version of a cluster, the start counts. -/
inductive Announces : ManifestKind → Value → Value → Prop where
  | secret : Announces .secret (.str "Secret") (.str "v1")
  | cluster {version : Text} (h : Affix.startsWith (versionOf .cluster) version = true) :
    Announces .cluster (.str "Cluster") (.str version)

theorem startsWith_str (start t : Text) :
    startsWith start (.str t) = .ok (Affix.startsWith start t) := rfl

theorem startsWith_eq_error (start : Text) {v : Value} :
    (∃ f, startsWith start v = .error f) ↔ ∀ t, v ≠ .str t := by
  constructor
  · rintro ⟨f, hf⟩ t rfl
    cases hf
  · intro h
    cases ht : v.text with
    | ok t => exact absurd (Value.text_eq_ok.mp ht) (h t)
    | error f => exact ⟨f, by rw [startsWith, ht]; rfl⟩

theorem kindOf_cluster (version : Value) :
    kindOf (.str "Cluster") version = do
      let starts ← startsWith (versionOf .cluster) version
      return if starts then some ManifestKind.cluster else none := by
  have hword : (Value.str "Cluster").isText "Secret" = false := by decide
  have hcluster : (Value.str "Cluster").isText "Cluster" = true := by decide
  simp only [kindOf, hword, hcluster, Bool.false_and, Bool.false_eq_true, if_false, if_true]
  congr 1
  funext starts
  cases starts <;> rfl

theorem kindOf_of_not_cluster {kind : Value} (h : kind ≠ .str "Cluster") (version : Value) :
    kindOf kind version =
      .ok (if kind.isText "Secret" && version.isText "v1" then some .secret else none) := by
  have hcluster : kind.isText "Cluster" = false :=
    Bool.eq_false_iff.mpr fun hc => h (Value.isText_iff.mp hc)
  simp only [kindOf, hcluster, Bool.false_eq_true, if_false]
  split <;> rfl

theorem kindOf_eq_some {k : ManifestKind} {kind version : Value} :
    kindOf kind version = .ok (some k) ↔ Announces k kind version := by
  by_cases hkind : kind = .str "Cluster"
  · subst hkind
    rw [kindOf_cluster]
    constructor
    · intro h
      obtain ⟨starts, hstarts, h⟩ := Except.bind_eq_ok.mp h
      obtain ⟨t, ht, hprefix⟩ := Except.bind_eq_ok.mp hstarts
      cases Value.text_eq_ok.mp ht
      cases Except.ok.inj hprefix
      have h := Except.ok.inj h
      split at h
      · rename_i hstart
        cases h
        exact .cluster hstart
      · cases h
    · rintro (_ | hstart)
      rw [startsWith_str, hstart]
      rfl
  · rw [kindOf_of_not_cluster hkind]
    constructor
    · intro h
      have h := Except.ok.inj h
      split at h
      · rename_i hsecret
        obtain ⟨hword, hversion⟩ := Bool.and_eq_true_iff.mp hsecret
        cases Value.isText_iff.mp hword
        cases Value.isText_iff.mp hversion
        cases h
        exact .secret
      · cases h
    · rintro (_ | _)
      · rfl
      · exact absurd rfl hkind

theorem kindOf_eq_error {kind version : Value} :
    (∃ f, kindOf kind version = .error f) ↔ kind = .str "Cluster" ∧ ∀ t, version ≠ .str t := by
  by_cases hkind : kind = .str "Cluster"
  · subst hkind
    rw [kindOf_cluster, ← startsWith_eq_error (versionOf .cluster)]
    cases startsWith (versionOf .cluster) version <;> simp
  · simp [kindOf_of_not_cluster hkind, hkind]

/-! ### Headers -/

theorem truthy_of_announces {k : ManifestKind} {kind version : Value}
    (h : Announces k kind version) : kind.truthy = true ∧ version.truthy = true := by
  cases h with
  | secret => exact ⟨rfl, rfl⟩
  | @cluster version h =>
    refine ⟨rfl, ?_⟩
    cases version with
    | nil => cases h
    | cons => rfl

theorem startsWith_of_announces {k : ManifestKind} {kind version : Value}
    (h : Announces k kind version) : startsWith (versionOf k) version = .ok true := by
  cases h with
  | secret => rfl
  | cluster h => exact congrArg Except.ok h

theorem header_of_announces {k : ManifestKind} {doc : Value} {fields : Entries}
    (hfields : doc.entries? = some fields)
    (h : Announces k (fields.field "kind") (fields.field "apiVersion")) :
    header k doc = do
      if !(fields.field "metadata").truthy then
        Failure.rejectWith (.missingMetadata k) doc.shown
      let metadata ← Fault.lift (fields.field "metadata").fields
      if !(metadata.field "name").truthy then Failure.rejectWith (.missingName k) doc.shown
      return ⟨fields, metadata, metadata.field "name",
        (metadata.field? "namespace").getD "default"⟩ := by
  unfold header
  simp only [Value.fields_eq_ok.mpr hfields, (truthy_of_announces h).2, startsWith_of_announces h,
    Fault.lift_ok, Except.ok_bind, Bool.not_true, Bool.false_eq_true, if_false]

/-- What a document has to have to be read as a manifest of a kind. -/
structure HasHeader (k : ManifestKind) (doc : Value) (fields metadata : Entries) : Prop where
  entries : doc.entries? = some fields
  version : (fields.field "apiVersion").truthy = true
  starts : startsWith (versionOf k) (fields.field "apiVersion") = .ok true
  inner : (fields.field "metadata").entries? = some metadata
  name : (metadata.field "name").truthy = true

theorem header_eq_ok {k : ManifestKind} {doc : Value} {head : Header} :
    header k doc = .ok head ↔ ∃ fields metadata, HasHeader k doc fields metadata ∧
      head = ⟨fields, metadata, metadata.field "name",
        (metadata.field? "namespace").getD "default"⟩ := by
  unfold header
  simp only [Except.bind_eq_ok, Fault.lift_eq_ok, Value.fields_eq_ok, Failure.unless_eq_ok,
    Bool.not_eq_false']
  constructor
  · rintro ⟨fields, hfields, hversion, starts, hstarts, rfl, -, metadata, hmetadata, hname, hhead⟩
    exact ⟨fields, metadata, ⟨hfields, hversion, hstarts, hmetadata, hname⟩,
      (Except.ok.inj hhead).symm⟩
  · rintro ⟨fields, metadata, h, rfl⟩
    exact ⟨fields, h.entries, h.version, true, h.starts, rfl, Value.truthy_of_field h.inner h.name,
      metadata, h.inner, h.name, rfl⟩

theorem header_of_metadata {k : ManifestKind} {doc : Value} {fields metadata : Entries}
    (hfields : doc.entries? = some fields)
    (h : Announces k (fields.field "kind") (fields.field "apiVersion"))
    (hmetadata : (fields.field "metadata").entries? = some metadata)
    (hname : (metadata.field "name").truthy = true) :
    header k doc = .ok ⟨fields, metadata, metadata.field "name",
      (metadata.field? "namespace").getD "default"⟩ :=
  header_eq_ok.mpr ⟨fields, metadata,
    ⟨hfields, (truthy_of_announces h).2, startsWith_of_announces h, hmetadata, hname⟩, rfl⟩

def Header.toManifest (h : Header) : ManifestKind → Manifest
  | .secret => .secret {
      name := h.name
      space := h.space
      type := h.fields.field "type"
      labels := (h.metadata.field "labels").orElse .empty
      data := (h.fields.field "data").orElse .empty }
  | .cluster => .cluster {
      name := h.name
      space := h.space
      labels := (h.metadata.field "labels").orElse .empty
      annotations := (h.metadata.field "annotations").orElse .empty }

/-! ### Resources -/

def ofAnnounced (doc : Value) : Option ManifestKind → Except Failure (Option Manifest)
  | some k => (fun h => some (h.toManifest k)) <$> header k doc
  | none => .ok none

theorem result_ofResource (doc : Value) :
    (ofResource doc).result = (do
      let fields ← Fault.lift doc.fields
      if !(fields.field "kind").truthy then Failure.rejectWith .missingKind doc.shown
      if !(fields.field "apiVersion").truthy then
        Failure.rejectWith .missingApiVersion doc.shown
      ofAnnounced doc (← Fault.lift (kindOf (fields.field "kind") (fields.field "apiVersion")))) := by
  unfold ofResource
  rw [Run.result_bind, Run.result_ofFault]
  congr 1
  funext fields
  dsimp only
  cases (fields.field "kind").truthy with
  | false => cases doc.shown <;> rfl
  | true =>
    cases (fields.field "apiVersion").truthy with
    | false => cases doc.shown <;> rfl
    | true =>
      simp only [Bool.not_true, Bool.false_eq_true, if_false, Run.result_bind, Run.result_ofFault]
      congr 1
      funext announced
      cases announced with
      | none => rfl
      | some k =>
        unfold ofAnnounced
        cases k with
        | secret =>
          simp only [Run.result_bind, Run.result_ofExcept, ofSecretDocument]
          cases header .secret doc <;> rfl
        | cluster =>
          simp only [Run.result_bind, Run.result_ofExcept, ofClusterDocument]
          cases header .cluster doc <;> rfl

theorem result_ofResource_of_announces {k : ManifestKind} {doc : Value} {fields : Entries}
    (hfields : doc.entries? = some fields)
    (h : Announces k (fields.field "kind") (fields.field "apiVersion")) :
    (ofResource doc).result = (fun h => some (h.toManifest k)) <$> header k doc := by
  rw [result_ofResource, Value.fields_eq_ok.mpr hfields, Fault.lift_ok, Except.ok_bind]
  simp only [truthy_of_announces h, Bool.not_true, Bool.false_eq_true, if_false,
    kindOf_eq_some.mpr h]
  rfl

theorem exists_announced {doc : Value} {m : Manifest} (h : (ofResource doc).result = .ok (some m)) :
    ∃ fields k head, doc.entries? = some fields ∧
      Announces k (fields.field "kind") (fields.field "apiVersion") ∧ header k doc = .ok head ∧
      m = head.toManifest k := by
  rw [result_ofResource] at h
  obtain ⟨fields, hfields, h⟩ := Except.bind_eq_ok.mp h
  rw [Fault.lift_eq_ok, Value.fields_eq_ok] at hfields
  obtain ⟨-, h⟩ := Failure.unless_eq_ok.mp h
  obtain ⟨-, h⟩ := Failure.unless_eq_ok.mp h
  obtain ⟨announced, hannounced, h⟩ := Except.bind_eq_ok.mp h
  rw [Fault.lift_eq_ok] at hannounced
  cases announced with
  | none => cases h
  | some k =>
    refine ⟨fields, k, ?_⟩
    simp only [ofAnnounced] at h
    cases hhead : header k doc with
    | error e =>
      rw [hhead] at h
      cases h
    | ok head =>
      rw [hhead] at h
      cases h
      exact ⟨head, hfields, kindOf_eq_some.mp hannounced, rfl, rfl⟩

/-! ### Files -/

theorem unifyLineEnds_eq_self {cs : List Char} (h : '\r' ∉ cs) : unifyLineEnds cs = cs := by
  fun_induction unifyLineEnds cs with
  | case1 => simp at h
  | case2 => simp at h
  | case3 c rest _ _ ih => rw [ih fun hmem => h (List.mem_cons_of_mem c hmem)]
  | case4 => rfl

theorem documents_of_chars {cs : List Char} (h : '\r' ∉ cs) (path : Text) :
    documents path (String.ofList cs).toUTF8 =
      match Yaml.readAll cs with
      | .ok docs => .ok docs
      | .error (.malformed _) => Failure.reject (.malformedFile path)
      | .error (.fault f) => .error (.fault f) := by
  unfold documents
  rw [Text.fromUTF8?_toUTF8]
  dsimp only
  rw [String.toList_ofList, unifyLineEnds_eq_self h]
  rfl

end ClusterRegistrar.Manifest
