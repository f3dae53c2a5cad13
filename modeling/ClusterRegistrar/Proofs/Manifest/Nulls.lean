import ClusterRegistrar.Proofs.Manifest.Document
import ClusterRegistrar.Proofs.Pairing

/-! Entries that are null. A manifest is read as if they were not there, but for the namespace: a null
one is kept, and only one that is not there is the default. So a secret and a cluster of the default
namespace find each other only if both are written alike. -/
namespace ClusterRegistrar

/-! ### Entries -/

namespace Entries

/-- Entries in order without some of them, each of which is null. -/
structure LeavesOutNulls (entries rest : Entries) : Prop where
  sublist : rest.Sublist entries
  null : ∀ entry ∈ entries, entry ∈ rest ∨ entry.2 = .null

variable {entries rest : Entries}

theorem LeavesOutNulls.field?_or (h : entries.LeavesOutNulls rest) (hdistinct : entries.texts.Nodup)
    (t : Text) : rest.field? t = entries.field? t ∨
      (entries.field? t = some .null ∧ rest.field? t = none) := by
  have hrest : rest.texts.Nodup := hdistinct.sublist (h.sublist.filterMap _)
  have hkept (v : Value) (hv : rest.field? t = some v) : entries.field? t = some v :=
    (field?_eq_some_iff hdistinct).mpr (h.sublist.subset (Keyed.mem_of_get? hv))
  cases hentry : entries.field? t with
  | none =>
    left
    apply Option.eq_none_iff_forall_ne_some.mpr
    intro v hv
    cases hentry.symm.trans (hkept v hv)
  | some v =>
    rcases h.null _ (Keyed.mem_of_get? hentry) with hmem | hnull
    · exact .inl ((field?_eq_some_iff hrest).mpr hmem)
    · cases hnull
      cases hleft : rest.field? t with
      | none => exact .inr ⟨rfl, rfl⟩
      | some w => exact .inl ((hkept w hleft).symm.trans hentry)

theorem LeavesOutNulls.field_eq (h : entries.LeavesOutNulls rest) (hdistinct : entries.texts.Nodup)
    (t : Text) : rest.field t = entries.field t := by
  rcases h.field?_or hdistinct t with hsame | ⟨hnull, hmissing⟩
  · rw [field, field, hsame]
  · rw [field_of_field? hnull, field_of_missing hmissing]

end Entries

namespace Manifest

/-! ### Documents -/

inductive LeavesOutNulls (doc other : Value) : Prop where
  | mk {fields metadata kept rest : Entries} {inner : Value}
    (hfields : doc.entries? = some fields) (hdistinct : fields.texts.Nodup)
    (hmetadata : (fields.field "metadata").entries? = some metadata)
    (hunique : metadata.texts.Nodup)
    (hkept : fields.LeavesOutNulls kept) (hrest : metadata.LeavesOutNulls rest)
    (hinner : inner.entries? = some rest)
    (hother : other.entries? = some (kept.put (.str "metadata") inner))

/-- What a document has for its namespace. -/
def spaceOf? (doc : Value) : Option Value := do
  let fields ← doc.entries?
  let metadata ← (fields.field "metadata").entries?
  metadata.field? "namespace"

theorem spaceOf?_of_metadata {doc : Value} {fields metadata : Entries}
    (hfields : doc.entries? = some fields)
    (hmetadata : (fields.field "metadata").entries? = some metadata) :
    spaceOf? doc = metadata.field? "namespace" := by
  rw [spaceOf?, hfields, Option.bind_eq_bind, Option.bind_some, hmetadata]
  rfl

/-! ### Manifests -/

def readAs (doc : Value) : ManifestKind → Except Failure Manifest
  | .secret => .secret <$> ofSecretDocument doc
  | .cluster => .cluster <$> ofClusterDocument doc

def space : Manifest → Value
  | .secret s => s.space
  | .cluster c => c.space

def inSpace (space : Value) : Manifest → Manifest
  | .secret s => .secret { s with space }
  | .cluster c => .cluster { c with space }

theorem space_toManifest (head : Header) (k : ManifestKind) : (head.toManifest k).space = head.space := by
  cases k <;> rfl

theorem readAs_eq (doc : Value) (k : ManifestKind) :
    readAs doc k = (fun head => head.toManifest k) <$> header k doc := by
  cases k with
  | secret =>
    rw [readAs, ofSecretDocument]
    cases header .secret doc <;> rfl
  | cluster =>
    rw [readAs, ofClusterDocument]
    cases header .cluster doc <;> rfl

theorem readAs_eq_ok {doc : Value} {k : ManifestKind} {m : Manifest} :
    readAs doc k = .ok m ↔ ∃ head, header k doc = .ok head ∧ head.toManifest k = m := by
  rw [readAs_eq]
  cases header k doc <;> simp [Functor.map, Except.map]

theorem space_of_readAs {doc : Value} {k : ManifestKind} {m : Manifest} (h : readAs doc k = .ok m) :
    m.space = (spaceOf? doc).getD "default" := by
  obtain ⟨head, hhead, rfl⟩ := readAs_eq_ok.mp h
  obtain ⟨fields, metadata, hdoc, rfl⟩ := header_eq_ok.mp hhead
  rw [space_toManifest, spaceOf?_of_metadata hdoc.entries hdoc.inner]

theorem LeavesOutNulls.spaceOf?_or {doc other : Value} (h : LeavesOutNulls doc other) :
    spaceOf? other = spaceOf? doc ∨ (spaceOf? doc = some .null ∧ spaceOf? other = none) := by
  obtain @⟨_, _, kept, _, inner, hfields, -, hmetadata, hunique, -, hrest, hinner, hother⟩ := h
  rw [← Entries.field_put_same kept "metadata" inner] at hinner
  rw [spaceOf?_of_metadata hfields hmetadata, spaceOf?_of_metadata hother hinner]
  exact hrest.field?_or hunique "namespace"

/-- Without the entries that are left out, the same manifest is read, but in the namespace that the
document then has. -/
theorem LeavesOutNulls.readAs_eq {doc other : Value} (h : LeavesOutNulls doc other) {k : ManifestKind}
    {m : Manifest} (hm : readAs doc k = .ok m) :
    readAs other k = .ok (m.inSpace ((spaceOf? other).getD "default")) := by
  obtain ⟨head, hhead, rfl⟩ := readAs_eq_ok.mp hm
  obtain ⟨fields, metadata, hdoc, rfl⟩ := header_eq_ok.mp hhead
  obtain @⟨_, _, kept, rest, inner, hfields, hdistinct, hmetadata, hunique, hkept, hrest, hinner,
    hother⟩ := h
  cases hfields.symm.trans hdoc.entries
  cases hmetadata.symm.trans hdoc.inner
  rw [← Entries.field_put_same kept "metadata" inner] at hinner
  have hfield (t : Text) (ht : "metadata" ≠ t) :
      Entries.field (kept.put (.str "metadata") inner) t = fields.field t :=
    (Entries.field_put_other kept inner ht).trans (hkept.field_eq hdistinct t)
  have hname (t : Text) : rest.field t = metadata.field t := hrest.field_eq hunique t
  have hleft : HasHeader k other (kept.put (.str "metadata") inner) rest := by
    refine ⟨hother, ?_, ?_, hinner, ?_⟩
    · rw [hfield "apiVersion" (by decide), hdoc.version]
    · rw [hfield "apiVersion" (by decide), hdoc.starts]
    · rw [hname, hdoc.name]
  refine readAs_eq_ok.mpr ⟨_, header_eq_ok.mpr ⟨_, _, hleft, rfl⟩, ?_⟩
  rw [spaceOf?_of_metadata hleft.entries hleft.inner]
  cases k with
  | secret =>
    simp only [Header.toManifest, inSpace, hname, hfield "type" (by decide), hfield "data" (by decide)]
  | cluster => simp only [Header.toManifest, inSpace, hname]

theorem inSpace_space (m : Manifest) : m.inSpace m.space = m := by
  cases m <;> rfl

theorem space_inSpace (m : Manifest) (v : Value) : (m.inSpace v).space = v := by
  cases m <;> rfl

theorem LeavesOutNulls.readAs_eq_iff {doc other : Value} (h : LeavesOutNulls doc other)
    {k : ManifestKind} {m : Manifest} (hm : readAs doc k = .ok m) :
    readAs other k = .ok m ↔ ¬(spaceOf? doc = some .null ∧ spaceOf? other = none) := by
  have hspace := space_of_readAs hm
  have hread := h.readAs_eq hm
  rcases h.spaceOf?_or with hsame | ⟨hnull, hmissing⟩
  · rw [hsame, ← hspace, inSpace_space] at hread
    refine iff_of_true hread ?_
    rintro ⟨hnull, hmissing⟩
    cases hnull.symm.trans (hsame.symm.trans hmissing)
  · refine iff_of_false ?_ (not_not_intro ⟨hnull, hmissing⟩)
    intro hother
    have hsame : m.inSpace "default" = m := by
      rw [hmissing] at hread
      exact Except.ok.inj (hread.symm.trans hother)
    have hdefault : m.space = "default" := by rw [← hsame, space_inSpace]
    rw [hnull] at hspace
    cases hdefault.symm.trans hspace

/-! ### Pairs -/

open Conversion (ClusterIndex clusterNameOf findCluster)

def LacksSpace (doc : Value) : Prop := spaceOf? doc = none ∨ spaceOf? doc = some .null

theorem readAs_secret {doc : Value} {s : SourceSecret} (h : ofSecretDocument doc = .ok s) :
    readAs doc .secret = .ok (.secret s) := by
  rw [readAs, h]
  rfl

theorem readAs_cluster {doc : Value} {c : SourceCluster} (h : ofClusterDocument doc = .ok c) :
    readAs doc .cluster = .ok (.cluster c) := by
  rw [readAs, h]
  rfl

theorem LacksSpace.space_eq {doc : Value} (h : LacksSpace doc) {k : ManifestKind} {m : Manifest}
    (hm : readAs doc k = .ok m) :
    m.space = .atom (if (spaceOf? doc).isSome then .null else "default") := by
  rw [space_of_readAs hm]
  rcases h with hnone | hnull
  · rw [hnone]
    rfl
  · rw [hnull]
    rfl

theorem findCluster_of_lacksSpace {doc other : Value} (hdoc : LacksSpace doc) (hother : LacksSpace other)
    {s : SourceSecret} {c : SourceCluster} (hs : ofSecretDocument doc = .ok s)
    (hc : ofClusterDocument other = .ok c) {name : Text}
    (hasks : clusterNameOf s = .ok ⟨s.space, .str name⟩) (hname : c.name = .str name) :
    ∃ index, ClusterIndex.ofList [c] = .ok index ∧ findCluster index s =
      .ok (if (spaceOf? doc).isSome = (spaceOf? other).isSome then some c else none) := by
  obtain ⟨index, hindex, hfound⟩ := Conversion.findCluster_of_single
    (hdoc.space_eq (readAs_secret hs)) (hother.space_eq (readAs_cluster hc)) hname hasks
  refine ⟨index, hindex, hfound.trans ?_⟩
  cases (spaceOf? doc).isSome <;> cases (spaceOf? other).isSome <;> rfl

theorem space_eq_null_iff {doc : Value} {k : ManifestKind} {m : Manifest} (h : readAs doc k = .ok m) :
    m.space = .null ↔ spaceOf? doc = some .null := by
  rw [space_of_readAs h]
  cases spaceOf? doc with
  | none => exact iff_of_false nofun nofun
  | some v => exact Option.some_inj.symm

/-- Of a document without some of its nulls, the same manifest is read but for its namespace: a null one
is kept, and one that is not there is the default. So a null namespace that is left out makes a
difference, and no other null does. A secret of a null namespace is paired with a cluster of a null one
only, and if both have none or a null one, the way in which they are written decides. -/
theorem nulls_absent_but_as_namespace (doc : Value) :
    (∀ other k m, LeavesOutNulls doc other → readAs doc k = .ok m →
      readAs other k = .ok (m.inSpace ((spaceOf? other).getD "default")) ∧
      (readAs other k = .ok m ↔ ¬(spaceOf? doc = some .null ∧ spaceOf? other = none))) ∧
    (∀ k m, readAs doc k = .ok m → m.space = (spaceOf? doc).getD "default") ∧
    ∀ s, ofSecretDocument doc = .ok s →
      (∀ clusters index c, ClusterIndex.ofList clusters = .ok index →
        findCluster index s = .ok (some c) → (spaceOf? doc = some .null ↔ c.space = .null)) ∧
      ∀ other c name, LacksSpace doc → LacksSpace other → ofClusterDocument other = .ok c →
        clusterNameOf s = .ok ⟨s.space, .str name⟩ → c.name = .str name →
        ∃ index, ClusterIndex.ofList [c] = .ok index ∧ findCluster index s =
          .ok (if (spaceOf? doc).isSome = (spaceOf? other).isSome then some c else none) := by
  refine ⟨?_, fun k m hm => space_of_readAs hm, ?_⟩
  · intro other k m h hm
    exact ⟨h.readAs_eq hm, h.readAs_eq_iff hm⟩
  · intro s hs
    constructor
    · intro clusters index c hindex hfound
      rw [← space_eq_null_iff (readAs_secret hs)]
      exact Conversion.null_space_iff_of_findCluster hindex hfound
    · intro other c name hdoc hother hc hasks hname
      exact findCluster_of_lacksSpace hdoc hother hs hc hasks hname

def namedDocument (version name : String) (metadata more : Entries) : Value :=
  .map ((.str "apiVersion", .str version) ::
    (.str "metadata", .map ((.str "name", .str name) :: metadata)) :: more)

def nullfulSecret : Value :=
  namedDocument "v1" "p-kubeconfig" [(.str "namespace", .null), (.str "labels", .null)]
    [(.str "type", .null), (.str "data", .null)]

def bareSecret (metadata : Entries) : Value := namedDocument "v1" "p-kubeconfig" metadata []

theorem leavesOutNulls_nullfulSecret {metadata : Entries}
    (h : metadata.Sublist [(.str "namespace", .null), (.str "labels", .null)]) :
    LeavesOutNulls nullfulSecret (bareSecret metadata) := by
  have hkept : Entries.LeavesOutNulls
      [(.str "apiVersion", .str "v1"), (.str "metadata", .map [(.str "name", .str "p-kubeconfig"),
        (.str "namespace", .null), (.str "labels", .null)]), (.str "type", .null), (.str "data", .null)]
      [(.str "apiVersion", .str "v1"), (.str "metadata", .map [(.str "name", .str "p-kubeconfig"),
        (.str "namespace", .null), (.str "labels", .null)])] :=
    ⟨(List.sublist_append_left _ _), by simp⟩
  have hrest : Entries.LeavesOutNulls [(.str "name", .str "p-kubeconfig"), (.str "namespace", .null),
      (.str "labels", .null)] ((.str "name", .str "p-kubeconfig") :: metadata) :=
    ⟨h.cons_cons _, by simp⟩
  exact .mk rfl (by decide) rfl (by decide) hkept hrest rfl rfl

def bareIn (space : Value) : SourceSecret := { name := "p-kubeconfig", space }

def plainCluster : SourceCluster := { name := "p", space := "default" }

theorem null_namespace_kept_unpaired :
    readAs (bareSecret [(.str "namespace", .null)]) .secret = .ok (.secret (bareIn .null)) ∧
    readAs (bareSecret []) .secret = .ok (.secret (bareIn "default")) ∧
    (bareIn .null).space = (spaceOf? nullfulSecret).getD "default" ∧
    ∃ index, ClusterIndex.ofList [plainCluster] = .ok index ∧
      findCluster index (bareIn .null) = .ok none ∧
      findCluster index (bareIn "default") = .ok (some plainCluster) ∧
      spaceOf? (bareSecret []) ≠ some .null := by
  obtain ⟨hread, hspace, hpairs⟩ := nulls_absent_but_as_namespace nullfulSecret
  have hnullful : readAs nullfulSecret .secret = .ok (.secret (bareIn .null)) := rfl
  have hcluster : ofClusterDocument (namedDocument "cluster.x-k8s.io/v1beta1" "p" [] []) =
      .ok plainCluster := rfl
  have hkept : LeavesOutNulls nullfulSecret (bareSecret [(.str "namespace", .null)]) :=
    leavesOutNulls_nullfulSecret (List.sublist_append_left _ _)
  have hleft : LeavesOutNulls nullfulSecret (bareSecret []) :=
    leavesOutNulls_nullfulSecret (List.nil_sublist _)
  obtain ⟨-, hunpaired⟩ := hpairs (bareIn .null) rfl
  obtain ⟨-, -, hothers⟩ := nulls_absent_but_as_namespace (bareSecret [])
  obtain ⟨hnull, hpaired⟩ := hothers (bareIn "default") rfl
  obtain ⟨index, hindex, hunfound⟩ := hunpaired _ _ "p" (.inr rfl) (.inl rfl) hcluster rfl rfl
  obtain ⟨other, hother, hfound⟩ := hpaired _ _ "p" (.inl rfl) (.inl rfl) hcluster rfl rfl
  cases hindex.symm.trans hother
  refine ⟨(hread _ _ _ hkept hnullful).2.mpr ?_, (hread _ _ _ hleft hnullful).1, hspace _ _ hnullful,
    index, hindex, hunfound, hfound, ?_⟩
  · rintro ⟨-, hmissing⟩
    cases hmissing
  · intro h
    cases (hnull _ _ _ hindex hfound).mp h

end Manifest
end ClusterRegistrar
