import ClusterRegistrar.Proofs.Manifest.Rearrangement

/-! Documents as a stream. What is read of documents one after the other is what is read of each, up to
the first that fails, and a list can stand for its items among them. Neither is different for documents
that are refused, so what holds of a whole run, its records included, is said here. -/
namespace ClusterRegistrar

theorem Value.elements_orElse_of_listed? {v : Value} {items : List Value} (h : v.listed? = some items) :
    (v.orElse (.list [])).elements = .ok items := by
  unfold orElse
  split
  · exact elements_of_listed? h
  · rename_i hfalsy
    unfold listed? at h
    cases hlayer : v.layer? with
    | none =>
      rw [hlayer] at h
      cases h
    | some layer =>
      rw [truthy, atom?_of_layer? hlayer, hlayer] at hfalsy
      rw [hlayer] at h
      cases layer with
      | list _ =>
        cases h
        obtain rfl : items = [] := by simpa [Layer.isEmpty] using hfalsy
        rfl
      | pair a b => exact absurd rfl hfalsy
      | set members => cases h
      | map entries => cases h

namespace Manifest

/-! ### One document after another -/

theorem ofDocuments_append (path : Text) (docs others : List Value) :
    ofDocuments path (docs ++ others) = do
      let first ← ofDocuments path docs
      return first ++ (← ofDocuments path others) := by
  simp [ofDocuments, List.mapM_append]

theorem ofDocuments_singleton (path : Text) (doc : Value) :
    ofDocuments path [doc] = ofDocument path doc := by
  simp [ofDocuments]

theorem result_ofDocuments_eq_ok {path : Text} {docs : List Value} {ms : List Manifest} :
    (ofDocuments path docs).result = .ok ms ↔ ∃ parts,
      List.Forall₂ (fun doc part => (ofDocument path doc).result = .ok part) docs parts ∧
        parts.flatten = ms := by
  rw [ofDocuments, Run.result_bind_eq_ok, Run.result_mapM]
  simp only [Except.mapM_eq_ok, Run.result_pure, Except.ok.injEq]

theorem ofDocuments_replace {path : Text} {doc : Value} {docs : List Value}
    (h : ofDocument path doc = ofDocuments path docs) (before after : List Value) :
    ofDocuments path (before ++ doc :: after) = ofDocuments path (before ++ docs ++ after) := by
  rw [List.append_cons, ofDocuments_append, ofDocuments_append path before, ofDocuments_singleton, h,
    ofDocuments_append path (before ++ docs), ofDocuments_append path before docs]

/-! ### Lists -/

structure IsListOf (doc : Value) (items : List Value) : Prop where
  list : ∃ fields, doc.entries? = some fields ∧ fields.field "kind" = .str "List" ∧
    (fields.field "items").listed? = some items
  items : ∀ item ∈ items, ∃ fields, item.entries? = some fields ∧ fields.field "kind" ≠ .str "List"

theorem IsListOf.ofDocument_eq {doc : Value} {items : List Value} (h : IsListOf doc items)
    (path : Text) : ofDocument path doc = ofDocuments path items := by
  obtain ⟨⟨fields, hfields, hkind, hlisted⟩, hitems⟩ := h
  have hpresented : presented? doc = some items := by
    rw [presented?_of_fields hfields, if_pos (Value.isText_iff.mpr hkind),
      Value.elements_orElse_of_listed? hlisted]
    rfl
  have hresources : items? items = some items := by
    refine items?_of_resources fun item hitem => ?_
    obtain ⟨entries, hentries, hother⟩ := hitems item hitem
    exact presented?_of_resource hentries (Bool.eq_false_iff.mpr (Value.isText_iff.not.mpr hother))
  rw [ofDocument_of_presented hpresented, ofDocuments_of_items hresources]

/-- Reading a stream of documents is reading its parts one after the other. Every document has its share
in what is read of the stream, and one that fails leaves nothing of it. A list among the documents is read
as its items are in its place, and a null document as none, and what fails fails alike. -/
theorem documents_read_as_stream (path : Text) :
    (∀ first second, Run.Joins (ofDocuments path first) (ofDocuments path second)
      (ofDocuments path (first ++ second))) ∧
    (∀ docs ms, (ofDocuments path docs).result = .ok ms ↔ ∃ parts,
      List.Forall₂ (fun doc part => (ofDocument path doc).result = .ok part) docs parts ∧
        parts.flatten = ms) ∧
    (∀ doc items, IsListOf doc items → ∀ before after,
      ofDocuments path (before ++ doc :: after) = ofDocuments path (before ++ items ++ after)) ∧
    ∀ before after,
      ofDocuments path (before ++ .null :: after) = ofDocuments path (before ++ after) := by
  refine ⟨fun first second => Run.joins_of_eq (ofDocuments_append path first second),
    fun docs ms => result_ofDocuments_eq_ok, fun doc items h => ofDocuments_replace (h.ofDocument_eq path),
    fun before after => ?_⟩
  have hnull : ofDocument path .null = ofDocuments path [] := rfl
  simpa using ofDocuments_replace hnull before after

def secretDocument (metadata : Entries) : Value :=
  .map [(.str "kind", .str "Secret"), (.str "apiVersion", .str "v1"), (.str "metadata", .map metadata)]

def strangerDocument : Value :=
  .map [(.str "kind", .str "ConfigMap"), (.str "apiVersion", .str "v1")]

def listDocument (items : List Value) : Value :=
  .map [(.str "items", .list items), (.str "kind", .str "List")]

theorem isListOf_strangerSecret (metadata : Entries) :
    IsListOf (listDocument [strangerDocument, secretDocument metadata])
      [strangerDocument, secretDocument metadata] := by
  refine ⟨⟨_, rfl, rfl, rfl⟩, ?_⟩
  rintro _ (_ | ⟨_, _ | ⟨_, ⟨⟩⟩⟩)
  · exact ⟨_, rfl, fun h => Bool.false_ne_true (Value.isText_iff.mpr h)⟩
  · exact ⟨_, rfl, fun h => Bool.false_ne_true (Value.isText_iff.mpr h)⟩

theorem mixed_stream_read :
    (ofDocuments "f" [listDocument [strangerDocument, secretDocument [(.str "name", .str "p")]],
      .null]).result = .ok [.secret ⟨.str "p", .str "default", .null, .empty, .empty⟩] ∧
    ofDocuments "f" [strangerDocument, listDocument [strangerDocument, secretDocument []], .null] =
      ofDocuments "f" [strangerDocument, strangerDocument, secretDocument []] ∧
    (ofDocuments "f" [strangerDocument, strangerDocument, secretDocument []]).result =
      .error (.rejected (.missingMetadata .secret
        "\x7b'kind': 'Secret', 'apiVersion': 'v1', 'metadata': \x7b\x7d\x7d")) := by
  obtain ⟨hjoins, hshares, hlist, hnull⟩ := documents_read_as_stream "f"
  have hfailed : (ofDocuments "f" [secretDocument []]).result = .error (.rejected
      (.missingMetadata .secret "\x7b'kind': 'Secret', 'apiVersion': 'v1', 'metadata': \x7b\x7d\x7d")) := by
    rfl
  have hstream (before : List Value) (metadata : Entries) :
      ofDocuments "f" (before ++ [listDocument [strangerDocument, secretDocument metadata], .null]) =
        ofDocuments "f" (before ++ [strangerDocument, secretDocument metadata]) := by
    rw [List.append_cons, hnull, List.append_nil, hlist _ _ (isListOf_strangerSecret metadata),
      List.append_nil]
  refine ⟨?_, hstream [strangerDocument] [], ?_⟩
  · rw [← List.nil_append [_, _], hstream]
    exact (hshares _ _).mpr ⟨[[], [_]], .cons rfl (.cons rfl .nil), rfl⟩
  · exact ((hjoins [strangerDocument, strangerDocument] [secretDocument []]).of_ok [] rfl).1 _ hfailed

end Manifest
end ClusterRegistrar
