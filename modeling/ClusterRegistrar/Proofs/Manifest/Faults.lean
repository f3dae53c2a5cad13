import ClusterRegistrar.Proofs.Manifest.Document
import ClusterRegistrar.Proofs.Manifest.Rearrangement

/-! Files on which reading ends in a fault. A resource is only asked whether it has what is needed, not
whether what it has is of the right type, so some are met by an operation that they do not have. Each
level of a file has its own ways to do so, besides those of the level below. -/
namespace ClusterRegistrar

theorem Value.elements_eq_error {v : Value} :
    (∃ f, v.elements = .error f) ↔
      ∃ a, v = .atom a ∧ (∀ t, a ≠ .str t) ∧ ∀ b, a ≠ .bytes b := by
  cases hlayer : v.layer? with
  | some layer =>
    have hne (a : Atom) : v ≠ .atom a := by
      rintro rfl
      cases hlayer
    rw [elements_of_layer? hlayer]
    simp [hne]
  | none =>
    cases v with
    | atom a => cases a <;> simp [elements, atom?, layer?]
    | _ => cases hlayer

namespace Manifest

/-! ### Resources -/

inductive IsLacking (fields : Entries) : Prop where
  | kind (h : (fields.field "kind").truthy = false)
  | version (h : (fields.field "apiVersion").truthy = false)
  | metadata {k : ManifestKind} (hk : Announces k (fields.field "kind") (fields.field "apiVersion"))
    (h : (fields.field "metadata").truthy = false)
  | name {k : ManifestKind} {metadata : Entries}
    (hk : Announces k (fields.field "kind") (fields.field "apiVersion"))
    (hmetadata : (fields.field "metadata").entries? = some metadata)
    (h : (metadata.field "name").truthy = false)

/-- The ways in which a resource ends the reading of its file in a fault. -/
inductive Trips (item : Value) : Prop where
  | notMapping (h : item.entries? = none)
  | version {fields : Entries} (h : item.entries? = some fields)
    (hkind : fields.field "kind" = .str "Cluster")
    (htruthy : (fields.field "apiVersion").truthy = true)
    (hversion : ∀ t, fields.field "apiVersion" ≠ .str t)
  | metadata {fields : Entries} {k : ManifestKind} (h : item.entries? = some fields)
    (hk : Announces k (fields.field "kind") (fields.field "apiVersion"))
    (htruthy : (fields.field "metadata").truthy = true)
    (hmetadata : (fields.field "metadata").entries? = none)
  /-- The message shows the resource, and it has no text. -/
  | untold {fields : Entries} (h : item.entries? = some fields) (hlacks : IsLacking fields)
    (hshown : ∃ f, item.shown = .error f)

theorem givesUp_header_iff {k : ManifestKind} {item : Value} {fields : Entries}
    (hfields : item.entries? = some fields)
    (hk : Announces k (fields.field "kind") (fields.field "apiVersion")) :
    Except.GivesUp (header k item) ↔
      ((fields.field "metadata").truthy = false ∧ ∃ f, item.shown = .error f) ∨
      ((fields.field "metadata").truthy = true ∧ ((fields.field "metadata").entries? = none ∨
        ∃ metadata, (fields.field "metadata").entries? = some metadata ∧
          (metadata.field "name").truthy = false ∧ ∃ f, item.shown = .error f)) := by
  rw [header_of_announces hfields hk]
  simp only [Except.GivesUp.unless_iff, Except.GivesUp.bind_iff, Except.GivesUp.lift_iff,
    Value.fields_eq_error, exists_and_left, exists_eq, and_true, Fault.lift_eq_ok,
    Value.fields_eq_ok]
  simp only [Bool.not_eq_true', Bool.not_eq_false', pure, Except.pure, Except.GivesUp.not_ok,
    and_false, or_false]

theorem givesUp_announced_iff {item kind version : Value} :
    (∃ announced, Fault.lift (kindOf kind version) = .ok announced ∧
        Except.GivesUp (ofAnnounced item announced)) ↔
      ∃ k, Announces k kind version ∧ Except.GivesUp (header k item) := by
  simp only [Fault.lift_eq_ok]
  constructor
  · rintro ⟨announced, hannounced, h⟩
    cases announced with
    | none => exact absurd h (Except.GivesUp.not_ok none)
    | some k => exact ⟨k, kindOf_eq_some.mp hannounced, Except.GivesUp.map_iff.mp h⟩
  · rintro ⟨k, hk, h⟩
    exact ⟨some k, kindOf_eq_some.mpr hk, Except.GivesUp.map_iff.mpr h⟩

theorem givesUp_iff_of_fields {item : Value} {fields : Entries}
    (hfields : item.entries? = some fields) :
    Except.GivesUp (ofResource item).result ↔
      ((fields.field "kind").truthy = false ∧ ∃ f, item.shown = .error f) ∨
      ((fields.field "kind").truthy = true ∧
        (((fields.field "apiVersion").truthy = false ∧ ∃ f, item.shown = .error f) ∨
        ((fields.field "apiVersion").truthy = true ∧
          ((fields.field "kind" = .str "Cluster" ∧ ∀ t, fields.field "apiVersion" ≠ .str t) ∨
          ∃ k, Announces k (fields.field "kind") (fields.field "apiVersion") ∧
            Except.GivesUp (header k item))))) := by
  rw [result_ofResource, Value.fields_eq_ok.mpr hfields, Fault.lift_ok, Except.ok_bind]
  dsimp only
  rw [Except.GivesUp.unless_iff, Except.GivesUp.unless_iff, Except.GivesUp.bind_iff,
    Except.GivesUp.lift_iff, kindOf_eq_error, givesUp_announced_iff]
  simp only [Bool.not_eq_true', Bool.not_eq_false']

theorem Trips.givesUp {item : Value} (h : Trips item) :
    Except.GivesUp (ofResource item).result := by
  -- What announces a manifest is there, so only the tests of the header are left.
  have hheader {fields : Entries} (hfields : item.entries? = some fields) {k : ManifestKind}
      (hk : Announces k (fields.field "kind") (fields.field "apiVersion"))
      (h : Except.GivesUp (header k item)) : Except.GivesUp (ofResource item).result := by
    rw [result_ofResource_of_announces hfields hk]
    exact Except.GivesUp.map_iff.mpr h
  cases h with
  | notMapping h =>
    rw [result_ofResource]
    exact Except.GivesUp.bind_iff.mpr (.inl (Except.GivesUp.lift_iff.mpr
      ⟨.noFields, Value.fields_eq_error.mpr ⟨h, rfl⟩⟩))
  | version h hkind htruthy hversion =>
    have hthere : (Value.str "Cluster").truthy = true := by decide
    exact (givesUp_iff_of_fields h).mpr
      (.inr ⟨hkind ▸ hthere, .inr ⟨htruthy, .inl ⟨hkind, hversion⟩⟩⟩)
  | metadata h hk htruthy hmetadata =>
    exact hheader h hk ((givesUp_header_iff h hk).mpr (.inr ⟨htruthy, .inl hmetadata⟩))
  | @untold fields h hlacks hshown =>
    cases hlacks with
    | kind hkind => exact (givesUp_iff_of_fields h).mpr (.inl ⟨hkind, hshown⟩)
    | version hversion =>
      rw [givesUp_iff_of_fields h]
      cases hkind : (fields.field "kind").truthy with
      | false => exact .inl ⟨rfl, hshown⟩
      | true => exact .inr ⟨rfl, .inl ⟨hversion, hshown⟩⟩
    | metadata hk hmetadata =>
      exact hheader h hk ((givesUp_header_iff h hk).mpr (.inl ⟨hmetadata, hshown⟩))
    | @name _ metadata hk hmetadata hname =>
      apply hheader h hk
      rw [givesUp_header_iff h hk]
      cases htruthy : (fields.field "metadata").truthy with
      | false => exact .inl ⟨rfl, hshown⟩
      | true => exact .inr ⟨rfl, .inr ⟨metadata, hmetadata, hname, hshown⟩⟩

/-- Reading a resource ends in a fault exactly if the resource trips it in one of these ways. -/
theorem givesUp_ofResource_iff {item : Value} :
    Except.GivesUp (ofResource item).result ↔ Trips item := by
  refine ⟨fun h => ?_, Trips.givesUp⟩
  cases hfields : item.entries? with
  | none => exact .notMapping hfields
  | some fields =>
    rcases (givesUp_iff_of_fields hfields).mp h with ⟨hkind, hshown⟩ |
      ⟨-, ⟨hversion, hshown⟩ | ⟨hversion, ⟨hkind, htext⟩ | ⟨k, hk, hheader⟩⟩⟩
    · exact .untold hfields (.kind hkind) hshown
    · exact .untold hfields (.version hversion) hshown
    · exact .version hfields hkind hversion htext
    · rcases (givesUp_header_iff hfields hk).mp hheader with
        ⟨hmetadata, hshown⟩ | ⟨htruthy, hnone | ⟨metadata, hmetadata, hname, hshown⟩⟩
      · exact .untold hfields (.metadata hk hmetadata) hshown
      · exact .metadata hfields hk htruthy hnone
      · exact .untold hfields (.name hk hmetadata hname) hshown

theorem givesUp_ofResources_iff {items : List Value} :
    Except.GivesUp (ofResources items).result ↔ ∃ before item after,
      items = before ++ item :: after ∧ (∀ b ∈ before, IsAccepted b) ∧ Trips item := by
  simp only [ofResources, Run.result_bind, Run.result_mapM, Except.GivesUp.bind_iff,
    Except.GivesUp.mapM_iff, Run.result_pure, Except.GivesUp.not_ok, and_false, exists_false,
    or_false, givesUp_ofResource_iff]
  rfl

/-! ### Documents -/

def IsAcceptedDocument (doc : Value) : Prop :=
  ∃ items, presented? doc = some items ∧ ∀ item ∈ items, IsAccepted item

theorem isAcceptedDocument_iff {path : Text} {doc : Value} :
    (∃ ms, (ofDocument path doc).result = .ok ms) ↔ IsAcceptedDocument doc := by
  constructor
  · rintro ⟨ms, h⟩
    obtain ⟨items, hitems⟩ := exists_presented h
    rw [ofDocument_of_presented hitems, result_ofResources_eq_ok] at h
    exact ⟨items, hitems, h.1⟩
  · rintro ⟨items, hitems, hall⟩
    rw [ofDocument_of_presented hitems]
    exact ⟨_, result_ofResources_eq_ok.mpr ⟨hall, rfl⟩⟩

inductive DocumentTrips (doc : Value) : Prop where
  | untold (h : doc.entries? = none) (hnull : doc ≠ .null) (hshown : ∃ f, doc.shown = .error f)
  | items {fields : Entries} {a : Atom} (h : doc.entries? = some fields)
    (hlist : fields.field "kind" = .str "List") (hitems : fields.field "items" = .atom a)
    (htruthy : a.truthy = true) (htext : ∀ t, a ≠ .str t) (hbytes : ∀ b, a ≠ .bytes b)
  | resource {before after : List Value} {item : Value}
    (h : presented? doc = some (before ++ item :: after)) (hbefore : ∀ b ∈ before, IsAccepted b)
    (hitem : Trips item)

theorem orElse_elements_error {v : Value} :
    (∃ f, (v.orElse (.list [])).elements = .error f) ↔
      ∃ a, v = .atom a ∧ a.truthy = true ∧ (∀ t, a ≠ .str t) ∧ ∀ b, a ≠ .bytes b := by
  unfold Value.orElse
  split
  · rename_i htruthy
    rw [Value.elements_eq_error]
    refine exists_congr fun a => and_congr_right fun ha => (and_iff_right ?_).symm
    rwa [ha] at htruthy
  · rename_i hfalsy
    refine iff_of_false ?_ ?_
    · rintro ⟨f, hf⟩
      cases hf
    · rintro ⟨a, rfl, htruthy, -⟩
      exact hfalsy htruthy

theorem ofDocument_of_noEntries (path : Text) {doc : Value} (h : doc.entries? = none)
    (hnull : doc ≠ .null) :
    ofDocument path doc = Run.ofExcept (Failure.rejectWith (.documentNotMapping path) doc.shown) := by
  unfold ofDocument
  rw [h]
  split
  · exact absurd rfl hnull
  · contradiction
  · rfl

theorem givesUp_ofDocument_of_list (path : Text) {doc : Value} {fields : Entries}
    (h : doc.entries? = some fields) (hlist : fields.field "kind" = .str "List") :
    Except.GivesUp (ofDocument path doc).result ↔
      (∃ f, ((fields.field "items").orElse (.list [])).elements = .error f) ∨
      ∃ items, ((fields.field "items").orElse (.list [])).elements = .ok items ∧
        Except.GivesUp (ofResources items).result := by
  rw [ofDocument_of_fields path h, if_pos (Value.isText_iff.mpr hlist), Run.result_bind,
    Run.result_ofFault, Except.GivesUp.bind_iff, Except.GivesUp.lift_iff]
  simp only [Fault.lift_eq_ok]

theorem DocumentTrips.givesUp {doc : Value} (h : DocumentTrips doc) (path : Text) :
    Except.GivesUp (ofDocument path doc).result := by
  cases h with
  | untold h hnull hshown =>
    rw [ofDocument_of_noEntries path h hnull, Run.result_ofExcept]
    exact Except.GivesUp.rejectWith_iff.mpr hshown
  | items h hlist hitems htruthy htext hbytes =>
    exact (givesUp_ofDocument_of_list path h hlist).mpr
      (.inl (orElse_elements_error.mpr ⟨_, hitems, htruthy, htext, hbytes⟩))
  | resource h hbefore hitem =>
    rw [ofDocument_of_presented h]
    exact givesUp_ofResources_iff.mpr ⟨_, _, _, rfl, hbefore, hitem⟩

theorem givesUp_ofDocument_iff {path : Text} {doc : Value} :
    Except.GivesUp (ofDocument path doc).result ↔ DocumentTrips doc := by
  refine ⟨fun h => ?_, fun h => h.givesUp path⟩
  cases hpresented : presented? doc with
  | some items =>
    rw [ofDocument_of_presented hpresented, givesUp_ofResources_iff] at h
    obtain ⟨before, item, after, rfl, hbefore, hitem⟩ := h
    exact .resource hpresented hbefore hitem
  | none =>
    cases hfields : doc.entries? with
    | none =>
      have hnull : doc ≠ .null := by
        rintro rfl
        cases hpresented
      rw [ofDocument_of_noEntries path hfields hnull, Run.result_ofExcept] at h
      exact .untold hfields hnull (Except.GivesUp.rejectWith_iff.mp h)
    | some fields =>
      rw [presented?_of_fields hfields] at hpresented
      split at hpresented
      · rename_i hlist
        have hlist := Value.isText_iff.mp hlist
        rcases (givesUp_ofDocument_of_list path hfields hlist).mp h with herror | ⟨items, hitems, -⟩
        · obtain ⟨a, hitems, htruthy, htext, hbytes⟩ := orElse_elements_error.mp herror
          exact .items hfields hlist hitems htruthy htext hbytes
        · rw [hitems] at hpresented
          cases hpresented
      · cases hpresented

/-! ### Files -/

/-- The ways in which a file ends its reading in a fault: it is no UTF-8, a value in it cannot be
built, or one of its documents ends the reading. -/
inductive FileTrips (content : ByteArray) : Prop where
  | notUtf8 (h : String.fromUTF8? content = none)
  | unbuildable {text : String} {f : Fault} (h : String.fromUTF8? content = some text)
    (hread : Yaml.readAll (unifyLineEnds text.toList) = .error (.fault f))
  | document {text : String} {before after : List Value} {doc : Value}
    (h : String.fromUTF8? content = some text)
    (hread : Yaml.readAll (unifyLineEnds text.toList) = .ok (before ++ doc :: after))
    (hbefore : ∀ b ∈ before, IsAcceptedDocument b) (hdoc : DocumentTrips doc)

theorem givesUp_ofDocuments_iff {path : Text} {docs : List Value} :
    Except.GivesUp (ofDocuments path docs).result ↔ ∃ before doc after,
      docs = before ++ doc :: after ∧ (∀ b ∈ before, IsAcceptedDocument b) ∧ DocumentTrips doc := by
  simp only [ofDocuments, Run.result_bind, Run.result_mapM, Except.GivesUp.bind_iff,
    Except.GivesUp.mapM_iff, Run.result_pure, Except.GivesUp.not_ok, and_false, exists_false,
    or_false, isAcceptedDocument_iff, givesUp_ofDocument_iff]

theorem FileTrips.of_document {text : String} {docs : List Value} {content : ByteArray}
    (h : String.fromUTF8? content = some text)
    (hread : Yaml.readAll (unifyLineEnds text.toList) = .ok docs) {path : Text}
    (hdocs : Except.GivesUp (ofDocuments path docs).result) : FileTrips content := by
  obtain ⟨before, doc, after, rfl, hbefore, hdoc⟩ := givesUp_ofDocuments_iff.mp hdocs
  exact .document h hread hbefore hdoc

/-- Reading a file ends in a fault exactly if the file trips it in one of these ways. -/
theorem givesUp_ofFile_iff (path : Text) {content : ByteArray} :
    Except.GivesUp (ofFile path content).result ↔ FileTrips content := by
  rw [ofFile, Run.result_bind, Run.result_ofExcept, documents]
  constructor
  · intro h
    cases htext : String.fromUTF8? content with
    | none => exact .notUtf8 htext
    | some text =>
      rw [htext] at h
      dsimp only at h
      cases hread : Yaml.readAll (unifyLineEnds text.toList) with
      | ok docs =>
        rw [hread] at h
        exact .of_document htext hread h
      | error trouble =>
        rw [hread] at h
        cases trouble with
        | malformed e => exact absurd h (Except.GivesUp.not_rejected _)
        | fault f => exact .unbuildable htext hread
  · intro h
    cases h with
    | notUtf8 htext =>
      rw [htext]
      exact Except.GivesUp.fault _
    | unbuildable htext hread =>
      rw [htext]
      dsimp only
      rw [hread]
      exact Except.GivesUp.fault _
    | document htext hread hbefore hdoc =>
      rw [htext]
      dsimp only
      rw [hread]
      exact givesUp_ofDocuments_iff.mpr ⟨_, _, _, rfl, hbefore, hdoc⟩

end Manifest
end ClusterRegistrar
