import ClusterRegistrar.Proofs.Conversion

/-! What becomes of the annotations that a cluster wants on its generated secret. A registration has
them all, under their keys and next to their markers. The secret that is made of it has none, and
neither has its document, of which the metadata are a name, a namespace and labels. -/
namespace ClusterRegistrar.Conversion

open TakeAlong (Requested requestLead markerLead)

theorem exists_registration {settings : Settings} {index : ClusterIndex} {s : SourceSecret}
    {g : GeneratedSecret} (hg : Generates settings index s g) {cluster? : Option SourceCluster}
    (hfound : findCluster index s = .ok cluster?) :
    ∃ w r problems taken, (WorkloadCluster.ofSecret s).result = .ok w ∧
      (Registration.takeAlong cluster?).result = .ok taken ∧
      (Registration.ofWorkload settings w s cluster?).result = .ok (r, problems) ∧
      r.takeAlongAnnotations = .map taken.2.entries ∧ r.toSecret settings.validateTls = .ok g := by
  obtain ⟨w, hw, hg⟩ := hg
  simp only [result_register, hfound, Fault.lift_ok, Except.ok_bind, Except.bind_eq_ok,
    Fault.lift_eq_ok] at hg
  obtain ⟨taken, htaken, r, hr, hg⟩ := hg
  have hwork : (Registration.ofWorkload settings w s cluster?).result =
      .ok ({ r with takeAlongAnnotations := .map taken.2.entries },
        taken.1.problems ++ taken.2.problems) := by
    rw [Registration.result_ofWorkload, htaken, Except.ok_bind, hr]
    rfl
  exact ⟨w, _, _, taken, hw, htaken, hwork, rfl, hg⟩

theorem metadata_of_generates {settings : Settings} {index : ClusterIndex} {s : SourceSecret}
    {g : GeneratedSecret} (hg : Generates settings index s g) :
    ∃ doc fields, g.toDocument = .ok doc ∧ doc.entries? = some fields ∧
      fields.field? "metadata" = some (.map [(.str "name", g.name), (.str "namespace", g.space),
        (.str "labels", g.labels)]) := by
  obtain ⟨-, _, _, -, -, hlabels⟩ := names_of_generates hg
  rw [GeneratedSecret.toDocument, hlabels]
  exact ⟨_, _, rfl, rfl, rfl⟩

/-- Annotations that are asked for reach the registration, and no further. There, each has the value
that it has on the cluster, unless its key is the marker of another one, and its own marker. -/
theorem annotations_taken_not_generated {settings : Settings} {index : ClusterIndex}
    {s : SourceSecret} {g : GeneratedSecret} (hg : Generates settings index s g) {c : SourceCluster}
    (hfound : findCluster index s = .ok (some c)) {annotations : Entries}
    (hannotations : c.annotations.entries? = some annotations)
    (hkeys : ∀ entry ∈ annotations, ∃ t, entry.1 = .str t)
    (hbare : annotations.field? (requestLead "annotation") = none) :
    ∃ w r problems, ∃ taken metadata fields : Entries, ∃ doc,
      (WorkloadCluster.ofSecret s).result = .ok w ∧
      (Registration.ofWorkload settings w s (some c)).result = .ok (r, problems) ∧
      r.takeAlongAnnotations = .map taken ∧
      (∀ t, Requested "annotation" annotations t →
        (taken.field? (markerLead "annotation" ++ t)).isSome ∧
          ((∀ u, Requested "annotation" annotations u → markerLead "annotation" ++ u ≠ t) →
            taken.field? t = annotations.field? t)) ∧
      r.toSecret settings.validateTls = .ok g ∧ g.toDocument = .ok doc ∧
      doc.entries? = some fields ∧ fields.field? "metadata" = some (.map metadata) ∧
      metadata.texts = ["name", "namespace", "labels"] := by
  obtain ⟨w, r, problems, taken, hw, htaken, hr, hcollected, hsecret⟩ :=
    exists_registration hg hfound
  obtain ⟨resource, houtcome⟩ := Registration.annotations_of_takeAlong hannotations hkeys htaken
  obtain ⟨doc, fields, hdoc, hfields, hmetadata⟩ := metadata_of_generates hg
  refine ⟨w, r, problems, _, _, fields, doc, hw, hr, hcollected, fun t ht => ?_, hsecret, hdoc,
    hfields, hmetadata, rfl⟩
  obtain ⟨value, hvalue⟩ := Option.isSome_iff_exists.mp ht.present
  rw [houtcome]
  constructor
  · obtain ⟨marker, hmarker, -⟩ := TakeAlong.exists_field?_outcome (P := fun _ => True) hbare
      (fun _ _ _ _ => trivial) ht (.marker hvalue)
    rw [hmarker]
    rfl
  · intro hapart
    have hsets : ∀ target v, Requested "annotation" annotations target →
        TakeAlong.Sets "annotation" annotations target t v → v = value := by
      intro target v htarget hset
      cases hset with
      | copy hcopy => exact Option.some.inj (hcopy.symm.trans hvalue)
      | marker => exact absurd rfl (hapart target htarget)
    obtain ⟨found, hcopied, rfl⟩ := TakeAlong.exists_field?_outcome hbare hsets ht (.copy hvalue)
    rw [hcopied, hvalue]

def notedSource : SourceSecret := .ofContent "ns" "p-kubeconfig" SourceSecret.plainContent

def notedCluster : SourceCluster where
  name := "p"
  space := "ns"
  annotations := .map [(.str "take-along-annotation.capi-to-argocd.note", ""), (.str "note", "x"),
    (.str ("take-along-annotation.capi-to-argocd." ++ markerLead "annotation" ++ "note"), ""),
    (.str (markerLead "annotation" ++ "note"), "y")]

theorem notedSource_annotations : ∃ w r problems, ∃ taken : Entries, ∃ g doc,
    (convert {} [notedSource] [notedCluster]).result = .ok [g] ∧
      (WorkloadCluster.ofSecret notedSource).result = .ok w ∧
      (Registration.ofWorkload {} w notedSource (some notedCluster)).result = .ok (r, problems) ∧
      r.takeAlongAnnotations = .map taken ∧ taken.field? "note" = some "x" ∧
      (taken.field? (markerLead "annotation" ++ "note")).isSome ∧
      g.toDocument = .ok doc := by
  obtain ⟨gs, hgs, hlength⟩ : ∃ gs, (convert {} [notedSource] [notedCluster]).result = .ok gs ∧
      decide (gs.length = 1) = true := Except.exists_of_any (by decide +kernel)
  obtain ⟨g, rfl⟩ := List.length_eq_one_iff.mp (of_decide_eq_true hlength)
  obtain ⟨index, hindex, hg⟩ := generates_of_convert_single hgs
  have hentry : ClusterIndex.ofList [notedCluster] =
      .ok ⟨[((.str "ns", .str "p"), notedCluster)]⟩ := rfl
  cases hentry.symm.trans hindex
  obtain ⟨w, r, problems, taken, _, _, doc, hw, hr, htaken, hrequested, -, hdoc, -⟩ :=
    annotations_taken_not_generated hg (c := notedCluster) rfl rfl (by simp) (by decide)
  obtain ⟨hmarker, hvalue⟩ := hrequested "note" ⟨by decide, by decide, by decide⟩
  have hapart (u : Text) : markerLead "annotation" ++ u ≠ "note" := by
    intro heq
    have hlength := congrArg List.length heq
    have hlead : (markerLead "annotation").length = 45 := rfl
    have hnote : ("note" : Text).length = 4 := rfl
    rw [List.length_append] at hlength
    omega
  exact ⟨w, r, problems, taken, g, doc, hgs, hw, hr, htaken, hvalue fun u _ => hapart u, hmarker,
    hdoc⟩

end ClusterRegistrar.Conversion
