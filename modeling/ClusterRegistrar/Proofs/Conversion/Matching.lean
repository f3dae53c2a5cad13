import ClusterRegistrar.Conversion
import ClusterRegistrar.Proofs.Manifest.Matching

/-! Conversion of copies. Each step looks at its values one layer deep or at their texts, so from copies
of the manifests it makes secrets that match, with the same records on the way. What comes out of a
kubeconfig is even equal: it was text in base64. A generated secret mixes values of a secret with those
of a cluster, but of the secret only its namespace, which is an atom if a cluster was looked up. -/
namespace ClusterRegistrar

variable {M N : Correspondence} {origins : Origin → Origin → Prop}

/-! ### Names -/

structure NamespacedName.Matches (M : Correspondence) (n m : NamespacedName) : Prop where
  space : n.space.Matches M m.space
  name : n.name.Matches M m.name

namespace NamespacedName.Matches

variable {n m : NamespacedName}

theorem id_eq (h : n.Matches M m) : n.id = m.id := by
  rw [id, id, h.space.shown_eq, h.name.shown_eq]

theorem key_agree (h : n.Matches M m) :
    Except.Agree (fun k l => (n.space = .atom k.1 ∧ m.space = .atom l.1) ∧ k.1.Matches M l.1 ∧
      k.2.Matches M l.2) n.key m.key := by
  obtain ⟨space, name⟩ := n
  obtain ⟨space', name'⟩ := m
  obtain ⟨hspace, hname⟩ := h
  cases hspace with
  | atom ha => exact hname.key_agree.bind fun _ _ hname => .ok ⟨⟨rfl, rfl⟩, ha, hname⟩
  | _ => exact .error _

end NamespacedName.Matches

namespace Naming

theorem baseName_eq {v w : Value} (h : v.Matches M w) : baseName v = baseName w := by
  rw [baseName, baseName, h.text_eq]

theorem baseName_agree {v w : Value} (h : v.Matches M w) :
    Except.Agree (Value.Matches M) (baseName v) (baseName w) := by
  unfold baseName
  rw [h.text_eq]
  exact .bind_same _ fun _ => .ok (.str _)

theorem clusterName_eq (settings : Settings) (name : Value) {space space' : Value}
    (h : space.Matches M space') : clusterName settings name space = clusterName settings name space' := by
  rw [clusterName, clusterName, h.shown_eq]

theorem generatedName_eq (settings : Settings) {name name' space space' : Value}
    (hname : name.Matches M name') (hspace : space.Matches M space') :
    generatedName settings name space = generatedName settings name' space' := by
  simp only [generatedName, baseName_eq hname, clusterName_eq settings _ hspace]

end Naming

/-! ### Workload clusters -/

namespace SourceSecret.Matches

variable {s t : SourceSecret}

theorem identity (h : s.Matches M t) : s.identity.Matches M t.identity := ⟨h.space, h.name⟩

theorem id_eq (h : s.Matches M t) : s.identity.id = t.identity.id := h.identity.id_eq

theorem isCapi_eq (h : s.Matches M t) : s.isCapi = t.isCapi := h.type.isText_eq _

theorem hasKubeconfigName_eq (h : s.Matches M t) : s.hasKubeconfigName = t.hasKubeconfigName := by
  rw [hasKubeconfigName, hasKubeconfigName, h.name.text_eq]

end SourceSecret.Matches

namespace WorkloadCluster

structure Alike (s t : SourceSecret) (w x : WorkloadCluster) : Prop where
  name : w.name = x.name
  space : w.space = s.space
  space' : x.space = t.space
  kubeConfig : w.kubeConfig = x.kubeConfig

variable {s t : SourceSecret}

theorem content_eq (h : s.Matches M t) : content s = content t := by
  unfold content
  refine h.data.fields_agree.lift.bind_eq fun data data' hdata => ?_
  have hvalue := hdata.field "value"
  simp only [hvalue.truthy_eq, hvalue.decodeBase64_eq, h.id_eq]

theorem document_eq (h : s.Matches M t) : document s = document t := by
  simp only [document, content_eq h, h.id_eq]

theorem ofSecret_agree (h : s.Matches M t) : (ofSecret s).Agree (Alike s t) (ofSecret t) := by
  unfold ofSecret
  rw [document_eq h, Naming.baseName_eq h.name, h.isCapi_eq, h.hasKubeconfigName_eq, h.id_eq]
  refine .when Iff.rfl rfl (.bind_same _ fun named => .when Iff.rfl rfl ?_)
  refine .bind_same _ fun doc => .bind_same _ fun base => .bind_same _ fun k => ?_
  exact .pure ⟨rfl, rfl, rfl, rfl⟩

end WorkloadCluster

/-! ### What is taken along -/

namespace TakeAlong

structure Outcome.Matches (M : Correspondence) (o p : Outcome) : Prop where
  entries : o.entries.Matches M p.entries
  problems : o.problems = p.problems

theorem targets_eq (name : Text) {keys keys' : List Value}
    (h : List.Forall₂ (Value.Matches M) keys keys') : targets name keys = targets name keys' := by
  induction h with
  | nil => rfl
  | cons hkey _ ih => simp only [targets, hkey.text_eq, ih]

theorem lookup_agree {metadata metadata' : Value} (h : metadata.Matches M metadata')
    (target : Text) :
    Except.Agree (Option.Rel (Value.Matches M)) (lookup metadata target) (lookup metadata' target) := by
  have hentries := h.entries?_rel
  unfold lookup
  generalize metadata.entries? = left, metadata'.entries? = right at hentries ⊢
  cases hentries with
  | some hentries => exact .ok (hentries.field?_rel target)
  | none =>
    refine h.elements_agree.bind fun elements elements' helements => ?_
    rw [any_eq_of_forall₂ helements fun _ _ h => h.isText_eq target]
    split
    · exact .error _
    · exact .ok .none

theorem Outcome.add_agree (name : Text) {metadata metadata' : Value}
    (h : metadata.Matches M metadata') (resource : Option Text) {o p : Outcome} (ho : o.Matches M p)
    (target : Text) :
    Except.Agree (Outcome.Matches M) (Outcome.add name metadata resource o target)
      (Outcome.add name metadata' resource p target) := by
  refine (lookup_agree h target).bind fun value? value'? hvalue => ?_
  cases hvalue with
  | none => exact .ok ⟨ho.entries, by rw [ho.problems]⟩
  | some hvalue =>
    exact .ok ⟨Entry.Rel.put (Entry.Rel.put ho.entries (.plain rfl) hvalue) (.plain rfl) (.str _),
      ho.problems⟩

theorem collect_agree (kind : MetadataKind) {metadata metadata' : Value}
    (h : metadata.Matches M metadata') (resource : Option Text) :
    (collect kind metadata resource).Agree (Outcome.Matches M) (collect kind metadata' resource) := by
  refine (Run.Agree.ofFault h.elements_agree).bind fun keys keys' hkeys => ?_
  rw [targets_eq _ hkeys]
  refine .bind_same _ fun found => ?_
  cases found with
  | error problem => exact .bind_same _ fun _ => .pure ⟨.nil, rfl⟩
  | ok found =>
    refine .ofFault (Except.Agree.foldlM (R := (· = ·)) (List.forall₂_same.mpr fun _ _ => rfl) ?_
      ⟨.nil, rfl⟩)
    rintro o p target _ ho rfl
    exact Outcome.add_agree _ h resource ho target

end TakeAlong

/-! ### Registrations -/

structure GeneratedSecret.Matches (M : Correspondence) (g h : GeneratedSecret) : Prop where
  name : g.name.Matches M h.name
  space : g.space.Matches M h.space
  labels : g.labels.Matches M h.labels
  data : g.data = h.data

def GeneratedSecret.Alike (g h : GeneratedSecret) : Prop := ∃ M : Correspondence, g.Matches M h

namespace Registration

structure Matches (M : Correspondence) (r s : Registration) : Prop where
  identity : r.identity.Matches M s.identity
  clusterName : r.clusterName = s.clusterName
  server : r.server = s.server
  sourceLabels : r.sourceLabels.Matches M s.sourceLabels
  takeAlongLabels : r.takeAlongLabels.Matches M s.takeAlongLabels
  takeAlongAnnotations : r.takeAlongAnnotations.Matches M s.takeAlongAnnotations
  credentials : r.credentials = s.credentials

theorem takeAlong_agree {c? d? : Option SourceCluster}
    (h : Option.Rel (SourceCluster.Matches M) c? d?) :
    (takeAlong c?).Agree
      (Prod.RProd (TakeAlong.Outcome.Matches M) (TakeAlong.Outcome.Matches M)) (takeAlong d?) := by
  cases h with
  | none => exact .pure (.intro ⟨.nil, rfl⟩ ⟨.nil, rfl⟩)
  | some h =>
    unfold takeAlong
    dsimp only
    rw [h.name.shown_eq, h.space.shown_eq]
    refine .bind_same _ fun name => .bind_same _ fun space => ?_
    refine (TakeAlong.collect_agree .labels h.labels _).bind fun _ _ hlabels => ?_
    refine (TakeAlong.collect_agree .annotations h.annotations _).bind fun _ _ hannotations => ?_
    exact .pure (.intro hlabels hannotations)

theorem labelsOfSource_agree {w x : WorkloadCluster} (hname : w.name = x.name)
    (hspace : w.space.Matches M x.space) :
    Except.Agree (Entries.Matches M) (labelsOfSource w) (labelsOfSource x) := by
  unfold labelsOfSource
  rw [hname]
  refine .bind_same _ fun name => ?_
  exact .ok (.cons (.mk (.plain rfl) (.str _)) (.cons (.mk (.plain rfl) hspace) .nil))

theorem identity_agree {settings : Settings}
    (hargo : settings.argoNamespace.Matches M settings.argoNamespace) (name space : Value) :
    Except.Agree (NamespacedName.Matches M) (Naming.generatedName settings name space)
      (Naming.generatedName settings name space) :=
  .bind_same _ fun _ => .bind_same _ fun _ => .bind_same _ fun _ => .ok ⟨hargo, .str _⟩

theorem ofWorkload_agree {settings : Settings}
    (hargo : settings.argoNamespace.Matches N settings.argoNamespace) {s t : SourceSecret}
    (hs : s.Matches M t) (hspace : s.space.Matches N t.space) {w x : WorkloadCluster}
    (hw : w.Alike s t x) {c? d? : Option SourceCluster}
    (hc : Option.Rel (SourceCluster.Matches N) c? d?) :
    (ofWorkload settings w s c?).Agree (Prod.RProd (Matches N) (· = ·))
      (ofWorkload settings x t d?) := by
  unfold ofWorkload
  refine (takeAlong_agree hc).bind ?_
  rintro ⟨labels, annotations⟩ ⟨labels', annotations'⟩ ⟨hlabels, hannotations⟩
  dsimp only
  rw [hlabels.problems, hannotations.problems, hs.id_eq, hw.kubeConfig,
    Naming.generatedName_eq settings hs.name hs.space]
  refine .bind_same _ fun _ => .bind_same _ fun cluster => .bind_same _ fun user => ?_
  rw [Naming.clusterName_eq settings cluster.name hs.space]
  refine (Run.Agree.ofFault (identity_agree hargo _ _)).bind fun identity identity' hidentity => ?_
  refine .bind_same _ fun clusterName => ?_
  have hlabelsOfSource := labelsOfSource_agree hw.name (hw.space ▸ hw.space' ▸ hspace)
  refine (Run.Agree.ofFault hlabelsOfSource).bind fun source source' hsource => ?_
  exact .pure (.intro ⟨hidentity, rfl, rfl, .map hsource, .map hlabels.entries,
    .map hannotations.entries, rfl⟩ rfl)

theorem mergedLabels_agree {r s : Registration} (h : r.Matches M s) :
    Except.Agree (Entries.Matches M) r.mergedLabels s.mergedLabels := by
  refine h.sourceLabels.toEntries_agree.bind fun source source' hsource => ?_
  refine h.takeAlongLabels.toEntries_agree.bind fun taken taken' htaken => ?_
  have hcommon : Entries.Matches M commonLabels commonLabels :=
    .cons (.mk (.plain rfl) (.str _)) (.cons (.mk (.plain rfl) (.str _)) .nil)
  exact .ok (Entry.Rel.putAll (Entry.Rel.putAll hcommon hsource) htaken)

theorem toSecret_agree {r s : Registration} (h : r.Matches M s) (validate : Bool) :
    Except.Agree (GeneratedSecret.Matches M) (r.toSecret validate) (s.toSecret validate) := by
  unfold toSecret
  rw [h.credentials, h.clusterName, h.server]
  refine .when Iff.rfl rfl (.bind_same _ fun config => ?_)
  refine (mergedLabels_agree h).lift.bind fun labels labels' hlabels => ?_
  refine .bind_same _ fun name => .bind_same _ fun server => ?_
  exact .ok ⟨h.identity.name, h.identity.space, .map hlabels, rfl⟩

end Registration

/-! ### Conversion -/

namespace Conversion

structure EntryMatches (M : Correspondence) (e f : (Atom × Atom) × SourceCluster) : Prop where
  space : e.1.1.Matches M f.1.1
  name : e.1.2.Matches M f.1.2
  cluster : e.2.Matches M f.2

def EntryIsCopy (origins : Origin → Origin → Prop) (e f : (Atom × Atom) × SourceCluster) : Prop :=
  ∃ M : Correspondence, M.Keeps origins ∧ EntryMatches M e f

def ClusterIndex.IsCopy (origins : Origin → Origin → Prop) (index index' : ClusterIndex) : Prop :=
  List.Forall₂ (EntryIsCopy origins) index.lastFirst index'.lastFirst

theorem ofList_agree {clusters clusters' : List SourceCluster}
    (h : List.Forall₂ (SourceCluster.IsCopy origins) clusters clusters') :
    Except.Agree (ClusterIndex.IsCopy origins) (ClusterIndex.ofList clusters)
      (ClusterIndex.ofList clusters') := by
  unfold ClusterIndex.ofList
  have hentries : List.Forall₂ (fun c d : SourceCluster =>
      Except.Agree (EntryIsCopy origins) (do return (← c.identity.key, c) : Except Fault _)
        (do return (← d.identity.key, d))) clusters clusters' := by
    refine h.imp fun c d ⟨M, hM, hcd⟩ => ?_
    have hidentity : c.identity.Matches M d.identity := ⟨hcd.space, hcd.name⟩
    exact hidentity.key_agree.bind fun _ _ ⟨_, hspace, hname⟩ => .ok ⟨M, hM, hspace, hname, hcd⟩
  exact (Except.Agree.mapM hentries).bind fun _ _ hkeyed => .ok (List.rel_reverse hkeyed)

theorem clusterNameOf_agree {s t : SourceSecret} (h : s.Matches M t) :
    Except.Agree (fun n m => (n.space = s.space ∧ m.space = t.space) ∧ n.Matches M m)
      (clusterNameOf s) (clusterNameOf t) := by
  unfold clusterNameOf
  refine h.labels.fields_agree.bind fun labels labels' hlabels => ?_
  have hlabel := hlabels.field clusterNameLabel
  dsimp only
  rw [hlabel.truthy_eq]
  split
  · exact .ok ⟨⟨rfl, rfl⟩, h.space, hlabel⟩
  · exact (Naming.baseName_agree h.name).bind fun _ _ hbase => .ok ⟨⟨rfl, rfl⟩, h.space, hbase⟩

private theorem find?_rel {entries entries' : List ((Atom × Atom) × SourceCluster)}
    (h : List.Forall₂ (EntryIsCopy origins) entries entries') (hM : M.Keeps origins)
    {space name space' name' : Atom} (hspace : space.Matches M space') (hname : name.Matches M name') :
    Option.Rel (SourceCluster.IsCopy origins)
      ((entries.find? fun entry => entry.1.1.same space && entry.1.2.same name).map (·.2))
      ((entries'.find? fun entry => entry.1.1.same space' && entry.1.2.same name').map (·.2)) := by
  induction h with
  | nil => exact .none
  | cons hentry _ ih =>
    obtain ⟨N, hN, hentry⟩ := hentry
    rw [List.find?_cons, List.find?_cons, hentry.space.same_eq (hspace.of_keeps hM hN),
      hentry.name.same_eq (hname.of_keeps hM hN)]
    split
    · exact .some ⟨N, hN, hentry.cluster⟩
    · exact ih

def FoundAlike (s t : SourceSecret) (c? d? : Option SourceCluster) : Prop :=
  ∃ N : Correspondence, s.space.Matches N t.space ∧ Option.Rel (SourceCluster.Matches N) c? d?

theorem findCluster_agree {index index' : ClusterIndex} (h : index.IsCopy origins index')
    {s t : SourceSecret} (hM : M.Keeps origins) (hs : s.Matches M t) :
    Except.Agree (FoundAlike s t) (findCluster index s) (findCluster index' t) := by
  refine (clusterNameOf_agree hs).bind fun n m ⟨⟨hn, hm⟩, hnm⟩ => ?_
  refine hnm.key_agree.bind ?_
  rintro ⟨space, base⟩ ⟨space', base'⟩ ⟨⟨hspace, hspace'⟩, hkey, hbase⟩
  have hfound := find?_rel h hM hkey hbase
  refine .ok ?_
  unfold FoundAlike
  rw [← hn, ← hm, hspace, hspace']
  generalize Option.map _ (index.lastFirst.find? _) = c?,
    Option.map _ (index'.lastFirst.find? _) = d? at hfound ⊢
  cases hfound with
  | none => exact ⟨M, .atom hkey, .none⟩
  | some hc =>
    obtain ⟨N, hN, hc⟩ := hc
    exact ⟨N, .atom (hkey.of_keeps hM hN), .some hc⟩

theorem register_agree {settings : Settings}
    (hargo : ∀ M : Correspondence, settings.argoNamespace.Matches M settings.argoNamespace)
    {index index' : ClusterIndex} (h : index.IsCopy origins index') {s t : SourceSecret}
    (hM : M.Keeps origins) (hs : s.Matches M t) {w x : WorkloadCluster} (hw : w.Alike s t x) :
    (register settings index s w).Agree GeneratedSecret.Alike (register settings index' t x) := by
  unfold register
  refine (Run.Agree.ofFault (findCluster_agree h hM hs)).bind fun c? d? ⟨N, hspace, hc⟩ => ?_
  rw [hs.id_eq]
  refine .when (by cases hc <;> rfl) rfl ?_
  refine (Registration.ofWorkload_agree (hargo N) hs hspace hw hc).bind ?_
  rintro ⟨r, problems⟩ ⟨r', _⟩ ⟨hr, rfl⟩
  refine .bind_same _ fun _ => .ofExcept ?_
  exact (Registration.toSecret_agree hr _).imp fun _ _ hg => ⟨N, hg⟩

theorem convertSecret_agree {settings : Settings}
    (hargo : ∀ M : Correspondence, settings.argoNamespace.Matches M settings.argoNamespace)
    {index index' : ClusterIndex} (h : index.IsCopy origins index') {s t : SourceSecret}
    (hcopy : s.IsCopy origins t) :
    (convertSecret settings index s).Agree (Option.Rel GeneratedSecret.Alike)
      (convertSecret settings index' t) := by
  obtain ⟨M, hM, hs⟩ := hcopy
  unfold convertSecret
  rw [hs.isCapi_eq, hs.hasKubeconfigName_eq, hs.id_eq]
  split
  · exact .bind_same _ fun _ => .pure .none
  · refine .bind_same _ fun named => ?_
    split
    · exact .bind_same _ fun _ => .pure .none
    · refine (WorkloadCluster.ofSecret_agree hs).attempt.bind fun outcome outcome' houtcome => ?_
      cases houtcome with
      | error reason => exact .bind_same _ fun _ => .pure .none
      | ok hw => exact (register_agree hargo h hM hs hw).bind fun _ _ hg => .pure (.some hg)

theorem convert_agree {settings : Settings}
    (hargo : ∀ M : Correspondence, settings.argoNamespace.Matches M settings.argoNamespace)
    {secrets secrets' : List SourceSecret} {clusters clusters' : List SourceCluster}
    (hsecrets : List.Forall₂ (SourceSecret.IsCopy origins) secrets secrets')
    (hclusters : List.Forall₂ (SourceCluster.IsCopy origins) clusters clusters') :
    (convert settings secrets clusters).Agree (List.Forall₂ GeneratedSecret.Alike)
      (convert settings secrets' clusters') := by
  refine (Run.Agree.ofFault (ofList_agree hclusters)).bind fun index index' hindex => ?_
  have hsteps := Run.Agree.mapM (hsecrets.imp fun s t hs => convertSecret_agree hargo hindex hs)
  refine hsteps.bind fun steps steps' hsteps => .pure ?_
  refine List.rel_flatMap hsteps fun generated? generated'? hgenerated => ?_
  cases hgenerated with
  | none => exact .nil
  | some hg => exact .cons hg .nil

end Conversion
end ClusterRegistrar
