import ClusterRegistrar.Proofs.Credentials
import ClusterRegistrar.Proofs.TakeAlong
import ClusterRegistrar.Proofs.WorkloadCluster
import ClusterRegistrar.Registration

/-! Registrations and their secrets. What a secret holds comes from three places that do not mix:
the settings and the names of the source, the first cluster and user of the kubeconfig, and the
labels that are taken along. -/
namespace ClusterRegistrar

structure SourceCluster.IsReadable (c : SourceCluster) : Prop where
  name : ∃ t, c.name.shown = .ok t
  space : ∃ t, c.space.shown = .ok t
  labels : c.labels.HasTextKeys
  annotations : c.annotations.HasTextKeys

namespace Registration

/-! ### What is taken along -/

theorem result_takeAlong (c : SourceCluster) :
    (takeAlong (some c)).result = (do
      let name ← Fault.lift c.name.shown
      let space ← Fault.lift c.space.shown
      let resource := some (name ++ ", namespace: " ++ space)
      let labels ← (TakeAlong.collect .labels c.labels resource).result
      let annotations ← (TakeAlong.collect .annotations c.annotations resource).result
      return (labels, annotations)) := by
  simp only [takeAlong, Run.result_bind, Run.result_ofFault]
  rfl

theorem exists_takeAlong {cluster? : Option SourceCluster}
    (h : ∀ c, cluster? = some c → c.IsReadable) :
    ∃ taken, (takeAlong cluster?).result = .ok taken := by
  cases cluster? with
  | none => exact ⟨_, rfl⟩
  | some c =>
    obtain ⟨⟨name, hname⟩, ⟨space, hspace⟩, ⟨labels, hlabels, hlabelKeys⟩,
      ⟨annotations, hannotations, hannotationKeys⟩⟩ := h c rfl
    rw [result_takeAlong, hname, hspace]
    simp only [Fault.lift_ok, Except.ok_bind, TakeAlong.result_collect hlabels hlabelKeys,
      TakeAlong.result_collect hannotations hannotationKeys]
    exact ⟨_, rfl⟩

theorem collect_of_takeAlong {c : SourceCluster} {taken : TakeAlong.Outcome × TakeAlong.Outcome}
    (h : (takeAlong (some c)).result = .ok taken) :
    ∃ resource, (TakeAlong.collect .labels c.labels resource).result = .ok taken.1 ∧
      (TakeAlong.collect .annotations c.annotations resource).result = .ok taken.2 := by
  simp only [result_takeAlong, Except.bind_eq_ok] at h
  obtain ⟨name, -, space, -, labels, hlabels, annotations, hannotations, htaken⟩ := h
  cases htaken
  exact ⟨_, hlabels, hannotations⟩

theorem labels_of_takeAlong {c : SourceCluster} {entries : Entries}
    {taken : TakeAlong.Outcome × TakeAlong.Outcome} (hentries : c.labels.entries? = some entries)
    (hkeys : ∀ entry ∈ entries, ∃ t, entry.1 = .str t)
    (h : (takeAlong (some c)).result = .ok taken) :
    ∃ resource, taken.1 = TakeAlong.outcome "label" entries resource := by
  obtain ⟨resource, hlabels, -⟩ := collect_of_takeAlong h
  rw [TakeAlong.result_collect hentries hkeys] at hlabels
  exact ⟨resource, (Except.ok.inj hlabels).symm⟩

theorem annotations_of_takeAlong {c : SourceCluster} {entries : Entries}
    {taken : TakeAlong.Outcome × TakeAlong.Outcome}
    (hentries : c.annotations.entries? = some entries)
    (hkeys : ∀ entry ∈ entries, ∃ t, entry.1 = .str t)
    (h : (takeAlong (some c)).result = .ok taken) :
    ∃ resource, taken.2 = TakeAlong.outcome "annotation" entries resource := by
  obtain ⟨resource, -, hannotations⟩ := collect_of_takeAlong h
  rw [TakeAlong.result_collect hentries hkeys] at hannotations
  exact ⟨resource, (Except.ok.inj hannotations).symm⟩

/-! ### Registrations -/

def draft (settings : Settings) (w : WorkloadCluster) (secret : SourceSecret) (labels : Entries) :
    Except Fault Registration := do
  let cluster ← w.kubeConfig.cluster
  let user ← w.kubeConfig.user
  let identity ← Naming.generatedName settings secret.name secret.space
  let clusterName ← Naming.clusterName settings cluster.name secret.space
  let sourceLabels ← labelsOfSource w
  return {
    identity
    clusterName
    server := cluster.server
    sourceLabels := .map sourceLabels
    takeAlongLabels := .map labels
    credentials := credentialsOf cluster user }

theorem result_ofWorkload (settings : Settings) (w : WorkloadCluster) (secret : SourceSecret)
    (cluster? : Option SourceCluster) :
    (ofWorkload settings w secret cluster?).result = (do
      let taken ← (takeAlong cluster?).result
      let r ← Fault.lift (draft settings w secret taken.1.entries)
      return ({ r with takeAlongAnnotations := .map taken.2.entries },
        taken.1.problems ++ taken.2.problems)) := by
  simp only [ofWorkload, draft, Run.result_bind, Run.result_ofFault, Run.result_forM_record,
    Except.ok_bind, Fault.lift_bind, bind_assoc]
  rfl

theorem logs_takeAlong (cluster? : Option SourceCluster) :
    (takeAlong cluster?).Logs Record.IsDetail := by
  cases cluster? with
  | none => exact Run.logs_pure _
  | some c =>
    refine Run.logs_bind (Run.logs_ofExcept _) fun name => ?_
    refine Run.logs_bind (Run.logs_ofExcept _) fun space => ?_
    refine Run.logs_bind (TakeAlong.logs_collect _ _ _) fun labels => ?_
    refine Run.logs_bind (TakeAlong.logs_collect _ _ _) fun annotations => ?_
    exact Run.logs_pure _

theorem logs_ofWorkload (settings : Settings) (w : WorkloadCluster) (secret : SourceSecret)
    (cluster? : Option SourceCluster) :
    (ofWorkload settings w secret cluster?).Logs Record.IsDetail := by
  refine Run.logs_bind (logs_takeAlong cluster?) fun (labels, annotations) => ?_
  refine Run.logs_bind (Run.logs_forM_record fun _ => ⟨rfl, nofun⟩) fun _ => ?_
  refine Run.logs_bind (Run.logs_ofExcept _) fun cluster => ?_
  refine Run.logs_bind (Run.logs_ofExcept _) fun user => ?_
  refine Run.logs_bind (Run.logs_ofExcept _) fun identity => ?_
  refine Run.logs_bind (Run.logs_ofExcept _) fun clusterName => ?_
  refine Run.logs_bind (Run.logs_ofExcept _) fun sourceLabels => ?_
  exact Run.logs_pure _

def sourceLabelsOf (name space : Value) : Entries :=
  [(.str "capi-to-argocd/cluster-secret-name", name),
   (.str "capi-to-argocd/cluster-namespace", space)]

theorem labelsOfSource_eq {s : SourceSecret} {w : WorkloadCluster} {base : Text}
    {cluster : KubeCluster} {user : KubeUser} (hparts : w.Parts s base cluster user) :
    labelsOfSource w = .ok (sourceLabelsOf s.name s.space) := by
  rw [labelsOfSource, hparts.name, hparts.space, hparts.secretName]
  rfl

theorem names_of_draft {settings : Settings} {w : WorkloadCluster} {s : SourceSecret}
    {labels : Entries} {r : Registration} (h : draft settings w s labels = .ok r) :
    Naming.generatedName settings s.name s.space = .ok r.identity ∧
      (∃ source, labelsOfSource w = .ok source ∧ r.sourceLabels = .map source) ∧
      r.takeAlongLabels = .map labels := by
  simp only [draft, Except.bind_eq_ok] at h
  obtain ⟨cluster, -, user, -, identity, hidentity, clusterName, -, source, hsource, hr⟩ := h
  cases hr
  exact ⟨hidentity, ⟨source, hsource, rfl⟩, rfl⟩

def ofParts (settings : Settings) (base space name : Text) (cluster : KubeCluster) (user : KubeUser)
    (labels annotations : Entries) : Registration where
  identity := ⟨settings.argoNamespace,
    .str (Naming.generatedStart ++ Naming.qualified settings space base)⟩
  clusterName := .str (Naming.qualified settings space name)
  server := cluster.server
  sourceLabels := .map (sourceLabelsOf (.str (base ++ Naming.kubeconfigEnding)) (.str space))
  takeAlongLabels := .map labels
  takeAlongAnnotations := .map annotations
  credentials := credentialsOf cluster user

theorem draft_of_parts {s : SourceSecret} {w : WorkloadCluster} {base : Text} {cluster : KubeCluster}
    {user : KubeUser} (hparts : w.Parts s base cluster user) (settings : Settings)
    (labels : Entries) :
    draft settings w s labels = (do
      let identity ← Naming.generatedName settings s.name s.space
      let clusterName ← Naming.clusterName settings cluster.name s.space
      return {
        identity
        clusterName
        server := cluster.server
        sourceLabels := .map (sourceLabelsOf s.name s.space)
        takeAlongLabels := .map labels
        credentials := credentialsOf cluster user }) := by
  simp only [draft, KubeConfig.cluster_eq_ok.mpr hparts.firstCluster,
    KubeConfig.user_eq_ok.mpr hparts.firstUser, labelsOfSource_eq hparts, Except.ok_bind]

theorem draft_eq {s : SourceSecret} {w : WorkloadCluster} {base space name : Text}
    {cluster : KubeCluster} {user : KubeUser} (hparts : w.Parts s base cluster user)
    (hspace : s.space = .str space) (hname : cluster.name = .str name) (settings : Settings)
    (labels : Entries) :
    draft settings w s labels = .ok (ofParts settings base space name cluster user labels []) := by
  rw [draft_of_parts hparts, hparts.secretName, hspace, hname, Naming.generatedName_str,
    Except.ok_bind, Naming.clusterName_str]
  rfl

theorem ofWorkload_eq {s : SourceSecret} {w : WorkloadCluster} {base space name : Text}
    {cluster : KubeCluster} {user : KubeUser} {cluster? : Option SourceCluster}
    {taken : TakeAlong.Outcome × TakeAlong.Outcome} (hparts : w.Parts s base cluster user)
    (hspace : s.space = .str space) (hname : cluster.name = .str name)
    (htaken : (takeAlong cluster?).result = .ok taken) (settings : Settings) :
    (ofWorkload settings w s cluster?).result =
      .ok (ofParts settings base space name cluster user taken.1.entries taken.2.entries,
        taken.1.problems ++ taken.2.problems) := by
  rw [result_ofWorkload, htaken, Except.ok_bind, draft_eq hparts hspace hname]
  rfl

theorem exists_takeAlong_of_ofWorkload {settings : Settings} {w : WorkloadCluster}
    {s : SourceSecret} {cluster? : Option SourceCluster}
    {registered : Registration × List TakeAlong.Problem}
    (h : (ofWorkload settings w s cluster?).result = .ok registered) :
    ∃ taken, (takeAlong cluster?).result = .ok taken := by
  rw [result_ofWorkload] at h
  obtain ⟨taken, htaken, -⟩ := Except.bind_eq_ok.mp h
  exact ⟨taken, htaken⟩

theorem isTextual_credentialsOf {cluster : KubeCluster} {user : KubeUser}
    (hcluster : cluster.IsTextual) (huser : user.IsTextual) :
    (credentialsOf cluster user).IsTextual where
  tls t ht := by
    have hdata : t = ⟨cluster.caData, user.certData, user.keyData⟩ := by
      unfold credentialsOf TlsCredentials.ofParts at ht
      split at ht
      · cases ht
      · exact (Option.some.inj ht).symm
    intro part hpart
    subst hdata
    simp only [TlsCredentials.listing, List.mem_cons, List.not_mem_nil, or_false] at hpart
    rcases hpart with rfl | rfl | rfl
    · exact hcluster.caData
    · exact huser.certData
    · exact huser.keyData
  bearerToken := huser.token

/-! ### Secrets -/

theorem mergedLabels_eq {r : Registration} {source taken : Entries}
    (hsource : r.sourceLabels = .map source) (htaken : r.takeAlongLabels = .map taken) :
    r.mergedLabels = .ok ((Keyed.putAll commonLabels source).putAll taken) := by
  rw [mergedLabels, hsource, htaken]
  rfl

theorem utf8_eq_ok {t : Text} {bytes : ByteArray} :
    utf8 (.str t) = .ok bytes ↔ t.utf8? = some bytes := by
  cases h : t.utf8? <;> simp [utf8, h]

theorem exists_text_of_utf8 {v : Value} {bytes : ByteArray} (h : utf8 v = .ok bytes) :
    ∃ t, v = .str t ∧ t.utf8? = some bytes := by
  unfold utf8 at h
  split at h
  · rename_i t
    exact ⟨t, rfl, utf8_eq_ok.mp h⟩
  · cases h

theorem toSecret_validated_iff {r : Registration} {g : GeneratedSecret} :
    r.toSecret true = .ok g ↔
      TlsCredentials.validate r.credentials.tls = .ok () ∧ r.toSecret false = .ok g := by
  have hgate : r.toSecret true =
      TlsCredentials.validate r.credentials.tls >>= fun _ => r.toSecret false := rfl
  rw [hgate, Except.bind_eq_ok]
  exact ⟨fun ⟨_, hvalid, hg⟩ => ⟨hvalid, hg⟩, fun ⟨hvalid, hg⟩ => ⟨(), hvalid, hg⟩⟩

theorem toSecret_unvalidated {r : Registration} {validate : Bool} {g : GeneratedSecret}
    (h : r.toSecret validate = .ok g) : r.toSecret false = .ok g := by
  cases validate with
  | false => exact h
  | true => exact (toSecret_validated_iff.mp h).2

theorem toSecret_eq_ok {r : Registration} {g : GeneratedSecret} :
    r.toSecret false = .ok g ↔
      ∃ config labels name server, r.credentials.encode = .ok config ∧
        r.mergedLabels = .ok labels ∧ utf8 r.clusterName = .ok name ∧
        utf8 r.server = .ok server ∧
        g = {
          name := r.identity.name
          space := r.identity.space
          labels := .map labels
          data := [("name", name), ("server", server), ("config", config.toUTF8)] } := by
  constructor
  · intro h
    simp only [toSecret, Bool.false_eq_true, if_false, Except.bind_eq_ok, Fault.lift_eq_ok] at h
    obtain ⟨config, hconfig, labels, hlabels, name, hname, server, hserver, hg⟩ := h
    exact ⟨config, labels, name, server, hconfig, hlabels, hname, hserver, (Except.ok.inj hg).symm⟩
  · rintro ⟨config, labels, name, server, hconfig, hlabels, hname, hserver, rfl⟩
    simp only [toSecret, Bool.false_eq_true, if_false, hconfig, hlabels, hname, hserver,
      Fault.lift_ok, Except.ok_bind]
    rfl

theorem toSecret_ofParts_eq_ok {settings : Settings} {base space name server : Text}
    {cluster : KubeCluster} {user : KubeUser} {labels annotations : Entries} {g : GeneratedSecret}
    (hserver : cluster.server = .str server) :
    (ofParts settings base space name cluster user labels annotations).toSecret false = .ok g ↔
      ∃ config nameBytes serverBytes, (credentialsOf cluster user).encode = .ok config ∧
        (Naming.qualified settings space name).utf8? = some nameBytes ∧
        server.utf8? = some serverBytes ∧
        g = {
          name := .str (Naming.generatedStart ++ Naming.qualified settings space base)
          space := settings.argoNamespace
          labels := .map ((Keyed.putAll commonLabels (sourceLabelsOf
            (.str (base ++ Naming.kubeconfigEnding)) (.str space))).putAll labels)
          data := [("name", nameBytes), ("server", serverBytes), ("config", config.toUTF8)] } := by
  have hlabels : (ofParts settings base space name cluster user labels annotations).mergedLabels =
      .ok ((Keyed.putAll commonLabels (sourceLabelsOf
        (.str (base ++ Naming.kubeconfigEnding)) (.str space))).putAll labels) :=
    mergedLabels_eq rfl rfl
  rw [toSecret_eq_ok, hlabels]
  simp only [ofParts, hserver, utf8_eq_ok]
  constructor
  · rintro ⟨config, _, nameBytes, serverBytes, hconfig, hmerged, hname, hbytes, rfl⟩
    cases hmerged
    exact ⟨config, nameBytes, serverBytes, hconfig, hname, hbytes, rfl⟩
  · rintro ⟨config, nameBytes, serverBytes, hconfig, hname, hbytes, rfl⟩
    exact ⟨config, _, nameBytes, serverBytes, hconfig, rfl, hname, hbytes, rfl⟩

/-- A registration has a secret exactly if its two names can be written in UTF-8. -/
theorem exists_toSecret_ofParts_iff {settings : Settings} {base space name server : Text}
    {cluster : KubeCluster} {user : KubeUser} {labels annotations : Entries}
    (hcluster : cluster.IsTextual) (huser : user.IsTextual)
    (hserver : cluster.server = .str server) :
    (∃ g, (ofParts settings base space name cluster user labels annotations).toSecret false =
        .ok g) ↔ (Naming.qualified settings space name).IsScalar ∧ server.IsScalar := by
  simp only [toSecret_ofParts_eq_ok hserver, Text.isScalar_iff_utf8?]
  constructor
  · rintro ⟨_, _, nameBytes, serverBytes, -, hname, hbytes, -⟩
    exact ⟨⟨nameBytes, hname⟩, ⟨serverBytes, hbytes⟩⟩
  · rintro ⟨⟨nameBytes, hname⟩, ⟨serverBytes, hbytes⟩⟩
    have hconfig := Credentials.encode_eq (isTextual_credentialsOf hcluster huser)
    exact ⟨_, _, nameBytes, serverBytes, hconfig, hname, hbytes, rfl⟩

end Registration
end ClusterRegistrar
