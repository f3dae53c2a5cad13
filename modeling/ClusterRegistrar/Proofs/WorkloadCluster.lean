import ClusterRegistrar.Proofs.KubeConfig
import ClusterRegistrar.Proofs.Naming
import ClusterRegistrar.Proofs.Value
import ClusterRegistrar.WorkloadCluster

/-! Workload clusters of secrets. A secret of texts is read or rejected with a reason, except for
the few contents on which the readers below give up without one. -/
namespace ClusterRegistrar

structure SourceSecret.IsTextual (s : SourceSecret) : Prop where
  name : ∃ t, s.name = .str t
  space : ∃ t, s.space = .str t
  labels : s.labels.IsTextMap
  data : s.data.IsTextMap

theorem SourceSecret.hasKubeconfigName_iff {s : SourceSecret} :
    s.hasKubeconfigName = .ok true ↔ ∃ base, s.name = .str (base ++ Naming.kubeconfigEnding) := by
  simp only [hasKubeconfigName, Except.bind_eq_ok]
  constructor
  · rintro ⟨t, ht, hends⟩
    obtain ⟨base, rfl⟩ := Affix.endsWith_iff.mp (Except.ok.inj hends)
    refine ⟨base, ?_⟩
    unfold Value.text at ht
    split at ht
    · cases ht
      assumption
    · cases ht
    · cases ht
  · rintro ⟨base, hname⟩
    refine ⟨base ++ Naming.kubeconfigEnding, by rw [hname]; rfl, ?_⟩
    exact congrArg Except.ok (Affix.endsWith_iff.mpr ⟨base, rfl⟩)

theorem SourceSecret.exists_id {s : SourceSecret} {name space : Text} (hname : s.name = .str name)
    (hspace : s.space = .str space) : s.identity.id = .ok (space ++ "/" ++ name) := by
  unfold identity NamespacedName.id
  rw [hname, hspace]
  rfl

def SourceSecret.ofContent (space name encoded : String) : SourceSecret where
  name := .str name
  space := .str space
  type := .str capiType
  data := .map [(.str "value", .str encoded)]

/-- An encoded kubeconfig: a cluster `a` at the server `b`, and a user without credentials. -/
def SourceSecret.plainContent : String :=
  "e2NsdXN0ZXJzOiBbe25hbWU6IGEsIGNsdXN0ZXI6IHtzZXJ2ZXI6IGJ9fV0sIHVzZXJzOiBbe25hbWU6IGN9XX0="

theorem SourceSecret.isTextual_ofContent (space name encoded : String) :
    (ofContent space name encoded).IsTextual where
  name := ⟨name, rfl⟩
  space := ⟨space, rfl⟩
  labels := ⟨[], rfl, by simp⟩
  data := ⟨_, rfl, by simp⟩

namespace WorkloadCluster

/-! ### Reading a secret -/

theorem result_ofSecret {s : SourceSecret} {base : Text} (hcapi : s.isCapi = true)
    (hname : s.name = .str (base ++ Naming.kubeconfigEnding)) :
    (ofSecret s).result = (do
      let doc ← document s
      let kubeConfig ← (KubeConfig.ofDocument doc).result
      return ⟨.str base, s.space, kubeConfig⟩) := by
  have hends : s.hasKubeconfigName = .ok true :=
    SourceSecret.hasKubeconfigName_iff.mpr ⟨base, hname⟩
  unfold ofSecret
  simp only [hcapi, hends, hname, Naming.baseName_str, Bool.not_true, Bool.false_eq_true, if_false,
    Run.result_bind, Run.result_ofFault, Run.result_ofExcept, Fault.lift_ok, Except.ok_bind]
  rfl

theorem hasKubeconfigName_of_ofSecret {s : SourceSecret} {w : WorkloadCluster}
    (h : (ofSecret s).result = .ok w) : s.isCapi = true ∧ s.hasKubeconfigName = .ok true := by
  unfold ofSecret at h
  cases hcapi : s.isCapi with
  | false =>
    simp only [hcapi, Bool.not_false, if_true, Run.result_bind_eq_ok, Run.result_ofExcept] at h
    obtain ⟨_, hrejected, -⟩ := h
    exact absurd hrejected (Failure.rejectWith_ne_ok _ _ _)
  | true =>
    simp only [hcapi, Bool.not_true, Bool.false_eq_true, if_false, Run.result_bind_eq_ok,
      Run.result_ofFault, Fault.lift_eq_ok] at h
    obtain ⟨named, hnamed, h⟩ := h
    cases named with
    | true => exact ⟨rfl, hnamed⟩
    | false =>
      simp only [Bool.not_false, if_true, Run.result_bind_eq_ok, Run.result_ofExcept] at h
      obtain ⟨_, hrejected, -⟩ := h
      exact absurd hrejected (Failure.rejectWith_ne_ok _ _ _)

theorem result_ofSecret_eq_ok {s : SourceSecret} {w : WorkloadCluster} :
    (ofSecret s).result = .ok w ↔
      s.isCapi = true ∧ ∃ base doc, s.name = .str (base ++ Naming.kubeconfigEnding) ∧
        document s = .ok doc ∧ (KubeConfig.ofDocument doc).result = .ok w.kubeConfig ∧
        w.name = .str base ∧ w.space = s.space := by
  constructor
  · intro h
    obtain ⟨hcapi, hends⟩ := hasKubeconfigName_of_ofSecret h
    obtain ⟨base, hname⟩ := SourceSecret.hasKubeconfigName_iff.mp hends
    rw [result_ofSecret hcapi hname] at h
    simp only [Except.bind_eq_ok] at h
    obtain ⟨doc, hdoc, k, hk, hw⟩ := h
    cases hw
    exact ⟨hcapi, base, doc, hname, hdoc, hk, rfl, rfl⟩
  · rintro ⟨hcapi, base, doc, hname, hdoc, hk, hbase, hspace⟩
    rw [result_ofSecret hcapi hname, hdoc, Except.ok_bind, hk, Except.ok_bind, ← hbase, ← hspace]
    rfl

/-! ### Secrets that are neither read nor rejected -/

/-- The kubeconfig of a secret is neither read nor rejected. -/
inductive Unreadable (s : SourceSecret) : Prop where
  /-- The encoded content has a code point outside ASCII. -/
  | wide {data : Entries} {t : Text} {p : CodePoint} (hdata : s.data.entries? = some data)
    (hvalue : data.field? "value" = some (.str t)) (hp : p ∈ t) (hwide : 128 ≤ p.number)
  /-- The content is YAML, and stands for a value that does not exist. -/
  | impossible {bytes : ByteArray} {f : Fault} (hcontent : content s = .ok bytes)
    (hread : Yaml.readOneEncoded bytes = .error (.fault f))
  | clusters {doc : Value} {fields : Entries} (hdoc : document s = .ok doc)
    (hfields : doc.entries? = some fields)
    (hlist : KubeConfig.Untellable .clusters KubeConfig.cluster? fields)
  | users {doc : Value} {fields : Entries} {clusters : List KubeCluster}
    (hdoc : document s = .ok doc) (hfields : doc.entries? = some fields)
    (hclusters : KubeConfig.read .clusters KubeConfig.cluster? fields = .ok clusters)
    (hlist : KubeConfig.Untellable .users KubeConfig.user? fields)

private theorem content_of_data {s : SourceSecret} {data : Entries} {id : Text}
    (hid : s.identity.id = .ok id) (hdata : s.data.entries? = some data) :
    content s =
      if (data.field "value").truthy then
        Fault.lift (data.field "value").decodeBase64 >>= fun
          | .ok bytes => .ok ⟨bytes.toArray⟩
          | .error _ => .error (.rejected (.undecodableKubeconfig id))
      else .error (.rejected (.missingKubeconfig id)) := by
  unfold content Value.fields
  rw [hdata, hid]
  simp only [Fault.lift_ok, Except.ok_bind]
  cases htruthy : (data.field "value").truthy with
  | true =>
    rw [if_neg (by decide), if_pos rfl]
    congr 1
  | false =>
    rw [if_pos (by decide), if_neg (by decide)]
    rfl

theorem content_fault_iff {s : SourceSecret} (hs : s.IsTextual) :
    (∃ f, content s = .error (.fault f)) ↔
      ∃ data t p, s.data.entries? = some data ∧ data.field? "value" = some (.str t) ∧ p ∈ t ∧
        128 ≤ p.number := by
  obtain ⟨name, hname⟩ := hs.name
  obtain ⟨space, hspace⟩ := hs.space
  obtain ⟨data, hdata, htexts⟩ := hs.data.exists_field
  rw [content_of_data (SourceSecret.exists_id hname hspace) hdata, hdata]
  cases hvalue : data.field? "value" with
  | none =>
    simp [Entries.field_of_missing hvalue, hvalue, Value.truthy, Value.atom?, Atom.truthy]
  | some value =>
    obtain ⟨t, rfl⟩ := htexts "value" value hvalue
    have hwide := Value.decodeBase64_error_iff (t := t)
    rw [Entries.field_of_field? hvalue]
    cases t with
    | nil => simp [hvalue, Value.truthy, Value.atom?, Atom.truthy]
    | cons p t =>
      have htruthy : (Value.str (p :: t)).truthy = true := rfl
      have hright : (∃ data' t' q, some data = some data' ∧ data'.field? "value" = some (.str t') ∧
          q ∈ t' ∧ 128 ≤ q.number) ↔ ∃ q ∈ p :: t, 128 ≤ q.number := by
        simp [hvalue]
      rw [if_pos htruthy, hright, ← hwide]
      cases Value.decodeBase64 (.str (p :: t)) with
      | error f => simp
      | ok decoded => cases decoded <;> simp

theorem document_fault_iff {s : SourceSecret} {id : Text} (hid : s.identity.id = .ok id) :
    (∃ f, document s = .error (.fault f)) ↔
      (∃ f, content s = .error (.fault f)) ∨
        ∃ bytes f, content s = .ok bytes ∧ Yaml.readOneEncoded bytes = .error (.fault f) := by
  unfold document
  rw [hid]
  cases content s with
  | error e => simp
  | ok bytes =>
    cases hread : Yaml.readOneEncoded bytes with
    | error trouble => cases trouble <;> simp [hread]
    | ok doc =>
      cases hentries : doc.entries? <;> simp [hread, hentries, pure, Except.pure]

theorem entries_of_document {s : SourceSecret} {doc : Value} (h : document s = .ok doc) :
    ∃ fields, doc.entries? = some fields := by
  unfold document at h
  obtain ⟨bytes, -, h⟩ := Except.bind_eq_ok.mp h
  split at h
  · exact absurd h (Failure.rejectWith_ne_ok _ _ _)
  · cases h
  · split at h
    · cases h
      exact Option.isSome_iff_exists.mp ‹_›
    · exact absurd h (Failure.rejectWith_ne_ok _ _ _)

/-- A secret of texts that should hold a kubeconfig is read or rejected, unless it is unreadable. -/
theorem ofSecret_fault_iff {s : SourceSecret} (hs : s.IsTextual) (hcapi : s.isCapi = true)
    (hnamed : s.hasKubeconfigName = .ok true) :
    (∃ f, (ofSecret s).result = .error (.fault f)) ↔ Unreadable s := by
  obtain ⟨base, hname⟩ := SourceSecret.hasKubeconfigName_iff.mp hnamed
  obtain ⟨space, hspace⟩ := hs.space
  rw [result_ofSecret hcapi hname]
  simp only [Except.bind_eq_error, pure, Except.pure, reduceCtorEq, and_false, exists_false,
    or_false]
  constructor
  · rintro ⟨f, hdoc | ⟨doc, hdoc, hk⟩⟩
    · rcases (document_fault_iff (SourceSecret.exists_id hname hspace)).mp ⟨f, hdoc⟩ with
        hcontent | ⟨bytes, f, hcontent, hread⟩
      · obtain ⟨data, t, p, hdata, hvalue, hp, hwide⟩ := (content_fault_iff hs).mp hcontent
        exact .wide hdata hvalue hp hwide
      · exact .impossible hcontent hread
    · obtain ⟨fields, hfields⟩ := entries_of_document hdoc
      rcases (KubeConfig.ofDocument_fault_iff hfields).mp ⟨f, hk⟩ with hlist | ⟨⟨cs, hcs⟩, hlist⟩
      · exact .clusters hdoc hfields hlist
      · exact .users hdoc hfields hcs hlist
  · have hdocument := document_fault_iff (SourceSecret.exists_id hname hspace)
    rintro (⟨hdata, hvalue, hp, hwide⟩ | ⟨hcontent, hread⟩ | ⟨hdoc, hfields, hlist⟩ |
      ⟨hdoc, hfields, hclusters, hlist⟩)
    · have hcontent := (content_fault_iff hs).mpr ⟨_, _, _, hdata, hvalue, hp, hwide⟩
      obtain ⟨f, hf⟩ := hdocument.mpr (.inl hcontent)
      exact ⟨f, .inl hf⟩
    · obtain ⟨f, hf⟩ := hdocument.mpr (.inr ⟨_, _, hcontent, hread⟩)
      exact ⟨f, .inl hf⟩
    · obtain ⟨f, hf⟩ := (KubeConfig.ofDocument_fault_iff hfields).mpr (.inl hlist)
      exact ⟨f, .inr ⟨_, hdoc, hf⟩⟩
    · obtain ⟨f, hf⟩ := (KubeConfig.ofDocument_fault_iff hfields).mpr (.inr ⟨⟨_, hclusters⟩, hlist⟩)
      exact ⟨f, .inr ⟨_, hdoc, hf⟩⟩

/-- The parts of the workload cluster of a secret: the name without its ending, and the first
cluster and user of the kubeconfig. -/
structure Parts (s : SourceSecret) (w : WorkloadCluster) (base : Text) (cluster : KubeCluster)
    (user : KubeUser) : Prop where
  secretName : s.name = .str (base ++ Naming.kubeconfigEnding)
  name : w.name = .str base
  space : w.space = s.space
  firstCluster : w.kubeConfig.clusters.head? = some cluster
  firstUser : w.kubeConfig.users.head? = some user
  textualCluster : cluster.IsTextual
  textualUser : user.IsTextual

theorem exists_parts {s : SourceSecret} {w : WorkloadCluster} (h : (ofSecret s).result = .ok w) :
    ∃ base cluster user, Parts s w base cluster user := by
  obtain ⟨-, base, doc, hsecret, -, hk, hname, hspace⟩ := result_ofSecret_eq_ok.mp h
  obtain ⟨hclusters, husers⟩ := KubeConfig.isTextual_of_ofDocument hk
  obtain ⟨fields, -, -, -, hsome, hany⟩ := KubeConfig.result_ofDocument_eq_ok hk
  obtain ⟨cluster, moreClusters, hcluster⟩ := List.exists_cons_of_ne_nil hsome
  obtain ⟨user, moreUsers, huser⟩ := List.exists_cons_of_ne_nil hany
  refine ⟨base, cluster, user, hsecret, hname, hspace, ?_, ?_, ?_, ?_⟩
  · rw [hcluster, List.head?_cons]
  · rw [huser, List.head?_cons]
  · exact hclusters cluster (hcluster ▸ List.mem_cons_self)
  · exact husers user (huser ▸ List.mem_cons_self)

theorem logs_ofSecret (s : SourceSecret) : (ofSecret s).Logs Record.IsDetail := by
  unfold ofSecret
  refine Run.logs_when (Run.logs_ofExcept _) ?_
  refine Run.logs_bind (Run.logs_ofExcept _) fun named => ?_
  refine Run.logs_when (Run.logs_ofExcept _) ?_
  refine Run.logs_bind (Run.logs_ofExcept _) fun doc => ?_
  refine Run.logs_bind (Run.logs_ofExcept _) fun base => ?_
  exact Run.logs_bind (KubeConfig.logs_ofDocument doc) fun k => Run.logs_pure _

end WorkloadCluster
end ClusterRegistrar
