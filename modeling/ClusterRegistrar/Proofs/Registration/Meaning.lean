import ClusterRegistrar.Proofs.Registration.Safety

/-! What a registering secret means. Its names are built from the names of its source and of the
first cluster, and its configuration, read as JSON, has exactly the credentials of the first cluster
and the first user. -/
namespace ClusterRegistrar.Registration

open Credentials (readText? readFields)

/-- What is found in a configuration for an optional text. Halves of a character that stand together
are read as the character, so a text of whole characters is found as it is. -/
structure ReadBack (v : Value) (found? : Option Json) : Prop where
  absent : v = .null → found? = none
  joined : ∀ t, v = .str t → found? = some (.str t.joined)
  scalar : ∀ t, v = .str t → t.IsScalar → found? = some (.str t)

theorem ReadBack.of_eq {v : Value} {found? : Option Json}
    (h : found? = (readText? v).map .str) : ReadBack v found? where
  absent := by
    rintro rfl
    exact h
  joined := by
    rintro t rfl
    exact h
  scalar := by
    rintro t rfl ht
    rw [h, Credentials.readText?_of_isScalar ht]
    rfl

/-- What a configuration is to hold for a cluster and a user: the fields whose texts are there, and
no others. -/
structure Configures (fields : List (Text × Json)) (cluster : KubeCluster) (user : KubeUser) :
    Prop where
  names : ∀ field ∈ fields, field.1 = "tlsClientConfig" ∨ field.1 = "bearerToken"
  distinct : (fields.map Prod.fst).Nodup
  bearerToken : ReadBack user.token (Json.field? fields "bearerToken")
  noTls : cluster.caData = .null ∧ user.certData = .null ∧ user.keyData = .null →
    Json.field? fields "tlsClientConfig" = none
  tls : ¬(cluster.caData = .null ∧ user.certData = .null ∧ user.keyData = .null) →
    ∃ tls, Json.field? fields "tlsClientConfig" = some (.obj tls) ∧
      (∀ field ∈ tls, field.1 = "caData" ∨ field.1 = "certData" ∨ field.1 = "keyData") ∧
      (tls.map Prod.fst).Nodup ∧
      ReadBack cluster.caData (Json.field? tls "caData") ∧
      ReadBack user.certData (Json.field? tls "certData") ∧
      ReadBack user.keyData (Json.field? tls "keyData")

theorem tls_credentialsOf (cluster : KubeCluster) (user : KubeUser) :
    (credentialsOf cluster user).tls = none ∧
        (cluster.caData = .null ∧ user.certData = .null ∧ user.keyData = .null) ∨
      (credentialsOf cluster user).tls = some ⟨cluster.caData, user.certData, user.keyData⟩ ∧
        ¬(cluster.caData = .null ∧ user.certData = .null ∧ user.keyData = .null) := by
  unfold credentialsOf TlsCredentials.ofParts
  split
  · rename_i hca hcert hkey
    exact .inl ⟨rfl, hca, hcert, hkey⟩
  · rename_i hparts
    exact .inr ⟨rfl, fun ⟨hca, hcert, hkey⟩ => hparts hca hcert hkey⟩

private theorem tlsParts_eq (caData certData keyData : Value) :
    Credentials.tlsParts ⟨caData, certData, keyData⟩ =
      [(("caData" : Text), caData), ("certData", certData), ("keyData", keyData)] := rfl

private theorem names_nodup :
    [("caData" : Text), "certData", "keyData"].Nodup ∧
      ("bearerToken" : Text) ≠ "tlsClientConfig" := by
  decide

private theorem configures_credentials (cluster : KubeCluster) (user : KubeUser) :
    Configures (credentialsOf cluster user).readBack cluster user := by
  obtain ⟨hparts, hnames⟩ := names_nodup
  have hsingle : ([(("bearerToken" : Text), user.token)].map Prod.fst).Nodup :=
    List.nodup_cons.mpr ⟨List.not_mem_nil, List.nodup_nil⟩
  have htoken : Json.field? (readFields [("bearerToken", user.token)]) "bearerToken" =
      (readText? user.token).map .str := Credentials.field?_readFields hsingle List.mem_cons_self
  have hname : ∀ field ∈ readFields [("bearerToken", user.token)], field.1 = "bearerToken" := by
    intro field hfield
    exact List.mem_singleton.mp (Credentials.name_of_mem_readFields hfield)
  have hdistinct : ((readFields [("bearerToken", user.token)]).map Prod.fst).Nodup :=
    Credentials.nodup_readFields hsingle
  rcases tls_credentialsOf cluster user with ⟨htls, hnull⟩ | ⟨htls, hsome⟩
  · rw [Credentials.readBack, htls]
    constructor
    · exact fun field hfield => .inr (hname field hfield)
    · exact hdistinct
    · exact .of_eq htoken
    · intro _
      refine List.lookup_eq_none_iff.mpr fun field hfield => ?_
      rw [hname field hfield]
      exact bne_iff_ne.mpr hnames.symm
    · exact fun hsome => absurd hnull hsome
  · rw [Credentials.readBack, htls]
    constructor
    · intro field hfield
      rcases List.mem_cons.mp hfield with rfl | hfield
      · exact .inl rfl
      · exact .inr (hname field hfield)
    · refine List.nodup_cons.mpr ⟨fun hmem => ?_, hdistinct⟩
      obtain ⟨field, hfield, heq⟩ := List.mem_map.mp hmem
      exact hnames ((hname field hfield).symm.trans heq)
    · show ReadBack _ (List.lookup _ (_ :: readFields [("bearerToken", user.token)]))
      rw [List.lookup_cons, beq_eq_false_iff_ne.mpr hnames]
      exact .of_eq htoken
    · exact fun hnull => absurd hnull hsome
    · intro _
      refine ⟨_, List.lookup_cons_self, ?_⟩
      rw [tlsParts_eq]
      have hfield (part : Text × Value)
          (hpart : part ∈ [(("caData" : Text), cluster.caData), ("certData", user.certData),
            ("keyData", user.keyData)]) :
          ReadBack part.2 (Json.field? (readFields [(("caData" : Text), cluster.caData),
            ("certData", user.certData), ("keyData", user.keyData)]) part.1) :=
        .of_eq (Credentials.field?_readFields (by exact hparts) hpart)
      refine ⟨fun field hfield => ?_, Credentials.nodup_readFields (by exact hparts),
        hfield ("caData", _) (by simp), hfield ("certData", _) (by simp),
        hfield ("keyData", _) (by simp)⟩
      have hknown := Credentials.name_of_mem_readFields hfield
      simpa using hknown

theorem exists_configuration {cluster : KubeCluster} {user : KubeUser}
    (hcluster : cluster.IsTextual) (huser : user.IsTextual) :
    ∃ config fields, (credentialsOf cluster user).encode = .ok config ∧
      Json.ofText? config = some (.obj fields) ∧ Configures fields cluster user := by
  obtain ⟨config, hconfig, hread⟩ :=
    Credentials.ofText?_encode (isTextual_credentialsOf hcluster huser)
  exact ⟨config, _, hconfig, hread, configures_credentials cluster user⟩

/-- What is registered for a workload cluster that was read from a secret. The registration exists
exactly if the names of the source cluster have texts, and its secret exactly if the name and the
server of the first cluster can be written in UTF-8. The identity of the secret depends on the
settings and the names of the source alone, and its data on the first cluster and the first user:
what is taken along has no part in either. -/
theorem secret_meaning {s : SourceSecret} {w : WorkloadCluster} {space : Text}
    (hspace : s.space = .str space) (hw : (WorkloadCluster.ofSecret s).result = .ok w)
    (settings : Settings) {cluster? : Option SourceCluster}
    (hkeys : ∀ c, cluster? = some c → c.HasTextKeys) :
    ∃ base cluster user name server, w.Parts s base cluster user ∧ cluster.name = .str name ∧
      cluster.server = .str server ∧
      ((∃ registered, (ofWorkload settings w s cluster?).result = .ok registered) ↔
        ∀ c, cluster? = some c → c.HasShownNames) ∧
      ∀ r problems, (ofWorkload settings w s cluster?).result = .ok (r, problems) →
        ((∃ g, r.toSecret false = .ok g) ↔
          (Naming.qualified settings space name).IsScalar ∧ server.IsScalar) ∧
        ∀ g, r.toSecret false = .ok g →
          g.space = settings.argoNamespace ∧
          g.name = .str ("cluster-" ++ Naming.qualified settings space base) ∧
          ∃ nameBytes serverBytes config fields,
            g.data = [(("name" : Text), nameBytes), ("server", serverBytes),
              ("config", config.toUTF8)] ∧
            (Naming.qualified settings space name).utf8? = some nameBytes ∧
            server.utf8? = some serverBytes ∧
            Json.ofText? config = some (.obj fields) ∧ Configures fields cluster user := by
  obtain ⟨base, cluster, user, hparts⟩ := WorkloadCluster.exists_parts hw
  obtain ⟨name, hname⟩ := hparts.textualCluster.name
  obtain ⟨server, hserver⟩ := hparts.textualCluster.server
  obtain ⟨config, fields, hconfig, hread, hfields⟩ :=
    exists_configuration hparts.textualCluster hparts.textualUser
  refine ⟨base, cluster, user, name, server, hparts, hname, hserver,
    exists_ofWorkload_iff hw hspace settings hkeys, fun r problems hr => ?_⟩
  obtain ⟨taken, htaken⟩ := exists_takeAlong_of_ofWorkload hr
  rw [ofWorkload_eq hparts hspace hname htaken settings] at hr
  cases hr
  refine ⟨exists_toSecret_ofParts_iff hparts.textualCluster hparts.textualUser hserver,
    fun g hg => ?_⟩
  obtain ⟨config', nameBytes, serverBytes, hconfig', hnameBytes, hserverBytes, rfl⟩ :=
    (toSecret_ofParts_eq_ok hserver).mp hg
  cases hconfig.symm.trans hconfig'
  exact ⟨rfl, rfl, nameBytes, serverBytes, config, fields, rfl, hnameBytes, hserverBytes, hread,
    hfields⟩

def bareSource : SourceSecret := .ofContent "ns" "p-kubeconfig" SourceSecret.plainContent

def bareCluster : SourceCluster :=
  { name := "p", space := "ns", labels := .map [(.str "take-along-label.capi-to-argocd.x", "")] }

theorem secret_meaning_bareSource : ∃ w r problems g,
    (WorkloadCluster.ofSecret bareSource).result = .ok w ∧ bareCluster.HasTextKeys ∧
      (ofWorkload { namespacedNames := true } w bareSource bareCluster).result = .ok (r, problems) ∧
      r.toSecret false = .ok g ∧ g.name = .str "cluster-ns-p" := by
  obtain ⟨w, hw, htest⟩ : ∃ w, (WorkloadCluster.ofSecret bareSource).result = .ok w ∧
      (w.kubeConfig.clusters.head?.any fun c => c.name.isText "a" && c.server.isText "b") = true :=
    Except.exists_of_any (by decide +kernel)
  have hkeys : bareCluster.HasTextKeys := ⟨⟨_, rfl, by simp⟩, ⟨_, rfl, by simp⟩⟩
  obtain ⟨base, cluster, user, name, server, hparts, hname, hserver, hexists, hmeaning⟩ :=
    secret_meaning rfl hw { namespacedNames := true } fun c hc => Option.some.inj hc ▸ hkeys
  obtain ⟨⟨r, problems⟩, hr⟩ := hexists.mpr fun c hc =>
    Option.some.inj hc ▸ ⟨⟨_, rfl⟩, ⟨_, rfl⟩⟩
  obtain ⟨hsecret, hmeaning⟩ := hmeaning r problems hr
  rw [hparts.firstCluster, Option.any_some, Bool.and_eq_true, Value.isText_iff, Value.isText_iff,
    hname, hserver] at htest
  cases htest.1
  cases htest.2
  have hbase : ("p" : Text) = base := Naming.base_unique hparts.secretName
  subst hbase
  obtain ⟨g, hg⟩ := hsecret.mpr ⟨⟨"ns-a".toList, by decide⟩, ⟨"b".toList, rfl⟩⟩
  refine ⟨w, r, problems, g, hw, hkeys, hr, hg, ?_⟩
  rw [(hmeaning g hg).2.1]
  rfl

/-- The token of the user is written as two escapes, one for each half of a surrogate pair. -/
def halvedSource : SourceSecret := .ofContent "ns" "p-kubeconfig"
  ("e2NsdXN0ZXJzOiBbe25hbWU6IGEsIGNsdXN0ZXI6IHtzZXJ2ZXI6IGJ9fV0sIHVzZXJzOiBb" ++
    "e25hbWU6IGMsIHVzZXI6IHt0b2tlbjogIlx1ZDgzZFx1ZGUwMCJ9fV19")

/-- The two halves are read back from the configuration as one character. -/
theorem halved_token_joined : ∃ w user token r problems g config fields,
    (WorkloadCluster.ofSecret halvedSource).result = .ok w ∧
      w.kubeConfig.users.head? = some user ∧ user.token = .str token ∧
      (ofWorkload {} w halvedSource none).result = .ok (r, problems) ∧
      r.toSecret false = .ok g ∧ g.dataAt? "config" = some config.toUTF8 ∧
      Json.ofText? config = some (.obj fields) ∧
      Json.field? fields "bearerToken" ≠ some (.str token) := by
  obtain ⟨w, hw, htest⟩ : ∃ w, (WorkloadCluster.ofSecret halvedSource).result = .ok w ∧
      ((w.kubeConfig.clusters.head?.any fun c => c.name.isText "a" && c.server.isText "b") &&
        (w.kubeConfig.users.head?.any fun u =>
          u.token.isText [.surrogate 0x3d, .surrogate 0x600])) = true :=
    Except.exists_of_any (by decide +kernel)
  obtain ⟨base, cluster, user, hparts⟩ := WorkloadCluster.exists_parts hw
  simp only [hparts.firstCluster, hparts.firstUser, Option.any_some, Bool.and_eq_true,
    Value.isText_iff] at htest
  obtain ⟨⟨hname, hserver⟩, htoken⟩ := htest
  obtain ⟨config, fields, hconfig, hread, hfields⟩ :=
    exists_configuration hparts.textualCluster hparts.textualUser
  have hbytes (c : Char) : Text.utf8? [.char c] = some (String.ofList [c]).toUTF8 := rfl
  refine ⟨w, user, _, _, _, _, config, fields, hw, hparts.firstUser, htoken,
    ofWorkload_eq hparts rfl hname rfl {},
    (toSecret_ofParts_eq_ok hserver).mpr ⟨config, _, _, hconfig, hbytes 'a', hbytes 'b', rfl⟩, rfl,
    hread, ?_⟩
  rw [hfields.bearerToken.joined _ htoken]
  intro heq
  have hjoined : Text.joined [.surrogate 0x3d, .surrogate 0x600] =
      [.surrogate 0x3d, .surrogate 0x600] := Json.str.inj (Option.some.inj heq)
  revert hjoined
  decide

end ClusterRegistrar.Registration
