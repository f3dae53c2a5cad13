import ClusterRegistrar.Proofs.Registration

/-! What can keep a workload cluster that was read from being registered. A kubeconfig that is read has
a first cluster and a first user, and texts wherever text is needed, so neither the selection of the
two nor the encoding of their credentials fails, whatever the document held. Requests that cannot be
met are reported and stop nothing. All that is left are names that cannot be written: that of the
source cluster in a report, and those of the first cluster in UTF-8. -/
namespace ClusterRegistrar

structure SourceCluster.HasTextKeys (c : SourceCluster) : Prop where
  labels : c.labels.HasTextKeys
  annotations : c.annotations.HasTextKeys

structure SourceCluster.HasShownNames (c : SourceCluster) : Prop where
  name : ∃ t, c.name.shown = .ok t
  space : ∃ t, c.space.shown = .ok t

namespace Registration

open TakeAlong (Faulty)

/-! ### Requests -/

/-- The problems that are reported for a cluster are those of its requests, for labels and for
annotations. -/
def Reports (problems : List TakeAlong.Problem) : Option SourceCluster → Prop
  | none => problems = []
  | some c => ∃ name space labels annotations, c.name.shown = .ok name ∧ c.space.shown = .ok space ∧
    c.labels.entries? = some labels ∧ c.annotations.entries? = some annotations ∧
    ∀ p, p ∈ problems ↔
      Faulty "label" labels (some (name ++ ", namespace: " ++ space)) p ∨
        Faulty "annotation" annotations (some (name ++ ", namespace: " ++ space)) p

theorem result_takeAlong_of_textKeys {c : SourceCluster} {labels annotations : Entries}
    (hlabels : c.labels.entries? = some labels)
    (hlabelKeys : ∀ entry ∈ labels, ∃ t, entry.1 = .str t)
    (hannotations : c.annotations.entries? = some annotations)
    (hannotationKeys : ∀ entry ∈ annotations, ∃ t, entry.1 = .str t) :
    (takeAlong (some c)).result = (do
      let name ← Fault.lift c.name.shown
      let space ← Fault.lift c.space.shown
      let resource := some (name ++ ", namespace: " ++ space)
      return (TakeAlong.outcome "label" labels resource,
        TakeAlong.outcome "annotation" annotations resource)) := by
  simp only [result_takeAlong, TakeAlong.result_collect hlabels hlabelKeys,
    TakeAlong.result_collect hannotations hannotationKeys, Except.ok_bind]
  rfl

theorem reports_of_takeAlong {cluster? : Option SourceCluster}
    (hkeys : ∀ c, cluster? = some c → c.HasTextKeys)
    {taken : TakeAlong.Outcome × TakeAlong.Outcome}
    (h : (takeAlong cluster?).result = .ok taken) :
    Reports (taken.1.problems ++ taken.2.problems) cluster? := by
  cases cluster? with
  | none =>
    cases h
    rfl
  | some c =>
    obtain ⟨⟨labels, hlabels, hlabelKeys⟩, ⟨annotations, hannotations, hannotationKeys⟩⟩ :=
      hkeys c rfl
    simp only [result_takeAlong_of_textKeys hlabels hlabelKeys hannotations hannotationKeys,
      Except.bind_eq_ok, Fault.lift_eq_ok] at h
    obtain ⟨name, hname, space, hspace, htaken⟩ := h
    cases htaken
    refine ⟨name, space, labels, annotations, hname, hspace, hlabels, hannotations, fun p => ?_⟩
    rw [List.mem_append, TakeAlong.mem_problems_outcome, TakeAlong.mem_problems_outcome]

theorem exists_takeAlong_iff {cluster? : Option SourceCluster}
    (hkeys : ∀ c, cluster? = some c → c.HasTextKeys) :
    (∃ taken, (takeAlong cluster?).result = .ok taken) ↔
      ∀ c, cluster? = some c → c.HasShownNames := by
  constructor
  · rintro ⟨taken, h⟩ c rfl
    simp only [result_takeAlong, Except.bind_eq_ok, Fault.lift_eq_ok] at h
    obtain ⟨name, hname, space, hspace, -⟩ := h
    exact ⟨⟨name, hname⟩, ⟨space, hspace⟩⟩
  · intro hnames
    refine exists_takeAlong fun c hc => ?_
    exact ⟨(hnames c hc).name, (hnames c hc).space, (hkeys c hc).labels, (hkeys c hc).annotations⟩

theorem fault_of_takeAlong {cluster? : Option SourceCluster}
    (hkeys : ∀ c, cluster? = some c → c.HasTextKeys) {e : Failure}
    (h : (takeAlong cluster?).result = .error e) :
    ∃ c f, cluster? = some c ∧ e = .fault f ∧
      (c.name.shown = .error f ∨ c.space.shown = .error f) := by
  cases cluster? with
  | none => cases h
  | some c =>
    obtain ⟨⟨labels, hlabels, hlabelKeys⟩, ⟨annotations, hannotations, hannotationKeys⟩⟩ :=
      hkeys c rfl
    rw [result_takeAlong_of_textKeys hlabels hlabelKeys hannotations hannotationKeys] at h
    cases hname : c.name.shown with
    | error f =>
      rw [hname] at h
      cases h
      exact ⟨c, f, rfl, rfl, .inl hname⟩
    | ok name =>
      cases hspace : c.space.shown with
      | error f =>
        rw [hname, hspace] at h
        cases h
        exact ⟨c, f, rfl, rfl, .inr hspace⟩
      | ok space =>
        rw [hname, hspace] at h
        cases h

/-- What is taken along is all that can keep a workload cluster from being registered. -/
theorem exists_ofWorkload_iff {s : SourceSecret} {w : WorkloadCluster} {space : Text}
    (hw : (WorkloadCluster.ofSecret s).result = .ok w) (hspace : s.space = .str space)
    (settings : Settings) {cluster? : Option SourceCluster}
    (hkeys : ∀ c, cluster? = some c → c.HasTextKeys) :
    (∃ registered, (ofWorkload settings w s cluster?).result = .ok registered) ↔
      ∀ c, cluster? = some c → c.HasShownNames := by
  rw [← exists_takeAlong_iff hkeys]
  constructor
  · rintro ⟨registered, h⟩
    exact exists_takeAlong_of_ofWorkload h
  · rintro ⟨taken, htaken⟩
    obtain ⟨base, cluster, user, hparts⟩ := WorkloadCluster.exists_parts hw
    obtain ⟨name, hname⟩ := hparts.textualCluster.name
    exact ⟨_, ofWorkload_eq hparts hspace hname htaken settings⟩

/-! ### Secrets -/

theorem utf8_eq_error {t : Text} {f : Fault} (h : utf8 (.str t) = .error f) : f = .notEncodable := by
  cases ht : t.utf8? with
  | none =>
    simp only [utf8, ht] at h
    exact (Except.error.inj h).symm
  | some bytes =>
    simp only [utf8, ht] at h
    cases h

/-- Of a registration from texts, only the two names that are written in UTF-8 can fail. -/
theorem toSecret_ofParts_eq_error {settings : Settings} {base space name server : Text}
    {cluster : KubeCluster} {user : KubeUser} {labels annotations : Entries}
    (hcluster : cluster.IsTextual) (huser : user.IsTextual)
    (hserver : cluster.server = .str server) {e : Failure}
    (h : (ofParts settings base space name cluster user labels annotations).toSecret false =
      .error e) : e = .fault .notEncodable := by
  have hlabels : (ofParts settings base space name cluster user labels annotations).mergedLabels =
      .ok ((Keyed.putAll commonLabels (sourceLabelsOf
        (.str (base ++ Naming.kubeconfigEnding)) (.str space))).putAll labels) :=
    mergedLabels_eq rfl rfl
  have hconfig : (ofParts settings base space name cluster user labels annotations).credentials.encode =
      .ok _ := Credentials.encode_eq (isTextual_credentialsOf hcluster huser)
  have hbytes {t : Text} {e : Failure} (he : Fault.lift (utf8 (.str t)) = .error e) :
      e = .fault .notEncodable := by
    obtain ⟨f, hf, rfl⟩ := Fault.lift_eq_error.mp he
    rw [utf8_eq_error hf]
  simp only [toSecret, Bool.false_eq_true, if_false, hconfig, hlabels, Fault.lift_ok,
    Except.ok_bind, Except.bind_eq_error] at h
  rcases h with hname | ⟨_, -, hrest | ⟨_, -, hok⟩⟩
  · exact hbytes hname
  · rw [ofParts, hserver] at hrest
    exact hbytes hrest
  · cases hok

/-- A workload cluster that was read is registered, up to names that cannot be written: the first
cluster and the first user are there and their credentials are encoded, whatever the kubeconfig held.
What is asked for in vain is reported with the registration. The registration exists exactly if the
names of the source cluster have texts, and its secret exactly if the name and the server of the
first cluster can be written in UTF-8. -/
theorem registers_iff_names_written {s : SourceSecret} {w : WorkloadCluster} {space : Text}
    (hspace : s.space = .str space) (hw : (WorkloadCluster.ofSecret s).result = .ok w)
    (settings : Settings) {cluster? : Option SourceCluster}
    (hkeys : ∀ c, cluster? = some c → c.HasTextKeys) :
    ∃ cluster user name server, w.kubeConfig.cluster = .ok cluster ∧
      w.kubeConfig.user = .ok user ∧ cluster.name = .str name ∧ cluster.server = .str server ∧
      (∃ config, (credentialsOf cluster user).encode = .ok config) ∧
      ((∃ registered, (ofWorkload settings w s cluster?).result = .ok registered) ↔
        ∀ c, cluster? = some c → c.HasShownNames) ∧
      (∀ e, (ofWorkload settings w s cluster?).result = .error e →
        ∃ c f, cluster? = some c ∧ e = .fault f ∧
          (c.name.shown = .error f ∨ c.space.shown = .error f)) ∧
      ∀ r problems, (ofWorkload settings w s cluster?).result = .ok (r, problems) →
        Reports problems cluster? ∧
        ((∃ g, r.toSecret false = .ok g) ↔
          (Naming.qualified settings space name).IsScalar ∧ server.IsScalar) ∧
        ∀ e, r.toSecret false = .error e → e = .fault .notEncodable := by
  obtain ⟨base, cluster, user, hparts⟩ := WorkloadCluster.exists_parts hw
  obtain ⟨name, hname⟩ := hparts.textualCluster.name
  obtain ⟨server, hserver⟩ := hparts.textualCluster.server
  have hencode := Credentials.encode_eq
    (isTextual_credentialsOf hparts.textualCluster hparts.textualUser)
  refine ⟨cluster, user, name, server, KubeConfig.cluster_eq_ok.mpr hparts.firstCluster,
    KubeConfig.user_eq_ok.mpr hparts.firstUser, hname, hserver,
    ⟨_, hencode⟩, exists_ofWorkload_iff hw hspace settings hkeys, fun e he => ?_,
    fun r problems hr => ?_⟩
  · cases htaken : (takeAlong cluster?).result with
    | ok taken =>
      rw [ofWorkload_eq hparts hspace hname htaken settings] at he
      cases he
    | error e' =>
      rw [result_ofWorkload, htaken, Except.error_bind] at he
      cases he
      exact fault_of_takeAlong hkeys htaken
  · obtain ⟨taken, htaken⟩ := exists_takeAlong_of_ofWorkload hr
    rw [ofWorkload_eq hparts hspace hname htaken settings] at hr
    cases hr
    refine ⟨reports_of_takeAlong hkeys htaken,
      exists_toSecret_ofParts_iff hparts.textualCluster hparts.textualUser hserver, fun e he => ?_⟩
    exact toSecret_ofParts_eq_error hparts.textualCluster hparts.textualUser hserver he

/-- Its kubeconfig has a number, a null and a list where text is needed. -/
def oddSource : SourceSecret := .ofContent "ns" "p-kubeconfig"
  ("e2NsdXN0ZXJzOiBbe25hbWU6IDEyLCBjbHVzdGVyOiB7c2VydmVyOiBudWxsLCBjZXJ0aWZpY2F0ZS1hdXRob3JpdH" ++
    "ktZGF0YTogW3gsIHt5OiB0cnVlfV19fV0sIHVzZXJzOiBbe25hbWU6IG51bGx9XX0=")

def vainCluster : SourceCluster where
  name := "p"
  space := .null
  labels := .map [(.str "take-along-label.capi-to-argocd.x", .str "")]
  annotations := .map [(.str "take-along-annotation.capi-to-argocd.", .str ""),
    (.str "take-along-annotation.capi-to-argocd.y", .str "")]

theorem oddSource_registered : ∃ w r problems g,
    (WorkloadCluster.ofSecret oddSource).result = .ok w ∧ vainCluster.HasTextKeys ∧
      (ofWorkload {} w oddSource vainCluster).result = .ok (r, problems) ∧
      .missingTarget "label" "x" (some "p, namespace: None") ∈ problems ∧
      .malformedKey "annotation" "take-along-annotation.capi-to-argocd." ∈ problems ∧
      r.toSecret false = .ok g := by
  obtain ⟨w, hw, htest⟩ : ∃ w, (WorkloadCluster.ofSecret oddSource).result = .ok w ∧
      (w.kubeConfig.clusters.head?.any fun c => c.name.isText "12" && c.server.isText "None") =
        true :=
    Except.exists_of_any (by decide +kernel)
  have hkeys : vainCluster.HasTextKeys := ⟨⟨_, rfl, by simp⟩, ⟨_, rfl, by simp⟩⟩
  obtain ⟨cluster, user, name, server, hcluster, -, hname, hserver, -, hexists, -, hregistered⟩ :=
    registers_iff_names_written rfl hw {} fun c hc => Option.some.inj hc ▸ hkeys
  obtain ⟨⟨r, problems⟩, hr⟩ := hexists.mpr fun c hc =>
    Option.some.inj hc ▸ ⟨⟨_, rfl⟩, ⟨_, rfl⟩⟩
  obtain ⟨hreports, hsecret, -⟩ := hregistered r problems hr
  obtain ⟨_, _, _, _, hshownName, hshownSpace, hlabels, hannotations, hproblems⟩ := hreports
  cases hshownName
  cases hshownSpace
  cases hlabels
  cases hannotations
  rw [KubeConfig.cluster_eq_ok.mp hcluster, Option.any_some, Bool.and_eq_true,
    Value.isText_iff, Value.isText_iff, hname, hserver] at htest
  cases htest.1
  cases htest.2
  obtain ⟨g, hg⟩ := hsecret.mpr ⟨⟨"12".toList, rfl⟩, ⟨"None".toList, rfl⟩⟩
  refine ⟨w, r, problems, g, hw, hkeys, hr, ?_, ?_, hg⟩
  · exact (hproblems _).mpr (.inl (.missing (by decide) (by decide) (by decide)))
  · exact (hproblems _).mpr (.inr (.bare (by decide)))

/-! ### Names that cannot be written -/

/-- The name of the first cluster is half of a character. -/
def halvedNameSource : SourceSecret := .ofContent "ns" "p-kubeconfig"
  ("e2NsdXN0ZXJzOiBbe25hbWU6ICJcdWQ4MDAiLCBjbHVzdGVyOiB7c2VydmVyOiBifX1dLCB1c2VyczogW3tuYW1l" ++
    "OiBjfV19")

def longNumber : Int := .ofNat (Nat.pow 10 Numeral.maxDecimal)

theorem written_longNumber : Numeral.written longNumber = .error .longNumeral := by
  -- Said of every exponent, so that the power is never computed.
  have hlong (n : Nat) : Nat.pow 10 n ≤ (Int.ofNat (Nat.pow 10 n)).natAbs := Nat.le_refl _
  exact Numeral.written_eq_error (hlong Numeral.maxDecimal)

def plainSource : SourceSecret := .ofContent "ns" "p-kubeconfig" SourceSecret.plainContent

def longNamedCluster : SourceCluster where
  name := .int longNumber
  space := "ns"

theorem unwritable_names_stop :
    (∃ w r problems, (WorkloadCluster.ofSecret halvedNameSource).result = .ok w ∧
      (ofWorkload {} w halvedNameSource none).result = .ok (r, problems) ∧
      r.toSecret false = .error (.fault .notEncodable)) ∧
    ∃ w, (WorkloadCluster.ofSecret plainSource).result = .ok w ∧ longNamedCluster.HasTextKeys ∧
      (ofWorkload {} w plainSource longNamedCluster).result = .error (.fault .longNumeral) := by
  constructor
  · obtain ⟨w, hw, htest⟩ : ∃ w, (WorkloadCluster.ofSecret halvedNameSource).result = .ok w ∧
        (w.kubeConfig.clusters.head?.any fun c => c.name.isText [.surrogate 0]) = true :=
      Except.exists_of_any (by decide +kernel)
    obtain ⟨base, cluster, user, hparts⟩ := WorkloadCluster.exists_parts hw
    rw [hparts.firstCluster, Option.any_some, Value.isText_iff] at htest
    obtain ⟨config, hconfig⟩ : ∃ config, (credentialsOf cluster user).encode = .ok config :=
      ⟨_, Credentials.encode_eq (isTextual_credentialsOf hparts.textualCluster hparts.textualUser)⟩
    refine ⟨w, _, _, hw, ofWorkload_eq hparts rfl htest rfl {}, ?_⟩
    simp only [toSecret, ofParts, hconfig]
    rfl
  · obtain ⟨w, hw, -⟩ : ∃ w, (WorkloadCluster.ofSecret plainSource).result = .ok w ∧ true = true :=
      Except.exists_of_any (by decide +kernel)
    refine ⟨w, hw, ⟨⟨_, rfl, by simp⟩, ⟨_, rfl, by simp⟩⟩, ?_⟩
    rw [result_ofWorkload, result_takeAlong, longNamedCluster, Value.shown_int, written_longNumber]
    rfl

end Registration
end ClusterRegistrar
