import ClusterRegistrar.Proofs.Conversion
import ClusterRegistrar.Proofs.KubeConfig.FirstEntries

/-! What a kubeconfig says beyond its first cluster and its first user. Nothing of it counts: a
conversion cannot tell kubeconfigs apart of which the first entries agree on the few fields that a
registration is made of. -/
namespace ClusterRegistrar.Conversion

def withData (s : SourceSecret) (data : Value) : SourceSecret := { s with data }

theorem result_register_withData {s : SourceSecret} {data : Value} {w v : WorkloadCluster}
    {base base' : Text} {cluster : KubeCluster} {user user' : KubeUser}
    (hw : w.Parts s base cluster user) (hv : v.Parts (withData s data) base' cluster user')
    (hcredentials : Registration.credentialsOf cluster user =
      Registration.credentialsOf cluster user') (settings : Settings) (index : ClusterIndex) :
    (register settings index s w).result = (register settings index (withData s data) v).result := by
  have hfound : findCluster index (withData s data) = findCluster index s := rfl
  rw [result_register, result_register, hfound]
  simp only [Registration.draft_of_parts hw, Registration.draft_of_parts hv, hcredentials]
  rfl

theorem result_convertSecret_withData {s : SourceSecret} {data : Value} {doc other : Value}
    (hs : isConvertible s = true) (ht : isConvertible (withData s data) = true)
    (hdoc : WorkloadCluster.document s = .ok doc)
    (hother : WorkloadCluster.document (withData s data) = .ok other)
    (hfirsts : KubeConfig.FirstsAgree doc other) (settings : Settings) (index : ClusterIndex) :
    (convertSecret settings index s).result =
      (convertSecret settings index (withData s data)).result := by
  obtain ⟨w, hw⟩ := isConvertible_iff.mp hs
  obtain ⟨v, hv⟩ := isConvertible_iff.mp ht
  obtain ⟨-, _, _, -, hdoc', hk, -⟩ := WorkloadCluster.result_ofSecret_eq_ok.mp hw
  obtain ⟨-, _, _, -, hother', hl, -⟩ := WorkloadCluster.result_ofSecret_eq_ok.mp hv
  cases hdoc.symm.trans hdoc'
  cases hother.symm.trans hother'
  obtain ⟨base, cluster, user, hparts⟩ := WorkloadCluster.exists_parts hw
  obtain ⟨base', cluster', user', hparts'⟩ := WorkloadCluster.exists_parts hv
  obtain ⟨rfl, htoken, hcert, hkey⟩ := KubeConfig.firsts_eq_of_agree hfirsts hk hl
    hparts.firstCluster hparts'.firstCluster hparts.firstUser hparts'.firstUser
  have hcredentials : Registration.credentialsOf cluster user =
      Registration.credentialsOf cluster user' := by
    unfold Registration.credentialsOf
    rw [htoken, hcert, hkey]
  rw [result_convertSecret (isSource_of_ofSecret hw), result_convertSecret (isSource_of_ofSecret hv),
    hw, hv]
  simp only [result_register_withData hparts hparts' hcredentials]

/-- Of a kubeconfig only the first cluster and the first user count, and of these only the fields
that a registration is made of: with other data that agrees on them, as far as their texts go, a
secret is converted to the same, or fails the same way, among any other secrets and clusters. -/
theorem only_firsts_count {s : SourceSecret} {data : Value} {doc other : Value}
    (hs : isConvertible s = true) (ht : isConvertible (withData s data) = true)
    (hdoc : WorkloadCluster.document s = .ok doc)
    (hother : WorkloadCluster.document (withData s data) = .ok other)
    (hfirsts : KubeConfig.FirstsAgree doc other) (settings : Settings)
    (before after : List SourceSecret) (clusters : List SourceCluster) :
    (convert settings (before ++ s :: after) clusters).result =
      (convert settings (before ++ withData s data :: after) clusters).result := by
  have hstep := result_convertSecret_withData hs ht hdoc hother hfirsts settings
  unfold convert convertAll
  simp only [Run.result_bind, Run.result_ofFault, Run.result_mapM, Run.result_pure,
    List.mapM_append, List.mapM_cons, hstep]

def slimSource : SourceSecret := .ofContent "ns" "p-kubeconfig" SourceSecret.plainContent

/-- The same first entries but for the name of the user, with an unknown key before them, and behind
them a second cluster, and a second user with a token. -/
def crammedData : Value :=
  .map [(.str "value", .str <| Text.ofString <|
    "e3g6IDEsIGNsdXN0ZXJzOiBbe25hbWU6IGEsIGNsdXN0ZXI6IHtzZXJ2ZXI6IGJ9fSwge25hbWU6IHksIGNsdXN0" ++
    "ZXI6IHtzZXJ2ZXI6IHp9fV0sIHVzZXJzOiBbe25hbWU6IGR9LCB7bmFtZTogZSwgdXNlcjoge3Rva2VuOiB1fX1d" ++
    "fQ==")]

theorem crammed_counts_as_slim :
    isConvertible slimSource = true ∧ isConvertible (withData slimSource crammedData) = true ∧
      (∃ doc other, WorkloadCluster.document slimSource = .ok doc ∧
        WorkloadCluster.document (withData slimSource crammedData) = .ok other ∧
        KubeConfig.FirstsAgree doc other) ∧
      ∃ gs, (convert {} [slimSource] []).result = .ok gs ∧ gs.length = 1 ∧
        (convert {} [withData slimSource crammedData] []).result = .ok gs := by
  -- One test for all, so that the two contents are read only once.
  have htest : (isConvertible slimSource && isConvertible (withData slimSource crammedData) &&
      (do
        let doc ← WorkloadCluster.document slimSource
        return (doc, ← WorkloadCluster.document (withData slimSource crammedData)) :
          Except Failure (Value × Value)).toOption.any
        (fun docs => KubeConfig.sameFirsts docs.1 docs.2) &&
      (convert {} [slimSource] []).result.toOption.any fun gs => gs.length = 1) = true := by
    decide +kernel
  simp only [Bool.and_eq_true] at htest
  obtain ⟨⟨⟨hslim, hcrammed⟩, hdocs⟩, hgs⟩ := htest
  obtain ⟨⟨doc, other⟩, hdocs, hsame⟩ := Except.exists_of_any hdocs
  obtain ⟨gs, hgs, hlength⟩ := Except.exists_of_any hgs
  simp only [Except.bind_eq_ok] at hdocs
  obtain ⟨_, hdoc, _, hother, hpair⟩ := hdocs
  cases hpair
  have hfirsts := KubeConfig.firstsAgree_of_sameFirsts hsame
  have hequal := only_firsts_count hslim hcrammed hdoc hother hfirsts {} [] [] []
  refine ⟨hslim, hcrammed, ⟨doc, other, hdoc, hother, hfirsts⟩, gs, hgs, of_decide_eq_true hlength, ?_⟩
  exact hequal.symm.trans hgs

end ClusterRegistrar.Conversion
