import ClusterRegistrar.Proofs.Conversion.Accounting
import ClusterRegistrar.Proofs.Credentials.Validation
import ClusterRegistrar.Proofs.Registration.Meaning

/-! Validation of TLS data as a gate in front of the generated secrets. With it a conversion returns
what it returns without it, or the refusal of the first source whose TLS data is not complete. Every
secret behind the gate carries complete TLS data. -/
namespace ClusterRegistrar

namespace Conversion

def validating (settings : Settings) (validate : Bool) : Settings :=
  { settings with validateTls := validate }

/-- The TLS data of a source that is converted: of the first cluster and the first user. -/
def BuildsTls (s : SourceSecret) (tls? : Option TlsCredentials) : Prop :=
  ∃ w cluster user, (WorkloadCluster.ofSecret s).result = .ok w ∧
    w.kubeConfig.cluster = .ok cluster ∧ w.kubeConfig.user = .ok user ∧
    tls? = (Registration.credentialsOf cluster user).tls

/-- What validation makes of a source, nothing if it is not converted. -/
def tlsVerdict (s : SourceSecret) : Except Failure Unit :=
  match (WorkloadCluster.ofSecret s).result with
  | .ok w => do
    let cluster ← Fault.lift w.kubeConfig.cluster
    let user ← Fault.lift w.kubeConfig.user
    TlsCredentials.validate (Registration.credentialsOf cluster user).tls
  | .error _ => .ok ()

theorem tlsVerdict_of_buildsTls {s : SourceSecret} {tls? : Option TlsCredentials}
    (h : BuildsTls s tls?) : tlsVerdict s = TlsCredentials.validate tls? := by
  obtain ⟨w, cluster, user, hw, hcluster, huser, rfl⟩ := h
  unfold tlsVerdict
  rw [hw]
  simp only [hcluster, huser, Fault.lift_ok, Except.ok_bind]

theorem exists_buildsTls {s : SourceSecret} {w : WorkloadCluster}
    (h : (WorkloadCluster.ofSecret s).result = .ok w) : ∃ tls?, BuildsTls s tls? := by
  obtain ⟨_, cluster, user, hparts⟩ := WorkloadCluster.exists_parts h
  exact ⟨_, w, cluster, user, h, KubeConfig.cluster_eq_ok.mpr hparts.firstCluster,
    KubeConfig.user_eq_ok.mpr hparts.firstUser, rfl⟩

theorem tlsVerdict_eq_ok {s : SourceSecret} :
    tlsVerdict s = .ok () ↔ ∀ tls?, BuildsTls s tls? → TlsCredentials.validate tls? = .ok () := by
  constructor
  · intro h tls? htls
    rw [← tlsVerdict_of_buildsTls htls, h]
  · intro h
    cases hw : (WorkloadCluster.ofSecret s).result with
    | error e => rw [tlsVerdict, hw]
    | ok w =>
      obtain ⟨tls?, htls⟩ := exists_buildsTls hw
      rw [tlsVerdict_of_buildsTls htls, h tls? htls]

/-! ### One secret -/

def registration (settings : Settings) (index : ClusterIndex) (s : SourceSecret)
    (w : WorkloadCluster) : Except Failure Registration := do
  let cluster? ← Fault.lift (findCluster index s)
  let taken ← (Registration.takeAlong cluster?).result
  Fault.lift (Registration.draft settings w s taken.1.entries)

theorem result_register_validating (settings : Settings) (validate : Bool) (index : ClusterIndex)
    (s : SourceSecret) (w : WorkloadCluster) :
    (register (validating settings validate) index s w).result =
      registration settings index s w >>= fun r => r.toSecret validate := by
  rw [result_register]
  simp only [registration, bind_assoc]
  rfl

theorem credentials_of_registration {settings : Settings} {index : ClusterIndex}
    {s : SourceSecret} {w : WorkloadCluster} {r : Registration} {cluster : KubeCluster}
    {user : KubeUser} (hcluster : w.kubeConfig.cluster = .ok cluster)
    (huser : w.kubeConfig.user = .ok user) (hr : registration settings index s w = .ok r) :
    r.credentials = Registration.credentialsOf cluster user := by
  simp only [registration, Registration.draft, hcluster, huser, Except.bind_eq_ok,
    Fault.lift_eq_ok, Except.ok_bind] at hr
  obtain ⟨_, -, _, -, _, -, _, -, _, -, h⟩ := hr
  cases h
  rfl

theorem toSecret_true (r : Registration) :
    r.toSecret true = TlsCredentials.validate r.credentials.tls >>= fun _ => r.toSecret false := rfl

theorem register_of_unvalidated {settings : Settings} {index : ClusterIndex} {s : SourceSecret}
    {w : WorkloadCluster} {g : GeneratedSecret} (hw : (WorkloadCluster.ofSecret s).result = .ok w)
    (h : (register (validating settings false) index s w).result = .ok g) :
    (register (validating settings true) index s w).result = tlsVerdict s >>= fun _ => .ok g := by
  rw [result_register_validating, Except.bind_eq_ok] at h
  obtain ⟨r, hr, hg⟩ := h
  obtain ⟨_, cluster, user, hparts⟩ := WorkloadCluster.exists_parts hw
  have hcluster := KubeConfig.cluster_eq_ok.mpr hparts.firstCluster
  have huser := KubeConfig.user_eq_ok.mpr hparts.firstUser
  rw [result_register_validating, hr, Except.ok_bind, toSecret_true, hg,
    credentials_of_registration hcluster huser hr,
    tlsVerdict_of_buildsTls ⟨w, cluster, user, hw, hcluster, huser, rfl⟩]

theorem unvalidated_of_register {settings : Settings} {index : ClusterIndex} {s : SourceSecret}
    {w : WorkloadCluster} {g : GeneratedSecret}
    (h : (register (validating settings true) index s w).result = .ok g) :
    (register (validating settings false) index s w).result = .ok g := by
  rw [result_register_validating, Except.bind_eq_ok] at h ⊢
  obtain ⟨r, hr, hg⟩ := h
  exact ⟨r, hr, Registration.toSecret_unvalidated hg⟩

theorem convertSecret_of_unvalidated {settings : Settings} {index : ClusterIndex}
    {s : SourceSecret} {step : Option GeneratedSecret}
    (h : (convertSecret (validating settings false) index s).result = .ok step) :
    (convertSecret (validating settings true) index s).result =
      tlsVerdict s >>= fun _ => .ok step := by
  cases hw : (WorkloadCluster.ofSecret s).result with
  | error e =>
    have hverdict : tlsVerdict s = .ok () := by rw [tlsVerdict, hw]
    rw [hverdict, Except.ok_bind, ← h]
    by_cases hs : IsSource s
    · rw [result_convertSecret hs, result_convertSecret hs, hw]
      cases e <;> rfl
    · rw [result_convertSecret_foreign hs, result_convertSecret_foreign hs]
  | ok w =>
    have hs := isSource_of_ofSecret hw
    rw [result_convertSecret hs, hw] at h ⊢
    obtain ⟨g, hg, hstep⟩ := Except.bind_eq_ok.mp h
    cases hstep
    simp only [register_of_unvalidated hw hg, bind_assoc, Except.ok_bind]

theorem unvalidated_of_convertSecret {settings : Settings} {index : ClusterIndex}
    {s : SourceSecret} {step : Option GeneratedSecret}
    (h : (convertSecret (validating settings true) index s).result = .ok step) :
    (convertSecret (validating settings false) index s).result = .ok step := by
  by_cases hs : IsSource s
  · rw [result_convertSecret hs] at h ⊢
    cases hw : (WorkloadCluster.ofSecret s).result with
    | error e =>
      rw [hw] at h
      cases e <;> exact h
    | ok w =>
      simp only [hw, Except.bind_eq_ok] at h ⊢
      obtain ⟨g, hg, hstep⟩ := h
      exact ⟨g, unvalidated_of_register hg, hstep⟩
  · rw [result_convertSecret_foreign hs] at h ⊢
    exact h

theorem log_register_validating (settings : Settings) (validate : Bool) (index : ClusterIndex)
    (s : SourceSecret) (w : WorkloadCluster) :
    (register (validating settings validate) index s w).log = (register settings index s w).log := by
  have hwork (cluster? : Option SourceCluster) :
      Registration.ofWorkload (validating settings validate) w s cluster? =
        Registration.ofWorkload settings w s cluster? := rfl
  have hend (r : Registration) (problems : List TakeAlong.Problem) :
      (problems.forM (fun problem => Run.record .info .conversion (.ok problem.message)) >>=
          fun _ => Run.ofExcept (r.toSecret validate)).log =
        (problems.forM (fun problem => Run.record .info .conversion (.ok problem.message)) >>=
          fun _ => Run.ofExcept (r.toSecret settings.validateTls)).log :=
    Run.log_bind_congr _ fun _ => rfl
  unfold register
  refine Run.log_bind_congr _ fun cluster? => ?_
  simp only [hwork]
  cases cluster?.isNone with
  | true =>
    exact Run.log_bind_congr _ fun _ => Run.log_bind_congr _ fun (r, problems) => hend r problems
  | false => exact Run.log_bind_congr _ fun (r, problems) => hend r problems

theorem log_convertSecret_validating (settings : Settings) (validate : Bool)
    (index : ClusterIndex) (s : SourceSecret) :
    (convertSecret (validating settings validate) index s).log =
      (convertSecret settings index s).log := by
  by_cases hs : IsSource s
  · rw [convertSecret_of_isSource hs, convertSecret_of_isSource hs]
    refine Run.log_bind_congr _ fun attempt => ?_
    cases attempt with
    | error reason => rfl
    | ok w =>
      have hpure (r : Run GeneratedSecret) : (r >>= fun g => pure (some g)).log = r.log := by
        rw [bind_pure_comp, Run.log_map]
      exact (hpure _).trans ((log_register_validating settings validate index s w).trans
        (hpure _).symm)
  · rw [convertSecret_of_foreign hs, convertSecret_of_foreign hs]

/-! ### All secrets -/

/-- Where a pass returns without validation, validation lets it through or refuses the first source
that is to be refused. -/
theorem convertAll_of_unvalidated {settings : Settings} {index : ClusterIndex}
    {secrets : List SourceSecret} {gs : List GeneratedSecret}
    (h : (convertAll (validating settings false) index secrets).result = .ok gs) :
    (convertAll (validating settings true) index secrets).result =
      secrets.forM tlsVerdict >>= fun _ => .ok gs := by
  obtain ⟨steps, hsteps, rfl⟩ := convertAll_eq_ok.mp h
  have hpass : (secrets.mapM fun s => (convertSecret (validating settings true) index s).result) =
      secrets.forM tlsVerdict >>= fun _ => .ok steps := by
    clear h
    induction hsteps with
    | nil => rfl
    | @cons s step rest more hstep _ ih =>
      have hforM : (s :: rest).forM tlsVerdict =
          tlsVerdict s >>= fun _ => rest.forM tlsVerdict := rfl
      rw [List.mapM_cons, convertSecret_of_unvalidated hstep, ih, hforM]
      simp only [bind_assoc, Except.ok_bind]
      rfl
  unfold convertAll
  rw [Run.result_bind, Run.result_mapM, hpass, bind_assoc]
  rfl

theorem unvalidated_of_convertAll {settings : Settings} {index : ClusterIndex}
    {secrets : List SourceSecret} {gs : List GeneratedSecret}
    (h : (convertAll (validating settings true) index secrets).result = .ok gs) :
    (convertAll (validating settings false) index secrets).result = .ok gs := by
  obtain ⟨steps, hsteps, rfl⟩ := convertAll_eq_ok.mp h
  exact convertAll_eq_ok.mpr ⟨steps, hsteps.imp fun _ _ => unvalidated_of_convertSecret, rfl⟩

theorem log_convertAll_validating {settings : Settings} {index : ClusterIndex}
    {secrets : List SourceSecret} {gs : List GeneratedSecret}
    (h : (convertAll (validating settings true) index secrets).result = .ok gs) :
    (convertAll (validating settings true) index secrets).log =
      (convertAll (validating settings false) index secrets).log := by
  rw [log_convertAll h, log_convertAll (unvalidated_of_convertAll h)]
  simp only [log_convertSecret_validating]

/-! ### What is behind the gate -/

/-- The configuration in a generated secret, read as JSON, has TLS data, and every field of it is
base64 that is not empty. -/
def CarriesTls (g : GeneratedSecret) : Prop :=
  ∃ config fields tls, g.dataAt? "config" = some config.toUTF8 ∧
    Json.ofText? config = some (.obj fields) ∧
    Json.field? fields "tlsClientConfig" = some (.obj tls) ∧
    ∀ field : TlsField, ∃ t bytes, Json.field? tls field.name = some (.str t) ∧ t ≠ [] ∧
      Value.decodeBase64 (.str t) = .ok (.ok bytes)

private theorem exists_text_of_filled {v : Value} {found? : Option Json} (hv : v.IsOptionalText)
    (hread : Registration.ReadBack v found?)
    (h : v.truthy = true ∧ ∃ bytes, v.decodeBase64 = .ok (.ok bytes)) :
    ∃ t bytes, found? = some (.str t) ∧ t ≠ [] ∧ Value.decodeBase64 (.str t) = .ok (.ok bytes) := by
  obtain ⟨htruthy, bytes, hbytes⟩ := h
  rcases hv with rfl | ⟨t, rfl⟩
  · cases htruthy
  · exact ⟨t, bytes, hread.scalar t rfl (Value.isScalar_of_decodeBase64 hbytes),
      of_decide_eq_true htruthy, hbytes⟩

theorem carriesTls_of_generates {settings : Settings} {index : ClusterIndex} {s : SourceSecret}
    {g : GeneratedSecret} (h : Generates (validating settings true) index s g) : CarriesTls g := by
  obtain ⟨w, hw, hg⟩ := h
  obtain ⟨base, cluster, user, hparts⟩ := WorkloadCluster.exists_parts hw
  rw [result_register_validating, Except.bind_eq_ok] at hg
  obtain ⟨r, hr, hg⟩ := hg
  obtain ⟨hvalid, hg⟩ := Registration.toSecret_validated_iff.mp hg
  have hcredentials := credentials_of_registration
    (KubeConfig.cluster_eq_ok.mpr hparts.firstCluster)
    (KubeConfig.user_eq_ok.mpr hparts.firstUser) hr
  rw [hcredentials] at hvalid
  obtain ⟨t, ht, hfilled⟩ := TlsCredentials.validate_eq_ok.mp hvalid
  rcases Registration.tls_credentialsOf cluster user with ⟨hnone, -⟩ | ⟨hsome, hnotNull⟩
  · rw [hnone] at ht
    cases ht
  · cases hsome.symm.trans ht
    obtain ⟨config, fields, hconfig, hread, hfields⟩ :=
      Registration.exists_configuration hparts.textualCluster hparts.textualUser
    obtain ⟨config', labels, name, server, hconfig', -, -, -, rfl⟩ :=
      Registration.toSecret_eq_ok.mp hg
    rw [hcredentials, hconfig] at hconfig'
    cases hconfig'
    obtain ⟨tls, htls, -, -, hca, hcert, hkey⟩ := hfields.tls hnotNull
    refine ⟨config, fields, tls, rfl, hread, htls, fun field => ?_⟩
    cases field with
    | caData =>
      exact exists_text_of_filled hparts.textualCluster.caData hca
        (hfilled (.caData, _) (by simp [TlsCredentials.listing]))
    | certData =>
      exact exists_text_of_filled hparts.textualUser.certData hcert
        (hfilled (.certData, _) (by simp [TlsCredentials.listing]))
    | keyData =>
      exact exists_text_of_filled hparts.textualUser.keyData hkey
        (hfilled (.keyData, _) (by simp [TlsCredentials.listing]))

/-- Validation is a gate and nothing else. It lets a conversion return exactly what is returned
without it, provided that the TLS data of every source that is converted is accepted, and what is
behind the gate carries complete TLS data. A conversion that would return and that it stops fails with
the refusal of the first source whose TLS data is not accepted. -/
theorem validation_gates (settings : Settings) (secrets : List SourceSecret)
    (clusters : List SourceCluster) :
    (∀ gs, (convert (validating settings true) secrets clusters).result = .ok gs ↔
      (convert (validating settings false) secrets clusters).result = .ok gs ∧
        ∀ s ∈ secrets, ∀ tls?, BuildsTls s tls? → TlsCredentials.validate tls? = .ok ()) ∧
      (∀ gs, (convert (validating settings true) secrets clusters).result = .ok gs →
        (convert (validating settings true) secrets clusters).log =
          (convert (validating settings false) secrets clusters).log ∧ ∀ g ∈ gs, CarriesTls g) ∧
      ∀ gs, (convert (validating settings false) secrets clusters).result = .ok gs →
        ∀ before s after tls? e, secrets = before ++ s :: after →
          (∀ b ∈ before, ∀ tls?, BuildsTls b tls? → TlsCredentials.validate tls? = .ok ()) →
          BuildsTls s tls? → TlsCredentials.validate tls? = .error e →
          (convert (validating settings true) secrets clusters).result = .error e := by
  have hgate {gs : List GeneratedSecret}
      (h : (convert (validating settings false) secrets clusters).result = .ok gs) :
      (convert (validating settings true) secrets clusters).result =
        secrets.forM tlsVerdict >>= fun _ => .ok gs := by
    obtain ⟨index, hindex, hall⟩ := convert_eq_ok.mp h
    rw [convert, hindex]
    exact convertAll_of_unvalidated hall
  refine ⟨fun gs => ⟨fun h => ?_, fun ⟨h, haccepted⟩ => ?_⟩, fun gs h => ?_, ?_⟩
  · obtain ⟨index, hindex, hall⟩ := convert_eq_ok.mp h
    have hlax := convert_eq_ok.mpr ⟨index, hindex, unvalidated_of_convertAll hall⟩
    rw [hgate hlax, Except.bind_eq_ok] at h
    obtain ⟨_, hverdicts, -⟩ := h
    exact ⟨hlax, fun s hs => tlsVerdict_eq_ok.mp (Except.forM_eq_ok.mp hverdicts s hs)⟩
  · have hverdicts := Except.forM_eq_ok.mpr fun s hs => tlsVerdict_eq_ok.mpr (haccepted s hs)
    rw [hgate h, hverdicts, Except.ok_bind]
  · obtain ⟨index, hindex, hall⟩ := convert_eq_ok.mp h
    refine ⟨?_, ?_⟩
    · rw [log_convert hindex, log_convert hindex, log_convertAll_validating hall]
    · exact forall_right_of_forall₂ (forall₂_generates hall) fun _ _ => carriesTls_of_generates
  · rintro gs h before s after tls? e rfl hbefore htls he
    have hverdict : tlsVerdict s = .error e := by rw [tlsVerdict_of_buildsTls htls, he]
    have haccepted := fun b hb => tlsVerdict_eq_ok.mpr (hbefore b hb)
    rw [hgate h, Except.forM_of_error haccepted hverdict, Except.error_bind]

def completeSource : SourceSecret := .ofContent "ns" "p-kubeconfig"
  ("e2NsdXN0ZXJzOiBbe25hbWU6IGEsIGNsdXN0ZXI6IHtzZXJ2ZXI6IGIsIGNlcnRpZmljYXRlLWF1dGhvcml0eS1kYX" ++
    "RhOiBRUT09fX1dLCB1c2VyczogW3tuYW1lOiBjLCB1c2VyOiB7Y2xpZW50LWNlcnRpZmljYXRlLWRhdGE6IFFnPT0s" ++
    "IGNsaWVudC1rZXktZGF0YTogUXc9PX19XX0=")

def openSource : SourceSecret := .ofContent "ns" "q-kubeconfig" SourceSecret.plainContent

theorem openSource_stopped : ∃ g h,
    (convert (validating {} true) [completeSource] []).result = .ok [g] ∧ CarriesTls g ∧
      (convert (validating {} false) [completeSource, openSource] []).result = .ok [g, h] ∧
      (convert (validating {} true) [completeSource, openSource] []).result =
        .error (.rejected .missingTls) := by
  obtain ⟨single, hsingle, hone⟩ : ∃ gs,
      (convert (validating {} true) [completeSource] []).result = .ok gs ∧
        decide (gs.length = 1) = true := Except.exists_of_any (by decide +kernel)
  obtain ⟨g, rfl⟩ := List.length_eq_one_iff.mp (of_decide_eq_true hone)
  obtain ⟨others, hothers, hone⟩ : ∃ gs,
      (convert (validating {} false) [openSource] []).result = .ok gs ∧
        decide (gs.length = 1) = true := Except.exists_of_any (by decide +kernel)
  obtain ⟨h, rfl⟩ := List.length_eq_one_iff.mp (of_decide_eq_true hone)
  obtain ⟨w, hw, htls⟩ : ∃ w, (WorkloadCluster.ofSecret openSource).result = .ok w ∧
      (w.kubeConfig.cluster.toOption.any fun c => w.kubeConfig.user.toOption.any fun u =>
        (Registration.credentialsOf c u).tls.isNone) = true :=
    Except.exists_of_any (by decide +kernel)
  obtain ⟨cluster, hcluster, huser⟩ := Except.exists_of_any htls
  obtain ⟨user, huser, hnone⟩ := Except.exists_of_any huser
  have hopen : BuildsTls openSource none :=
    ⟨w, cluster, user, hw, hcluster, huser, (Option.isNone_iff_eq_none.mp hnone).symm⟩
  obtain ⟨haccepted, hcarries, -⟩ := validation_gates {} [completeSource] []
  obtain ⟨-, -, hstops⟩ := validation_gates {} [completeSource, openSource] []
  obtain ⟨hlax, hcomplete⟩ := (haccepted _).mp hsingle
  have hboth : (convert (validating {} false) [completeSource, openSource] []).result =
      .ok [g, h] := by
    rw [← List.singleton_append, convert_append]
    simp only [Run.result_bind, hlax, hothers, Except.ok_bind]
    rfl
  refine ⟨g, h, hsingle, (hcarries _ hsingle).2 g List.mem_cons_self, hboth, ?_⟩
  exact hstops _ hboth [completeSource] openSource [] none _ rfl hcomplete hopen rfl

end Conversion
end ClusterRegistrar
