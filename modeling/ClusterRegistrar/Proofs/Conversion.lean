import ClusterRegistrar.Conversion
import ClusterRegistrar.Proofs.Registration

/-! Conversion as a pass over secrets. A secret gives at most one generated secret, and it gives one
exactly if its workload cluster can be read; what a whole pass returns is what its steps return, in
the order of the sources. -/
namespace ClusterRegistrar.Conversion

/-! ### One secret -/

theorem result_register (settings : Settings) (index : ClusterIndex) (s : SourceSecret)
    (w : WorkloadCluster) :
    (register settings index s w).result = (do
      let cluster? ← Fault.lift (findCluster index s)
      let taken ← (Registration.takeAlong cluster?).result
      let r ← Fault.lift (Registration.draft settings w s taken.1.entries)
      r.toSecret settings.validateTls) := by
  unfold register
  simp only [Run.result_bind, Run.result_ofFault]
  congr 1
  funext cluster?
  cases cluster?.isNone with
  | true =>
    simp only [if_true, Run.result_bind, Run.result_record, Except.ok_bind,
      Registration.result_ofWorkload, bind_assoc, pure_bind, Run.result_forM_record]
    rfl
  | false =>
    simp only [Bool.false_eq_true, if_false, Run.result_bind, Except.ok_bind,
      Registration.result_ofWorkload, bind_assoc, pure_bind, Run.result_forM_record]
    rfl

theorem result_register_eq {index : ClusterIndex} {s : SourceSecret} {w : WorkloadCluster}
    {base space name : Text} {cluster : KubeCluster} {user : KubeUser}
    {cluster? : Option SourceCluster} {taken : TakeAlong.Outcome × TakeAlong.Outcome}
    (hparts : w.Parts s base cluster user) (hspace : s.space = .str space)
    (hname : cluster.name = .str name) (hfound : findCluster index s = .ok cluster?)
    (htaken : (Registration.takeAlong cluster?).result = .ok taken) (settings : Settings) :
    (register settings index s w).result =
      (Registration.ofParts settings base space name cluster user taken.1.entries []).toSecret
        settings.validateTls := by
  rw [result_register, hfound, Fault.lift_ok, Except.ok_bind, htaken, Except.ok_bind,
    Registration.draft_eq hparts hspace hname, Fault.lift_ok, Except.ok_bind]

theorem logs_register (settings : Settings) (index : ClusterIndex) (s : SourceSecret)
    (w : WorkloadCluster) :
    (register settings index s w).Logs fun r => r.IsDetail ∨ r.level = .info := by
  have hwork (cluster? : Option SourceCluster) :
      (Registration.ofWorkload settings w s cluster?).Logs fun r => r.IsDetail ∨ r.level = .info :=
    (Registration.logs_ofWorkload settings w s cluster?).imp fun _ => .inl
  unfold register
  refine Run.logs_bind (Run.logs_ofExcept _) fun cluster? => ?_
  refine Run.logs_when (Run.logs_record (.inr rfl)) (Run.logs_bind (hwork cluster?) fun work => ?_)
  obtain ⟨r, problems⟩ := work
  refine Run.logs_bind (Run.logs_forM_record fun _ => .inr rfl) fun _ => ?_
  exact Run.logs_ofExcept _

def isConvertible (s : SourceSecret) : Bool :=
  match (WorkloadCluster.ofSecret s).result with
  | .ok _ => true
  | .error _ => false

def IsSource (s : SourceSecret) : Prop := s.isCapi = true ∧ s.hasKubeconfigName = .ok true

theorem isConvertible_iff {s : SourceSecret} :
    isConvertible s = true ↔ ∃ w, (WorkloadCluster.ofSecret s).result = .ok w := by
  unfold isConvertible
  cases (WorkloadCluster.ofSecret s).result <;> simp

def proceed (settings : Settings) (index : ClusterIndex) (s : SourceSecret) :
    Except Rejection WorkloadCluster → Run (Option GeneratedSecret)
  | .error reason => do
    Run.record .warning .conversion do
      return "Skipping secret " ++ (← s.identity.id) ++ ": " ++ reason.message
    return none
  | .ok w => return some (← register settings index s w)

theorem convertSecret_of_isSource {s : SourceSecret} (hs : IsSource s) (settings : Settings)
    (index : ClusterIndex) :
    convertSecret settings index s =
      (WorkloadCluster.ofSecret s).attempt >>= proceed settings index s := by
  unfold convertSecret
  simp only [hs.1, hs.2, Bool.not_true, Bool.false_eq_true, if_false]
  rfl

theorem result_convertSecret {s : SourceSecret} (hs : IsSource s) (settings : Settings)
    (index : ClusterIndex) :
    (convertSecret settings index s).result = match (WorkloadCluster.ofSecret s).result with
      | .ok w => (register settings index s w).result >>= fun g => .ok (some g)
      | .error (.rejected _) => .ok none
      | .error (.fault f) => .error (.fault f) := by
  rw [convertSecret_of_isSource hs, Run.result_bind, Run.result_attempt]
  cases (WorkloadCluster.ofSecret s).result with
  | ok w =>
    simp only [Except.ok_bind, proceed, Run.result_bind]
    rfl
  | error e => cases e <;> rfl

def passNote (s : SourceSecret) : Record where
  level := .debug
  source := .conversion
  text := do
    let reason : Text :=
      if s.isCapi then "Skipping non-kubeconfig secret " else "Skipping non-CAPI secret "
    return reason ++ (← s.identity.id)

def passOver (s : SourceSecret) : Run (Option GeneratedSecret) :=
  if s.isCapi then Run.ofFault s.hasKubeconfigName >>= fun _ => ⟨[passNote s], .ok none⟩
  else ⟨[passNote s], .ok none⟩

theorem convertSecret_of_foreign {s : SourceSecret} (hs : ¬IsSource s) (settings : Settings)
    (index : ClusterIndex) : convertSecret settings index s = passOver s := by
  unfold convertSecret passOver passNote
  cases hcapi : s.isCapi with
  | false =>
    simp only [Bool.not_false, Bool.false_eq_true, if_true, if_false]
    rfl
  | true =>
    simp only [Bool.not_true, Bool.false_eq_true, if_true, if_false]
    cases hnamed : s.hasKubeconfigName with
    | error f => rfl
    | ok named =>
      cases named with
      | true => exact absurd ⟨hcapi, hnamed⟩ hs
      | false => rfl

theorem result_convertSecret_foreign {s : SourceSecret} (hs : ¬IsSource s) (settings : Settings)
    (index : ClusterIndex) :
    (convertSecret settings index s).result =
      if s.isCapi then Fault.lift s.hasKubeconfigName >>= fun _ => .ok none else .ok none := by
  rw [convertSecret_of_foreign hs, passOver]
  split
  · rw [Run.result_bind, Run.result_ofFault]
  · rfl

theorem eq_none_of_foreign {s : SourceSecret} (hs : ¬IsSource s) {settings : Settings}
    {index : ClusterIndex} {step : Option GeneratedSecret}
    (h : (convertSecret settings index s).result = .ok step) : step = none := by
  rw [result_convertSecret_foreign hs] at h
  split at h
  · obtain ⟨_, -, hnone⟩ := Except.bind_eq_ok.mp h
    exact (Except.ok.inj hnone).symm
  · exact (Except.ok.inj h).symm

/-- A generated secret is the one that is registered for the workload cluster of its source. -/
def Generates (settings : Settings) (index : ClusterIndex) (s : SourceSecret)
    (g : GeneratedSecret) : Prop :=
  ∃ w, (WorkloadCluster.ofSecret s).result = .ok w ∧ (register settings index s w).result = .ok g

theorem names_of_generates {settings : Settings} {index : ClusterIndex} {s : SourceSecret}
    {g : GeneratedSecret} (h : Generates settings index s g) :
    Naming.generatedName settings s.name s.space = .ok g.identity ∧
      ∃ cluster? taken, findCluster index s = .ok cluster? ∧
        (Registration.takeAlong cluster?).result = .ok taken ∧
        g.labels = .map ((Keyed.putAll Registration.commonLabels
          (Registration.sourceLabelsOf s.name s.space)).putAll taken.1.entries) := by
  obtain ⟨w, hw, hg⟩ := h
  simp only [result_register, Except.bind_eq_ok, Fault.lift_eq_ok] at hg
  obtain ⟨cluster?, hcluster, taken, htaken, r, hr, hg⟩ := hg
  obtain ⟨hidentity, ⟨source, hsource, hsourceLabels⟩, htakenLabels⟩ :=
    Registration.names_of_draft hr
  obtain ⟨base, cluster, user, hparts⟩ := WorkloadCluster.exists_parts hw
  cases hsource.symm.trans (Registration.labelsOfSource_eq hparts)
  obtain ⟨_, labels, _, _, -, hlabels, -, -, rfl⟩ :=
    Registration.toSecret_eq_ok.mp (Registration.toSecret_unvalidated hg)
  rw [Registration.mergedLabels_eq hsourceLabels htakenLabels] at hlabels
  cases hlabels
  exact ⟨hidentity, cluster?, taken, hcluster, htaken, rfl⟩

theorem isSource_of_ofSecret {s : SourceSecret} {w : WorkloadCluster}
    (h : (WorkloadCluster.ofSecret s).result = .ok w) : IsSource s :=
  WorkloadCluster.hasKubeconfigName_of_ofSecret h

theorem convertSecret_eq_some {settings : Settings} {index : ClusterIndex} {s : SourceSecret}
    {g : GeneratedSecret} :
    (convertSecret settings index s).result = .ok (some g) ↔ Generates settings index s g := by
  constructor
  · intro h
    by_cases hs : IsSource s
    · rw [result_convertSecret hs] at h
      cases hw : (WorkloadCluster.ofSecret s).result with
      | ok w =>
        rw [hw] at h
        obtain ⟨_, hg, hsome⟩ := Except.bind_eq_ok.mp h
        cases hsome
        exact ⟨w, hw, hg⟩
      | error e =>
        rw [hw] at h
        cases e <;> cases h
    · cases eq_none_of_foreign hs h
  · rintro ⟨w, hw, hg⟩
    rw [result_convertSecret (isSource_of_ofSecret hw), hw]
    simp only [hg]
    rfl

theorem isConvertible_of_convertSecret {settings : Settings} {index : ClusterIndex}
    {s : SourceSecret} {generated? : Option GeneratedSecret}
    (h : (convertSecret settings index s).result = .ok generated?) :
    isConvertible s = generated?.isSome := by
  by_cases hs : IsSource s
  · rw [result_convertSecret hs] at h
    unfold isConvertible
    cases hw : (WorkloadCluster.ofSecret s).result with
    | ok w =>
      rw [hw] at h
      obtain ⟨g, -, hsome⟩ := Except.bind_eq_ok.mp h
      cases hsome
      rfl
    | error e =>
      rw [hw] at h
      cases e with
      | rejected reason =>
        cases h
        rfl
      | fault f => cases h
  · have hnot : isConvertible s = false := by
      rw [Bool.eq_false_iff]
      intro hconvertible
      obtain ⟨w, hw⟩ := isConvertible_iff.mp hconvertible
      exact hs (isSource_of_ofSecret hw)
    rw [eq_none_of_foreign hs h]
    exact hnot

/-! ### Notices -/

def skipWarning? (s : SourceSecret) : Option Record :=
  match s.isCapi, s.hasKubeconfigName, (WorkloadCluster.ofSecret s).result with
  | true, .ok true, .error (.rejected reason) =>
    some ⟨.warning, .conversion, do
      return "Skipping secret " ++ (← s.identity.id) ++ ": " ++ reason.message⟩
  | _, _, _ => none

def notice? (s : SourceSecret) : Option Record :=
  match s.isCapi, s.hasKubeconfigName with
  | true, .ok true => skipWarning? s
  | true, .error _ => none
  | _, _ => some (passNote s)

theorem notice?_of_isSource {s : SourceSecret} (hs : IsSource s) : notice? s = skipWarning? s := by
  unfold notice?
  rw [hs.1, hs.2]

theorem filter_convertSecret {p : Record → Bool} (hdetail : ∀ r : Record, r.IsDetail → p r = false)
    (hinfo : ∀ r : Record, r.level = .info → p r = false) (settings : Settings)
    (index : ClusterIndex) (s : SourceSecret) :
    (convertSecret settings index s).log.filter p = (notice? s).toList.filter p := by
  by_cases hs : IsSource s
  · have hread : (WorkloadCluster.ofSecret s).log.filter p = [] :=
      (WorkloadCluster.logs_ofSecret s).filter_eq_nil hdetail
    have hattempt := Run.result_attempt (WorkloadCluster.ofSecret s)
    rw [notice?_of_isSource hs, convertSecret_of_isSource hs, skipWarning?, hs.1, hs.2]
    cases hw : (WorkloadCluster.ofSecret s).result with
    | ok w =>
      rw [hw] at hattempt
      have hregister : (proceed settings index s (.ok w)).log.filter p = [] := by
        have hlogs : (proceed settings index s (.ok w)).Logs fun r => r.IsDetail ∨ r.level = .info :=
          Run.logs_bind (logs_register settings index s w) fun _ => Run.logs_pure _
        apply hlogs.filter_eq_nil
        rintro r (h | h)
        · exact hdetail r h
        · exact hinfo r h
      rw [Run.log_bind_of_result hattempt, Run.log_attempt, List.filter_append, hread, hregister]
      rfl
    | error e =>
      rw [hw] at hattempt
      cases e with
      | rejected reason =>
        rw [Run.log_bind_of_result hattempt, Run.log_attempt, List.filter_append, hread]
        rfl
      | fault f =>
        rw [Run.log_bind_of_failure hattempt, Run.log_attempt, hread]
        rfl
  · rw [convertSecret_of_foreign hs]
    unfold passOver notice?
    cases hcapi : s.isCapi with
    | false => rfl
    | true =>
      cases hnamed : s.hasKubeconfigName with
      | error f => rfl
      | ok named =>
        cases named with
        | true => exact absurd ⟨hcapi, hnamed⟩ hs
        | false => rfl

def warnings (log : List Record) : List Record := log.filter fun record => record.level = .warning

theorem warnings_convertSecret (settings : Settings) (index : ClusterIndex) (s : SourceSecret) :
    warnings (convertSecret settings index s).log = (skipWarning? s).toList := by
  unfold warnings
  rw [filter_convertSecret]
  · unfold notice? skipWarning?
    cases s.isCapi with
    | false => rfl
    | true =>
      cases s.hasKubeconfigName with
      | error f => rfl
      | ok named =>
        cases named with
        | false => rfl
        | true =>
          cases (WorkloadCluster.ofSecret s).result with
          | ok w => rfl
          | error e => cases e <;> rfl
  · intro r h
    simp [h.1]
  · intro r h
    simp [h]

/-! ### All secrets -/

theorem convertAll_eq_ok {settings : Settings} {index : ClusterIndex} {secrets : List SourceSecret}
    {gs : List GeneratedSecret} :
    (convertAll settings index secrets).result = .ok gs ↔
      ∃ steps, List.Forall₂ (fun s step => (convertSecret settings index s).result = .ok step)
        secrets steps ∧ steps.flatMap Option.toList = gs := by
  unfold convertAll
  rw [Run.result_bind_eq_ok]
  simp only [Run.result_mapM, Except.mapM_eq_ok, Run.result_pure, Except.ok.injEq]

theorem forall₂_generates {settings : Settings} {index : ClusterIndex}
    {secrets : List SourceSecret} {gs : List GeneratedSecret}
    (h : (convertAll settings index secrets).result = .ok gs) :
    List.Forall₂ (Generates settings index) (secrets.filter isConvertible) gs := by
  obtain ⟨steps, hsteps, rfl⟩ := convertAll_eq_ok.mp h
  -- Along the steps: one without a generated secret is one that the filter drops.
  induction hsteps with
  | nil => exact .nil
  | @cons s step rest more hstep hmore ih =>
    have hrest := ih (convertAll_eq_ok.mpr ⟨more, hmore, rfl⟩)
    have hconvertible := isConvertible_of_convertSecret hstep
    cases step with
    | none =>
      rw [List.filter_cons_of_neg (by rw [hconvertible]; decide)]
      exact hrest
    | some g =>
      rw [List.filter_cons_of_pos (by rw [hconvertible]; rfl)]
      exact .cons (convertSecret_eq_some.mp hstep) hrest

theorem exists_convertAll_iff {settings : Settings} {index : ClusterIndex}
    {secrets : List SourceSecret} :
    (∃ gs, (convertAll settings index secrets).result = .ok gs) ↔
      ∀ s ∈ secrets, ∃ step, (convertSecret settings index s).result = .ok step := by
  rw [← Except.exists_mapM_eq_ok]
  constructor
  · rintro ⟨gs, h⟩
    obtain ⟨steps, hsteps, -⟩ := convertAll_eq_ok.mp h
    exact ⟨steps, Except.mapM_eq_ok.mpr hsteps⟩
  · rintro ⟨steps, hsteps⟩
    exact ⟨_, convertAll_eq_ok.mpr ⟨steps, Except.mapM_eq_ok.mp hsteps, rfl⟩⟩

theorem log_convertAll {settings : Settings} {index : ClusterIndex} {secrets : List SourceSecret}
    {gs : List GeneratedSecret} (h : (convertAll settings index secrets).result = .ok gs) :
    (convertAll settings index secrets).log =
      secrets.flatMap fun s => (convertSecret settings index s).log := by
  have hsteps := exists_convertAll_iff.mp ⟨gs, h⟩
  rw [← Run.log_mapM hsteps]
  unfold convertAll
  obtain ⟨steps, hmapM⟩ := Except.exists_mapM_eq_ok.mpr hsteps
  rw [← Run.result_mapM] at hmapM
  rw [Run.log_bind_of_result hmapM, Run.log_pure, List.append_nil]

theorem warnings_convertAll {settings : Settings} {index : ClusterIndex}
    {secrets : List SourceSecret} {gs : List GeneratedSecret}
    (h : (convertAll settings index secrets).result = .ok gs) :
    warnings (convertAll settings index secrets).log = secrets.filterMap skipWarning? := by
  rw [log_convertAll h, warnings, List.filter_flatMap, List.filterMap_eq_flatMap_toList]
  congr 1
  funext s
  exact warnings_convertSecret settings index s

/-! ### Secrets and clusters -/

theorem convert_eq_ok {settings : Settings} {secrets : List SourceSecret}
    {clusters : List SourceCluster} {gs : List GeneratedSecret} :
    (convert settings secrets clusters).result = .ok gs ↔
      ∃ index, ClusterIndex.ofList clusters = .ok index ∧
        (convertAll settings index secrets).result = .ok gs := by
  unfold convert
  rw [Run.result_bind_eq_ok]
  simp only [Run.result_ofFault, Fault.lift_eq_ok]

theorem generates_of_convert_single {settings : Settings} {s : SourceSecret}
    {clusters : List SourceCluster} {g : GeneratedSecret}
    (h : (convert settings [s] clusters).result = .ok [g]) :
    ∃ index, ClusterIndex.ofList clusters = .ok index ∧ Generates settings index s g := by
  obtain ⟨index, hindex, hall⟩ := convert_eq_ok.mp h
  obtain ⟨s', rest, hg, -, hsource⟩ := List.forall₂_cons_right_iff.mp (forall₂_generates hall)
  have hmem : s' ∈ [s].filter isConvertible := hsource ▸ List.mem_cons_self
  rw [List.mem_singleton.mp (List.mem_of_mem_filter hmem)] at hg
  exact ⟨index, hindex, hg⟩

theorem log_convert {clusters : List SourceCluster} {index : ClusterIndex}
    (h : ClusterIndex.ofList clusters = .ok index) (settings : Settings)
    (secrets : List SourceSecret) :
    (convert settings secrets clusters).log = (convertAll settings index secrets).log := by
  unfold convert
  rw [h]
  rfl

end ClusterRegistrar.Conversion
