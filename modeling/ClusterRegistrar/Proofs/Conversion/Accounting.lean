import ClusterRegistrar.Proofs.Conversion

/-! A conversion takes its secrets one by one. Two lists of secrets that are converted behind each
other give what they give apart, and every secret ends in exactly one place: as a generated secret,
in a note that it is passed over, or in a warning that it is skipped. -/
namespace ClusterRegistrar.Conversion

/-! ### Behind each other -/

theorem convertAll_append (settings : Settings) (index : ClusterIndex)
    (first second : List SourceSecret) :
    convertAll settings index (first ++ second) = do
      let gs ← convertAll settings index first
      return gs ++ (← convertAll settings index second) := by
  unfold convertAll
  simp only [List.mapM_append, bind_assoc, pure_bind, List.flatMap_append]

theorem convert_append (settings : Settings) (first second : List SourceSecret)
    (clusters : List SourceCluster) :
    convert settings (first ++ second) clusters = do
      let gs ← convert settings first clusters
      return gs ++ (← convert settings second clusters) := by
  unfold convert
  cases ClusterIndex.ofList clusters with
  | error f => rfl
  | ok index => exact convertAll_append settings index first second

/-! ### What becomes of a secret -/

inductive Fate where
  | generated (g : GeneratedSecret)
  | passed (note : Record)
  | skipped (warning : Record)

namespace Fate

def generated? : Fate → Option GeneratedSecret
  | generated g => some g
  | _ => none

def note? : Fate → Option Record
  | passed note => some note
  | _ => none

def warning? : Fate → Option Record
  | skipped warning => some warning
  | _ => none

theorem length_filterMap (fates : List Fate) :
    (fates.filterMap generated?).length + (fates.filterMap note?).length +
      (fates.filterMap warning?).length = fates.length := by
  induction fates with
  | nil => rfl
  | cons fate rest ih =>
    cases fate <;> simp only [List.filterMap_cons, generated?, note?, warning?, List.length_cons] <;>
      omega

end Fate

/-- A secret meets its fate: it is generated from what is read, or it is no source and is passed
over, or it is a source and is skipped for a reason. -/
inductive Meets (settings : Settings) (index : ClusterIndex) (s : SourceSecret) : Fate → Prop where
  | generated {g : GeneratedSecret} (h : Generates settings index s g) :
    Meets settings index s (.generated g)
  | passed (hs : ¬IsSource s) : Meets settings index s (.passed (passNote s))
  | skipped {warning : Record} (hs : IsSource s) (h : skipWarning? s = some warning) :
    Meets settings index s (.skipped warning)

def passNotes (log : List Record) : List Record :=
  log.filter fun record => record.level = .debug ∧ record.source = .conversion

theorem passNotes_convertSecret (settings : Settings) (index : ClusterIndex) (s : SourceSecret) :
    passNotes (convertSecret settings index s).log = passNotes (notice? s).toList := by
  apply filter_convertSecret
  · intro r h
    simp [h.2]
  · intro r h
    simp [h]

theorem passNotes_skipWarning? (s : SourceSecret) : passNotes (skipWarning? s).toList = [] := by
  unfold skipWarning?
  split
  · rfl
  · rfl

theorem skipWarning?_of_foreign {s : SourceSecret} (hs : ¬IsSource s) : skipWarning? s = none := by
  unfold skipWarning?
  split
  · rename_i hcapi hnamed _
    exact absurd ⟨hcapi, hnamed⟩ hs
  · rfl

theorem notice?_of_foreign {s : SourceSecret} (hs : ¬IsSource s) {settings : Settings}
    {index : ClusterIndex} {step : Option GeneratedSecret}
    (h : (convertSecret settings index s).result = .ok step) : notice? s = some (passNote s) := by
  rw [result_convertSecret_foreign hs] at h
  unfold notice?
  cases hcapi : s.isCapi with
  | false => rfl
  | true =>
    rw [hcapi] at h
    cases hnamed : s.hasKubeconfigName with
    | error f =>
      rw [hnamed] at h
      cases h
    | ok named =>
      cases named with
      | false => rfl
      | true => exact absurd ⟨hcapi, hnamed⟩ hs

theorem exists_fate {settings : Settings} {index : ClusterIndex} {s : SourceSecret}
    {step : Option GeneratedSecret} (h : (convertSecret settings index s).result = .ok step) :
    ∃ fate, Meets settings index s fate ∧ fate.generated? = step ∧
      fate.note?.toList = passNotes (convertSecret settings index s).log ∧
      fate.warning?.toList = warnings (convertSecret settings index s).log := by
  rw [passNotes_convertSecret, warnings_convertSecret]
  by_cases hs : IsSource s
  · rw [notice?_of_isSource hs, passNotes_skipWarning?]
    rw [result_convertSecret hs] at h
    cases hw : (WorkloadCluster.ofSecret s).result with
    | ok w =>
      rw [hw] at h
      obtain ⟨g, hg, hstep⟩ := Except.bind_eq_ok.mp h
      cases hstep
      have hwarning : skipWarning? s = none := by
        unfold skipWarning?
        rw [hs.1, hs.2, hw]
      exact ⟨.generated g, .generated ⟨w, hw, hg⟩, rfl, rfl, by rw [hwarning]; rfl⟩
    | error e =>
      rw [hw] at h
      cases e with
      | rejected reason =>
        cases h
        obtain ⟨warning, hwarning⟩ : ∃ warning, skipWarning? s = some warning := by
          unfold skipWarning?
          rw [hs.1, hs.2, hw]
          exact ⟨_, rfl⟩
        exact ⟨.skipped warning, .skipped hs hwarning, rfl, rfl, by rw [hwarning]; rfl⟩
      | fault f => cases h
  · cases eq_none_of_foreign hs h
    rw [notice?_of_foreign hs h, skipWarning?_of_foreign hs]
    exact ⟨.passed (passNote s), .passed hs, rfl, rfl, rfl⟩

/-- A pass that returns has one fate for each secret: the generated secrets, the notes and the
warnings are those of the fates, in their order. -/
theorem exists_fates {settings : Settings} {index : ClusterIndex} {secrets : List SourceSecret}
    {gs : List GeneratedSecret} (h : (convertAll settings index secrets).result = .ok gs) :
    ∃ fates, List.Forall₂ (Meets settings index) secrets fates ∧
      fates.filterMap Fate.generated? = gs ∧
      fates.filterMap Fate.note? = passNotes (convertAll settings index secrets).log ∧
      fates.filterMap Fate.warning? = warnings (convertAll settings index secrets).log := by
  have hnotes : passNotes (convertAll settings index secrets).log =
      secrets.flatMap fun s => passNotes (convertSecret settings index s).log := by
    rw [log_convertAll h]
    exact List.filter_flatMap
  have hwarnings : warnings (convertAll settings index secrets).log =
      secrets.flatMap fun s => warnings (convertSecret settings index s).log := by
    rw [log_convertAll h]
    exact List.filter_flatMap
  obtain ⟨steps, hsteps, rfl⟩ := convertAll_eq_ok.mp h
  rw [hnotes, hwarnings]
  simp only [List.filterMap_eq_flatMap_toList]
  clear h hnotes hwarnings
  induction hsteps with
  | nil => exact ⟨[], .nil, rfl, rfl, rfl⟩
  | cons hstep _ ih =>
    obtain ⟨fates, hfates, hgenerated, hnotes, hwarnings⟩ := ih
    obtain ⟨fate, hfate, hfirst, hnote, hwarning⟩ := exists_fate hstep
    refine ⟨fate :: fates, .cons hfate hfates, ?_, ?_, ?_⟩
    · rw [List.flatMap_cons, List.flatMap_cons, hgenerated, hfirst]
    · rw [List.flatMap_cons, List.flatMap_cons, hnotes, hnote]
    · rw [List.flatMap_cons, List.flatMap_cons, hwarnings, hwarning]

/-! ### Secrets and clusters -/

/-- A conversion of two lists fails as the first one does, else as the second one does, else it
returns and logs what the two return and log, in this order. When a conversion returns, the generated
secrets, the notes and the warnings make up the fates of its secrets. -/
theorem appended_and_accounted (settings : Settings) (clusters : List SourceCluster) :
    (∀ first second : List SourceSecret,
      (∀ e, (convert settings first clusters).result = .error e →
        (convert settings (first ++ second) clusters).result = .error e ∧
          (convert settings (first ++ second) clusters).log =
            (convert settings first clusters).log) ∧
      ∀ gs, (convert settings first clusters).result = .ok gs →
        (∀ e, (convert settings second clusters).result = .error e →
          (convert settings (first ++ second) clusters).result = .error e) ∧
        (∀ hs, (convert settings second clusters).result = .ok hs →
          (convert settings (first ++ second) clusters).result = .ok (gs ++ hs)) ∧
        (convert settings (first ++ second) clusters).log =
          (convert settings first clusters).log ++ (convert settings second clusters).log) ∧
    ∀ secrets gs, (convert settings secrets clusters).result = .ok gs →
      ∃ index fates, ClusterIndex.ofList clusters = .ok index ∧
        List.Forall₂ (Meets settings index) secrets fates ∧
        fates.filterMap Fate.generated? = gs ∧
        fates.filterMap Fate.note? = passNotes (convert settings secrets clusters).log ∧
        fates.filterMap Fate.warning? = warnings (convert settings secrets clusters).log ∧
        gs.length + (passNotes (convert settings secrets clusters).log).length +
          (warnings (convert settings secrets clusters).log).length = secrets.length := by
  constructor
  · intro first second
    have hjoins := Run.joins_of_eq (convert_append settings first second clusters)
    exact ⟨hjoins.of_error, hjoins.of_ok⟩
  · intro secrets gs h
    obtain ⟨index, hindex, hall⟩ := convert_eq_ok.mp h
    rw [log_convert hindex]
    obtain ⟨fates, hfates, hgenerated, hnotes, hwarnings⟩ := exists_fates hall
    refine ⟨index, fates, hindex, hfates, hgenerated, hnotes, hwarnings, ?_⟩
    rw [← hgenerated, ← hnotes, ← hwarnings, Fate.length_filterMap, hfates.length_eq]

def assorted : List SourceSecret :=
  [.ofContent "ns" "p-kubeconfig" "!", .ofContent "ns" "p-ca" SourceSecret.plainContent,
    { SourceSecret.ofContent "ns" "p-kubeconfig" SourceSecret.plainContent with type := "Opaque" },
    .ofContent "ns" "q-kubeconfig" SourceSecret.plainContent]

def stopping : List SourceSecret := [.ofContent "ns" "r-kubeconfig" "é"]

theorem assorted_appended_and_accounted :
    (∃ gs, (convert {} assorted []).result = .ok gs ∧ gs.length = 1 ∧
      (passNotes (convert {} assorted []).log).length = 2 ∧
      (warnings (convert {} assorted []).log).length = 1 ∧
      (convert {} (assorted ++ assorted) []).result = .ok (gs ++ gs)) ∧
    (convert {} stopping []).result = .error (.fault .wideBase64) ∧
    (convert {} (assorted ++ stopping) []).result = .error (.fault .wideBase64) ∧
    (convert {} (stopping ++ assorted) []).result = .error (.fault .wideBase64) := by
  obtain ⟨gs, hgs, hlength⟩ : ∃ gs, (convert {} assorted []).result = .ok gs ∧
      decide (gs.length = 1) = true := Except.exists_of_any (by decide +kernel)
  have hlength := of_decide_eq_true hlength
  have hstop : (convert {} stopping []).result = .error (.fault .wideBase64) := by rfl
  have hwarnings : (warnings (convert {} assorted []).log).length = 1 := by decide +kernel
  obtain ⟨happend, haccount⟩ := appended_and_accounted {} []
  obtain ⟨_, _, -, -, -, -, -, htotal⟩ := haccount assorted gs hgs
  have hfour : assorted.length = 4 := rfl
  obtain ⟨hfail, hgo, -⟩ := (happend assorted stopping).2 gs hgs
  refine ⟨⟨gs, hgs, hlength, by omega, hwarnings, ?_⟩, hstop, hfail _ hstop, ?_⟩
  · exact ((happend assorted assorted).2 gs hgs).2.1 gs hgs
  · exact ((happend stopping assorted).1 _ hstop).1

end ClusterRegistrar.Conversion
