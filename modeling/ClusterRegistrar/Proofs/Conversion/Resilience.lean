import ClusterRegistrar.Proofs.Conversion
import ClusterRegistrar.Proofs.Pairing

/-! What one bad kubeconfig does to the others. A pass over secrets of texts ends early for a few
contents only, and in all other cases a bad kubeconfig costs its own entry and is warned of. -/
namespace ClusterRegistrar.Conversion

/-- A secret that ends the pass over all of them. -/
inductive Stops (settings : Settings) (s : SourceSecret) : Prop where
  | unreadable (hs : IsSource s) (h : WorkloadCluster.Unreadable s)
  | unwritable {w : WorkloadCluster} {cluster : KubeCluster} {space name server : Text}
    (hw : (WorkloadCluster.ofSecret s).result = .ok w)
    (hcluster : w.kubeConfig.clusters.head? = some cluster) (hspace : s.space = .str space)
    (hname : cluster.name = .str name) (hserver : cluster.server = .str server)
    (h : ¬((Naming.qualified settings space name).IsScalar ∧ server.IsScalar))

theorem exists_register_iff {settings : Settings} (htls : settings.validateTls = false)
    {clusters : List SourceCluster} (hclusters : ∀ c ∈ clusters, c.IsTextual) {index : ClusterIndex}
    (hindex : ClusterIndex.ofList clusters = .ok index) {s : SourceSecret} (hs : s.IsTextual)
    {w : WorkloadCluster} {base space name server : Text} {cluster : KubeCluster} {user : KubeUser}
    (hparts : w.Parts s base cluster user) (hspace : s.space = .str space)
    (hname : cluster.name = .str name) (hserver : cluster.server = .str server) :
    (∃ g, (register settings index s w).result = .ok g) ↔
      (Naming.qualified settings space name).IsScalar ∧ server.IsScalar := by
  obtain ⟨cluster?, hfound⟩ := exists_findCluster hs index
  have hreadable : ∀ c, cluster? = some c → c.IsReadable := by
    rintro c rfl
    exact (hclusters c (mem_of_findCluster hindex hfound)).isReadable
  obtain ⟨taken, htaken⟩ := Registration.exists_takeAlong hreadable
  rw [result_register_eq hparts hspace hname hfound htaken, htls]
  exact Registration.exists_toSecret_ofParts_iff hparts.textualCluster hparts.textualUser hserver

theorem exists_convertSecret_iff {settings : Settings} (htls : settings.validateTls = false)
    {clusters : List SourceCluster} (hclusters : ∀ c ∈ clusters, c.IsTextual) {index : ClusterIndex}
    (hindex : ClusterIndex.ofList clusters = .ok index) {s : SourceSecret} (hs : s.IsTextual) :
    (∃ step, (convertSecret settings index s).result = .ok step) ↔ ¬Stops settings s := by
  by_cases hsource : IsSource s
  -- Reading decides: a rejection is skipped, a fault stops, and what is read may be unwritable.
  · have hunreadable := WorkloadCluster.ofSecret_fault_iff hs hsource.1 hsource.2
    rw [result_convertSecret hsource]
    cases hw : (WorkloadCluster.ofSecret s).result with
    | error e =>
      rw [hw] at hunreadable
      cases e with
      | rejected reason =>
        refine iff_of_true ⟨none, rfl⟩ ?_
        rintro (⟨-, h⟩ | ⟨hw', -⟩)
        · obtain ⟨f, hf⟩ := hunreadable.mpr h
          cases hf
        · cases hw.symm.trans hw'
      | fault f =>
        have hstops : Stops settings s := .unreadable hsource (hunreadable.mp ⟨f, rfl⟩)
        refine iff_of_false ?_ (not_not_intro hstops)
        rintro ⟨step, hstep⟩
        cases hstep
    | ok w =>
      rw [hw] at hunreadable
      obtain ⟨base, cluster, user, hparts⟩ := WorkloadCluster.exists_parts hw
      obtain ⟨space, hspace⟩ := hs.space
      obtain ⟨name, hname⟩ := hparts.textualCluster.name
      obtain ⟨server, hserver⟩ := hparts.textualCluster.server
      have hregister := exists_register_iff htls hclusters hindex hs hparts hspace hname hserver
      constructor
      · rintro ⟨step, hstep⟩ (⟨-, h⟩ | ⟨hw', hcluster, hspace', hname', hserver', h⟩)
        · obtain ⟨f, hf⟩ := hunreadable.mpr h
          cases hf
        · obtain ⟨g, hg, -⟩ := Except.bind_eq_ok.mp hstep
          cases hw.symm.trans hw'
          cases hparts.firstCluster.symm.trans hcluster
          cases hspace.symm.trans hspace'
          cases hname.symm.trans hname'
          cases hserver.symm.trans hserver'
          exact h (hregister.mp ⟨g, hg⟩)
      · intro hgo
        have hwritable : (Naming.qualified settings space name).IsScalar ∧ server.IsScalar := by
          by_contra h
          exact hgo (.unwritable hw hparts.firstCluster hspace hname hserver h)
        obtain ⟨g, hg⟩ := hregister.mpr hwritable
        exact ⟨some g, Except.bind_eq_ok.mpr ⟨g, hg, rfl⟩⟩
  · obtain ⟨name, hname⟩ := hs.name
    have hgo : ¬Stops settings s := by
      rintro (⟨h, -⟩ | ⟨hw, -⟩)
      · exact hsource h
      · exact hsource (isSource_of_ofSecret hw)
    refine iff_of_true ⟨none, ?_⟩ hgo
    rw [result_convertSecret_foreign hsource, SourceSecret.hasKubeconfigName, hname]
    cases s.isCapi <;> rfl

/-- A pass over secrets and clusters of texts returns exactly if no secret stops it. If it returns,
the generated secrets are those of the secrets that can be read, in their order, and there is one
warning for each secret that should hold a kubeconfig and is rejected. -/
theorem convert_returns_iff_none_stops {settings : Settings} (htls : settings.validateTls = false)
    {secrets : List SourceSecret} (hsecrets : ∀ s ∈ secrets, s.IsTextual)
    {clusters : List SourceCluster} (hclusters : ∀ c ∈ clusters, c.IsTextual) :
    ((∃ gs, (convert settings secrets clusters).result = .ok gs) ↔
        ∀ s ∈ secrets, ¬Stops settings s) ∧
      ∀ gs, (convert settings secrets clusters).result = .ok gs →
        (∃ index, ClusterIndex.ofList clusters = .ok index ∧
          List.Forall₂ (Generates settings index) (secrets.filter isConvertible) gs) ∧
        warnings (convert settings secrets clusters).log = secrets.filterMap skipWarning? := by
  obtain ⟨index, hindex⟩ := exists_ofList hclusters
  constructor
  · have hsteps : (∀ s ∈ secrets, ∃ step, (convertSecret settings index s).result = .ok step) ↔
        ∀ s ∈ secrets, ¬Stops settings s :=
      forall₂_congr fun s hs => exists_convertSecret_iff htls hclusters hindex (hsecrets s hs)
    rw [← hsteps, ← exists_convertAll_iff]
    simp only [convert_eq_ok, hindex, Except.ok.injEq, exists_eq_left']
  · intro gs h
    obtain ⟨index', hindex', hall⟩ := convert_eq_ok.mp h
    cases hindex.symm.trans hindex'
    refine ⟨⟨index, hindex, forall₂_generates hall⟩, ?_⟩
    rw [log_convert hindex]
    exact warnings_convertAll hall

def wideSource : SourceSecret := .ofContent "ns" "p-kubeconfig" "é"

def brokenSource : SourceSecret := .ofContent "ns" "p-kubeconfig" "!"

def soundSource : SourceSecret := .ofContent "ns" "q-kubeconfig" SourceSecret.plainContent

def soundCluster : SourceCluster := { name := "q", space := "ns" }

theorem wide_stops_broken_does_not :
    soundCluster.IsTextual ∧ (∀ s ∈ [wideSource, brokenSource, soundSource], s.IsTextual) ∧
      (¬∃ gs, (convert {} [wideSource, soundSource] [soundCluster]).result = .ok gs) ∧
      ∃ gs, (convert {} [brokenSource, soundSource] [soundCluster]).result = .ok gs ∧
        gs.length = 1 ∧
        (warnings (convert {} [brokenSource, soundSource] [soundCluster]).log).length = 1 := by
  have htextual : ∀ s ∈ [wideSource, brokenSource, soundSource], s.IsTextual := by
    simp only [List.forall_mem_cons]
    exact ⟨SourceSecret.isTextual_ofContent .., SourceSecret.isTextual_ofContent ..,
      SourceSecret.isTextual_ofContent .., by simp⟩
  have hcluster : soundCluster.IsTextual :=
    ⟨⟨_, rfl⟩, ⟨_, rfl⟩, ⟨_, rfl, by simp⟩, ⟨_, rfl, by simp⟩⟩
  have hclusters : ∀ c ∈ [soundCluster], c.IsTextual := by
    rintro c hc
    rwa [List.mem_singleton.mp hc]
  have hwide : ∀ s ∈ [wideSource, soundSource], s.IsTextual := by
    intro s hs
    exact htextual s (by grind)
  have hbroken : ∀ s ∈ [brokenSource, soundSource], s.IsTextual := by
    intro s hs
    exact htextual s (List.mem_cons_of_mem _ hs)
  refine ⟨hcluster, htextual, ?_, ?_⟩
  · have hvalue : Entries.field? [(.str "value", .str "é")] "value" = some (.str "é") := by
      simp [Entries.field?, Keyed.get?, Atom.same]
    have hletter : CodePoint.char 'é' ∈ ("é" : Text) := by decide
    have hstops : Stops {} wideSource :=
      .unreadable ⟨rfl, SourceSecret.hasKubeconfigName_iff.mpr ⟨"p", rfl⟩⟩
        (.wide rfl hvalue hletter (by decide))
    intro hreturns
    exact (convert_returns_iff_none_stops rfl hwide hclusters).1.mp hreturns wideSource
      List.mem_cons_self hstops
  · obtain ⟨gs, hgs, hlength⟩ : ∃ gs,
        (convert {} [brokenSource, soundSource] [soundCluster]).result = .ok gs ∧
          decide (gs.length = 1) = true := Except.exists_of_any (by decide +kernel)
    refine ⟨gs, hgs, of_decide_eq_true hlength, ?_⟩
    rw [((convert_returns_iff_none_stops rfl hbroken hclusters).2 gs hgs).2]
    decide +kernel

end ClusterRegistrar.Conversion
