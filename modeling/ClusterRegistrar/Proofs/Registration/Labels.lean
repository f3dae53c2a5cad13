import ClusterRegistrar.Proofs.Registration
import ClusterRegistrar.Proofs.TakeAlong.Scan

/-! The labels of a secret, layer by layer. Each layer is set over those before it: a key that is there
keeps its place and gets the later value, and a new key goes behind the others. So no layer can take a
label away, and a secret that registers a workload cluster always names its source. -/
namespace ClusterRegistrar

/-! ### Keys -/

namespace Entries

variable {entries more : Entries} {keys added : List Text}

/-- The keys of entries are some texts, in this order and all of them different. -/
structure HasKeys (entries : Entries) (keys : List Text) : Prop where
  map_fst : entries.map Prod.fst = keys.map Atom.str
  distinct : keys.Nodup

theorem HasKeys.texts_eq (h : entries.HasKeys keys) : entries.texts = keys := by
  have hkeys := h.map_fst
  clear h
  induction entries generalizing keys with
  | nil => exact (List.map_eq_nil_iff.mp hkeys.symm).symm
  | cons first rest ih =>
    cases keys with
    | nil => cases hkeys
    | cons t keys =>
      obtain ⟨hfirst, hrest⟩ := List.cons.inj hkeys
      obtain ⟨key, v⟩ := first
      obtain rfl : key = .str t := hfirst
      exact congrArg (t :: ·) (ih hrest)

theorem HasKeys.field?_isSome_iff (h : entries.HasKeys keys) {t : Text} :
    (entries.field? t).isSome ↔ t ∈ keys := by
  rw [Entries.field?_isSome_iff, h.texts_eq]

theorem HasKeys.put (h : entries.HasKeys keys) (t : Text) (v : Value) :
    HasKeys (Keyed.put entries (.str t) v) (if t ∈ keys then keys else keys ++ [t]) := by
  constructor
  · exact Keyed.map_fst_put h.map_fst t v
  · split
    · exact h.distinct
    · rename_i hnew
      rw [List.nodup_append]
      refine ⟨h.distinct, List.nodup_singleton t, fun u hu t' ht' heq => ?_⟩
      rw [List.mem_singleton.mp ht'] at heq
      exact hnew (heq ▸ hu)

theorem HasKeys.putAll (h : entries.HasKeys keys) (hmore : more.HasKeys added) :
    HasKeys (Keyed.putAll entries more) (keys ++ added.filter (· ∉ keys)) := by
  induction more generalizing entries keys added with
  | nil =>
    obtain rfl : added = [] := by simpa using hmore.map_fst.symm
    simpa [Keyed.putAll] using h
  | cons first rest ih =>
    cases added with
    | nil => cases hmore.map_fst
    | cons t added =>
      obtain ⟨hfirst, hrest⟩ := List.cons.inj hmore.map_fst
      obtain ⟨hnew, hdistinct⟩ := List.nodup_cons.mp hmore.distinct
      have hset := ih (h.put t first.2) ⟨hrest, hdistinct⟩
      rw [← hfirst] at hset
      -- What follows the first key differs from it, so the filter does not see whether it was there.
      have hkeys : (if t ∈ keys then keys else keys ++ [t]) ++
          added.filter (· ∉ if t ∈ keys then keys else keys ++ [t]) =
            keys ++ (t :: added).filter (· ∉ keys) := by
        by_cases ht : t ∈ keys
        · simp [ht]
        · have hsame : added.filter (· ∉ keys ++ [t]) = added.filter (· ∉ keys) := by
            apply List.filter_congr
            intro u hu
            have hne : u ≠ t := fun heq => hnew (heq ▸ hu)
            simp [hne]
          simp only [ht, if_false, hsame, not_false_eq_true, decide_true, List.filter_cons_of_pos,
            List.append_assoc, List.singleton_append]
      rw [hkeys] at hset
      exact hset

/-- What is under a key is what the later entries have there, if they have it. -/
theorem HasKeys.field?_putAll (hmore : more.HasKeys added) (entries : Entries) (t : Text) :
    field? (Keyed.putAll entries more) t = (more.field? t).or (entries.field? t) := by
  induction more generalizing entries added with
  | nil => rfl
  | cons first rest ih =>
    cases added with
    | nil => cases hmore.map_fst
    | cons u added =>
      obtain ⟨hfirst, hkeys⟩ := List.cons.inj hmore.map_fst
      obtain ⟨hnew, hdistinct⟩ := List.nodup_cons.mp hmore.distinct
      have hrest : HasKeys rest added := ⟨hkeys, hdistinct⟩
      obtain ⟨key, v⟩ := first
      obtain rfl : key = .str u := hfirst
      have hset : field? (Keyed.putAll entries ((.str u, v) :: rest)) t =
          (field? rest t).or (field? (Keyed.put entries (.str u) v) t) := ih hrest _
      rw [hset]
      by_cases ht : u = t
      · subst ht
        have hmissing : field? rest u = none := by
          rw [← Option.not_isSome_iff_eq_none, hrest.field?_isSome_iff]
          exact hnew
        have hhead : field? ((.str u, v) :: rest) u = some v := by
          rw [field?, Keyed.get?, if_pos (Atom.same_str.mpr rfl)]
        rw [hmissing, hhead, field?, Keyed.get?_put_same]
        rfl
      · have hother : ¬Atom.same (.str u) (.str t) := by
          rw [Atom.same_str, Atom.str.injEq]
          exact ht
        have hhead : field? ((.str u, v) :: rest) t = field? rest t := by
          rw [field?, Keyed.get?, if_neg hother]
          rfl
        rw [hhead, field?, field?, Keyed.get?_put_other _ _ ht]
        rfl

end Entries

/-! ### What is taken along -/

namespace TakeAlong

theorem hasKeys_add {name : Text} {metadata : Value} {resource : Option Text} {o p : Outcome}
    {target : Text} (h : Outcome.add name metadata resource o target = .ok p)
    (ho : ∃ keys, o.entries.HasKeys keys) : ∃ keys, p.entries.HasKeys keys := by
  obtain ⟨keys, hkeys⟩ := ho
  obtain ⟨found, -, hp⟩ := Except.bind_eq_ok.mp h
  cases found with
  | none =>
    cases hp
    exact ⟨keys, hkeys⟩
  | some value =>
    cases hp
    exact ⟨_, (hkeys.put target value).put _ _⟩

theorem hasKeys_collect {kind : MetadataKind} {metadata : Value} {resource : Option Text}
    {o : Outcome} (h : (collect kind metadata resource).result = .ok o) :
    ∃ keys, o.entries.HasKeys keys := by
  have hnothing : Entries.HasKeys [] [] := ⟨rfl, List.nodup_nil⟩
  unfold collect at h
  obtain ⟨keys, -, h⟩ := Run.result_bind_eq_ok.mp h
  obtain ⟨scan, -, h⟩ := Run.result_bind_eq_ok.mp h
  cases scan with
  | error problem =>
    cases h
    exact ⟨[], hnothing⟩
  | ok found =>
    rw [Run.result_ofFault, Fault.lift_eq_ok] at h
    have hstart : ∃ keys, (⟨[], []⟩ : Outcome).entries.HasKeys keys := ⟨[], hnothing⟩
    generalize (⟨[], []⟩ : Outcome) = start at h hstart
    induction found generalizing start with
    | nil =>
      cases h
      exact hstart
    | cons target rest ih =>
      rw [List.foldlM_cons] at h
      obtain ⟨next, hnext, h⟩ := Except.bind_eq_ok.mp h
      exact ih next h (hasKeys_add hnext hstart)

end TakeAlong

/-! ### Layers -/

namespace Registration

/-- Labels in three layers. The keys are those of all layers, each one in the place of the first layer
that has it, and its value is that of the last one. -/
structure AreLayered (common source taken labels : Entries) : Prop where
  keys : labels.map Prod.fst = (common.texts ++ source.texts.filter (· ∉ common.texts) ++
    taken.texts.filter fun t => t ∉ common.texts ∧ t ∉ source.texts).map Atom.str
  value : ∀ t, labels.field? t = (taken.field? t).or ((source.field? t).or (common.field? t))

theorem hasKeys_commonLabels :
    commonLabels.HasKeys ["capi-to-argocd/owned", "argocd.argoproj.io/secret-type"] :=
  ⟨rfl, by decide⟩

def sourceKeys : List Text :=
  ["capi-to-argocd/cluster-secret-name", "capi-to-argocd/cluster-namespace"]

theorem hasKeys_labelsOfSource {w : WorkloadCluster} {source : Entries}
    (h : labelsOfSource w = .ok source) : source.HasKeys sourceKeys := by
  obtain ⟨name, -, hsource⟩ := Except.bind_eq_ok.mp h
  cases hsource
  exact ⟨rfl, by decide⟩

theorem areLayered_putAll {common source taken : Entries} {keys named added : List Text}
    (hcommon : common.HasKeys keys) (hsource : source.HasKeys named) (htaken : taken.HasKeys added) :
    AreLayered common source taken ((Keyed.putAll common source).putAll taken) := by
  constructor
  · rw [((hcommon.putAll hsource).putAll htaken).map_fst, hcommon.texts_eq, hsource.texts_eq,
      htaken.texts_eq]
    congr 2
    apply List.filter_congr
    intro t _
    by_cases ht : t ∈ keys <;> simp [ht]
  · intro t
    rw [htaken.field?_putAll, hsource.field?_putAll]

theorem AreLayered.field?_isSome_iff {common source taken labels : Entries}
    (h : AreLayered common source taken labels) {t : Text} :
    (labels.field? t).isSome ↔ t ∈ common.texts ∨ t ∈ source.texts ∨ t ∈ taken.texts := by
  rw [h.value, Option.isSome_or, Option.isSome_or, Bool.or_eq_true, Bool.or_eq_true,
    Entries.field?_isSome_iff, Entries.field?_isSome_iff, Entries.field?_isSome_iff]
  tauto

/-- The labels of a registration are those of every secret of it. -/
theorem labels_of_toSecret {r : Registration} {labels : Entries} (h : r.mergedLabels = .ok labels)
    {validate : Bool} {g : GeneratedSecret} (hg : r.toSecret validate = .ok g) :
    g.labels = .map labels := by
  obtain ⟨_, merged, _, _, -, hmerged, -, -, rfl⟩ := toSecret_eq_ok.mp (toSecret_unvalidated hg)
  cases h.symm.trans hmerged
  rfl

theorem hasKeys_of_ofWorkload {settings : Settings} {w : WorkloadCluster} {s : SourceSecret}
    {cluster? : Option SourceCluster} {r : Registration} {problems : List TakeAlong.Problem}
    (h : (ofWorkload settings w s cluster?).result = .ok (r, problems)) :
    ∃ (source taken : Entries) (added : List Text), r.sourceLabels = .map source ∧
      r.takeAlongLabels = .map taken ∧ source.HasKeys sourceKeys ∧ taken.HasKeys added := by
  rw [result_ofWorkload] at h
  obtain ⟨taken, htaken, h⟩ := Except.bind_eq_ok.mp h
  obtain ⟨plain, hdraft, h⟩ := Except.bind_eq_ok.mp h
  cases h
  obtain ⟨-, ⟨source, hsource, hsourceLabels⟩, htakenLabels⟩ := names_of_draft (Fault.lift_eq_ok.mp hdraft)
  have hadded : ∃ added, taken.1.entries.HasKeys added := by
    cases cluster? with
    | none =>
      cases htaken
      exact ⟨[], rfl, List.nodup_nil⟩
    | some c =>
      obtain ⟨resource, hlabels, -⟩ := collect_of_takeAlong htaken
      exact TakeAlong.hasKeys_collect hlabels
  obtain ⟨added, hadded⟩ := hadded
  exact ⟨source, _, added, hsourceLabels, htakenLabels, hasKeys_labelsOfSource hsource, hadded⟩

theorem exists_layered {r : Registration} {source taken : Entries} {named added : List Text}
    (hsource : r.sourceLabels.entries? = some source) (htaken : r.takeAlongLabels.entries? = some taken)
    (hnamed : source.HasKeys named) (hadded : taken.HasKeys added) :
    ∃ labels, r.mergedLabels = .ok labels ∧ AreLayered commonLabels source taken labels := by
  refine ⟨_, ?_, areLayered_putAll hasKeys_commonLabels hnamed hadded⟩
  rw [mergedLabels, Value.toEntries, Value.toEntries, hsource, htaken]
  rfl

/-- The labels of a secret are the common ones, those that name the source and those that are taken
along, of which the last one of a key counts. No layer takes a label away, so the common ones are always
there, and so are the names of the source if the registration is that of a workload cluster. -/
theorem labels_in_layers :
    (∀ (r : Registration) (source taken : Entries) (named added : List Text),
      r.sourceLabels.entries? = some source → r.takeAlongLabels.entries? = some taken →
      source.HasKeys named → taken.HasKeys added → ∃ labels, r.mergedLabels = .ok labels ∧
        AreLayered commonLabels source taken labels ∧
        (∀ key ∈ commonLabels.texts, (labels.field? key).isSome) ∧
        ∀ validate g, r.toSecret validate = .ok g → g.labels = .map labels) ∧
    ∀ settings w s cluster? r problems,
      (ofWorkload settings w s cluster?).result = .ok (r, problems) →
      ∀ validate g, r.toSecret validate = .ok g → ∃ labels : Entries, g.labels = .map labels ∧
        ∀ key ∈ commonLabels.texts ++ sourceKeys, (labels.field? key).isSome := by
  constructor
  · intro r source taken named added hsource htaken hnamed hadded
    obtain ⟨labels, hmerged, hlayers⟩ := exists_layered hsource htaken hnamed hadded
    refine ⟨labels, hmerged, hlayers, ?_, fun validate g hg => labels_of_toSecret hmerged hg⟩
    intro key hkey
    exact hlayers.field?_isSome_iff.mpr (.inl hkey)
  · intro settings w s cluster? r problems hr validate g hg
    obtain ⟨source, taken, added, hsource, htaken, hnamed, hadded⟩ := hasKeys_of_ofWorkload hr
    obtain ⟨labels, hmerged, hlayers⟩ :=
      exists_layered (congrArg Value.entries? hsource) (congrArg Value.entries? htaken) hnamed hadded
    refine ⟨labels, labels_of_toSecret hmerged hg, ?_⟩
    intro key hkey
    rw [hlayers.field?_isSome_iff, hnamed.texts_eq]
    rcases List.mem_append.mp hkey with hcommon | hnames
    · exact .inl hcommon
    · exact .inr (.inl hnames)

def crossedRegistration : Registration where
  identity := ⟨"argocd", "cluster-p"⟩
  clusterName := "p"
  server := "s"
  sourceLabels := .map [(.str "team", "blue"), (.str "capi-to-argocd/owned", "no")]
  takeAlongLabels := .map [(.str "env", "prod"), (.str "argocd.argoproj.io/secret-type", .null),
    (.str "team", "red")]

def renamingCluster : SourceCluster where
  name := "p"
  space := "ns"
  labels := .map [(.str "take-along-label.capi-to-argocd.capi-to-argocd/cluster-namespace", ""),
    (.str "capi-to-argocd/cluster-namespace", "elsewhere")]

def renamedSource : SourceSecret where
  name := "p-kubeconfig"
  space := "ns"

def renamedWorkload : WorkloadCluster where
  name := "p"
  space := "ns"
  kubeConfig := ⟨[⟨"a", "b", .null⟩], [⟨"c", .null, .null, .null⟩]⟩

theorem crossed_labels_in_layers :
    (∃ (g : GeneratedSecret) (labels : Entries), crossedRegistration.toSecret false = .ok g ∧
      g.labels = .map labels ∧
      labels.texts = ["capi-to-argocd/owned", "argocd.argoproj.io/secret-type", "team", "env"] ∧
      labels.field? "capi-to-argocd/owned" = some "no" ∧
      labels.field? "argocd.argoproj.io/secret-type" = some .null ∧
      labels.field? "team" = some "red") ∧
    ∃ (r : Registration) (problems : List TakeAlong.Problem) (g : GeneratedSecret) (labels : Entries),
      (ofWorkload {} renamedWorkload renamedSource renamingCluster).result = .ok (r, problems) ∧
        r.toSecret false = .ok g ∧ g.labels = .map labels ∧
        (labels.field? "capi-to-argocd/cluster-namespace").isSome := by
  obtain ⟨hlayers, hnamed⟩ := labels_in_layers
  constructor
  · obtain ⟨g, hg, -⟩ : ∃ g, crossedRegistration.toSecret false = .ok g ∧ true = true :=
      Except.exists_of_any (by decide +kernel)
    obtain ⟨labels, -, ⟨hkeys, hvalue⟩, -, hsecret⟩ := hlayers crossedRegistration _ _
      ["team", "capi-to-argocd/owned"] ["env", "argocd.argoproj.io/secret-type", "team"] rfl rfl
      ⟨rfl, by decide⟩ ⟨rfl, by decide⟩
    refine ⟨g, labels, hg, hsecret false g hg, Entries.HasKeys.texts_eq ⟨hkeys, by decide⟩, ?_, ?_, ?_⟩
    · exact hvalue _
    · exact hvalue _
    · exact hvalue _
  · obtain ⟨⟨r, problems⟩, hr, htest⟩ : ∃ made,
        (ofWorkload {} renamedWorkload renamedSource renamingCluster).result = .ok made ∧
          (made.1.toSecret false).toOption.any (fun _ => true) = true :=
      Except.exists_of_any (by decide +kernel)
    obtain ⟨g, hg, -⟩ := Except.exists_of_any htest
    obtain ⟨labels, hlabels, hthere⟩ := hnamed _ _ _ _ r problems hr false g hg
    exact ⟨r, problems, g, labels, hr, hg, hlabels, hthere _ (by decide)⟩

end Registration
end ClusterRegistrar
