import ClusterRegistrar.Proofs.Conversion
import ClusterRegistrar.Proofs.Pairing

/-! What a secret sees of the clusters. It is paired with the last cluster of the name that it asks
for, and no other cluster has any effect on what is generated for it: two lists of clusters in which
a secret finds the same one cannot be told apart by it. -/
namespace ClusterRegistrar.Conversion

/-! ### Two lists of clusters -/

/-- A secret finds the same cluster in two lists, or none in either. -/
def FindsAlike (left right : List SourceCluster) (s : SourceSecret) : Prop :=
  ∃ space name, BelongsTo s space name ∧ lastNamed? left space name = lastNamed? right space name

def inSpace (space : Text) (clusters : List SourceCluster) : List SourceCluster :=
  clusters.filter fun c => c.space.isText space

theorem lastNamed?_inSpace (clusters : List SourceCluster) (space name : Text) :
    lastNamed? (inSpace space clusters) space name = lastNamed? clusters space name := by
  rw [lastNamed?, lastNamed?, List.findRev?_eq_find?_reverse, List.findRev?_eq_find?_reverse,
    inSpace, ← List.filter_reverse, List.find?_filter]
  congr 1
  funext c
  simp [isNamed]

theorem lastNamed?_eq_some_of_distinct {clusters : List SourceCluster}
    (hdistinct : (clusters.map SourceCluster.identity).Nodup) {space name : Text}
    {c : SourceCluster} :
    lastNamed? clusters space name = some c ↔
      c ∈ clusters ∧ c.identity = ⟨.str space, .str name⟩ := by
  rw [lastNamed?_eq_some]
  constructor
  · rintro ⟨before, after, rfl, hc, -⟩
    exact ⟨by simp, hc⟩
  · rintro ⟨hmem, hc⟩
    obtain ⟨before, after, rfl⟩ := List.append_of_mem hmem
    refine ⟨before, after, rfl, hc, fun d hd hsame => ?_⟩
    have hafter : c.identity ∉ after.map SourceCluster.identity := by
      rw [List.map_append, List.map_cons] at hdistinct
      exact (List.nodup_cons.mp (List.nodup_append.mp hdistinct).2.1).1
    exact hafter (List.mem_map.mpr ⟨d, hd, hsame.trans hc.symm⟩)

theorem lastNamed?_perm {left right : List SourceCluster} (h : left.Perm right)
    (hdistinct : (left.map SourceCluster.identity).Nodup) (space name : Text) :
    lastNamed? left space name = lastNamed? right space name := by
  have hdistinct' : (right.map SourceCluster.identity).Nodup :=
    (h.map SourceCluster.identity).nodup_iff.mp hdistinct
  apply Option.ext
  intro c
  rw [lastNamed?_eq_some_of_distinct hdistinct, lastNamed?_eq_some_of_distinct hdistinct',
    h.mem_iff]

theorem findsAlike_of_textual {left right : List SourceCluster} {s : SourceSecret}
    (hs : s.IsTextual) (h : ∀ space name, s.space = .str space →
      lastNamed? left space name = lastNamed? right space name) : FindsAlike left right s := by
  obtain ⟨space, name, hbelongs⟩ := exists_belongsTo hs
  exact ⟨space, name, hbelongs, h space name hbelongs.space_eq⟩

/-! ### Two conversions -/

theorem FindsAlike.findCluster_eq {left right : List SourceCluster} {i j : ClusterIndex}
    (hleft : ClusterIndex.ofList left = .ok i) (hright : ClusterIndex.ofList right = .ok j)
    {s : SourceSecret} (h : FindsAlike left right s) : findCluster i s = findCluster j s := by
  obtain ⟨space, name, hbelongs, hsame⟩ := h
  rw [findCluster_eq_lastNamed? hleft hbelongs, findCluster_eq_lastNamed? hright hbelongs, hsame]

theorem convertSecret_congr {i j : ClusterIndex} {s : SourceSecret}
    (h : isConvertible s = true → findCluster i s = findCluster j s) (settings : Settings) :
    convertSecret settings i s = convertSecret settings j s := by
  by_cases hs : IsSource s
  · rw [convertSecret_of_isSource hs, convertSecret_of_isSource hs]
    refine Run.bind_congr_of_result fun outcome houtcome => ?_
    cases outcome with
    | error reason => rfl
    | ok w =>
      have hw := Run.result_attempt_eq_ok.mp houtcome
      unfold proceed register
      rw [h (isConvertible_iff.mpr ⟨w, hw⟩)]
  · rw [convertSecret_of_foreign hs, convertSecret_of_foreign hs]

theorem convertAll_congr {i j : ClusterIndex} {secrets : List SourceSecret}
    (h : ∀ s ∈ secrets, isConvertible s = true → findCluster i s = findCluster j s)
    (settings : Settings) : convertAll settings i secrets = convertAll settings j secrets := by
  have hsteps : secrets.mapM (convertSecret settings i) = secrets.mapM (convertSecret settings j) := by
    induction secrets with
    | nil => rfl
    | cons s rest ih =>
      obtain ⟨hfirst, hrest⟩ := List.forall_mem_cons.mp h
      rw [List.mapM_cons, List.mapM_cons, convertSecret_congr hfirst, ih hrest]
  unfold convertAll
  rw [hsteps]

theorem Generates.unique {settings : Settings} {i j : ClusterIndex} {s : SourceSecret}
    {g h : GeneratedSecret} (hg : Generates settings i s g) (hh : Generates settings j s h)
    (hsame : findCluster i s = findCluster j s) : g = h := by
  rw [← convertSecret_eq_some] at hg hh
  rw [convertSecret_congr (fun _ => hsame), hh] at hg
  cases hg
  rfl

private theorem exists_getElem?_of_forall₂ {R : α → β → Prop} {as : List α} {bs : List β}
    (h : List.Forall₂ R as bs) {k : Nat} {a : α} (ha : as[k]? = some a) :
    ∃ b, bs[k]? = some b ∧ R a b := by
  obtain ⟨hk, rfl⟩ := List.getElem?_eq_some_iff.mp ha
  have hk' : k < bs.length := h.length_eq ▸ hk
  exact ⟨bs[k], List.getElem?_eq_getElem hk', h.get hk hk'⟩

/-- A secret finds the last cluster of the name that it asks for, and none if there is none of that
name. A conversion cannot tell lists of clusters apart in which all secrets that can be read find the
same clusters, and between any two lists a secret that finds the same one is generated the same.
Clusters of other namespaces do not change what a secret finds, and neither does the order of
clusters that are named apart. -/
theorem pairing_isolated (settings : Settings) {left right : List SourceCluster}
    (hleft : ∀ c ∈ left, c.HasTextNames) (hright : ∀ c ∈ right, c.HasTextNames) :
    (∃ index, ClusterIndex.ofList left = .ok index ∧ ∀ s : SourceSecret,
      (s.IsTextual → ∃ space name, BelongsTo s space name) ∧
        ∀ space name, BelongsTo s space name →
          (∀ c, findCluster index s = .ok (some c) ↔
            ∃ before after, left = before ++ c :: after ∧
              c.identity = ⟨.str space, .str name⟩ ∧
              ∀ d ∈ after, d.identity ≠ ⟨.str space, .str name⟩) ∧
          (findCluster index s = .ok none ↔
            ∀ c ∈ left, c.identity ≠ ⟨.str space, .str name⟩)) ∧
    (∀ secrets, (∀ s ∈ secrets, isConvertible s = true → FindsAlike left right s) →
      convert settings secrets left = convert settings secrets right) ∧
    (∀ secrets gs hs, (convert settings secrets left).result = .ok gs →
      (convert settings secrets right).result = .ok hs →
      ∀ (k : Nat) (s : SourceSecret), (secrets.filter isConvertible)[k]? = some s →
        FindsAlike left right s →
        gs[k]? = hs[k]?) ∧
    ∀ s : SourceSecret, s.IsTextual →
      (∀ space, s.space = .str space → inSpace space left = inSpace space right) ∨
        left.Perm right ∧ (left.map SourceCluster.identity).Nodup →
      FindsAlike left right s := by
  obtain ⟨i, hi⟩ := exists_ofList_of_textNames hleft
  obtain ⟨j, hj⟩ := exists_ofList_of_textNames hright
  refine ⟨⟨i, hi, fun s => ⟨exists_belongsTo, fun space name hbelongs => ?_⟩⟩, ?_, ?_, ?_⟩
  · rw [findCluster_eq_lastNamed? hi hbelongs]
    simp only [Except.ok.injEq]
    exact ⟨fun c => lastNamed?_eq_some, lastNamed?_eq_none⟩
  · intro secrets h
    have hsame : convertAll settings i secrets = convertAll settings j secrets :=
      convertAll_congr (fun s hs hread => (h s hs hread).findCluster_eq hi hj) settings
    unfold convert
    rw [hi, hj]
    exact hsame
  · intro secrets gs hs hgs hhs k s hs' halike
    obtain ⟨i', hi', hgs⟩ := convert_eq_ok.mp hgs
    obtain ⟨j', hj', hhs⟩ := convert_eq_ok.mp hhs
    obtain ⟨g, hg, hgenerated⟩ := exists_getElem?_of_forall₂ (forall₂_generates hgs) hs'
    obtain ⟨h, hh, hgenerated'⟩ := exists_getElem?_of_forall₂ (forall₂_generates hhs) hs'
    rw [hg, hh, hgenerated.unique hgenerated' (halike.findCluster_eq hi' hj')]
  · intro s hs h
    refine findsAlike_of_textual hs fun space name hspace => ?_
    rcases h with hsame | ⟨hperm, hdistinct⟩
    · rw [← lastNamed?_inSpace left, ← lastNamed?_inSpace right, hsame space hspace]
    · exact lastNamed?_perm hperm hdistinct space name

def labelledSource (label : String) : SourceSecret :=
  { SourceSecret.ofContent "ns" "p-kubeconfig" SourceSecret.plainContent with
    labels := .map [(.str clusterNameLabel, .str label)] }

def clusterOf (space name env : String) : SourceCluster where
  name := .str name
  space := .str space
  labels := .map [(.str "take-along-label.capi-to-argocd.env", ""), (.str "env", .str env)]

def crowded : List SourceCluster :=
  [clusterOf "ns" "plum" "old", clusterOf "far" "plum" "far", clusterOf "ns" "plum" "new",
    clusterOf "ns" "p" "base"]

def sparse : List SourceCluster := [clusterOf "far" "plum" "remote", clusterOf "ns" "plum" "new"]

theorem crowded_isolated :
    (∀ c ∈ crowded, c.HasTextNames) ∧ (∀ c ∈ sparse, c.HasTextNames) ∧
      (∃ index, ClusterIndex.ofList crowded = .ok index ∧
        findCluster index (labelledSource "plum") = .ok (some (clusterOf "ns" "plum" "new")) ∧
        findCluster index (labelledSource "pear") = .ok none) ∧
      ∃ gs, (convert {} [labelledSource "plum"] crowded).result = .ok gs ∧ gs.length = 1 ∧
        (convert {} [labelledSource "plum"] sparse).result = .ok gs ∧
        (convert {} [labelledSource "plum"] sparse.reverse).result = .ok gs := by
  have hnamed (space name env : String) : (clusterOf space name env).HasTextNames :=
    ⟨space, name, rfl⟩
  have hcrowded : ∀ c ∈ crowded, c.HasTextNames := by
    simp [crowded, hnamed]
  have hsparse : ∀ c ∈ sparse, c.HasTextNames := by
    simp [sparse, hnamed]
  have hreversed : ∀ c ∈ sparse.reverse, c.HasTextNames := by
    intro c hc
    exact hsparse c (List.mem_reverse.mp hc)
  have hbelongs (label : String) (hlabel : (label : Text) ≠ []) :
      BelongsTo (labelledSource label) "ns" label := by
    refine .labelled rfl rfl ?_ hlabel
    simp [Entries.field?, Keyed.get?, Atom.same]
  have hplum : BelongsTo (labelledSource "plum") "ns" "plum" := hbelongs "plum" (by decide)
  have htextual : (labelledSource "plum").IsTextual :=
    ⟨⟨_, rfl⟩, ⟨_, rfl⟩, ⟨_, rfl, by simp⟩, ⟨_, rfl, by simp⟩⟩
  obtain ⟨⟨index, hindex, hpair⟩, hsame, -, -⟩ := pairing_isolated {} hcrowded hsparse
  obtain ⟨-, hreorder, -, halike⟩ := pairing_isolated {} hsparse hreversed
  have hequal : convert {} [labelledSource "plum"] crowded =
      convert {} [labelledSource "plum"] sparse := by
    refine hsame _ fun s hs _ => ?_
    rw [List.mem_singleton.mp hs]
    exact ⟨"ns", "plum", hplum, rfl⟩
  have hequal' : convert {} [labelledSource "plum"] sparse =
      convert {} [labelledSource "plum"] sparse.reverse := by
    refine hreorder _ fun s hs _ => ?_
    rw [List.mem_singleton.mp hs]
    refine halike _ htextual (.inr ⟨sparse.reverse_perm.symm, ?_⟩)
    have hspaces : ("far" : Text) ≠ "ns" := by decide
    simp [sparse, clusterOf, SourceCluster.identity, hspaces]
  obtain ⟨gs, hgs, hlength⟩ : ∃ gs, (convert {} [labelledSource "plum"] crowded).result = .ok gs ∧
      decide (gs.length = 1) = true := Except.exists_of_any (by decide +kernel)
  refine ⟨hcrowded, hsparse, ⟨index, hindex, ?_, ?_⟩, gs, hgs, of_decide_eq_true hlength, ?_, ?_⟩
  · have hbase : ("p" : Text) ≠ "plum" := by decide
    refine (((hpair _).2 _ _ hplum).1 _).mpr ⟨crowded.take 2, crowded.drop 3, rfl, rfl, ?_⟩
    simp [crowded, clusterOf, SourceCluster.identity, hbase]
  · have hplums : ("plum" : Text) ≠ "pear" := by decide
    have hbase : ("p" : Text) ≠ "pear" := by decide
    refine ((hpair _).2 _ _ (hbelongs "pear" (by decide))).2.mpr ?_
    simp [crowded, clusterOf, SourceCluster.identity, hplums, hbase]
  · rw [← hequal, hgs]
  · rw [← hequal', ← hequal, hgs]

end ClusterRegistrar.Conversion
