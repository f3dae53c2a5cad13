import ClusterRegistrar.Proofs.Conversion
import ClusterRegistrar.Proofs.Pairing

/-! What flows from a cluster into generated secrets. Of its labels only those that it asks for arrive
there, and two clusters of one name that ask for the same labels, and have them alike, cannot be told
apart by any conversion. -/
namespace ClusterRegistrar.Conversion

open TakeAlong (Requested asked outcome requestLead markerLead)
open Registration (commonLabels sourceLabelsOf takeAlong)

/-! ### What arrives -/

/-- The labels that may stand in the secret of a source, next to a cluster with some labels. -/
inductive MayCarry (s : SourceSecret) (labels : Entries) : Atom × Value → Prop where
  | common {entry : Atom × Value} (h : entry ∈ commonLabels) : MayCarry s labels entry
  | source {entry : Atom × Value} (h : entry ∈ sourceLabelsOf s.name s.space) :
    MayCarry s labels entry
  | target {t : Text} {v : Value} (h : Requested "label" labels t)
    (hvalue : labels.field? t = some v) : MayCarry s labels (.str t, v)
  | marker {t : Text} (h : Requested "label" labels t) :
    MayCarry s labels (.str (markerLead "label" ++ t), .str [])

def CarriesOnlyAsked (s : SourceSecret) (c : SourceCluster) (g : GeneratedSecret) : Prop :=
  ∃ entries labels, c.labels.entries? = some entries ∧ g.labels = .map labels ∧
    ∀ entry ∈ labels, MayCarry s entries entry

theorem carriesOnlyAsked_of_generates {settings : Settings} {index : ClusterIndex}
    {s : SourceSecret} {g : GeneratedSecret} (hg : Generates settings index s g)
    {c : SourceCluster} (hcluster : findCluster index s = .ok (some c))
    (hkeys : c.labels.HasTextKeys) : CarriesOnlyAsked s c g := by
  obtain ⟨entries, hentries, hkeys⟩ := hkeys
  obtain ⟨-, cluster?, taken, hfound, htaken, hlabels⟩ := names_of_generates hg
  cases hcluster.symm.trans hfound
  obtain ⟨resource, houtcome⟩ := Registration.labels_of_takeAlong hentries hkeys htaken
  refine ⟨entries, _, hentries, hlabels, ?_⟩
  rw [houtcome]
  -- The three layers in turn. Keys must be texts for an entry to be replaced by its equal only.
  refine Keyed.forall_mem_putAll (Keyed.forall_mem_putAll ?_ ?_ ?_) ?_ ?_
  · exact fun entry h => .common h
  · exact fun entry h => .source h
  · intro entry h
    simp only [sourceLabelsOf, List.mem_cons, List.not_mem_nil, or_false] at h
    rcases h with rfl | rfl <;> exact ⟨_, rfl⟩
  · rintro ⟨key, v⟩ h
    obtain ⟨t, hrequested, ⟨rfl, hvalue⟩ | hmarker⟩ := TakeAlong.mem_outcome h
    · exact .target hrequested hvalue
    · rw [hmarker]
      exact .marker hrequested
  · rintro ⟨key, v⟩ h
    obtain ⟨t, -, ⟨rfl, -⟩ | hmarker⟩ := TakeAlong.mem_outcome h
    · exact ⟨t, rfl⟩
    · exact ⟨_, (Prod.mk.inj hmarker).1⟩

/-! ### What cannot be told apart -/

/-- Two clusters of one name whose labels hold the same requests, and have each requested label
alike. -/
structure AskAlike (c d : SourceCluster) : Prop where
  name : c.name = d.name
  space : c.space = d.space
  labels : ∃ left right : Entries, c.labels.entries? = some left ∧
    d.labels.entries? = some right ∧ (∀ entry ∈ left, ∃ t, entry.1 = .str t) ∧
    (∀ entry ∈ right, ∃ t, entry.1 = .str t) ∧
    left.texts.filter (Affix.startsWith (requestLead "label")) =
      right.texts.filter (Affix.startsWith (requestLead "label")) ∧
    ∀ t ≠ [], requestLead "label" ++ t ∈ left.texts → left.field? t = right.field? t
  annotations : c.annotations.HasTextKeys ∧ d.annotations.HasTextKeys

theorem AskAlike.outcome_eq {c d : SourceCluster} (h : AskAlike c d) (resource : Option Text) :
    ∃ taken, (TakeAlong.collect .labels c.labels resource).result = .ok taken ∧
      (TakeAlong.collect .labels d.labels resource).result = .ok taken := by
  obtain ⟨left, right, hleft, hright, hleftKeys, hrightKeys, hrequests, hvalues⟩ := h.labels
  have hasked : asked "label" left.texts = asked "label" right.texts := by
    rw [← TakeAlong.asked_filter, hrequests, TakeAlong.asked_filter]
  have houtcome : outcome "label" left resource = outcome "label" right resource := by
    refine TakeAlong.outcome_congr resource hasked fun t ht hne => hvalues t hne ?_
    rw [← Entries.field?_isSome_iff]
    exact TakeAlong.mem_asked.mp ht
  refine ⟨_, TakeAlong.result_collect hleft hleftKeys .labels resource, ?_⟩
  rw [TakeAlong.result_collect hright hrightKeys]
  exact congrArg Except.ok houtcome.symm

theorem AskAlike.takeAlong {c d : SourceCluster} (h : AskAlike c d) :
    Except.Agree (fun taken other => taken.1 = other.1) (takeAlong (some c)).result
      (takeAlong (some d)).result := by
  rw [Registration.result_takeAlong, Registration.result_takeAlong, h.name, h.space]
  refine (Except.Agree.of_forall (fun _ => rfl) _).bind fun name _ hname => ?_
  refine (Except.Agree.of_forall (fun _ => rfl) _).bind fun space _ hspace => ?_
  subst hname hspace
  obtain ⟨⟨left, hleft, hleftKeys⟩, ⟨right, hright, hrightKeys⟩⟩ := h.annotations
  obtain ⟨taken, hc, hd⟩ := h.outcome_eq (some (name ++ ", namespace: " ++ space))
  -- The annotations that are taken may differ, but collecting them fails for neither cluster.
  simp only [hc, hd, Except.ok_bind, TakeAlong.result_collect hleft hleftKeys,
    TakeAlong.result_collect hright hrightKeys]
  exact .ok rfl

inductive Alike : SourceCluster → SourceCluster → Prop where
  | same (c : SourceCluster) : Alike c c
  | asks {c d : SourceCluster} (h : AskAlike c d) : Alike c d

theorem Alike.identity_eq {c d : SourceCluster} (h : Alike c d) : c.identity = d.identity := by
  cases h with
  | same => rfl
  | asks h => rw [SourceCluster.identity, SourceCluster.identity, h.name, h.space]

theorem Alike.takeAlong {cluster? other? : Option SourceCluster}
    (h : Option.Rel Alike cluster? other?) :
    Except.Agree (fun taken other => taken.1 = other.1) (takeAlong cluster?).result
      (takeAlong other?).result := by
  cases h with
  | none => exact .ok rfl
  | some h =>
    cases h with
    | same =>
      refine Except.Agree.of_forall ?_ _
      exact fun _ => rfl
    | asks h => exact h.takeAlong

def AlikeEntry (left right : (Atom × Atom) × SourceCluster) : Prop :=
  left.1 = right.1 ∧ Alike left.2 right.2

theorem agree_ofList {left right : List SourceCluster} (h : List.Forall₂ Alike left right) :
    Except.Agree (fun i j => List.Forall₂ AlikeEntry i.lastFirst j.lastFirst)
      (ClusterIndex.ofList left) (ClusterIndex.ofList right) := by
  have hkeyed : List.Forall₂ (fun c d => Except.Agree AlikeEntry
      (do return (← c.identity.key, c) : Except Fault _)
      (do return (← d.identity.key, d) : Except Fault _)) left right := by
    refine h.imp fun c d hcd => ?_
    rw [hcd.identity_eq]
    exact (Except.Agree.of_forall (fun _ => rfl) _).bind fun _ _ hkey => .ok ⟨hkey, hcd⟩
  exact (Except.Agree.mapM hkeyed).bind fun _ _ hentries => .ok (List.rel_reverse hentries)

private theorem find?_alike {left right : List ((Atom × Atom) × SourceCluster)}
    (h : List.Forall₂ AlikeEntry left right) (named : Atom × Atom → Bool) :
    Option.Rel Alike ((left.find? fun entry => named entry.1).map (·.2))
      ((right.find? fun entry => named entry.1).map (·.2)) := by
  induction h with
  | nil => exact .none
  | cons hentry _ ih =>
    obtain ⟨hkey, halike⟩ := hentry
    rw [List.find?_cons, List.find?_cons, hkey]
    split
    · exact .some halike
    · exact ih

theorem agree_findCluster {i j : ClusterIndex}
    (h : List.Forall₂ AlikeEntry i.lastFirst j.lastFirst) (s : SourceSecret) :
    Except.Agree (Option.Rel Alike) (findCluster i s) (findCluster j s) := by
  refine (Except.Agree.of_forall (fun _ => rfl) (clusterNameOf s)).bind ?_
  rintro name _ rfl
  refine (Except.Agree.of_forall (fun _ => rfl) name.key).bind ?_
  rintro ⟨space, base⟩ _ rfl
  exact .ok (find?_alike h fun key => key.1.same space && key.2.same base)

theorem register_alike {i j : ClusterIndex}
    (h : List.Forall₂ AlikeEntry i.lastFirst j.lastFirst) (settings : Settings) (s : SourceSecret)
    (w : WorkloadCluster) :
    (register settings i s w).result = (register settings j s w).result := by
  rw [result_register, result_register]
  refine (agree_findCluster h s).lift.bind_eq fun _ _ hfound => ?_
  refine (Alike.takeAlong hfound).bind_eq fun _ _ htaken => ?_
  rw [htaken]

theorem convertSecret_alike {i j : ClusterIndex}
    (h : List.Forall₂ AlikeEntry i.lastFirst j.lastFirst) (settings : Settings)
    (s : SourceSecret) :
    (convertSecret settings i s).result = (convertSecret settings j s).result := by
  by_cases hs : IsSource s
  · rw [result_convertSecret hs, result_convertSecret hs]
    simp only [register_alike h]
  · rw [result_convertSecret_foreign hs, result_convertSecret_foreign hs]

theorem convert_alike {left right : List SourceCluster} (h : List.Forall₂ Alike left right)
    (settings : Settings) (secrets : List SourceSecret) :
    (convert settings secrets left).result = (convert settings secrets right).result := by
  unfold convert convertAll
  simp only [Run.result_bind, Run.result_ofFault, Run.result_mapM, Run.result_pure]
  refine (agree_ofList h).lift.bind_eq fun i j hindex => ?_
  simp only [convertSecret_alike hindex]

/-- Only labels that are asked for get from clusters into generated secrets: each secret carries no
others, and nothing else about a cluster can be seen in what a conversion returns. -/
theorem only_asked_labels_flow (settings : Settings) (secrets : List SourceSecret) :
    (∀ clusters gs, (convert settings secrets clusters).result = .ok gs →
      ∃ index, ClusterIndex.ofList clusters = .ok index ∧
        List.Forall₂ (fun s g => Generates settings index s g ∧
          ∀ c, findCluster index s = .ok (some c) → c.labels.HasTextKeys → CarriesOnlyAsked s c g)
          (secrets.filter isConvertible) gs) ∧
      ∀ c d, AskAlike c d → ∀ before after,
        (convert settings secrets (before ++ c :: after)).result =
          (convert settings secrets (before ++ d :: after)).result := by
  constructor
  · intro clusters gs h
    obtain ⟨index, hindex, hall⟩ := convert_eq_ok.mp h
    refine ⟨index, hindex, (forall₂_generates hall).imp fun s g hg => ⟨hg, ?_⟩⟩
    exact fun c hcluster hkeys => carriesOnlyAsked_of_generates hg hcluster hkeys
  · intro c d h before after
    have hsame (clusters : List SourceCluster) : List.Forall₂ Alike clusters clusters :=
      List.forall₂_same.mpr fun c _ => .same c
    exact convert_alike (List.rel_append (hsame before) (.cons (.asks h) (hsame after))) settings
      secrets

def askingSource : SourceSecret := .ofContent "ns" "p-kubeconfig" SourceSecret.plainContent

def askingCluster : SourceCluster where
  name := "p"
  space := "ns"
  labels := .map [(.str "take-along-label.capi-to-argocd.env", ""), (.str "env", "prod"),
    (.str "team", "blue")]

def otherCluster : SourceCluster where
  name := "p"
  space := "ns"
  labels := .map [(.str "env", "prod"), (.str "owner", "red"),
    (.str "take-along-label.capi-to-argocd.env", "now")]
  annotations := .map [(.str "take-along-annotation.capi-to-argocd.note", ""), (.str "note", "x")]

theorem asking_converted_alike :
    AskAlike askingCluster otherCluster ∧ ∃ index g,
      ClusterIndex.ofList [askingCluster] = .ok index ∧
        findCluster index askingSource = .ok (some askingCluster) ∧
        (convert {} [askingSource] [askingCluster]).result = .ok [g] ∧
        (convert {} [askingSource] [otherCluster]).result = .ok [g] ∧
        CarriesOnlyAsked askingSource askingCluster g := by
  have halike : AskAlike askingCluster otherCluster := by
    refine ⟨rfl, rfl, ⟨_, _, rfl, rfl, by simp, by simp, by decide, ?_⟩, ⟨_, rfl, by simp⟩,
      ⟨_, rfl, by simp⟩⟩
    intro t _ hrequest
    have hasked := TakeAlong.mem_asked.mpr (Entries.field?_isSome_iff.mpr hrequest)
    obtain rfl : t = "env" := List.mem_singleton.mp hasked
    rfl
  have hkeys : askingCluster.labels.HasTextKeys := ⟨_, rfl, by simp⟩
  obtain ⟨gs, hgs, hlength⟩ : ∃ gs, (convert {} [askingSource] [askingCluster]).result = .ok gs ∧
      decide (gs.length = 1) = true := Except.exists_of_any (by decide +kernel)
  obtain ⟨g, rfl⟩ := List.length_eq_one_iff.mp (of_decide_eq_true hlength)
  obtain ⟨hcarries, hequal⟩ := only_asked_labels_flow {} [askingSource]
  obtain ⟨index, hindex, hpairs⟩ := hcarries [askingCluster] [g] hgs
  have hentry : ClusterIndex.ofList [askingCluster] =
      .ok ⟨[((.str "ns", .str "p"), askingCluster)]⟩ := rfl
  cases hentry.symm.trans hindex
  obtain ⟨s, rest, ⟨-, hcarries⟩, -, hsource⟩ := List.forall₂_cons_right_iff.mp hpairs
  have hmem : s ∈ [askingSource].filter isConvertible := hsource ▸ List.mem_cons_self
  obtain rfl := List.mem_singleton.mp (List.mem_of_mem_filter hmem)
  refine ⟨halike, _, g, rfl, rfl, hgs, ?_, ?_⟩
  · exact (hequal _ _ halike [] []).symm.trans hgs
  · exact hcarries askingCluster rfl hkeys

end ClusterRegistrar.Conversion
