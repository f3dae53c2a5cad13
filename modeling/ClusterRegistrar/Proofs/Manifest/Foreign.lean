import ClusterRegistrar.Proofs.Manifest.Rearrangement

/-! Foreign resources. A resource that is neither a secret nor a cluster is passed over, so documents
without it give the same manifests. Of the version of a cluster only the start counts, and so a cluster
of another group can look like one of Cluster API. -/
namespace ClusterRegistrar.Manifest

def groupOf (version : Text) : Text := version.takeWhile fun p => p ≠ CodePoint.char '/'

def isClusterBy (test : Text → Bool) (item : Value) : Bool :=
  item.entries?.any fun fields =>
    (fields.field "kind").isText "Cluster" && (fields.field "apiVersion").text.toOption.any test

def isCluster (item : Value) : Bool :=
  isClusterBy (fun version => groupOf version = versionOf .cluster) item

/-- Whether a resource is a cluster of another group that starts like that of Cluster API. -/
def isLookAlike (item : Value) : Bool :=
  isClusterBy (fun version => Affix.startsWith (versionOf .cluster) version &&
    groupOf version ≠ versionOf .cluster) item

def isHeeded (item : Value) : Bool := isSecret item || isCluster item || isLookAlike item

theorem isHeeded_of_manifest? {item : Value} {m : Manifest} (h : manifest? item = some m) :
    isHeeded item = true := by
  obtain ⟨fields, k, head, hfields, hk, -⟩ := announces_of_manifest? h
  simp only [isHeeded, isSecret, isCluster, isLookAlike, isClusterBy, hfields, Option.any_some]
  generalize fields.field "kind" = kind, fields.field "apiVersion" = version at hk ⊢
  cases hk with
  | secret => rfl
  | @cluster version hstart =>
    have hkind : (Value.str "Cluster").isText "Cluster" = true := by decide
    by_cases hgroup : groupOf version = versionOf .cluster
    · simp [hkind, Value.text, Except.toOption, hgroup]
    · simp [hkind, Value.text, Except.toOption, hgroup, hstart]

theorem manifests_eq (items : List Value) :
    items.filterMap manifest? = (items.filter isHeeded).filterMap manifest? := by
  rw [List.filterMap_filter]
  refine List.filterMap_congr fun item _ => ?_
  split
  · rfl
  · rename_i hother
    cases hmanifest : manifest? item with
    | none => rfl
    | some m => exact absurd (isHeeded_of_manifest? hmanifest) hother

/-- Documents that present copies of the resources of others, but for some that are neither a secret,
nor a cluster of Cluster API, nor one that looks like it. Documents can be left out as well as items of
lists. -/
def Thinned (docs others : List Value) : Prop :=
  ∃ items kept copies origins, items? docs = some items ∧ items? others = some copies ∧
    kept.Sublist items ∧ kept.filter isHeeded = items.filter isHeeded ∧
    List.Forall₂ (IsCopy origins) kept copies

theorem Thinned.exists_manifests {docs others : List Value} (h : Thinned docs others)
    {path : Text} {ms : List Manifest} (hms : (ofDocuments path docs).result = .ok ms) :
    ∃ ms', (ofDocuments path others).result = .ok ms' ∧
      ∃ origins, List.Forall₂ (SourceSecret.IsCopy origins) (ms.filterMap secret?)
          (ms'.filterMap secret?) ∧
        List.Forall₂ (SourceCluster.IsCopy origins) (ms.filterMap cluster?)
          (ms'.filterMap cluster?) := by
  obtain ⟨items, kept, copies, origins, hitems, hcopies, hkept, hheeded, hcopy⟩ := h
  rw [ofDocuments_of_items hitems, result_ofResources_eq_ok] at hms
  obtain ⟨hall, rfl⟩ := hms
  have hall' := isAccepted_of_forall₂ hcopy fun item hitem => hall item (hkept.mem hitem)
  rw [ofDocuments_of_items hcopies]
  refine ⟨_, result_ofResources_eq_ok.mpr ⟨hall', rfl⟩, origins, ?_⟩
  rw [manifests_eq items, ← hheeded, ← manifests_eq]
  exact ⟨forall₂_secrets hcopy, forall₂_clusters hcopy⟩

/-! ### Checking that the last resource is left out -/

def lastLeftOut (test : Value → Bool) (cells otherCells : List (Nat × Nat))
    (docs others : List Value) : Bool :=
  match items? docs, items? others with
  | some [a, b, c], some [a', b'] =>
    test c && a.isCopied [] cells a' && b.isCopied [] otherCells b'
  | _, _ => false

variable {cells otherCells : List (Nat × Nat)} {docs others : List Value}

theorem exists_items_of_lastLeftOut {test : Value → Bool}
    (h : lastLeftOut test cells otherCells docs others = true) :
    ∃ kept last copies, items? docs = some (kept ++ [last]) ∧ items? others = some copies ∧
      test last = true ∧ List.Forall₂ (IsCopy fun o p => (o, p) ∈ []) kept copies := by
  unfold lastLeftOut at h
  split at h
  · rename_i a b c a' b' hitems hothers
    simp only [Bool.and_eq_true] at h
    obtain ⟨⟨hc, ha⟩, hb⟩ := h
    exact ⟨[a, b], c, [a', b'], hitems, hothers, hc, .cons (Value.exists_matches_of_isCopied ha)
      (.cons (Value.exists_matches_of_isCopied hb) .nil)⟩
  · cases h

theorem thinned_of_lastLeftOut
    (h : lastLeftOut (fun item => !isHeeded item) cells otherCells docs others = true) :
    Thinned docs others := by
  obtain ⟨kept, last, copies, hitems, hothers, hforeign, hcopy⟩ := exists_items_of_lastLeftOut h
  refine ⟨kept ++ [last], kept, copies, _, hitems, hothers, List.sublist_append_left .., ?_, hcopy⟩
  rw [Bool.not_eq_true'] at hforeign
  simp [hforeign]

end ClusterRegistrar.Manifest
