import ClusterRegistrar.Conversion
import ClusterRegistrar.Proofs.Registration

/-! How a secret finds the cluster that it belongs to. The index of clusters holds exactly the
clusters of the list under their names, secrets and clusters of texts are paired without a fault, and
of the clusters with the name that a secret asks for it finds the last one. -/
namespace ClusterRegistrar

def SourceCluster.HasTextNames (c : SourceCluster) : Prop :=
  ∃ space name : Text, c.identity = ⟨.str space, .str name⟩

structure SourceCluster.IsTextual (c : SourceCluster) : Prop where
  name : ∃ t, c.name = .str t
  space : ∃ t, c.space = .str t
  labels : c.labels.IsTextMap
  annotations : c.annotations.IsTextMap

theorem SourceCluster.IsTextual.hasTextNames {c : SourceCluster} (h : c.IsTextual) :
    c.HasTextNames := by
  obtain ⟨⟨name, hname⟩, ⟨space, hspace⟩, -, -⟩ := h
  refine ⟨space, name, ?_⟩
  rw [SourceCluster.identity, hname, hspace]

theorem Value.IsTextMap.hasTextKeys {v : Value} (h : v.IsTextMap) : v.HasTextKeys := by
  obtain ⟨entries, hentries, htexts⟩ := h
  exact ⟨entries, hentries, fun entry hentry => (htexts entry hentry).1⟩

theorem SourceCluster.IsTextual.isReadable {c : SourceCluster} (h : c.IsTextual) :
    c.IsReadable := by
  obtain ⟨⟨name, hname⟩, ⟨space, hspace⟩, hlabels, hannotations⟩ := h
  exact ⟨⟨name, hname ▸ rfl⟩, ⟨space, hspace ▸ rfl⟩, hlabels.hasTextKeys, hannotations.hasTextKeys⟩

theorem NamespacedName.key_eq_ok {n : NamespacedName} {key : Atom × Atom} :
    n.key = .ok key ↔ n.space = .atom key.1 ∧ n.name = .atom key.2 := by
  simp only [NamespacedName.key, Except.bind_eq_ok, Value.key_eq_ok]
  constructor
  · rintro ⟨space, hspace, name, hname, hkey⟩
    cases hkey
    exact ⟨hspace, hname⟩
  · rintro ⟨hspace, hname⟩
    exact ⟨_, hspace, _, hname, rfl⟩

namespace Conversion

/-! ### The index -/

def IsEntry (c : SourceCluster) (entry : (Atom × Atom) × SourceCluster) : Prop :=
  c.identity.key = .ok entry.1 ∧ entry.2 = c

theorem ofList_eq_ok {clusters : List SourceCluster} {index : ClusterIndex} :
    ClusterIndex.ofList clusters = .ok index ↔
      ∃ keyed, List.Forall₂ IsEntry clusters keyed ∧ index = ⟨keyed.reverse⟩ := by
  have hentry (c : SourceCluster) (entry : (Atom × Atom) × SourceCluster) :
      (do return (← c.identity.key, c)) = (.ok entry : Except Fault _) ↔ IsEntry c entry := by
    simp only [IsEntry, Except.bind_eq_ok]
    constructor
    · rintro ⟨key, hkey, h⟩
      cases h
      exact ⟨hkey, rfl⟩
    · rintro ⟨hkey, hc⟩
      exact ⟨entry.1, hkey, congrArg Except.ok (Prod.ext rfl hc.symm)⟩
  unfold ClusterIndex.ofList
  simp only [Except.bind_eq_ok, Except.mapM_eq_ok, hentry]
  constructor
  · rintro ⟨keyed, hkeyed, h⟩
    cases h
    exact ⟨keyed, hkeyed, rfl⟩
  · rintro ⟨keyed, hkeyed, rfl⟩
    exact ⟨keyed, hkeyed, rfl⟩

theorem exists_ofList_of_textNames {clusters : List SourceCluster}
    (h : ∀ c ∈ clusters, c.HasTextNames) : ∃ index, ClusterIndex.ofList clusters = .ok index := by
  have hkey : ∀ c ∈ clusters, ∃ entry : (Atom × Atom) × SourceCluster,
      (do return (← c.identity.key, c)) = (.ok entry : Except Fault _) := by
    intro c hc
    obtain ⟨space, name, hnames⟩ := h c hc
    refine ⟨((.str space, .str name), c), ?_⟩
    rw [hnames]
    rfl
  obtain ⟨keyed, hkeyed⟩ := Except.exists_mapM_eq_ok.mpr hkey
  refine ⟨⟨keyed.reverse⟩, ?_⟩
  unfold ClusterIndex.ofList
  rw [hkeyed]
  rfl

theorem exists_ofList {clusters : List SourceCluster} (h : ∀ c ∈ clusters, c.IsTextual) :
    ∃ index, ClusterIndex.ofList clusters = .ok index :=
  exists_ofList_of_textNames fun c hc => (h c hc).hasTextNames

theorem key_of_ofList {clusters : List SourceCluster} {index : ClusterIndex}
    (h : ClusterIndex.ofList clusters = .ok index) {entry : (Atom × Atom) × SourceCluster}
    (hentry : entry ∈ index.lastFirst) : entry.2.identity.key = .ok entry.1 := by
  obtain ⟨keyed, hkeyed, rfl⟩ := ofList_eq_ok.mp h
  have hall : ∀ e ∈ keyed, e.2.identity.key = .ok e.1 :=
    forall_right_of_forall₂ hkeyed fun c e he => he.2 ▸ he.1
  exact hall entry (List.mem_reverse.mp hentry)

theorem mem_of_ofList {clusters : List SourceCluster} {index : ClusterIndex}
    (h : ClusterIndex.ofList clusters = .ok index) {entry : (Atom × Atom) × SourceCluster}
    (hentry : entry ∈ index.lastFirst) : entry.2 ∈ clusters := by
  obtain ⟨keyed, hkeyed, rfl⟩ := ofList_eq_ok.mp h
  rw [List.mem_reverse] at hentry
  clear h
  induction hkeyed with
  | nil => cases hentry
  | @cons c first rest more hfirst _ ih =>
    rcases List.mem_cons.mp hentry with rfl | hentry
    · rw [hfirst.2]
      exact List.mem_cons_self
    · exact List.mem_cons_of_mem _ (ih hentry)

/-! ### Look-up -/

theorem mem_of_findCluster {clusters : List SourceCluster} {index : ClusterIndex}
    (hindex : ClusterIndex.ofList clusters = .ok index) {s : SourceSecret} {c : SourceCluster}
    (h : findCluster index s = .ok (some c)) : c ∈ clusters := by
  simp only [findCluster, ClusterIndex.get?, Except.bind_eq_ok] at h
  obtain ⟨_, -, ⟨space, base⟩, -, hfound⟩ := h
  obtain ⟨entry, hentry, rfl⟩ := Option.map_eq_some_iff.mp (Except.ok.inj hfound)
  exact mem_of_ofList hindex (List.mem_of_find?_eq_some hentry)

theorem space_of_clusterNameOf {s : SourceSecret} {name : NamespacedName}
    (h : clusterNameOf s = .ok name) : name.space = s.space := by
  obtain ⟨labels, -, h⟩ := Except.bind_eq_ok.mp h
  dsimp only at h
  split at h
  · cases h
    rfl
  · obtain ⟨base, -, h⟩ := Except.bind_eq_ok.mp h
    cases h
    rfl

theorem null_space_iff_of_findCluster {clusters : List SourceCluster} {index : ClusterIndex}
    (hindex : ClusterIndex.ofList clusters = .ok index) {s : SourceSecret} {c : SourceCluster}
    (h : findCluster index s = .ok (some c)) : s.space = .null ↔ c.space = .null := by
  simp only [findCluster, ClusterIndex.get?, Except.bind_eq_ok, NamespacedName.key_eq_ok] at h
  obtain ⟨name, hname, ⟨space, base⟩, ⟨hspace, -⟩, hfound⟩ := h
  obtain ⟨entry, hentry, rfl⟩ := Option.map_eq_some_iff.mp (Except.ok.inj hfound)
  have hsame := List.find?_some hentry
  rw [Bool.and_eq_true] at hsame
  obtain ⟨hother, -⟩ : entry.2.space = .atom entry.1.1 ∧ entry.2.name = .atom entry.1.2 :=
    NamespacedName.key_eq_ok.mp (key_of_ofList hindex (List.mem_of_find?_eq_some hentry))
  rw [← space_of_clusterNameOf hname, hspace, hother, Value.atom.injEq, Value.atom.injEq]
  exact (Atom.null_iff_of_same hsame.1).symm

theorem findCluster_of_single {s : SourceSecret} {c : SourceCluster} {space other : Atom} {name : Text}
    (hspace : s.space = .atom space) (hother : c.space = .atom other) (hname : c.name = .str name)
    (hasks : clusterNameOf s = .ok ⟨s.space, .str name⟩) :
    ∃ index, ClusterIndex.ofList [c] = .ok index ∧
      findCluster index s = .ok (if other.same space then some c else none) := by
  have hentry : c.identity.key = .ok (other, .str name) := NamespacedName.key_eq_ok.mpr ⟨hother, hname⟩
  have hkey : NamespacedName.key ⟨s.space, .str name⟩ = .ok (space, .str name) :=
    NamespacedName.key_eq_ok.mpr ⟨hspace, rfl⟩
  refine ⟨⟨[((other, .str name), c)]⟩, ofList_eq_ok.mpr ⟨_, .cons ⟨hentry, rfl⟩ .nil, rfl⟩, ?_⟩
  have hbase : Atom.same (.str name) (.str name) = true := Atom.same_str.mpr rfl
  rw [findCluster, hasks, Except.ok_bind, ClusterIndex.get?, hkey, Except.ok_bind]
  simp only [List.find?_cons, hbase, Bool.and_true, List.find?_nil]
  cases other.same space <;> rfl

/-! ### The name that a secret asks for -/

/-- The name of the cluster that a secret belongs to, by its label or by its own name. A label that
is empty is as good as none. -/
inductive BelongsTo (s : SourceSecret) (space : Text) : Text → Prop where
  | labelled {labels : Entries} {name : Text} (hspace : s.space = .str space)
    (hlabels : s.labels.entries? = some labels)
    (hlabel : labels.field? clusterNameLabel = some (.str name)) (hname : name ≠ []) :
    BelongsTo s space name
  | unlabelled {labels : Entries} {name : Text} (hspace : s.space = .str space)
    (hlabels : s.labels.entries? = some labels)
    (hlabel : labels.field? clusterNameLabel = none ∨
      labels.field? clusterNameLabel = some (.str []))
    (hname : s.name = .str name) :
    BelongsTo s space (Affix.removeEnd Naming.kubeconfigEnding name)

theorem BelongsTo.space_eq {s : SourceSecret} {space name : Text} (h : BelongsTo s space name) :
    s.space = .str space := by
  cases h <;> assumption

theorem clusterNameOf_of_belongsTo {s : SourceSecret} {space name : Text}
    (h : BelongsTo s space name) : clusterNameOf s = .ok ⟨.str space, .str name⟩ := by
  unfold clusterNameOf Value.fields
  cases h with
  | labelled hspace hlabels hlabel hname =>
    have htruthy : (Value.str name).truthy = true := decide_eq_true hname
    rw [hlabels, Except.ok_bind, Entries.field_of_field? hlabel, hspace, if_pos htruthy]
    rfl
  | @unlabelled labels name hspace hlabels hlabel hname =>
    have htruthy : (labels.field clusterNameLabel).truthy = false := by
      rcases hlabel with hmissing | hempty
      · rw [Entries.field_of_missing hmissing]
        rfl
      · rw [Entries.field_of_field? hempty]
        rfl
    rw [hlabels, Except.ok_bind, hspace, hname, if_neg (Bool.eq_false_iff.mp htruthy)]
    rfl

theorem exists_belongsTo {s : SourceSecret} (hs : s.IsTextual) :
    ∃ space name, BelongsTo s space name := by
  obtain ⟨name, hname⟩ := hs.name
  obtain ⟨space, hspace⟩ := hs.space
  obtain ⟨labels, hlabels, htexts⟩ := hs.labels.exists_field
  refine ⟨space, ?_⟩
  cases hlabel : labels.field? clusterNameLabel with
  | none => exact ⟨_, .unlabelled hspace hlabels (.inl hlabel) hname⟩
  | some label =>
    obtain ⟨t, rfl⟩ := htexts clusterNameLabel label hlabel
    by_cases ht : t = []
    · exact ⟨_, .unlabelled hspace hlabels (.inr (ht ▸ hlabel)) hname⟩
    · exact ⟨t, .labelled hspace hlabels hlabel ht⟩

theorem findCluster_of_belongsTo {s : SourceSecret} {space name : Text}
    (h : BelongsTo s space name) (index : ClusterIndex) :
    findCluster index s = .ok ((index.lastFirst.find? fun entry =>
      entry.1.1.same (.str space) && entry.1.2.same (.str name)).map (·.2)) := by
  rw [findCluster, clusterNameOf_of_belongsTo h]
  rfl

theorem exists_findCluster {s : SourceSecret} (hs : s.IsTextual) (index : ClusterIndex) :
    ∃ cluster?, findCluster index s = .ok cluster? := by
  obtain ⟨_, _, hbelongs⟩ := exists_belongsTo hs
  exact ⟨_, findCluster_of_belongsTo hbelongs index⟩

/-! ### The last cluster of a name -/

def isNamed (space name : Text) (c : SourceCluster) : Bool :=
  c.space.isText space && c.name.isText name

theorem isNamed_iff {space name : Text} {c : SourceCluster} :
    isNamed space name c = true ↔ c.identity = ⟨.str space, .str name⟩ := by
  rw [isNamed, Bool.and_eq_true, Value.isText_iff, Value.isText_iff, SourceCluster.identity,
    NamespacedName.mk.injEq]

def lastNamed? (clusters : List SourceCluster) (space name : Text) : Option SourceCluster :=
  clusters.findRev? (isNamed space name)

theorem lastNamed?_eq_some {clusters : List SourceCluster} {space name : Text}
    {c : SourceCluster} :
    lastNamed? clusters space name = some c ↔
      ∃ before after, clusters = before ++ c :: after ∧ c.identity = ⟨.str space, .str name⟩ ∧
        ∀ d ∈ after, d.identity ≠ ⟨.str space, .str name⟩ := by
  have hother (d : SourceCluster) : (!isNamed space name d) = true ↔
      d.identity ≠ ⟨.str space, .str name⟩ := by
    rw [Bool.not_eq_true', Bool.eq_false_iff]
    exact not_congr isNamed_iff
  rw [lastNamed?, List.findRev?_eq_find?_reverse, List.find?_eq_some_iff_append, isNamed_iff]
  simp only [hother]
  constructor
  · rintro ⟨hc, after, before, hreverse, hafter⟩
    refine ⟨before.reverse, after.reverse, ?_, hc, fun d hd => hafter d (List.mem_reverse.mp hd)⟩
    simpa using List.reverse_eq_iff.mp hreverse
  · rintro ⟨before, after, rfl, hc, hafter⟩
    refine ⟨hc, after.reverse, before.reverse, ?_, fun d hd => hafter d (List.mem_reverse.mp hd)⟩
    simp

theorem lastNamed?_eq_none {clusters : List SourceCluster} {space name : Text} :
    lastNamed? clusters space name = none ↔
      ∀ c ∈ clusters, c.identity ≠ ⟨.str space, .str name⟩ := by
  rw [lastNamed?, List.findRev?_eq_find?_reverse, List.find?_eq_none]
  simp only [List.mem_reverse, isNamed_iff, ne_eq]

private theorem same_atom {v : Value} {a : Atom} (h : v = .atom a) (t : Text) :
    a.same (.str t) = v.isText t := by
  rw [Bool.eq_iff_iff, Atom.same_str, Value.isText_iff, h, Value.atom.injEq]

theorem IsEntry.same {c : SourceCluster} {entry : (Atom × Atom) × SourceCluster}
    (h : IsEntry c entry) (space name : Text) :
    (entry.1.1.same (.str space) && entry.1.2.same (.str name)) = isNamed space name c := by
  obtain ⟨hspace, hname⟩ := NamespacedName.key_eq_ok.mp h.1
  rw [same_atom hspace, same_atom hname]
  rfl

theorem find?_entries {clusters : List SourceCluster}
    {entries : List ((Atom × Atom) × SourceCluster)} (h : List.Forall₂ IsEntry clusters entries)
    (space name : Text) :
    (entries.find? fun entry =>
      entry.1.1.same (.str space) && entry.1.2.same (.str name)).map (·.2) =
        clusters.find? (isNamed space name) := by
  induction h with
  | nil => rfl
  | cons hentry _ ih =>
    rw [List.find?_cons, List.find?_cons, hentry.same]
    split
    · exact congrArg some hentry.2
    · exact ih

theorem findCluster_eq_lastNamed? {clusters : List SourceCluster} {index : ClusterIndex}
    (hindex : ClusterIndex.ofList clusters = .ok index) {s : SourceSecret} {space name : Text}
    (h : BelongsTo s space name) : findCluster index s = .ok (lastNamed? clusters space name) := by
  obtain ⟨keyed, hkeyed, rfl⟩ := ofList_eq_ok.mp hindex
  rw [findCluster_of_belongsTo h, find?_entries (List.rel_reverse hkeyed), lastNamed?,
    List.findRev?_eq_find?_reverse]

end Conversion
end ClusterRegistrar
