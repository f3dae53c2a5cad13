import ClusterRegistrar.Proofs.KubeConfig.FirstEntries

/-! The shape of kubeconfigs. A document is read as a kubeconfig exactly if it has one list of cluster
entries and one of user entries, neither of them empty, and whatever stands where text is needed has a
text. Nothing but the fields that are read counts, at any level. A list that is refused is quoted in
the rejection. -/
namespace ClusterRegistrar

namespace Value

theorem listed?_of_elements {v : Value} {items : List Value} (h : v.elements = .ok items)
    (hne : items ≠ []) (hentries : ∀ item ∈ items, item.entries?.isSome) : v.listed? = some items := by
  have hatoms {β : Type} {bs : List β} {f : β → Atom} (hmap : bs.map (fun b => .atom (f b)) = items) :
      v.listed? = some items := by
    obtain ⟨item, hitem⟩ := List.exists_mem_of_ne_nil _ hne
    have hsome := hentries item hitem
    rw [← hmap] at hitem
    obtain ⟨b, -, rfl⟩ := List.mem_map.mp hitem
    cases hsome
  cases hlayer : v.layer? with
  | some layer =>
    rw [elements_of_layer? hlayer] at h
    have h := Except.ok.inj h
    cases layer with
    | list _ | pair _ _ => rw [listed?, hlayer, ← h, membersOf]
    | set members => exact hatoms h
    | map entries => exact hatoms h
  | none =>
    cases v with
    | atom a =>
      cases a with
      | str t => exact hatoms (Except.ok.inj h)
      | bytes b => exact hatoms (Except.ok.inj h)
      | _ => cases h
    | _ => cases hlayer

end Value

theorem Entries.shownField?_eq_some {fields : Entries} {name : Text} {field : Value} :
    fields.shownField? name = some field ↔ (fields.field name).GivesOptional field := by
  refine ⟨Entries.givesOptional_of_shownField?, ?_⟩
  unfold shownField?
  rintro (⟨hnull, rfl⟩ | ⟨hnot, t, ht, rfl⟩)
  · rw [hnull]
  · split
    · exact absurd ‹_› hnot
    · rw [Except.toOption_eq_some.mpr ht]
      rfl

namespace KubeConfig

theorem required?_eq_some {fields : Entries} {name : Text} {field : Value} :
    required? fields name = some field ↔
      (fields.field? name).isSome ∧ (fields.field name).GivesText field := by
  constructor
  · intro h
    refine ⟨?_, givesText_of_required? h⟩
    simp only [required?, Option.bind_eq_bind, Option.bind_eq_some_iff] at h
    obtain ⟨v, hv, -⟩ := h
    exact Option.isSome_of_eq_some hv
  · rintro ⟨hsome, t, ht, rfl⟩
    obtain ⟨v, hv⟩ := Option.isSome_iff_exists.mp hsome
    rw [Entries.field_of_field? hv] at ht
    simp only [required?, hv, ht, Option.bind_eq_bind, Option.bind_some, Except.toOption]
    rfl

/-! ### Entries -/

inductive IsClusterEntry (v : Value) : Prop where
  | intro {entry fields : Entries} {part : Value} (h : v.entries? = some entry)
    (hname : (entry.field? "name").isSome) (hpart : entry.field? "cluster" = some part)
    (hfields : part.entries? = some fields) (hserver : (fields.field? "server").isSome)

inductive IsUserEntry (v : Value) : Prop where
  | intro {entry : Entries} (h : v.entries? = some entry) (hname : (entry.field? "name").isSome)
    (huser : ∀ part, entry.field? "user" = some part → part.entries?.isSome)

def IsLegible (paths : List (List Text)) (v : Value) : Prop :=
  ∀ path ∈ paths, ∃ t, (valueAt path v).shown = .ok t

theorem cluster?_eq_some {v : Value} {c : KubeCluster} :
    cluster? v = some c ↔ IsClusterEntry v ∧ ClusterFrom v c := by
  constructor
  · intro h
    refine ⟨?_, clusterFrom_of_cluster? h⟩
    simp only [cluster?, Option.bind_eq_bind, Option.bind_eq_some_iff] at h
    obtain ⟨entry, hentry, name, hname, part, hpart, fields, hfields, server, hserver, -⟩ := h
    exact .intro hentry (required?_eq_some.mp hname).1 hpart hfields (required?_eq_some.mp hserver).1
  · rintro ⟨⟨hentry, hname, hpart, hfields, hserver⟩, hfrom⟩
    obtain ⟨hgivesName, hgivesServer, hgivesData⟩ := hfrom
    rw [valueAt_field hentry] at hgivesName
    rw [valueAt_inner hentry (Entries.field_of_field? hpart ▸ hfields)] at hgivesServer hgivesData
    simp only [cluster?, hentry, required?_eq_some.mpr ⟨hname, hgivesName⟩, hpart, hfields,
      required?_eq_some.mpr ⟨hserver, hgivesServer⟩, Entries.shownField?_eq_some.mpr hgivesData,
      Option.bind_eq_bind, Option.bind_some]
    rfl

structure NamedUserFrom (v : Value) (u : KubeUser) : Prop where
  name : (valueAt ["name"] v).GivesText u.name
  user : UserFrom v u

theorem user?_eq_some {v : Value} {u : KubeUser} :
    user? v = some u ↔ IsUserEntry v ∧ NamedUserFrom v u := by
  constructor
  · intro h
    have hfrom := userFrom_of_user? h
    simp only [user?, Option.bind_eq_bind, Option.bind_eq_some_iff] at h
    obtain ⟨entry, hentry, name, hname, fields, hfields, _, -, _, -, _, -, hu⟩ := h
    cases hu
    obtain ⟨hsome, hgives⟩ := required?_eq_some.mp hname
    refine ⟨.intro hentry hsome fun part hpart => ?_, valueAt_field hentry _ ▸ hgives, hfrom⟩
    rw [hpart] at hfields
    exact Option.isSome_of_eq_some hfields
  · rintro ⟨⟨hentry, hname, huser⟩, hgivesName, htoken, hcert, hkey⟩
    rename_i entry
    obtain ⟨fields, hfields⟩ : ∃ fields, ((entry.field? "user").getD .empty).entries? = some fields := by
      cases hpart : entry.field? "user" with
      | none => exact ⟨[], rfl⟩
      | some part => exact Option.isSome_iff_exists.mp (huser part hpart)
    rw [valueAt_field hentry] at hgivesName
    rw [valueAt_user hentry hfields] at htoken hcert hkey
    simp only [user?, hentry, required?_eq_some.mpr ⟨hname, hgivesName⟩, hfields,
      Entries.shownField?_eq_some.mpr htoken, Entries.shownField?_eq_some.mpr hcert,
      Entries.shownField?_eq_some.mpr hkey, Option.bind_eq_bind, Option.bind_some]
    rfl

theorem exists_givesText_iff {v : Value} : (∃ field, v.GivesText field) ↔ ∃ t, v.shown = .ok t := by
  constructor
  · rintro ⟨_, t, ht, -⟩
    exact ⟨t, ht⟩
  · rintro ⟨t, ht⟩
    exact ⟨_, t, ht, rfl⟩

theorem exists_givesOptional_iff {v : Value} :
    (∃ field, v.GivesOptional field) ↔ ∃ t, v.shown = .ok t := by
  constructor
  · rintro ⟨_, ⟨rfl, -⟩ | ⟨-, t, ht, -⟩⟩
    · exact ⟨"None", rfl⟩
    · exact ⟨t, ht⟩
  · rintro ⟨t, ht⟩
    by_cases hnull : v = .null
    · exact ⟨.null, .inl ⟨hnull, rfl⟩⟩
    · exact ⟨_, .inr ⟨hnull, t, ht, rfl⟩⟩

theorem exists_clusterFrom_iff {v : Value} : (∃ c, ClusterFrom v c) ↔ IsLegible clusterPaths v := by
  simp only [IsLegible, clusterPaths, List.forall_mem_cons, List.not_mem_nil, false_imp_iff,
    implies_true, and_true]
  constructor
  · rintro ⟨c, hname, hserver, hca⟩
    exact ⟨exists_givesText_iff.mp ⟨_, hname⟩, exists_givesText_iff.mp ⟨_, hserver⟩,
      exists_givesOptional_iff.mp ⟨_, hca⟩⟩
  · rintro ⟨hname, hserver, hca⟩
    obtain ⟨name, hname⟩ := exists_givesText_iff.mpr hname
    obtain ⟨server, hserver⟩ := exists_givesText_iff.mpr hserver
    obtain ⟨caData, hca⟩ := exists_givesOptional_iff.mpr hca
    exact ⟨⟨name, server, caData⟩, hname, hserver, hca⟩

theorem exists_namedUserFrom_iff {v : Value} :
    (∃ u, NamedUserFrom v u) ↔ IsLegible (["name"] :: userPaths) v := by
  simp only [IsLegible, userPaths, List.forall_mem_cons, List.not_mem_nil, false_imp_iff,
    implies_true, and_true]
  constructor
  · rintro ⟨u, hname, htoken, hcert, hkey⟩
    exact ⟨exists_givesText_iff.mp ⟨_, hname⟩, exists_givesOptional_iff.mp ⟨_, htoken⟩,
      exists_givesOptional_iff.mp ⟨_, hcert⟩, exists_givesOptional_iff.mp ⟨_, hkey⟩⟩
  · rintro ⟨hname, htoken, hcert, hkey⟩
    obtain ⟨name, hname⟩ := exists_givesText_iff.mpr hname
    obtain ⟨token, htoken⟩ := exists_givesOptional_iff.mpr htoken
    obtain ⟨certData, hcert⟩ := exists_givesOptional_iff.mpr hcert
    obtain ⟨keyData, hkey⟩ := exists_givesOptional_iff.mpr hkey
    exact ⟨⟨name, token, certData, keyData⟩, hname, htoken, hcert, hkey⟩

/-! ### Lists -/

/-- There are no elements, or one of them is not as it should be. -/
def IsRefused (P : Value → Prop) (value : Value) : Prop :=
  ∀ items, value.elements = .ok items → ∃ item ∈ items, ¬P item

section Reading

variable {list : KubeList} {element? : Value → Option α} {P : Value → Prop} {fields : Entries}

theorem accepted?_eq_none (hP : ∀ v, (∃ a, element? v = some a) ↔ P v) {value : Value} :
    accepted? element? value = none ↔ IsRefused P value := by
  constructor
  · intro h items hitems
    by_contra hall
    push Not at hall
    obtain ⟨elements, helements⟩ := exists_forall₂ (R := fun a v => element? v = some a)
      fun v hv => (hP v).mpr (hall v hv)
    rw [accepted?_eq_some.mpr ⟨items, hitems, helements.flip⟩] at h
    cases h
  · intro h
    refine Option.eq_none_iff_forall_ne_some.mpr fun elements helements => ?_
    obtain ⟨items, hitems, hread⟩ := accepted?_eq_some.mp helements
    obtain ⟨item, hitem, hnot⟩ := h items hitems
    exact hnot (forall_left_of_forall₂ hread (fun v a hva => (hP v).mp ⟨a, hva⟩) item hitem)

theorem read_eq_fault_iff_refused (hP : ∀ v, (∃ a, element? v = some a) ↔ P v) {f : Fault} :
    read list element? fields = .error (.fault f) ↔
      ∃ value, fields.field? list.name = some value ∧ IsRefused P value ∧ value.quoted = .error f := by
  simp only [read_eq_fault, accepted?_eq_none hP]

theorem exists_read_iff (hP : ∀ v, (∃ a, element? v = some a) ↔ P v) :
    (∃ elements, read list element? fields = .ok elements) ↔
      ∀ value, fields.field? list.name = some value → ¬IsRefused P value := by
  simp only [read_eq_ok, ← accepted?_eq_none hP, ← ne_eq, Option.ne_none_iff_exists']
  cases fields.field? list.name <;> simp

theorem read_eq_ok_of_ne_nil (hentries : ∀ v a, element? v = some a → v.entries?.isSome)
    {elements : List α} (hne : elements ≠ []) :
    read list element? fields = .ok elements ↔
      ∃ items, (fields.field? list.name).bind Value.listed? = some items ∧ items ≠ [] ∧
        List.Forall₂ (fun v a => element? v = some a) items elements := by
  simp only [read_eq_ok, accepted?_eq_some, Option.bind_eq_some_iff]
  constructor
  · rintro (⟨-, rfl⟩ | ⟨value, hvalue, items, hitems, hread⟩)
    · exact absurd rfl hne
    · have hsome : items ≠ [] := by
        rintro rfl
        exact hne (List.forall₂_nil_left_iff.mp hread)
      exact ⟨items, ⟨value, hvalue, Value.listed?_of_elements hitems hsome
        (forall_left_of_forall₂ hread hentries)⟩, hsome, hread⟩
  · rintro ⟨items, ⟨value, hvalue, hlisted⟩, -, hread⟩
    exact .inr ⟨value, hvalue, items, Value.elements_of_listed? hlisted, hread⟩

end Reading

/-! ### Documents -/

structure IsShaped (fields : Entries) (clusters users : List Value) : Prop where
  clusterList : (fields.field? "clusters").bind Value.listed? = some clusters
  userList : (fields.field? "users").bind Value.listed? = some users
  someCluster : clusters ≠ []
  someUser : users ≠ []
  clusterEntries : ∀ v ∈ clusters, IsClusterEntry v
  userEntries : ∀ v ∈ users, IsUserEntry v

def IsReadable (fields : Entries) : Prop :=
  ∃ clusters users, IsShaped fields clusters users ∧ (∀ v ∈ clusters, IsLegible clusterPaths v) ∧
    ∀ v ∈ users, IsLegible (["name"] :: userPaths) v

def IsGoodCluster (v : Value) : Prop := IsClusterEntry v ∧ IsLegible clusterPaths v

def IsGoodUser (v : Value) : Prop := IsUserEntry v ∧ IsLegible (["name"] :: userPaths) v

/-- The list that a document is rejected for. The clusters are read before the users. -/
def Refuses (fields : Entries) (value : Value) : Prop :=
  fields.field? "clusters" = some value ∧ IsRefused IsGoodCluster value ∨
    (∀ clusters, fields.field? "clusters" = some clusters → ¬IsRefused IsGoodCluster clusters) ∧
      fields.field? "users" = some value ∧ IsRefused IsGoodUser value

theorem exists_cluster?_iff (v : Value) : (∃ c, cluster? v = some c) ↔ IsGoodCluster v := by
  simp only [cluster?_eq_some, exists_and_left, exists_clusterFrom_iff, IsGoodCluster]

theorem exists_user?_iff (v : Value) : (∃ u, user? v = some u) ↔ IsGoodUser v := by
  simp only [user?_eq_some, exists_and_left, exists_namedUserFrom_iff, IsGoodUser]

theorem IsClusterEntry.isSome_entries? {v : Value} (h : IsClusterEntry v) : v.entries?.isSome := by
  obtain ⟨hentry, -, -, -, -⟩ := h
  exact Option.isSome_of_eq_some hentry

theorem IsUserEntry.isSome_entries? {v : Value} (h : IsUserEntry v) : v.entries?.isSome := by
  obtain ⟨hentry, -, -⟩ := h
  exact Option.isSome_of_eq_some hentry

section Decoding

variable {doc : Value} {fields : Entries}

theorem readClusters_eq_ok {clusters : List KubeCluster} (hne : clusters ≠ []) :
    read .clusters cluster? fields = .ok clusters ↔
      ∃ items, (fields.field? "clusters").bind Value.listed? = some items ∧ items ≠ [] ∧
        (∀ v ∈ items, IsClusterEntry v) ∧ List.Forall₂ ClusterFrom items clusters := by
  simp only [← List.forall₂_and_left, ← cluster?_eq_some]
  exact read_eq_ok_of_ne_nil (fun v c hc => (cluster?_eq_some.mp hc).1.isSome_entries?) hne

theorem readUsers_eq_ok {users : List KubeUser} (hne : users ≠ []) :
    read .users user? fields = .ok users ↔
      ∃ items, (fields.field? "users").bind Value.listed? = some items ∧ items ≠ [] ∧
        (∀ v ∈ items, IsUserEntry v) ∧ List.Forall₂ NamedUserFrom items users := by
  simp only [← List.forall₂_and_left, ← user?_eq_some]
  exact read_eq_ok_of_ne_nil (fun v u hu => (user?_eq_some.mp hu).1.isSome_entries?) hne

theorem result_eq_ok_iff (h : doc.entries? = some fields) {k : KubeConfig} :
    (ofDocument doc).result = .ok k ↔ read .clusters cluster? fields = .ok k.clusters ∧
      read .users user? fields = .ok k.users ∧ k.clusters ≠ [] ∧ k.users ≠ [] := by
  constructor
  · intro hk
    obtain ⟨_, hfields, hparts⟩ := result_ofDocument_eq_ok hk
    cases h.symm.trans hfields
    exact hparts
  · rintro ⟨hclusters, husers, hsome, hsome'⟩
    rw [result_ofDocument h, hclusters, husers]
    simp [hsome, hsome']

theorem result_eq_ok_iff_shaped (h : doc.entries? = some fields) {k : KubeConfig} :
    (ofDocument doc).result = .ok k ↔ ∃ clusters users, IsShaped fields clusters users ∧
      List.Forall₂ ClusterFrom clusters k.clusters ∧ List.Forall₂ NamedUserFrom users k.users := by
  rw [result_eq_ok_iff h]
  constructor
  · rintro ⟨hread, hread', hne, hne'⟩
    obtain ⟨clusters, hlisted, hsome, hentries, hfrom⟩ := (readClusters_eq_ok hne).mp hread
    obtain ⟨users, hlisted', hsome', hentries', hfrom'⟩ := (readUsers_eq_ok hne').mp hread'
    exact ⟨clusters, users, ⟨hlisted, hlisted', hsome, hsome', hentries, hentries'⟩, hfrom, hfrom'⟩
  · rintro ⟨clusters, users, ⟨hlisted, hlisted', hsome, hsome', hentries, hentries'⟩, hfrom, hfrom'⟩
    have hne : k.clusters ≠ [] := by
      intro hnil
      rw [hnil, List.forall₂_nil_right_iff] at hfrom
      exact hsome hfrom
    have hne' : k.users ≠ [] := by
      intro hnil
      rw [hnil, List.forall₂_nil_right_iff] at hfrom'
      exact hsome' hfrom'
    exact ⟨(readClusters_eq_ok hne).mpr ⟨clusters, hlisted, hsome, hentries, hfrom⟩,
      (readUsers_eq_ok hne').mpr ⟨users, hlisted', hsome', hentries', hfrom'⟩, hne, hne'⟩

theorem exists_result_iff (h : doc.entries? = some fields) :
    (∃ k, (ofDocument doc).result = .ok k) ↔ IsReadable fields := by
  simp only [result_eq_ok_iff_shaped h, IsReadable, ← exists_clusterFrom_iff,
    ← exists_namedUserFrom_iff]
  constructor
  · rintro ⟨k, clusters, users, hshaped, hfrom, hfrom'⟩
    exact ⟨clusters, users, hshaped, forall_left_of_forall₂ hfrom fun v c hc => ⟨c, hc⟩,
      forall_left_of_forall₂ hfrom' fun v u hu => ⟨u, hu⟩⟩
  · rintro ⟨clusters, users, hshaped, hlegible, hlegible'⟩
    obtain ⟨cs, hcs⟩ := exists_forall₂ (R := fun c v => ClusterFrom v c) hlegible
    obtain ⟨us, hus⟩ := exists_forall₂ (R := fun u v => NamedUserFrom v u) hlegible'
    exact ⟨⟨cs, us⟩, clusters, users, hshaped, hcs.flip, hus.flip⟩

theorem result_eq_fault_iff (h : doc.entries? = some fields) {f : Fault} :
    (ofDocument doc).result = .error (.fault f) ↔
      ∃ value, Refuses fields value ∧ value.quoted = .error f := by
  have hclusters : read .clusters cluster? fields = .error (.fault f) ↔ ∃ value,
      fields.field? "clusters" = some value ∧ IsRefused IsGoodCluster value ∧
        value.quoted = .error f := read_eq_fault_iff_refused exists_cluster?_iff
  have husers : read .users user? fields = .error (.fault f) ↔ ∃ value,
      fields.field? "users" = some value ∧ IsRefused IsGoodUser value ∧ value.quoted = .error f :=
    read_eq_fault_iff_refused exists_user?_iff
  have hread : (∃ clusters, read .clusters cluster? fields = .ok clusters) ↔
      ∀ value, fields.field? "clusters" = some value → ¬IsRefused IsGoodCluster value :=
    exists_read_iff exists_cluster?_iff
  rw [result_ofDocument_eq_fault h, hclusters, husers, hread]
  constructor
  · rintro (⟨value, hvalue, hrefused, hquoted⟩ | ⟨hall, value, hvalue, hrefused, hquoted⟩)
    · exact ⟨value, .inl ⟨hvalue, hrefused⟩, hquoted⟩
    · exact ⟨value, .inr ⟨hall, hvalue, hrefused⟩, hquoted⟩
  · rintro ⟨value, ⟨hvalue, hrefused⟩ | ⟨hall, hvalue, hrefused⟩, hquoted⟩
    · exact .inl ⟨value, hvalue, hrefused, hquoted⟩
    · exact .inr ⟨hall, value, hvalue, hrefused, hquoted⟩

end Decoding

/-! ### Fields that count -/

/-- What two mappings have under some keys is related, and there in both or in neither. -/
def AlikeUnder (reads : List (Text × (Value → Value → Prop))) (v w : Value) : Prop :=
  ∃ entries others, v.entries? = some entries ∧ w.entries? = some others ∧
    ∀ read ∈ reads, Option.Rel read.2 (entries.field? read.1) (others.field? read.1)

def ListsAlike (R : Value → Value → Prop) (v w : Value) : Prop :=
  ∃ items others, v.listed? = some items ∧ w.listed? = some others ∧ List.Forall₂ R items others

def ClustersAlike : Value → Value → Prop :=
  AlikeUnder [("name", Eq), ("cluster", AlikeUnder [("server", Eq), ("certificate-authority-data", Eq)])]

def UsersAlike : Value → Value → Prop :=
  AlikeUnder [("name", Eq), ("user", AlikeUnder [("token", Eq), ("client-certificate-data", Eq),
    ("client-key-data", Eq)])]

/-- Two documents that differ at most in keys that are not read, at any level. -/
def DocumentsAlike : Value → Value → Prop :=
  AlikeUnder [("clusters", ListsAlike ClustersAlike), ("users", ListsAlike UsersAlike)]

theorem eq_of_rel {a b : Option α} (h : Option.Rel Eq a b) : a = b := by
  cases h with
  | some h => rw [h]
  | none => rfl

theorem required?_congr {entries others : Entries} {name : Text}
    (h : entries.field? name = others.field? name) : required? entries name = required? others name := by
  rw [required?, required?, h]

theorem shownField?_congr {entries others : Entries} {name : Text}
    (h : entries.field? name = others.field? name) :
    entries.shownField? name = others.shownField? name := by
  rw [Entries.shownField?, Entries.shownField?, Entries.field, Entries.field, h]

theorem cluster?_eq_of_alike {v w : Value} (h : ClustersAlike v w) : cluster? v = cluster? w := by
  obtain ⟨entry, other, hentry, hother, hreads⟩ := h
  obtain ⟨hname, hcluster, -⟩ : _ ∧ _ ∧ _ := by simpa only [List.forall_mem_cons] using hreads
  unfold cluster?
  rw [hentry, hother]
  simp only [Option.bind_eq_bind, Option.bind_some, required?_congr (eq_of_rel hname)]
  generalize entry.field? "cluster" = part, other.field? "cluster" = part' at hcluster ⊢
  cases hcluster with
  | none => rfl
  | some hparts =>
    obtain ⟨fields, others, hfields, hothers, hreads⟩ := hparts
    obtain ⟨hserver, hca, -⟩ : _ ∧ _ ∧ _ := by simpa only [List.forall_mem_cons] using hreads
    simp only [Option.bind_some, hfields, hothers, required?_congr (eq_of_rel hserver),
      shownField?_congr (eq_of_rel hca)]

theorem user?_eq_of_alike {v w : Value} (h : UsersAlike v w) : user? v = user? w := by
  obtain ⟨entry, other, hentry, hother, hreads⟩ := h
  obtain ⟨hname, huser, -⟩ : _ ∧ _ ∧ _ := by simpa only [List.forall_mem_cons] using hreads
  unfold user?
  rw [hentry, hother]
  simp only [Option.bind_eq_bind, Option.bind_some, required?_congr (eq_of_rel hname)]
  generalize entry.field? "user" = part, other.field? "user" = part' at huser ⊢
  cases huser with
  | none => rfl
  | some hparts =>
    obtain ⟨fields, others, hfields, hothers, hreads⟩ := hparts
    obtain ⟨htoken, hcert, hkey, -⟩ : _ ∧ _ ∧ _ ∧ _ := by
      simpa only [List.forall_mem_cons] using hreads
    simp only [Option.getD_some, hfields, hothers, Option.bind_some,
      shownField?_congr (eq_of_rel htoken), shownField?_congr (eq_of_rel hcert),
      shownField?_congr (eq_of_rel hkey)]

theorem read_eq_of_alike {list : KubeList} {element? : Value → Option α}
    {R : Value → Value → Prop} {fields others : Entries} {elements : List α}
    (hR : ∀ v w, R v w → element? v = element? w)
    (h : Option.Rel (ListsAlike R) (fields.field? list.name) (others.field? list.name))
    (hread : read list element? fields = .ok elements) :
    read list element? others = read list element? fields := by
  rw [hread, read_eq_ok]
  rcases read_eq_ok.mp hread with ⟨hmissing, rfl⟩ | ⟨value, hvalue, haccepted⟩
  · rw [hmissing] at h
    generalize others.field? list.name = other at h ⊢
    cases h
    exact .inl ⟨rfl, rfl⟩
  · rw [hvalue] at h
    generalize others.field? list.name = other at h ⊢
    cases h with
    | some hlists =>
      obtain ⟨items, items', hitems, hitems', halike⟩ := hlists
      have hsame := mapM_eq_of_forall₂ halike hR
      rw [accepted?, Value.elements_of_listed? hitems] at haccepted
      refine .inr ⟨_, rfl, ?_⟩
      rw [accepted?, Value.elements_of_listed? hitems', ← haccepted]
      exact hsame.symm

theorem ofDocument_eq_of_alike {doc other : Value} {k : KubeConfig}
    (hk : (ofDocument doc).result = .ok k) (h : DocumentsAlike doc other) :
    ofDocument other = ofDocument doc := by
  obtain ⟨fields, others, hfields, hothers, hreads⟩ := h
  obtain ⟨hclusters, husers, -, -⟩ := (result_eq_ok_iff hfields).mp hk
  obtain ⟨hlists, hlists', -⟩ : _ ∧ _ ∧ _ := by simpa only [List.forall_mem_cons] using hreads
  have hsame := read_eq_of_alike (fun _ _ h => cluster?_eq_of_alike h) hlists hclusters
  have hsame' := read_eq_of_alike (fun _ _ h => user?_eq_of_alike h) hlists' husers
  unfold ofDocument
  rw [hfields, hothers]
  simp only [hsame, hsame']

/-- A mapping is read as a kubeconfig exactly if it has the shape of one, provided that what is read
from it has a text. Entry by entry, the clusters and the users then come from the two lists, and keys
that are not read make no difference. In every other case the mapping is rejected, as long as the list
that it is rejected for, if any, can be quoted. -/
theorem decodes_iff_shaped {doc : Value} {fields : Entries} (h : doc.entries? = some fields) :
    ((∃ k, (ofDocument doc).result = .ok k) ↔ IsReadable fields) ∧
      (¬IsReadable fields → (∀ value, Refuses fields value → ∃ t, value.quoted = .ok t) →
        ∃ reason, (ofDocument doc).result = .error (.rejected reason)) ∧
      (∀ k, (ofDocument doc).result = .ok k ↔ ∃ clusters users, IsShaped fields clusters users ∧
        List.Forall₂ ClusterFrom clusters k.clusters ∧ List.Forall₂ NamedUserFrom users k.users) ∧
      ∀ other, IsReadable fields → DocumentsAlike doc other → ofDocument other = ofDocument doc := by
  have hok := exists_result_iff h
  refine ⟨hok, fun hnot hquotes => ?_, fun k => result_eq_ok_iff_shaped h,
    fun other hreadable halike => ?_⟩
  · cases hresult : (ofDocument doc).result with
    | ok k => exact absurd (hok.mp ⟨k, hresult⟩) hnot
    | error e =>
      cases e with
      | rejected reason => exact ⟨reason, rfl⟩
      | fault f =>
        obtain ⟨value, hrefuses, hquoted⟩ := (result_eq_fault_iff h).mp hresult
        obtain ⟨t, ht⟩ := hquotes value hrefuses
        cases hquoted.symm.trans ht
  · obtain ⟨k, hk⟩ := hok.mpr hreadable
    exact ofDocument_eq_of_alike hk halike

def oddKubeconfig : Entries :=
  [(.str "users", .list [
    .map [(.str "name", .null), (.str "user", .map [(.str "token", .bool true),
      (.str "client-key-data", .null)])],
    .map [(.str "name", .list [.str "u"])]]),
  (.int 1, .str "extra"),
  (.str "clusters", .list [
    .map [(.str "cluster", .map [(.str "server", .int 5)]), (.str "name", .str "")]])]

def plainKubeconfig : Entries :=
  [(.str "clusters", .list [
    .map [(.str "name", .str ""), (.str "extra", .null),
      (.str "cluster", .map [(.str "server", .int 5), (.str "insecure", .bool true)])]]),
  (.str "users", .list [
    .map [(.str "name", .null), (.str "user", .map [(.str "client-key-data", .null),
      (.str "password", .str "x"), (.str "token", .bool true)])],
    .map [(.str "name", .list [.str "u"])]])]

theorem oddKubeconfig_decoded :
    (ofDocument (.map oddKubeconfig)).result = .ok ⟨[⟨.str "", .str "5", .null⟩],
        [⟨.str "None", .str "True", .null, .null⟩, ⟨.str "['u']", .null, .null, .null⟩]⟩ ∧
      ofDocument (.map plainKubeconfig) = ofDocument (.map oddKubeconfig) := by
  obtain ⟨hreadable, -, hdecoded, hframe⟩ :=
    decodes_iff_shaped (rfl : (Value.map oddKubeconfig).entries? = some oddKubeconfig)
  have hresult := (hdecoded ⟨[⟨.str "", .str "5", .null⟩],
    [⟨.str "None", .str "True", .null, .null⟩, ⟨.str "['u']", .null, .null, .null⟩]⟩).mpr (by
    refine ⟨_, _, ⟨rfl, rfl, nofun, nofun, ?_, ?_⟩, .cons ?_ .nil, .cons ?_ (.cons ?_ .nil)⟩
    · rintro _ (_ | ⟨_, ⟨⟩⟩)
      exact .intro rfl rfl rfl rfl rfl
    · rintro _ (_ | ⟨_, _ | ⟨_, ⟨⟩⟩⟩)
      · exact .intro rfl rfl fun _ h => Option.some.inj h ▸ rfl
      · exact .intro rfl rfl nofun
    · exact ⟨⟨"", by decide +kernel, rfl⟩, ⟨"5", by decide +kernel, rfl⟩, .inl ⟨rfl, rfl⟩⟩
    · exact ⟨⟨"None", by decide +kernel, rfl⟩, .inr ⟨nofun, "True", by decide +kernel, rfl⟩,
        .inl ⟨rfl, rfl⟩, .inl ⟨rfl, rfl⟩⟩
    · exact ⟨⟨"['u']", by decide +kernel, rfl⟩, .inl ⟨rfl, rfl⟩, .inl ⟨rfl, rfl⟩, .inl ⟨rfl, rfl⟩⟩)
  refine ⟨hresult, hframe _ (hreadable.mp ⟨_, hresult⟩) ?_⟩
  refine ⟨_, _, rfl, rfl, ?_⟩
  rintro _ (_ | ⟨_, _ | ⟨_, ⟨⟩⟩⟩)
  · refine .some ⟨_, _, rfl, rfl, .cons ⟨_, _, rfl, rfl, ?_⟩ .nil⟩
    rintro _ (_ | ⟨_, _ | ⟨_, ⟨⟩⟩⟩)
    · exact .some rfl
    · refine .some ⟨_, _, rfl, rfl, ?_⟩
      rintro _ (_ | ⟨_, _ | ⟨_, ⟨⟩⟩⟩)
      · exact .some rfl
      · exact .none
  · refine .some ⟨_, _, rfl, rfl, .cons ⟨_, _, rfl, rfl, ?_⟩ (.cons ⟨_, _, rfl, rfl, ?_⟩ .nil)⟩
    · rintro _ (_ | ⟨_, _ | ⟨_, ⟨⟩⟩⟩)
      · exact .some rfl
      · refine .some ⟨_, _, rfl, rfl, ?_⟩
        rintro _ (_ | ⟨_, _ | ⟨_, _ | ⟨_, ⟨⟩⟩⟩⟩)
        · exact .some rfl
        · exact .none
        · exact .some rfl
    · rintro _ (_ | ⟨_, _ | ⟨_, ⟨⟩⟩⟩)
      · exact .some rfl
      · exact .none

def longNamedKubeconfig (n : Int) : Entries :=
  [(.str "clusters", .list [
    .map [(.str "name", .int n), (.str "cluster", .map [(.str "server", .str "b")])]]),
  (.str "users", .list [.map [(.str "name", .str "c")]])]

theorem isShaped_longNamedKubeconfig (n : Int) :
    ∃ clusters users, IsShaped (longNamedKubeconfig n) clusters users := by
  refine ⟨_, _, rfl, rfl, nofun, nofun, ?_, ?_⟩
  · rintro _ (_ | ⟨_, ⟨⟩⟩)
    exact .intro rfl rfl rfl rfl rfl
  · rintro _ (_ | ⟨_, ⟨⟩⟩)
    exact .intro rfl rfl nofun

theorem result_longNamedKubeconfig {n : Int} {f : Fault} (h : Numeral.written n = .error f) :
    (ofDocument (.map (longNamedKubeconfig n))).result = .error (.fault f) := by
  refine (result_eq_fault_iff rfl).mpr ⟨_, .inl ⟨rfl, ?_⟩, ?_⟩
  · rintro items hitems
    cases hitems
    refine ⟨_, List.mem_cons_self, fun hgood => ?_⟩
    obtain ⟨t, ht⟩ := hgood.2 ["name"] (by simp [clusterPaths])
    rw [show valueAt _ _ = Value.int n from rfl, Value.shown_int, h] at ht
    cases ht
  · have hentry : Value.quotedEntry (.str "name") (Value.quotedAtom (.int n)) = .error f := by
      rw [Value.quotedAtom, h]
      rfl
    simp only [Value.quoted, Value.depth, Folder.value, Folder.values, Folder.entriesOf, Value.levels,
      Value.maxShownDepth, Value.quoting, Value.quotedLayer, List.mapM_cons, hentry]
    rfl

/-- A document of the right shape is not read if a name in it has no text. -/
theorem shaped_not_decoded : ∃ doc fields clusters users, doc.entries? = some fields ∧
    IsShaped fields clusters users ∧ (ofDocument doc).result = .error (.fault .longNumeral) := by
  -- Said of every bound, so that the power is never computed.
  have hlong (bound : Nat) : ∃ n : Int, bound ≤ n.natAbs := ⟨.ofNat bound, Nat.le_refl _⟩
  obtain ⟨n, hn⟩ := hlong (Nat.pow 10 Numeral.maxDecimal)
  obtain ⟨clusters, users, hshaped⟩ := isShaped_longNamedKubeconfig n
  exact ⟨_, _, clusters, users, rfl, hshaped,
    result_longNamedKubeconfig (Numeral.written_eq_error hn)⟩

end KubeConfig
end ClusterRegistrar
