import ClusterRegistrar.Proofs.KubeConfig
import ClusterRegistrar.Proofs.Value

/-! The first cluster and the first user of a kubeconfig. Each is read from the first entry of a list
in the document and from a few fields of it, so entries that agree on these fields give the same,
whatever else the two documents hold. -/
namespace ClusterRegistrar

/-! ### Values that read the same -/

namespace Value

/-- Two values read the same as fields: both are missing or neither is, and they have one text. -/
def ReadsAs (v w : Value) : Prop := (v = .null ↔ w = .null) ∧ v.shown = w.shown

def GivesText (v field : Value) : Prop := ∃ t, v.shown = .ok t ∧ field = .str t

def GivesOptional (v field : Value) : Prop :=
  (v = .null ∧ field = .null) ∨ (v ≠ .null ∧ v.GivesText field)

theorem ReadsAs.of_eq {v w : Value} (h : v = w) : v.ReadsAs w := by
  subst h
  exact ⟨Iff.rfl, rfl⟩

theorem GivesText.unique {v w a b : Value} (ha : v.GivesText a) (hb : w.GivesText b)
    (h : v.ReadsAs w) : a = b := by
  obtain ⟨t, ht, rfl⟩ := ha
  obtain ⟨u, hu, rfl⟩ := hb
  rw [h.2, hu] at ht
  cases ht
  rfl

theorem GivesOptional.unique {v w a b : Value} (ha : v.GivesOptional a) (hb : w.GivesOptional b)
    (h : v.ReadsAs w) : a = b := by
  rcases ha with ⟨hv, rfl⟩ | ⟨hv, ha⟩
  · rcases hb with ⟨-, rfl⟩ | ⟨hw, -⟩
    · rfl
    · exact absurd (h.1.mp hv) hw
  · rcases hb with ⟨hw, -⟩ | ⟨-, hb⟩
    · exact absurd (h.1.mpr hw) hv
    · exact ha.unique hb h

end Value

theorem Entries.givesOptional_of_shownField? {fields : Entries} {name : Text} {field : Value}
    (h : fields.shownField? name = some field) : (fields.field name).GivesOptional field := by
  unfold shownField? at h
  split at h
  · rename_i hnull
    exact .inl ⟨hnull, (Option.some.inj h).symm⟩
  · rename_i hnot
    obtain ⟨t, ht, rfl⟩ := Option.map_eq_some_iff.mp h
    exact .inr ⟨hnot, t, Except.toOption_eq_some.mp ht, rfl⟩

namespace KubeConfig

/-! ### Fields of entries -/

def valueAt (path : List Text) (v : Value) : Value :=
  path.foldl (fun v name => (v.entries?.getD []).field name) v

def clusterPaths : List (List Text) :=
  [["name"], ["cluster", "server"], ["cluster", "certificate-authority-data"]]

/-- The fields of a user that count. Its name is not among them. -/
def userPaths : List (List Text) :=
  [["user", "token"], ["user", "client-certificate-data"], ["user", "client-key-data"]]

def AgreeAt (paths : List (List Text)) (v w : Value) : Prop :=
  ∀ path ∈ paths, (valueAt path v).ReadsAs (valueAt path w)

theorem givesText_of_required? {fields : Entries} {name : Text} {field : Value}
    (h : required? fields name = some field) : (fields.field name).GivesText field := by
  simp only [required?, Option.bind_eq_bind, Option.bind_eq_some_iff] at h
  obtain ⟨v, hv, t, ht, hfield⟩ := h
  rw [Entries.field_of_field? hv]
  exact ⟨t, Except.toOption_eq_some.mp ht, (Option.some.inj hfield).symm⟩

structure ClusterFrom (v : Value) (c : KubeCluster) : Prop where
  name : (valueAt ["name"] v).GivesText c.name
  server : (valueAt ["cluster", "server"] v).GivesText c.server
  caData : (valueAt ["cluster", "certificate-authority-data"] v).GivesOptional c.caData

structure UserFrom (v : Value) (u : KubeUser) : Prop where
  token : (valueAt ["user", "token"] v).GivesOptional u.token
  certData : (valueAt ["user", "client-certificate-data"] v).GivesOptional u.certData
  keyData : (valueAt ["user", "client-key-data"] v).GivesOptional u.keyData

theorem valueAt_field {v : Value} {entry : Entries} (h : v.entries? = some entry) (name : Text) :
    valueAt [name] v = entry.field name := by
  simp only [valueAt, List.foldl_cons, List.foldl_nil, h, Option.getD_some]

theorem valueAt_inner {v : Value} {entry fields : Entries} {outer : Text}
    (h : v.entries? = some entry) (hfields : (entry.field outer).entries? = some fields)
    (name : Text) : valueAt [outer, name] v = fields.field name := by
  simp only [valueAt, List.foldl_cons, List.foldl_nil, h, hfields, Option.getD_some]

theorem clusterFrom_of_cluster? {v : Value} {c : KubeCluster} (h : cluster? v = some c) :
    ClusterFrom v c := by
  simp only [cluster?, Option.bind_eq_bind, Option.bind_eq_some_iff] at h
  obtain ⟨entry, hentry, name, hname, part, hpart, fields, hfields, server, hserver, caData, hca,
    hc⟩ := h
  cases hc
  have hinner := valueAt_inner hentry (Entries.field_of_field? hpart ▸ hfields)
  refine ⟨?_, ?_, ?_⟩
  · rw [valueAt_field hentry]
    exact givesText_of_required? hname
  · rw [hinner]
    exact givesText_of_required? hserver
  · rw [hinner]
    exact Entries.givesOptional_of_shownField? hca

theorem valueAt_user {v : Value} {entry fields : Entries} (h : v.entries? = some entry)
    (hfields : ((entry.field? "user").getD .empty).entries? = some fields) (name : Text) :
    valueAt ["user", name] v = fields.field name := by
  -- A user that is left out reads as one without fields.
  have hpart : (entry.field "user").entries?.getD [] = fields := by
    cases huser : entry.field? "user" with
    | none =>
      rw [huser] at hfields
      rw [Entries.field_of_missing huser]
      exact Option.some.inj hfields
    | some part =>
      rw [huser] at hfields
      rw [Entries.field_of_field? huser]
      exact congrArg (·.getD []) hfields
  simp only [valueAt, List.foldl_cons, List.foldl_nil, h, Option.getD_some, hpart]

theorem userFrom_of_user? {v : Value} {u : KubeUser} (h : user? v = some u) : UserFrom v u := by
  simp only [user?, Option.bind_eq_bind, Option.bind_eq_some_iff] at h
  obtain ⟨entry, hentry, name, -, fields, hfields, token, htoken, certData, hcert, keyData, hkey,
    hu⟩ := h
  cases hu
  have hinner := valueAt_user hentry hfields
  refine ⟨?_, ?_, ?_⟩
  · rw [hinner]
    exact Entries.givesOptional_of_shownField? htoken
  · rw [hinner]
    exact Entries.givesOptional_of_shownField? hcert
  · rw [hinner]
    exact Entries.givesOptional_of_shownField? hkey

theorem ClusterFrom.unique {v w : Value} {c d : KubeCluster} (hc : ClusterFrom v c)
    (hd : ClusterFrom w d) (h : AgreeAt clusterPaths v w) : c = d := by
  have hname := hc.name.unique hd.name (h _ (by simp [clusterPaths]))
  have hserver := hc.server.unique hd.server (h _ (by simp [clusterPaths]))
  have hca := hc.caData.unique hd.caData (h _ (by simp [clusterPaths]))
  cases c
  cases d
  simp only at hname hserver hca
  rw [hname, hserver, hca]

theorem UserFrom.unique {v w : Value} {u u' : KubeUser} (hu : UserFrom v u) (hu' : UserFrom w u')
    (h : AgreeAt userPaths v w) :
    u.token = u'.token ∧ u.certData = u'.certData ∧ u.keyData = u'.keyData := by
  refine ⟨?_, ?_, ?_⟩
  · exact hu.token.unique hu'.token (h _ (by simp [userPaths]))
  · exact hu.certData.unique hu'.certData (h _ (by simp [userPaths]))
  · exact hu.keyData.unique hu'.keyData (h _ (by simp [userPaths]))

/-! ### First entries of documents -/

def first? (list : KubeList) (doc : Value) : Option Value := do
  let value ← (← doc.entries?).field? list.name
  (← value.elements.toOption).head?

/-- The first clusters of two documents agree, and so do the first users. -/
def FirstsAgree (doc other : Value) : Prop :=
  (∃ v w, first? .clusters doc = some v ∧ first? .clusters other = some w ∧
    AgreeAt clusterPaths v w) ∧
  ∃ v w, first? .users doc = some v ∧ first? .users other = some w ∧ AgreeAt userPaths v w

theorem exists_first_of_read {list : KubeList} {element? : Value → Option α} {doc : Value}
    {fields : Entries} {elements : List α} {a : α} (hfields : doc.entries? = some fields)
    (h : read list element? fields = .ok elements) (ha : elements.head? = some a) :
    ∃ v, first? list doc = some v ∧ element? v = some a := by
  rcases read_eq_ok.mp h with ⟨-, rfl⟩ | ⟨value, hvalue, haccepted⟩
  · cases ha
  · obtain ⟨items, hitems, hread⟩ := accepted?_eq_some.mp haccepted
    cases hread with
    | nil => cases ha
    | @cons v b _ _ hvb _ =>
      cases ha
      refine ⟨v, ?_, hvb⟩
      simp only [first?, hfields, hvalue, hitems, Option.bind_eq_bind, Option.bind_some]
      rfl

theorem exists_firsts {doc : Value} {k : KubeConfig} {c : KubeCluster} {u : KubeUser}
    (h : (ofDocument doc).result = .ok k) (hc : k.clusters.head? = some c)
    (hu : k.users.head? = some u) :
    (∃ v, first? .clusters doc = some v ∧ ClusterFrom v c) ∧
      ∃ v, first? .users doc = some v ∧ UserFrom v u := by
  obtain ⟨fields, hfields, hclusters, husers, -, -⟩ := result_ofDocument_eq_ok h
  obtain ⟨v, hv, hcluster⟩ := exists_first_of_read hfields hclusters hc
  obtain ⟨w, hw, huser⟩ := exists_first_of_read hfields husers hu
  exact ⟨⟨v, hv, clusterFrom_of_cluster? hcluster⟩, ⟨w, hw, userFrom_of_user? huser⟩⟩

/-- Kubeconfigs whose first entries agree have the same first cluster, and first users with the same
credentials. -/
theorem firsts_eq_of_agree {doc other : Value} (h : FirstsAgree doc other) {k l : KubeConfig}
    (hk : (ofDocument doc).result = .ok k) (hl : (ofDocument other).result = .ok l)
    {c d : KubeCluster} {u u' : KubeUser} (hc : k.clusters.head? = some c)
    (hd : l.clusters.head? = some d) (hu : k.users.head? = some u) (hu' : l.users.head? = some u') :
    c = d ∧ u.token = u'.token ∧ u.certData = u'.certData ∧ u.keyData = u'.keyData := by
  obtain ⟨⟨v, w, hv, hw, hclusters⟩, ⟨v', w', hv', hw', husers⟩⟩ := h
  obtain ⟨⟨_, hv₁, hcluster⟩, ⟨_, hv₂, huser⟩⟩ := exists_firsts hk hc hu
  obtain ⟨⟨_, hw₁, hcluster'⟩, ⟨_, hw₂, huser'⟩⟩ := exists_firsts hl hd hu'
  cases hv.symm.trans hv₁
  cases hw.symm.trans hw₁
  cases hv'.symm.trans hv₂
  cases hw'.symm.trans hw₂
  exact ⟨hcluster.unique hcluster' hclusters, huser.unique huser' husers⟩

/-! ### A test for agreement -/

def sameField : Value → Value → Bool
  | .atom .null, .atom .null => true
  | .atom (.str t), .atom (.str u) => t = u
  | _, _ => false

theorem readsAs_of_sameField {v w : Value} (h : sameField v w = true) : v.ReadsAs w := by
  unfold sameField at h
  split at h
  · exact .of_eq rfl
  · exact .of_eq (congrArg Value.str (of_decide_eq_true h))
  · cases h

def sameAt (paths : List (List Text)) (v w : Value) : Bool :=
  paths.all fun path => sameField (valueAt path v) (valueAt path w)

theorem agreeAt_of_sameAt {paths : List (List Text)} {v w : Value} (h : sameAt paths v w = true) :
    AgreeAt paths v w := by
  intro path hpath
  exact readsAs_of_sameField (List.all_eq_true.mp h path hpath)

def sameFirsts (doc other : Value) : Bool :=
  match first? .clusters doc, first? .clusters other, first? .users doc, first? .users other with
  | some v, some w, some v', some w' => sameAt clusterPaths v w && sameAt userPaths v' w'
  | _, _, _, _ => false

theorem firstsAgree_of_sameFirsts {doc other : Value} (h : sameFirsts doc other = true) :
    FirstsAgree doc other := by
  unfold sameFirsts at h
  split at h
  · rename_i v w v' w' hv hw hv' hw'
    obtain ⟨hclusters, husers⟩ := (Bool.and_eq_true _ _).mp h
    exact ⟨⟨v, w, hv, hw, agreeAt_of_sameAt hclusters⟩, ⟨v', w', hv', hw', agreeAt_of_sameAt husers⟩⟩
  · cases h

end KubeConfig
end ClusterRegistrar
