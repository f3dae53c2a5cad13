import ClusterRegistrar.KubeConfig
import ClusterRegistrar.Proofs.Run

/-! Kubeconfigs that a document stands for. They name a cluster and a user, and every field of the
two is text or missing. What keeps a document from being one is a rejection, unless the value that
the rejection quotes has no text. -/
namespace ClusterRegistrar

def Value.IsOptionalText (v : Value) : Prop := v = .null ∨ ∃ t, v = .str t

structure KubeCluster.IsTextual (c : KubeCluster) : Prop where
  name : ∃ t, c.name = .str t
  server : ∃ t, c.server = .str t
  caData : c.caData.IsOptionalText

structure KubeUser.IsTextual (u : KubeUser) : Prop where
  name : ∃ t, u.name = .str t
  token : u.token.IsOptionalText
  certData : u.certData.IsOptionalText
  keyData : u.keyData.IsOptionalText

theorem Entries.isOptionalText_of_shownField? {fields : Entries} {name : Text} {v : Value}
    (h : fields.shownField? name = some v) : v.IsOptionalText := by
  unfold Entries.shownField? at h
  split at h
  · exact .inl (Option.some.inj h).symm
  · obtain ⟨t, -, ht⟩ := Option.map_eq_some_iff.mp h
    exact .inr ⟨t, ht.symm⟩

namespace KubeConfig

theorem exists_text_of_required? {fields : Entries} {name : Text} {v : Value}
    (h : required? fields name = some v) : ∃ t, v = .str t := by
  simp only [required?, Option.bind_eq_bind, Option.bind_eq_some_iff] at h
  obtain ⟨_, -, t, -, ht⟩ := h
  exact ⟨t, (Option.some.inj ht).symm⟩

theorem isTextual_of_cluster? {v : Value} {c : KubeCluster} (h : cluster? v = some c) :
    c.IsTextual := by
  simp only [cluster?, Option.bind_eq_bind, Option.bind_eq_some_iff] at h
  obtain ⟨_, -, name, hname, _, -, _, -, server, hserver, caData, hca, hc⟩ := h
  cases hc
  exact ⟨exists_text_of_required? hname, exists_text_of_required? hserver,
    Entries.isOptionalText_of_shownField? hca⟩

theorem isTextual_of_user? {v : Value} {u : KubeUser} (h : user? v = some u) : u.IsTextual := by
  simp only [user?, Option.bind_eq_bind, Option.bind_eq_some_iff] at h
  obtain ⟨_, -, name, hname, _, -, token, htoken, certData, hcert, keyData, hkey, hu⟩ := h
  cases hu
  exact ⟨exists_text_of_required? hname, Entries.isOptionalText_of_shownField? htoken,
    Entries.isOptionalText_of_shownField? hcert, Entries.isOptionalText_of_shownField? hkey⟩

/-! ### The two lists -/

def accepted? (element? : Value → Option α) (value : Value) : Option (List α) :=
  value.elements.toOption.bind (·.mapM element?)

/-- A list that is not accepted and has no text to say so with. -/
def Untellable (list : KubeList) (element? : Value → Option α) (fields : Entries) : Prop :=
  ∃ value, fields.field? list.name = some value ∧ accepted? element? value = none ∧
    ∀ t, value.quoted ≠ .ok t

theorem accepted?_eq_some {element? : Value → Option α} {value : Value} {elements : List α} :
    accepted? element? value = some elements ↔ ∃ items, value.elements = .ok items ∧
      List.Forall₂ (fun v a => element? v = some a) items elements := by
  simp only [accepted?, Option.bind_eq_some_iff, Except.toOption_eq_some, Option.mapM_eq_some]

section

variable {list : KubeList} {element? : Value → Option α} {fields : Entries}

theorem read_eq_ok {elements : List α} :
    read list element? fields = .ok elements ↔
      (fields.field? list.name = none ∧ elements = []) ∨
        ∃ value, fields.field? list.name = some value ∧ accepted? element? value = some elements := by
  unfold read accepted?
  cases fields.field? list.name with
  | none => simp [eq_comm]
  | some value =>
    simp only [reduceCtorEq, false_and, false_or, Option.some.injEq, exists_eq_left']
    cases value.elements.toOption.bind (·.mapM element?) with
    | some found => simp
    | none => simp

theorem read_eq_fault {f : Fault} :
    read list element? fields = .error (.fault f) ↔ ∃ value, fields.field? list.name = some value ∧
      accepted? element? value = none ∧ value.quoted = .error f := by
  unfold read accepted?
  cases fields.field? list.name with
  | none => simp
  | some value =>
    simp only [Option.some.injEq, exists_eq_left']
    cases value.elements.toOption.bind (·.mapM element?) with
    | some found => simp
    | none => cases value.quoted <;> simp

theorem exists_element_of_read {elements : List α} (h : read list element? fields = .ok elements)
    {a : α} (ha : a ∈ elements) : ∃ v, element? v = some a := by
  rcases read_eq_ok.mp h with ⟨-, rfl⟩ | ⟨value, -, haccepted⟩
  · cases ha
  · obtain ⟨items, -, hread⟩ := accepted?_eq_some.mp haccepted
    exact forall_right_of_forall₂ (p := fun a => ∃ v, element? v = some a) hread
      (fun v b hvb => ⟨v, hvb⟩) a ha

theorem read_fault_iff :
    (∃ f, read list element? fields = .error (.fault f)) ↔ Untellable list element? fields := by
  simp only [read_eq_fault]
  constructor
  · rintro ⟨f, value, hvalue, hrefused, hquoted⟩
    exact ⟨value, hvalue, hrefused, by simp [hquoted]⟩
  · rintro ⟨value, hvalue, hrefused, hquoted⟩
    cases h : value.quoted with
    | ok t => exact absurd h (hquoted t)
    | error f => exact ⟨f, value, hvalue, hrefused, h⟩

end

/-! ### Documents -/

theorem result_ofDocument {doc : Value} {fields : Entries} (h : doc.entries? = some fields) :
    (ofDocument doc).result = (do
      let clusters ← read .clusters cluster? fields
      let users ← read .users user? fields
      if clusters.isEmpty then Failure.reject (.emptyKubeList .clusters)
      else if users.isEmpty then Failure.reject (.emptyKubeList .users)
      else .ok ⟨clusters, users⟩) := by
  unfold ofDocument
  rw [h]
  simp only [Run.result_bind, Run.result_ofExcept]
  congr 1
  funext clusters
  congr 1
  funext users
  by_cases hclusters : clusters.isEmpty
  · simp only [hclusters, if_true]
    rfl
  · by_cases husers : users.isEmpty
    · simp only [hclusters, husers]
      rfl
    · simp only [hclusters, husers]
      by_cases hmany : (decide (1 < clusters.length) || decide (1 < users.length)) = true
      · rw [if_pos hmany]
        rfl
      · rw [if_neg hmany]
        rfl

theorem result_ofDocument_eq_ok {doc : Value} {k : KubeConfig}
    (h : (ofDocument doc).result = .ok k) :
    ∃ fields, doc.entries? = some fields ∧ read .clusters cluster? fields = .ok k.clusters ∧
      read .users user? fields = .ok k.users ∧ k.clusters ≠ [] ∧ k.users ≠ [] := by
  cases hfields : doc.entries? with
  | none =>
    unfold ofDocument at h
    rw [hfields] at h
    cases h
  | some fields =>
    rw [result_ofDocument hfields] at h
    simp only [Except.bind_eq_ok] at h
    obtain ⟨clusters, hclusters, users, husers, h⟩ := h
    split at h
    · cases h
    · split at h
      · cases h
      · cases h
        exact ⟨fields, rfl, hclusters, husers, by simpa using ‹¬clusters.isEmpty›,
          by simpa using ‹¬users.isEmpty›⟩

theorem isTextual_of_ofDocument {doc : Value} {k : KubeConfig}
    (h : (ofDocument doc).result = .ok k) :
    (∀ c ∈ k.clusters, c.IsTextual) ∧ ∀ u ∈ k.users, u.IsTextual := by
  obtain ⟨fields, -, hclusters, husers, -, -⟩ := result_ofDocument_eq_ok h
  constructor
  · intro c hc
    obtain ⟨v, hv⟩ := exists_element_of_read hclusters hc
    exact isTextual_of_cluster? hv
  · intro u hu
    obtain ⟨v, hv⟩ := exists_element_of_read husers hu
    exact isTextual_of_user? hv

theorem result_ofDocument_eq_fault {doc : Value} {fields : Entries} (h : doc.entries? = some fields)
    {f : Fault} :
    (ofDocument doc).result = .error (.fault f) ↔
      read .clusters cluster? fields = .error (.fault f) ∨
        (∃ clusters, read .clusters cluster? fields = .ok clusters) ∧
          read .users user? fields = .error (.fault f) := by
  rw [result_ofDocument h]
  cases read .clusters cluster? fields with
  | error e => simp
  | ok clusters =>
    cases read .users user? fields with
    | error e => simp
    | ok users =>
      simp only [Except.ok_bind]
      split
      · simp [Failure.reject]
      · split <;> simp [Failure.reject]

/-- A mapping is a kubeconfig or is rejected, unless the list that is to blame has no text. -/
theorem ofDocument_fault_iff {doc : Value} {fields : Entries} (h : doc.entries? = some fields) :
    (∃ f, (ofDocument doc).result = .error (.fault f)) ↔
      Untellable .clusters cluster? fields ∨
        (∃ clusters, read .clusters cluster? fields = .ok clusters) ∧
          Untellable .users user? fields := by
  simp only [result_ofDocument_eq_fault h, exists_or, exists_and_left, read_fault_iff]

theorem cluster_eq_ok {k : KubeConfig} {c : KubeCluster} :
    k.cluster = .ok c ↔ k.clusters.head? = some c := by
  unfold cluster
  cases k.clusters <;> simp

theorem user_eq_ok {k : KubeConfig} {u : KubeUser} :
    k.user = .ok u ↔ k.users.head? = some u := by
  unfold user
  cases k.users <;> simp

theorem logs_ofDocument (doc : Value) : (ofDocument doc).Logs Record.IsDetail := by
  unfold ofDocument
  split
  · refine Run.logs_bind (Run.logs_ofExcept _) fun clusters => ?_
    refine Run.logs_bind (Run.logs_ofExcept _) fun users => ?_
    refine Run.logs_when (Run.logs_ofExcept _) ?_
    refine Run.logs_when (Run.logs_ofExcept _) ?_
    exact Run.logs_when (Run.logs_record ⟨rfl, nofun⟩) (Run.logs_pure _)
  · exact Run.logs_ofExcept _

end KubeConfig
end ClusterRegistrar
