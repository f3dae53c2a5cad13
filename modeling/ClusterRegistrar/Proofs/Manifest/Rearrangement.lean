import ClusterRegistrar.Proofs.Manifest.Document
import ClusterRegistrar.Proofs.Manifest.Matching
import ClusterRegistrar.Proofs.Value.Copying

/-! Rearranged documents. A sequence of documents presents resources: the items of its lists, and the
other documents themselves. Only what is presented counts, so documents can change places, and lists
can be split and gathered. Of the manifests that come out, the clusters change places with their
resources. -/
namespace ClusterRegistrar.Manifest

/-- The resources that a document presents: its items if it is a list, none if it is null. -/
def presented? (doc : Value) : Option (List Value) :=
  match doc, doc.entries? with
  | .null, _ => some []
  | _, some fields =>
    if (fields.field "kind").isText "List" then
      ((fields.field "items").orElse (.list [])).elements.toOption
    else some [doc]
  | _, none => none

theorem presented?_of_fields {doc : Value} {fields : Entries} (h : doc.entries? = some fields) :
    presented? doc =
      if (fields.field "kind").isText "List" then
        ((fields.field "items").orElse (.list [])).elements.toOption
      else some [doc] := by
  cases doc with
  | atom a => cases h
  | _ => simp only [presented?, h]

def items? : List Value → Option (List Value)
  | [] => some []
  | doc :: rest => do return (← presented? doc) ++ (← items? rest)

theorem items?_cons {doc : Value} {docs items : List Value} :
    items? (doc :: docs) = some items ↔
      ∃ first rest, presented? doc = some first ∧ items? docs = some rest ∧
        first ++ rest = items := by
  simp [items?, Option.bind_eq_some_iff]

theorem items?_perm {docs others : List Value} (h : docs.Perm others) {items : List Value}
    (hitems : items? docs = some items) :
    ∃ moved, items? others = some moved ∧ moved.Perm items := by
  induction h generalizing items with
  | nil => exact ⟨items, hitems, .refl _⟩
  | cons doc _ ih =>
    obtain ⟨first, rest, hfirst, hrest, rfl⟩ := items?_cons.mp hitems
    obtain ⟨moved, hmoved, hperm⟩ := ih hrest
    exact ⟨_, items?_cons.mpr ⟨first, moved, hfirst, hmoved, rfl⟩, hperm.append_left first⟩
  | swap doc doc' docs =>
    obtain ⟨first, _, hfirst, hmore, rfl⟩ := items?_cons.mp hitems
    obtain ⟨second, rest, hsecond, hrest, rfl⟩ := items?_cons.mp hmore
    have hother := items?_cons.mpr ⟨first, rest, hfirst, hrest, rfl⟩
    exact ⟨_, items?_cons.mpr ⟨second, _, hsecond, hother, rfl⟩, List.perm_append_comm_assoc ..⟩
  | trans _ _ ih ih' =>
    obtain ⟨moved, hmoved, hperm⟩ := ih hitems
    obtain ⟨moved', hmoved', hperm'⟩ := ih' hmoved
    exact ⟨moved', hmoved', hperm'.trans hperm⟩

theorem presented?_of_resource {item : Value} {fields : Entries} (h : item.entries? = some fields)
    (hkind : (fields.field "kind").isText "List" = false) : presented? item = some [item] := by
  rw [presented?_of_fields h, hkind]
  rfl

theorem items?_append (docs others : List Value) :
    items? (docs ++ others) = do return (← items? docs) ++ (← items? others) := by
  induction docs with
  | nil => simp [items?]
  | cons doc rest ih => simp [items?, ih, Option.bind_assoc]

theorem items?_of_resources {items : List Value}
    (h : ∀ item ∈ items, presented? item = some [item]) : items? items = some items := by
  induction items with
  | nil => rfl
  | cons item rest ih =>
    obtain ⟨hfirst, hrest⟩ := List.forall_mem_cons.mp h
    exact items?_cons.mpr ⟨[item], rest, hfirst, ih hrest, rfl⟩

/-- A list presents what its items present as documents, unless one of them is a list itself or
null. -/
theorem items?_split {doc : Value} {items : List Value} (h : presented? doc = some items)
    (hitems : ∀ item ∈ items, presented? item = some [item]) (before after : List Value) :
    items? (before ++ doc :: after) = items? (before ++ items ++ after) := by
  rw [items?_append, items?_append (before ++ items), items?_append before,
    items?_of_resources hitems]
  simp [items?, h, Option.bind_assoc]

/-! ### What is read of them -/

theorem ofResources_append (items more : List Value) :
    ofResources (items ++ more) = do
      let first ← ofResources items
      return first ++ (← ofResources more) := by
  simp [ofResources, List.mapM_append]

theorem ofDocument_of_fields (path : Text) {doc : Value} {fields : Entries}
    (h : doc.entries? = some fields) :
    ofDocument path doc =
      if (fields.field "kind").isText "List" then do
        ofResources (← Run.ofFault ((fields.field "items").orElse (.list [])).elements)
      else ofResources [doc] := by
  cases doc with
  | atom a => cases h
  | _ => simp only [ofDocument, h]

theorem ofDocument_of_presented {doc : Value} {items : List Value}
    (h : presented? doc = some items) (path : Text) : ofDocument path doc = ofResources items := by
  cases hfields : doc.entries? with
  | some fields =>
    rw [presented?_of_fields hfields] at h
    rw [ofDocument_of_fields path hfields]
    split at h
    · rename_i hlist
      rw [if_pos hlist, Except.toOption_eq_some.mp h]
      rfl
    · rename_i hlist
      rw [if_neg hlist, Option.some.inj h]
  | none =>
    unfold presented? at h
    rw [hfields] at h
    split at h
    · cases h
      rfl
    · contradiction
    · cases h

theorem exists_presented {path : Text} {doc : Value} {ms : List Manifest}
    (h : (ofDocument path doc).result = .ok ms) : ∃ items, presented? doc = some items := by
  cases hfields : doc.entries? with
  | some fields =>
    rw [ofDocument_of_fields path hfields] at h
    rw [presented?_of_fields hfields]
    split at h
    · rename_i hlist
      obtain ⟨items, hitems, -⟩ := Run.result_bind_eq_ok.mp h
      rw [Run.result_ofFault, Fault.lift_eq_ok] at hitems
      exact ⟨items, by rw [if_pos hlist, Except.toOption_eq_some, hitems]⟩
    · rename_i hlist
      exact ⟨[doc], if_neg hlist⟩
  | none =>
    unfold ofDocument at h
    rw [hfields] at h
    split at h
    · exact ⟨[], rfl⟩
    · contradiction
    · cases Failure.rejectWith_ne_ok _ _ _ h

theorem ofDocuments_of_items {docs items : List Value} (h : items? docs = some items)
    (path : Text) : ofDocuments path docs = ofResources items := by
  induction docs generalizing items with
  | nil =>
    cases h
    rfl
  | cons doc rest ih =>
    obtain ⟨first, more, hfirst, hmore, rfl⟩ := items?_cons.mp h
    rw [ofResources_append, ← ofDocument_of_presented hfirst path, ← ih hmore]
    simp [ofDocuments]

theorem exists_items {path : Text} {docs : List Value} {ms : List Manifest}
    (h : (ofDocuments path docs).result = .ok ms) : ∃ items, items? docs = some items := by
  obtain ⟨parts, hparts, -⟩ := Run.result_bind_eq_ok.mp h
  rw [Run.result_mapM, Except.mapM_eq_ok] at hparts
  clear h
  induction hparts with
  | nil => exact ⟨[], rfl⟩
  | cons hpart _ ih =>
    obtain ⟨first, hfirst⟩ := exists_presented hpart
    obtain ⟨rest, hrest⟩ := ih
    exact ⟨first ++ rest, items?_cons.mpr ⟨first, rest, hfirst, hrest, rfl⟩⟩

def manifest? (item : Value) : Option Manifest := (ofResource item).result.toOption.join

def IsAccepted (item : Value) : Prop := ∃ m?, (ofResource item).result = .ok m?

theorem result_of_isAccepted {item : Value} (h : IsAccepted item) :
    (ofResource item).result = .ok (manifest? item) := by
  obtain ⟨m?, hm⟩ := h
  rw [manifest?, hm]
  rfl

theorem result_ofResources_eq_ok {items : List Value} {ms : List Manifest} :
    (ofResources items).result = .ok ms ↔
      (∀ item ∈ items, IsAccepted item) ∧ items.filterMap manifest? = ms := by
  have hresult : (ofResources items).result = .ok ms ↔
      ∃ found, (items.mapM fun item => (ofResource item).result) = .ok found ∧
        found.flatMap Option.toList = ms := by
    rw [ofResources, Run.result_bind_eq_ok, Run.result_mapM]
    simp
  have hfound (hall : ∀ item ∈ items, IsAccepted item) :
      (items.mapM fun item => (ofResource item).result) = .ok (items.map manifest?) := by
    rw [Except.mapM_eq_ok, List.forall₂_map_right_iff, List.forall₂_same]
    exact fun item hitem => result_of_isAccepted (hall item hitem)
  rw [hresult, List.filterMap_eq_flatMap_toList, ← List.flatMap_map manifest? Option.toList]
  constructor
  · rintro ⟨found, h, rfl⟩
    have hall := Except.exists_mapM_eq_ok.mp ⟨found, h⟩
    rw [hfound hall] at h
    rw [Except.ok.inj h]
    exact ⟨hall, rfl⟩
  · rintro ⟨hall, rfl⟩
    exact ⟨_, hfound hall, rfl⟩

theorem log_ofResources {items : List Value} (h : ∀ item ∈ items, IsAccepted item) :
    (ofResources items).log = items.flatMap fun item => (ofResource item).log := by
  rw [ofResources, ← Run.log_mapM h]
  exact Run.log_map _ _

theorem presented?_of_manifest {doc : Value} {m : Manifest} (h : (ofResource doc).result = .ok (some m)) :
    presented? doc = some [doc] := by
  obtain ⟨fields, k, head, hfields, hannounces, -, -⟩ := exists_announced h
  refine presented?_of_resource hfields ?_
  generalize fields.field "kind" = kind at hannounces ⊢
  generalize fields.field "apiVersion" = version at hannounces
  cases hannounces <;> decide

theorem result_ofDocuments_of_manifests {docs : List Value} {ms : List Manifest}
    (h : List.Forall₂ (fun doc m => (ofResource doc).result = .ok (some m)) docs ms) (path : Text) :
    (ofDocuments path docs).result = .ok ms := by
  have hitems : items? docs = some docs :=
    items?_of_resources (forall_left_of_forall₂ h fun doc m hdoc => presented?_of_manifest hdoc)
  rw [ofDocuments_of_items hitems, result_ofResources_eq_ok]
  refine ⟨forall_left_of_forall₂ h fun doc m hdoc => ⟨_, hdoc⟩, ?_⟩
  clear hitems
  induction h with
  | nil => rfl
  | cons hdoc _ ih =>
    rw [List.filterMap_cons_some (by rw [manifest?, hdoc]; rfl), ih]

theorem ofFile_of_documents {path : Text} {content : ByteArray} {docs : List Value}
    (h : documents path content = .ok docs) : ofFile path content = ofDocuments path docs := by
  rw [ofFile, h]
  rfl

/-! ### Logs -/

theorem logs_ofResource (item : Value) : (ofResource item).Logs Record.IsDetail := by
  unfold ofResource
  refine Run.logs_bind (Run.logs_ofExcept _) fun fields => ?_
  refine Run.logs_when (Run.logs_ofExcept _) (Run.logs_when (Run.logs_ofExcept _) ?_)
  refine Run.logs_bind (Run.logs_ofExcept _) fun kind? => ?_
  split
  · exact Run.logs_bind (Run.logs_ofExcept _) fun _ => Run.logs_pure _
  · exact Run.logs_bind (Run.logs_ofExcept _) fun _ => Run.logs_pure _
  · exact Run.logs_bind (Run.logs_record ⟨rfl, by simp⟩) fun _ => Run.logs_pure _

theorem logs_ofResources (items : List Value) : (ofResources items).Logs Record.IsDetail :=
  Run.logs_bind (Run.logs_mapM fun item => logs_ofResource item) fun _ => Run.logs_pure _

theorem logs_ofDocument (path : Text) (doc : Value) :
    (ofDocument path doc).Logs Record.IsDetail := by
  unfold ofDocument
  split
  · exact Run.logs_pure _
  · split
    · exact Run.logs_bind (Run.logs_ofExcept _) fun items => logs_ofResources items
    · exact logs_ofResources _
  · exact Run.logs_ofExcept _

theorem logs_ofDocuments (path : Text) (docs : List Value) :
    (ofDocuments path docs).Logs Record.IsDetail :=
  Run.logs_bind (Run.logs_mapM fun doc => logs_ofDocument path doc) fun _ => Run.logs_pure _

/-! ### Rearrangements -/

def isSecret (item : Value) : Bool :=
  item.entries?.any fun fields =>
    (fields.field "kind").isText "Secret" && (fields.field "apiVersion").isText "v1"

/-- A resource that was read elsewhere. What is one cell in the resource is one in the copy, and what is
two stays two. Atoms with an origin correspond to each other in one way for all resources. -/
def IsCopy (origins : Origin → Origin → Prop) (item other : Value) : Prop :=
  ∃ M : Correspondence, M.Keeps origins ∧ item.Matches M other

/-- Documents that present copies of the resources of others, in an order in which the secrets keep
theirs. Within a resource all sharing stays as it was, and so does that of dates, times and NaNs between
resources. Only whether two resources share mappings and lists is left free. -/
def Rearranged (docs others : List Value) : Prop :=
  ∃ items moved copies origins, items? docs = some items ∧ items? others = some copies ∧
    moved.Perm items ∧ moved.filter isSecret = items.filter isSecret ∧
    List.Forall₂ (IsCopy origins) moved copies

/-- Documents change places, a list is split into its items, or items are gathered into a list. -/
inductive Regroups : List Value → List Value → Prop where
  | perm {docs others : List Value} (h : docs.Perm others) : Regroups docs others
  | split {doc : Value} {items : List Value} (h : presented? doc = some items)
    (hitems : ∀ item ∈ items, presented? item = some [item]) (before after : List Value) :
    Regroups (before ++ doc :: after) (before ++ items ++ after)
  | gather {doc : Value} {items : List Value} (h : presented? doc = some items)
    (hitems : ∀ item ∈ items, presented? item = some [item]) (before after : List Value) :
    Regroups (before ++ items ++ after) (before ++ doc :: after)
  | trans {docs middle others : List Value} (h : Regroups docs middle) (h' : Regroups middle others) :
    Regroups docs others

theorem Regroups.exists_items {docs others items : List Value} (h : Regroups docs others)
    (hitems : items? docs = some items) :
    ∃ moved, items? others = some moved ∧ moved.Perm items := by
  induction h generalizing items with
  | perm h => exact items?_perm h hitems
  | split h hresources before after =>
    exact ⟨items, items?_split h hresources before after ▸ hitems, .refl _⟩
  | gather h hresources before after =>
    exact ⟨items, (items?_split h hresources before after).trans hitems, .refl _⟩
  | trans _ _ ih ih' =>
    obtain ⟨middle, hmiddle, hperm⟩ := ih hitems
    obtain ⟨moved, hmoved, hperm'⟩ := ih' hmiddle
    exact ⟨moved, hmoved, hperm'.trans hperm⟩

theorem presented?_rel {M : Correspondence} {doc other : Value} (h : doc.Matches M other) :
    Option.Rel (List.Forall₂ (Value.Matches M)) (presented? doc) (presented? other) := by
  have hentries := h.entries?_rel
  cases hfields : doc.entries? with
  | none =>
    cases h with
    | atom ha =>
      cases ha with
      | plain =>
        rename_i a _
        cases a with
        | null => exact .some .nil
        | _ => exact .none
      | _ => exact .none
    | list | pair => exact .none
    | map => cases hfields
    | node =>
      rw [hfields] at hentries
      generalize hothers : Value.entries? _ = others? at hentries
      cases hentries
      simp only [presented?, hfields, hothers]
      exact .none
  | some fields =>
    rw [hfields] at hentries
    generalize hothers : other.entries? = others? at hentries
    cases hentries with
    | some halike =>
      rw [presented?_of_fields hfields, presented?_of_fields hothers,
        (halike.field "kind").isText_eq "List"]
      split
      · exact ((halike.field "items").orElse (.list .nil)).elements_agree.toOption
      · exact .some (.cons h .nil)

/-- A document is written elsewhere as a whole, or each of the resources that it presents is. -/
inductive Rewritten (origins : Origin → Origin → Prop) (doc other : Value) : Prop where
  | whole (h : IsCopy origins doc other)
  | items {items copies : List Value} (h : presented? doc = some items)
    (h' : presented? other = some copies) (hcopies : List.Forall₂ (IsCopy origins) items copies)

theorem Rewritten.exists_copies {origins : Origin → Origin → Prop} {doc other : Value}
    (h : Rewritten origins doc other) {items : List Value} (hitems : presented? doc = some items) :
    ∃ copies, presented? other = some copies ∧ List.Forall₂ (IsCopy origins) items copies := by
  cases h with
  | whole h =>
    obtain ⟨M, hM, hmatch⟩ := h
    have hpresented := presented?_rel hmatch
    rw [hitems] at hpresented
    generalize presented? other = copies? at hpresented
    cases hpresented with
    | some hcopies => exact ⟨_, rfl, hcopies.imp fun _ _ h => ⟨M, hM, h⟩⟩
  | items h h' hcopies =>
    cases hitems.symm.trans h
    exact ⟨_, h', hcopies⟩

theorem exists_copies {origins : Origin → Origin → Prop} {docs others : List Value}
    (h : List.Forall₂ (Rewritten origins) docs others) {items : List Value}
    (hitems : items? docs = some items) :
    ∃ copies, items? others = some copies ∧ List.Forall₂ (IsCopy origins) items copies := by
  induction h generalizing items with
  | nil =>
    cases hitems
    exact ⟨[], rfl, .nil⟩
  | cons hdoc _ ih =>
    obtain ⟨first, rest, hfirst, hrest, rfl⟩ := items?_cons.mp hitems
    obtain ⟨copies, hcopies, hfirsts⟩ := hdoc.exists_copies hfirst
    obtain ⟨more, hmore, hrests⟩ := ih hrest
    exact ⟨copies ++ more, items?_cons.mpr ⟨copies, more, hcopies, hmore, rfl⟩,
      List.rel_append hfirsts hrests⟩

/-- Documents are rearranged when they are regrouped, with the secrets in their order, and then written
elsewhere. -/
theorem rearranged_of_regroups {path : Text} {docs middle others : List Value} {ms : List Manifest}
    (hms : (ofDocuments path docs).result = .ok ms) (h : Regroups docs middle)
    (hsecrets : ∀ items moved, items? docs = some items → items? middle = some moved →
      moved.filter isSecret = items.filter isSecret)
    {origins : Origin → Origin → Prop}
    (hcopies : List.Forall₂ (Rewritten origins) middle others) : Rearranged docs others := by
  obtain ⟨items, hitems⟩ := exists_items hms
  obtain ⟨moved, hmoved, hperm⟩ := h.exists_items hitems
  obtain ⟨copies, hothers, hcopied⟩ := exists_copies hcopies hmoved
  exact ⟨items, moved, copies, origins, hitems, hothers, hperm, hsecrets items moved hitems hmoved,
    hcopied⟩

theorem announces_of_manifest? {item : Value} {m : Manifest} (h : manifest? item = some m) :
    ∃ fields k, ∃ head : Header, item.entries? = some fields ∧
      Announces k (fields.field "kind") (fields.field "apiVersion") ∧ m = head.toManifest k := by
  rw [manifest?, Option.join_eq_some_iff, Except.toOption_eq_some] at h
  obtain ⟨fields, k, head, hfields, hk, -, hm⟩ := exists_announced h
  exact ⟨fields, k, head, hfields, hk, hm⟩

theorem isSecret_of_manifest? {item : Value} {s : SourceSecret}
    (h : manifest? item = some (.secret s)) : isSecret item = true := by
  obtain ⟨fields, k, head, hfields, hk, hm⟩ := announces_of_manifest? h
  rw [isSecret, hfields, Option.any_some]
  cases k with
  | secret =>
    generalize fields.field "kind" = kind, fields.field "apiVersion" = version at hk ⊢
    cases hk
    rfl
  | cluster => cases hm

theorem secrets_eq (items : List Value) :
    (items.filterMap manifest?).filterMap secret? =
      ((items.filter isSecret).filterMap manifest?).filterMap secret? := by
  rw [List.filterMap_filterMap, List.filterMap_filterMap, List.filterMap_filter]
  refine List.filterMap_congr fun item _ => ?_
  split
  · rfl
  · rename_i hother
    cases hmanifest : manifest? item with
    | none => rfl
    | some m =>
      cases m with
      | secret s => exact absurd (isSecret_of_manifest? hmanifest) hother
      | cluster c => rfl

theorem IsCopy.isAccepted {origins : Origin → Origin → Prop} {item other : Value}
    (h : IsCopy origins item other) (haccepted : IsAccepted item) : IsAccepted other := by
  obtain ⟨M, -, hmatch⟩ := h
  obtain ⟨m?, hm⟩ := haccepted
  obtain ⟨m'?, hm', -⟩ := (ofResource_agree hmatch).result.exists_ok hm
  exact ⟨m'?, hm'⟩

theorem IsCopy.log_eq {origins : Origin → Origin → Prop} {item other : Value}
    (h : IsCopy origins item other) : (ofResource item).log = (ofResource other).log := by
  obtain ⟨M, -, hmatch⟩ := h
  exact (ofResource_agree hmatch).log

theorem IsCopy.manifest?_rel {origins : Origin → Origin → Prop} {item other : Value}
    (h : IsCopy origins item other) :
    Option.Rel (fun m n => ∃ M : Correspondence, M.Keeps origins ∧ m.Matches M n) (manifest? item)
      (manifest? other) := by
  obtain ⟨M, hM, hmatch⟩ := h
  have hagree := (ofResource_agree hmatch).result
  unfold manifest?
  generalize (ofResource item).result = left, (ofResource other).result = right at hagree ⊢
  cases hagree with
  | error e => exact .none
  | ok h =>
    cases h with
    | none => exact .none
    | some h => exact .some ⟨M, hM, h⟩

section

variable {origins : Origin → Origin → Prop} {items copies : List Value}

theorem forall₂_manifests (h : List.Forall₂ (IsCopy origins) items copies) :
    List.Forall₂ (fun m n => ∃ M : Correspondence, M.Keeps origins ∧ m.Matches M n)
      (items.filterMap manifest?) (copies.filterMap manifest?) :=
  List.rel_filterMap (fun _ _ h => IsCopy.manifest?_rel h) h

theorem forall₂_secrets (h : List.Forall₂ (IsCopy origins) items copies) :
    List.Forall₂ (SourceSecret.IsCopy origins) ((items.filterMap manifest?).filterMap secret?)
      ((copies.filterMap manifest?).filterMap secret?) := by
  refine List.rel_filterMap (fun m n hm => ?_) (forall₂_manifests h)
  obtain ⟨M, hM, hmatch⟩ := hm
  cases hmatch with
  | secret h => exact .some ⟨M, hM, h⟩
  | cluster => exact .none

theorem forall₂_clusters (h : List.Forall₂ (IsCopy origins) items copies) :
    List.Forall₂ (SourceCluster.IsCopy origins) ((items.filterMap manifest?).filterMap cluster?)
      ((copies.filterMap manifest?).filterMap cluster?) := by
  refine List.rel_filterMap (fun m n hm => ?_) (forall₂_manifests h)
  obtain ⟨M, hM, hmatch⟩ := hm
  cases hmatch with
  | secret => exact .none
  | cluster h => exact .some ⟨M, hM, h⟩

theorem isAccepted_of_forall₂ (h : List.Forall₂ (IsCopy origins) items copies)
    (haccepted : ∀ item ∈ items, IsAccepted item) : ∀ item ∈ copies, IsAccepted item :=
  forall_right_of_forall₂ ((List.forall₂_and_left _ _).mpr ⟨haccepted, h⟩)
    fun _ _ ⟨haccepted, h⟩ => h.isAccepted haccepted

end

/-- Rearranged documents are accepted too. Their secrets are in the same order, and their clusters in
some order. -/
theorem Rearranged.exists_manifests {docs others : List Value} (h : Rearranged docs others)
    {path : Text} {ms : List Manifest} (hms : (ofDocuments path docs).result = .ok ms) :
    ∃ ms', (ofDocuments path others).result = .ok ms' ∧
      (ofDocuments path docs).log.Perm (ofDocuments path others).log ∧
      ∃ origins, List.Forall₂ (SourceSecret.IsCopy origins) (ms.filterMap secret?)
          (ms'.filterMap secret?) ∧
        ∃ moved, moved.Perm (ms.filterMap cluster?) ∧
          List.Forall₂ (SourceCluster.IsCopy origins) moved (ms'.filterMap cluster?) := by
  obtain ⟨items, moved, copies, origins, hitems, hcopies, hperm, hsecrets, hcopy⟩ := h
  rw [ofDocuments_of_items hitems] at hms ⊢
  rw [ofDocuments_of_items hcopies]
  obtain ⟨hall, rfl⟩ := result_ofResources_eq_ok.mp hms
  have hall' := isAccepted_of_forall₂ hcopy fun item h => hall item (hperm.mem_iff.mp h)
  refine ⟨_, result_ofResources_eq_ok.mpr ⟨hall', rfl⟩, ?_, origins, ?_,
    (moved.filterMap manifest?).filterMap cluster?, ?_, forall₂_clusters hcopy⟩
  · have hlogs : (moved.flatMap fun item => (ofResource item).log) =
        copies.flatMap fun item => (ofResource item).log := by
      rw [List.flatMap_def, List.flatMap_def, map_eq_of_forall₂ hcopy fun _ _ h => h.log_eq]
    rw [log_ofResources hall, log_ofResources hall', ← hlogs]
    exact (hperm.flatMap_right _).symm
  · rw [secrets_eq items, ← hsecrets, ← secrets_eq]
    exact forall₂_secrets hcopy
  · exact (hperm.filterMap _).filterMap _

/-! ### Checking rearrangements -/

def exchanged (secretOrigins otherOrigins : List (Origin × Origin))
    (secretCells otherCells : List (Nat × Nat)) (docs others : List Value) : Bool :=
  match items? docs, items? others with
  | some [a, b], some [b', a'] =>
    isSecret a && !isSecret b && a.isCopied secretOrigins secretCells a' &&
      b.isCopied otherOrigins otherCells b'
  | _, _ => false

variable {secretOrigins otherOrigins : List (Origin × Origin)}
  {secretCells otherCells : List (Nat × Nat)} {docs others : List Value}

theorem exists_items_of_exchanged
    (h : exchanged secretOrigins otherOrigins secretCells otherCells docs others = true) :
    ∃ a b a' b', items? docs = some [a, b] ∧ items? others = some [b', a'] ∧ isSecret a = true ∧
      isSecret b = false ∧ IsCopy (fun o p => (o, p) ∈ secretOrigins) a a' ∧
      IsCopy (fun o p => (o, p) ∈ otherOrigins) b b' := by
  unfold exchanged at h
  split at h
  · rename_i a b b' a' hitems hothers
    simp only [Bool.and_eq_true, Bool.not_eq_true'] at h
    obtain ⟨⟨⟨ha, hb⟩, hsecret⟩, hother⟩ := h
    exact ⟨a, b, a', b', hitems, hothers, ha, hb, Value.exists_matches_of_isCopied hsecret,
      Value.exists_matches_of_isCopied hother⟩
  · cases h

theorem rearranged_of_exchanged
    (h : exchanged secretOrigins secretOrigins secretCells otherCells docs others = true) :
    Rearranged docs others := by
  obtain ⟨a, b, a', b', hitems, hothers, ha, hb, hsecret, hother⟩ := exists_items_of_exchanged h
  refine ⟨[a, b], [b, a], [b', a'], fun o p => (o, p) ∈ secretOrigins, hitems, hothers,
    .swap _ _ _, ?_, ?_⟩
  · simp [ha, hb]
  · exact .cons hother (.cons hsecret .nil)

end ClusterRegistrar.Manifest
