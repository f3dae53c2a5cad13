import ClusterRegistrar.Credentials
import ClusterRegistrar.Proofs.Json.RoundTrip
import ClusterRegistrar.Proofs.KubeConfig
import ClusterRegistrar.Proofs.Text

/-! Credentials of which every field is text or missing. They always have a JSON form, and it tells
what they hold: a field is read from it exactly if the field is there. -/
namespace ClusterRegistrar

namespace Value

theorem foldl_max_le {items : List Nat} {bound : Nat} (h : ∀ n ∈ items, n ≤ bound) :
    items.foldl max 0 ≤ bound := by
  suffices hfrom : ∀ start ≤ bound, items.foldl max start ≤ bound from hfrom 0 (Nat.zero_le _)
  induction items with
  | nil => exact fun start hstart => hstart
  | cons n rest ih =>
    intro start hstart
    refine ih (fun m hm => h m (List.mem_cons_of_mem _ hm)) _ ?_
    exact Nat.max_le.mpr ⟨hstart, h n List.mem_cons_self⟩

theorem depth_map_le {entries : Entries} {bound : Nat}
    (h : ∀ entry ∈ entries, entry.2.depth ≤ bound) : (Value.map entries).depth ≤ bound + 1 := by
  have hdepth : (Value.map entries).depth =
      (entries.map fun entry => entry.2.depth).foldl max 0 + 1 := by
    unfold depth
    rw [Folder.value, Folder.entriesOf_eq_map]
    simp only [levels, List.map_map]
    rfl
  rw [hdepth]
  refine Nat.succ_le_succ (foldl_max_le fun n hn => ?_)
  obtain ⟨entry, hentry, rfl⟩ := List.mem_map.mp hn
  exact h entry hentry

end Value

namespace Json

def field? (fields : List (Text × Json)) (name : Text) : Option Json := fields.lookup name

private theorem mapM_nameOfKey {entries : Entries} {fields : List (Text × Json)}
    (h : List.Forall₂ (fun entry field => entry.1 = .str field.1 ∧
      forming.value entry.2 = .ok field.2) entries fields) :
    (entries.map fun (key, v) => (key, forming.value v)).mapM (fun (key, value) => do
      let name ← nameOfKey key
      return (name, ← value)) = (.ok fields : Except Refusal _) := by
  rw [Except.mapM_eq_ok, List.forall₂_map_left_iff]
  refine h.imp ?_
  rintro ⟨key, v⟩ ⟨name, j⟩ ⟨rfl, hv⟩
  simp only [hv]
  rfl

theorem forming_map {entries : Entries} {fields : List (Text × Json)}
    (h : List.Forall₂ (fun entry field => entry.1 = .str field.1 ∧
      forming.value entry.2 = .ok field.2) entries fields) :
    forming.value (.map entries) = .ok (.obj fields) := by
  rw [Folder.value, Folder.entriesOf_eq_map]
  show (_ >>= fun fields => Except.ok (Json.obj fields)) = _
  rw [mapM_nameOfKey h]
  rfl

end Json

def TlsCredentials.IsTextual (t : TlsCredentials) : Prop :=
  ∀ part ∈ t.listing, part.2.IsOptionalText

structure Credentials.IsTextual (c : Credentials) : Prop where
  tls : ∀ t, c.tls = some t → t.IsTextual
  bearerToken : c.bearerToken.IsOptionalText

namespace Credentials

def optionalField (name : Text) : Value → List (Text × Json)
  | .atom (.str t) => [(name, .str t)]
  | _ => []

def tlsFields (t : TlsCredentials) : List (Text × Json) :=
  t.listing.flatMap fun (field, value) => optionalField field.name value

def fields (c : Credentials) : List (Text × Json) :=
  (c.tls.map fun t => (("tlsClientConfig" : Text), Json.obj (tlsFields t))).toList ++
    optionalField "bearerToken" c.bearerToken

private def Formed (entry : Atom × Value) (field : Text × Json) : Prop :=
  entry.1 = .str field.1 ∧ Json.forming.value entry.2 = .ok field.2

private theorem formed_optional {v : Value} (h : v.IsOptionalText) (name : Text) :
    List.Forall₂ Formed (optionalEntry name v) (optionalField name v) := by
  rcases h with rfl | ⟨t, rfl⟩
  · exact .nil
  · exact .cons ⟨rfl, rfl⟩ .nil

private theorem formed_tls {t : TlsCredentials} (h : t.IsTextual) :
    List.Forall₂ Formed (tlsEntries t) (tlsFields t) := by
  have hsame : List.Forall₂ (fun part other => part.2.IsOptionalText ∧ part = other) t.listing
      t.listing := List.forall₂_same.mpr fun part hpart => ⟨h part hpart, rfl⟩
  refine List.rel_flatMap hsame ?_
  rintro part _ ⟨hpart, rfl⟩
  exact formed_optional hpart part.1.name

theorem forming_toValue {c : Credentials} (h : c.IsTextual) :
    Json.forming.value c.toValue = .ok (.obj c.fields) := by
  refine Json.forming_map (List.rel_append ?_ (formed_optional h.bearerToken _))
  cases htls : c.tls with
  | none => exact .nil
  | some t => exact .cons ⟨rfl, Json.forming_map (formed_tls (h.tls t htls))⟩ .nil

private theorem depth_optional {v : Value} (h : v.IsOptionalText) (name : Text) :
    ∀ entry ∈ optionalEntry name v, entry.2.depth ≤ 0 := by
  rcases h with rfl | ⟨t, rfl⟩
  · intro entry hentry
    cases hentry
  · intro entry hentry
    rw [List.mem_singleton.mp hentry]
    exact Nat.le_refl 0

theorem depth_toValue_le {c : Credentials} (h : c.IsTextual) : c.toValue.depth ≤ 2 := by
  refine Value.depth_map_le fun entry hentry => ?_
  rcases List.mem_append.mp hentry with htls | htoken
  · obtain ⟨t, ht, rfl⟩ := Option.map_eq_some_iff.mp (Option.mem_toList.mp htls)
    refine Value.depth_map_le fun entry hentry => ?_
    obtain ⟨part, hpart, hmem⟩ := List.mem_flatMap.mp hentry
    exact depth_optional (h.tls t ht part hpart) _ entry hmem
  · exact Nat.le_succ_of_le (depth_optional h.bearerToken _ entry htoken)

theorem encode_eq {c : Credentials} (h : c.IsTextual) :
    c.encode = .ok (Json.compactText (.obj c.fields)) := by
  have hdepth : ¬Json.maxDepth < c.toValue.depth := by
    have := depth_toValue_le h
    unfold Json.maxDepth
    omega
  have hform : Json.ofValue c.toValue = .ok (.obj c.fields) := by
    rw [Json.ofValue, if_neg hdepth, forming_toValue h]
  unfold encode
  rw [hform]

theorem isTextual_fields (c : Credentials) : (Json.obj c.fields).IsTextual := by
  have hoptional (name : Text) (v : Value) :
      ∀ field ∈ optionalField name v, field.2.IsTextual := by
    unfold optionalField
    split
    · rename_i t
      intro field hfield
      rw [List.mem_singleton.mp hfield]
      exact .str t
    · intro field hfield
      cases hfield
  refine .obj fun field hfield => ?_
  rcases List.mem_append.mp hfield with htls | htoken
  · obtain ⟨t, -, rfl⟩ := Option.map_eq_some_iff.mp (Option.mem_toList.mp htls)
    refine .obj fun field hfield => ?_
    obtain ⟨part, -, hmem⟩ := List.mem_flatMap.mp hfield
    exact hoptional _ _ field hmem
  · exact hoptional _ _ field htoken

/-! ### What the JSON form tells -/

/-- The text of an optional text, as it is read from JSON. -/
def readText? : Value → Option Text
  | .atom (.str t) => some t.joined
  | _ => none

theorem readText?_of_isScalar {t : Text} (h : t.IsScalar) : readText? (.str t) = some t := by
  obtain ⟨cs, rfl⟩ := h
  exact congrArg some (Text.joined_ofChars cs)

def readFields (parts : List (Text × Value)) : List (Text × Json) :=
  parts.filterMap fun part => (readText? part.2).map fun t => (part.1, .str t)

theorem readFields_append (left right : List (Text × Value)) :
    readFields (left ++ right) = readFields left ++ readFields right :=
  List.filterMap_append ..

def tlsParts (t : TlsCredentials) : List (Text × Value) :=
  t.listing.map fun part => ((part.1.name : Text), part.2)

theorem name_of_mem_readFields {parts : List (Text × Value)} {field : Text × Json}
    (h : field ∈ readFields parts) : field.1 ∈ parts.map Prod.fst := by
  obtain ⟨part, hpart, hfield⟩ := List.mem_filterMap.mp h
  obtain ⟨t, -, rfl⟩ := Option.map_eq_some_iff.mp hfield
  exact List.mem_map_of_mem hpart

theorem nodup_readFields {parts : List (Text × Value)} (h : (parts.map Prod.fst).Nodup) :
    ((readFields parts).map Prod.fst).Nodup := by
  induction parts with
  | nil => exact List.nodup_nil
  | cons part rest ih =>
    obtain ⟨hpart, hrest⟩ := List.nodup_cons.mp h
    rw [readFields, List.filterMap_cons]
    cases readText? part.2 with
    | none => exact ih hrest
    | some t =>
      refine List.nodup_cons.mpr ⟨fun hmem => ?_, ih hrest⟩
      obtain ⟨field, hfield, hname⟩ := List.mem_map.mp hmem
      have hknown := name_of_mem_readFields hfield
      rw [hname] at hknown
      exact hpart hknown

theorem field?_readFields {parts : List (Text × Value)} (hnames : (parts.map Prod.fst).Nodup)
    {part : Text × Value} (h : part ∈ parts) :
    Json.field? (readFields parts) part.1 = (readText? part.2).map Json.str := by
  induction parts with
  | nil => cases h
  | cons first rest ih =>
    obtain ⟨hfirst, hrest⟩ := List.nodup_cons.mp hnames
    rw [Json.field?, readFields, List.filterMap_cons]
    rcases List.mem_cons.mp h with rfl | hpart
    · cases readText? part.2 with
      | some t => exact List.lookup_cons_self
      | none =>
        refine List.lookup_eq_none_iff.mpr fun field hfield => ?_
        have hname := name_of_mem_readFields hfield
        exact bne_iff_ne.mpr fun heq => hfirst (heq ▸ hname)
    · have hne : part.1 ≠ first.1 := fun heq => hfirst (heq ▸ List.mem_map_of_mem hpart)
      cases readText? first.2 with
      | some t =>
        rw [Option.map_some, List.lookup_cons, beq_eq_false_iff_ne.mpr hne]
        exact ih hrest hpart
      | none => exact ih hrest hpart

private theorem joinedFields_optional (name : String) (v : Value) :
    Json.joinedFields (optionalField name v) = readFields [((name : Text), v)] := by
  cases v with
  | atom a =>
    cases a with
    | str t =>
      have hname : (name : Text).joined = name := Text.joined_ofChars _
      simp [optionalField, readFields, readText?, Json.joinedFields, Json.joined, hname]
    | _ => rfl
  | _ => rfl

private theorem joinedFields_append (left right : List (Text × Json)) :
    Json.joinedFields (left ++ right) = Json.joinedFields left ++ Json.joinedFields right := by
  simp only [Json.joinedFields_eq_map, List.map_append]

private theorem joinedFields_tlsFields (t : TlsCredentials) :
    Json.joinedFields (tlsFields t) = readFields (tlsParts t) := by
  have hjoined (parts : List (TlsField × Value)) :
      Json.joinedFields (parts.flatMap fun part => optionalField part.1.name part.2) =
        readFields (parts.map fun part => ((part.1.name : Text), part.2)) := by
    induction parts with
    | nil => rfl
    | cons part rest ih =>
      rw [List.flatMap_cons, joinedFields_append, joinedFields_optional, ih, ← readFields_append]
      rfl
  exact hjoined t.listing

def readBack (c : Credentials) : List (Text × Json) :=
  (c.tls.map fun t => (("tlsClientConfig" : Text), .obj (readFields (tlsParts t)))).toList ++
    readFields [("bearerToken", c.bearerToken)]

theorem ofText?_encode {c : Credentials} (h : c.IsTextual) :
    ∃ text, c.encode = .ok text ∧ Json.ofText? text = some (.obj c.readBack) := by
  refine ⟨_, encode_eq h, ?_⟩
  rw [Json.ofText?_compactText (isTextual_fields c), Json.joined, fields, joinedFields_append,
    joinedFields_optional, readBack]
  cases c.tls with
  | none => rfl
  | some t =>
    have hname : ("tlsClientConfig" : Text).joined = "tlsClientConfig" := Text.joined_ofChars _
    simp [Json.joinedFields, Json.joined, hname, joinedFields_tlsFields]

end Credentials
end ClusterRegistrar
