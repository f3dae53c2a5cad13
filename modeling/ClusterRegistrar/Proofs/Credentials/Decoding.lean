import ClusterRegistrar.Proofs.Credentials
import ClusterRegistrar.Proofs.Value
import Mathlib.Data.List.Nodup

/-! Credentials come back from the bytes of their JSON form. Nothing is lost on the way: a missing
block stays apart from an empty one and a missing text from an empty one, and every text of
characters arrives as it was, whatever it holds. -/
namespace ClusterRegistrar

namespace Json

theorem toEntries_eq_map (fields : List (Text × Json)) :
    toEntries fields = fields.map fun field => (.str field.1, toValue field.2) := by
  induction fields with
  | nil => rfl
  | cons field rest ih =>
    rw [List.map_cons, ← ih]
    rfl

theorem toEntries_append (left right : List (Text × Json)) :
    toEntries (left ++ right) = toEntries left ++ toEntries right := by
  simp only [toEntries_eq_map, List.map_append]

theorem toValue_obj {fields : List (Text × Json)} (h : (fields.map Prod.fst).Nodup) :
    toValue (.obj fields) = .map (toEntries fields) := by
  have hkeys : ∀ entry ∈ toEntries fields, ∃ t, entry.1 = .str t := by
    intro entry hentry
    rw [toEntries_eq_map] at hentry
    obtain ⟨field, -, rfl⟩ := List.mem_map.mp hentry
    exact ⟨field.1, rfl⟩
  have hdistinct : (([] ++ toEntries fields).map Prod.fst).Nodup := by
    have hnames := List.Nodup.map (fun t u (heq : Atom.str t = .str u) => Atom.str.inj heq) h
    rw [List.map_map] at hnames
    rwa [List.nil_append, toEntries_eq_map, List.map_map]
  rw [toValue, Keyed.putAll_of_distinct hkeys hdistinct, List.nil_append]

end Json

def Value.IsOptionalScalar (v : Value) : Prop := v = .null ∨ ∃ t : Text, t.IsScalar ∧ v = .str t

theorem Value.IsOptionalScalar.isOptionalText {v : Value} (h : v.IsOptionalScalar) :
    v.IsOptionalText := by
  apply h.imp_right
  rintro ⟨t, -, ht⟩
  exact ⟨t, ht⟩

namespace Credentials

structure IsScalar (c : Credentials) : Prop where
  tls : ∀ t, c.tls = some t → ∀ part ∈ t.listing, part.2.IsOptionalScalar
  bearerToken : c.bearerToken.IsOptionalScalar

theorem IsScalar.isTextual {c : Credentials} (h : c.IsScalar) : c.IsTextual where
  tls t ht part hpart := (h.tls t ht part hpart).isOptionalText
  bearerToken := h.bearerToken.isOptionalText

/-! ### From the value -/

theorem tlsOfValue_tlsEntries {t : TlsCredentials} (h : t.IsTextual) :
    tlsOfValue (.map (tlsEntries t)) = .ok (some t) := by
  obtain ⟨caData, certData, keyData⟩ := t
  simp only [TlsCredentials.IsTextual, TlsCredentials.listing, List.forall_mem_cons] at h
  -- Each of the three is missing or there.
  obtain ⟨rfl | ⟨ca, rfl⟩, rfl | ⟨cert, rfl⟩, rfl | ⟨key, rfl⟩, -⟩ := h <;> rfl

theorem ofValue_toValue {c : Credentials} (h : c.IsTextual) : ofValue c.toValue = .ok c := by
  obtain ⟨tls, token⟩ := c
  have htoken := h.bearerToken
  cases tls with
  | none =>
    obtain rfl | ⟨t, rfl⟩ := htoken <;> rfl
  | some block =>
    have hread : ofValue (toValue ⟨some block, token⟩) = (do
        let tls ← tlsOfValue (.map (tlsEntries block))
        return ⟨tls, token⟩) := by
      obtain rfl | ⟨t, rfl⟩ := htoken <;> rfl
    rw [hread, tlsOfValue_tlsEntries (h.tls block rfl)]
    rfl

/-! ### From the fields -/

theorem names_optionalFields (parts : List (Text × Value)) :
    ((parts.flatMap fun part => optionalField part.1 part.2).map Prod.fst).Sublist
      (parts.map Prod.fst) := by
  induction parts with
  | nil => exact List.Sublist.refl _
  | cons part rest ih =>
    rw [List.flatMap_cons, List.map_append, List.map_cons]
    unfold optionalField
    split
    · exact ih.cons_cons _
    · exact ih.cons _

theorem toEntries_optionalField {v : Value} (h : v.IsOptionalText) (name : Text) :
    Json.toEntries (optionalField name v) = optionalEntry name v := by
  rcases h with rfl | ⟨t, rfl⟩
  · rfl
  · rfl

theorem toEntries_optionalFields {parts : List (Text × Value)}
    (h : ∀ part ∈ parts, part.2.IsOptionalText) :
    Json.toEntries (parts.flatMap fun part => optionalField part.1 part.2) =
      parts.flatMap fun part => optionalEntry part.1 part.2 := by
  induction parts with
  | nil => rfl
  | cons part rest ih =>
    rw [List.forall_mem_cons] at h
    rw [List.flatMap_cons, Json.toEntries_append, toEntries_optionalField h.1, ih h.2,
      List.flatMap_cons]

theorem tlsFields_eq (t : TlsCredentials) :
    tlsFields t = (tlsParts t).flatMap fun part => optionalField part.1 part.2 := by
  unfold tlsFields tlsParts
  rw [List.flatMap_map]

theorem toValue_tlsFields {t : TlsCredentials} (h : t.IsTextual) :
    Json.toValue (.obj (tlsFields t)) = .map (tlsEntries t) := by
  have hentries : tlsEntries t = (tlsParts t).flatMap fun part => optionalEntry part.1 part.2 := by
    unfold tlsEntries tlsParts
    rw [List.flatMap_map]
  have htextual : ∀ part ∈ tlsParts t, part.2.IsOptionalText := by
    intro part hpart
    obtain ⟨field, hfield, rfl⟩ := List.mem_map.mp hpart
    exact h field hfield
  have hnames : ((tlsParts t).map Prod.fst).Nodup := by
    have hlisted : (tlsParts t).map Prod.fst = [("caData" : Text), "certData", "keyData"] := by
      simp [tlsParts, TlsCredentials.listing, TlsField.name]
    rw [hlisted]
    decide
  rw [tlsFields_eq, Json.toValue_obj ((names_optionalFields _).nodup hnames),
    toEntries_optionalFields htextual, hentries]

theorem toValue_fields {c : Credentials} (h : c.IsTextual) :
    Json.toValue (.obj c.fields) = c.toValue := by
  have htoken := names_optionalFields [("bearerToken", c.bearerToken)]
  rw [List.flatMap_singleton] at htoken
  have hnames : (c.fields.map Prod.fst).Nodup := by
    have hsublist : (c.fields.map Prod.fst).Sublist [("tlsClientConfig" : Text), "bearerToken"] := by
      unfold fields
      cases c.tls with
      | none => exact htoken.cons _
      | some t => exact htoken.cons_cons _
    exact hsublist.nodup (by decide)
  have hentry : Json.toEntries (optionalField "bearerToken" c.bearerToken) =
      optionalEntry "bearerToken" c.bearerToken := toEntries_optionalField h.bearerToken _
  rw [Json.toValue_obj hnames, fields, Json.toEntries_append, hentry, toValue]
  cases htls : c.tls with
  | none => rfl
  | some t =>
    simp only [Option.map_some, Option.toList_some, Json.toEntries, toValue_tlsFields (h.tls t htls)]

/-! ### From the text -/

theorem readFields_single {v : Value} (h : v.IsOptionalScalar) (name : Text) :
    readFields [(name, v)] = optionalField name v := by
  rcases h with rfl | ⟨t, hscalar, rfl⟩
  · rfl
  · simp [readFields, readText?_of_isScalar hscalar, optionalField]

theorem readFields_of_scalar {parts : List (Text × Value)}
    (h : ∀ part ∈ parts, part.2.IsOptionalScalar) :
    readFields parts = parts.flatMap fun part => optionalField part.1 part.2 := by
  induction parts with
  | nil => rfl
  | cons part rest ih =>
    rw [List.forall_mem_cons] at h
    rw [← List.singleton_append, readFields_append, readFields_single h.1, ih h.2]
    rfl

theorem readBack_eq_fields {c : Credentials} (h : c.IsScalar) : c.readBack = c.fields := by
  rw [readBack, fields, readFields_single h.bearerToken]
  cases htls : c.tls with
  | none => rfl
  | some t =>
    have hscalar : ∀ part ∈ tlsParts t, part.2.IsOptionalScalar := by
      intro part hpart
      obtain ⟨field, hfield, rfl⟩ := List.mem_map.mp hpart
      exact h.tls t htls field hfield
    rw [Option.map_some, Option.map_some, readFields_of_scalar hscalar, tlsFields_eq]

def ofBytes? (bytes : ByteArray) : Option Credentials := do
  let text ← String.fromUTF8? bytes
  let json ← Json.ofText? text
  (ofValue json.toValue).toOption

theorem ofBytes?_of_text {text : String} {c : Credentials} (h : c.IsTextual)
    (hread : Json.ofText? text = some (.obj c.fields)) : ofBytes? text.toUTF8 = some c := by
  unfold ofBytes?
  rw [Text.fromUTF8?_toUTF8, Option.bind_eq_bind, Option.bind_some, hread]
  rw [Option.bind_eq_bind, Option.bind_some, toValue_fields h, ofValue_toValue h]
  rfl

/-- Credentials of characters are written, the text has exactly their fields, and its bytes give
them back; so different credentials are written differently. -/
theorem encode_reads_back {c : Credentials} (hc : c.IsScalar) :
    ∃ text, c.encode = .ok text ∧ Json.ofText? text = some (.obj c.fields) ∧
      ofBytes? text.toUTF8 = some c ∧
      ∀ d : Credentials, d.IsScalar → d.encode = .ok text → d = c := by
  have hreads : ∀ d : Credentials, d.IsScalar → ∀ text, d.encode = .ok text →
      Json.ofText? text = some (.obj d.fields) ∧ ofBytes? text.toUTF8 = some d := by
    intro d hd text htext
    obtain ⟨written, hwritten, hread⟩ := ofText?_encode hd.isTextual
    cases htext.symm.trans hwritten
    rw [readBack_eq_fields hd] at hread
    exact ⟨hread, ofBytes?_of_text hd.isTextual hread⟩
  obtain ⟨text, htext, -⟩ := ofText?_encode hc.isTextual
  obtain ⟨hread, hbytes⟩ := hreads c hc text htext
  refine ⟨text, htext, hread, hbytes, ?_⟩
  intro d hd hsame
  exact Option.some.inj ((hreads d hd text hsame).2.symm.trans hbytes)

def forging : Credentials where
  tls := some {}
  bearerToken := "\",\"caData\":\"\\\n😀\x01"

theorem forging_reads_back :
    forging.IsScalar ∧ { forging with tls := none }.IsScalar ∧
      ∃ text, forging.encode = .ok text ∧ ofBytes? text.toUTF8 = some forging ∧
        { forging with tls := none }.encode ≠ .ok text := by
  have htoken : forging.bearerToken.IsOptionalScalar := .inr ⟨_, ⟨_, rfl⟩, rfl⟩
  have hblock : ∀ t, forging.tls = some t → ∀ part ∈ t.listing, part.2.IsOptionalScalar := by
    intro t ht
    cases ht
    simp [TlsCredentials.listing, Value.IsOptionalScalar]
  have hforging : forging.IsScalar := ⟨hblock, htoken⟩
  have hbare : { forging with tls := none }.IsScalar := ⟨by simp, htoken⟩
  obtain ⟨text, htext, -, hbytes, hunique⟩ := encode_reads_back hforging
  refine ⟨hforging, hbare, text, htext, hbytes, ?_⟩
  intro hsame
  have htls := congrArg tls (hunique _ hbare hsame)
  cases htls

end Credentials
end ClusterRegistrar
