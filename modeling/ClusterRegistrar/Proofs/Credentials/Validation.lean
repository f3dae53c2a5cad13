import ClusterRegistrar.Proofs.Base64.Strict
import ClusterRegistrar.Proofs.Credentials
import ClusterRegistrar.Proofs.Value

/-! Validation of TLS data. The fields are checked one after the other, and the first one that is missing
or that the strict decoder does not accept is what a rejection names. -/
namespace ClusterRegistrar

def Value.IsAscii (v : Value) : Prop := ∀ t, v = .str t → ∀ p ∈ t, p.number < 128

namespace TlsCredentials

theorem validateField_eq_ok {field : TlsField} {value : Value} :
    validateField field value = .ok () ↔
      value.truthy = true ∧ ∃ bytes, value.decodeBase64 = .ok (.ok bytes) := by
  unfold validateField
  cases value.truthy with
  | false => simp [Failure.reject]
  | true =>
    cases value.decodeBase64 with
    | error f => simp
    | ok decoded => cases decoded <;> simp [Failure.reject, pure, Except.pure]

theorem validate_eq_ok {tls? : Option TlsCredentials} :
    validate tls? = .ok () ↔ ∃ t, tls? = some t ∧
      ∀ part ∈ t.listing, part.2.truthy = true ∧ ∃ bytes, part.2.decodeBase64 = .ok (.ok bytes) := by
  cases tls? with
  | none => simp [validate, Failure.reject]
  | some t =>
    simp only [validate, Except.forM_eq_ok, validateField_eq_ok, Option.some.injEq,
      exists_eq_left']

/-! ### Fields -/

/-- A field that is filled with base64, or with full groups of it and further pads. -/
def IsSound (value : Value) : Prop :=
  ∃ cs : List Char, value = .str (.ofChars cs) ∧ cs ≠ [] ∧
    (Base64.IsEncoded cs ∨ Base64.IsOverpadded cs)

inductive Blames (field : TlsField) : Value → Rejection → Prop where
  | missing : Blames field .null (.missingTlsField field)
  | empty : Blames field (.str []) (.missingTlsField field)
  | malformed {cs : List Char} {e : Base64.DecodeError} (hcs : cs ≠ []) (h : Base64.decode cs = .error e) :
    Blames field (.str (.ofChars cs)) (.invalidTlsField field e)

def Names (field : TlsField) (reason : Rejection) : Prop :=
  ∃ lead rest : String, reason.message = .ofString (lead ++ field.name ++ rest)

/-- The first field that is not sound. -/
def FirstUnsound (t : TlsCredentials) (field : TlsField) (value : Value) : Prop :=
  ∃ before after, t.listing = before ++ (field, value) :: after ∧ (∀ part ∈ before, IsSound part.2) ∧
    ¬IsSound value

theorem isSound_iff {value : Value} (h : value.IsOptionalText) :
    IsSound value ↔ value.truthy = true ∧ ∃ bytes, value.decodeBase64 = .ok (.ok bytes) := by
  rcases h with rfl | ⟨t, rfl⟩
  · simp [IsSound, Value.truthy, Value.atom?, Atom.truthy]
  · have htruthy : (Value.str t).truthy = true ↔ t ≠ [] := decide_eq_true_iff
    simp only [IsSound, htruthy, ← Base64.exists_decode_iff, Value.decodeBase64_str]
    constructor
    · rintro ⟨cs, ⟨⟩, hsome, bytes, hbytes⟩
      exact ⟨List.map_eq_nil_iff.not.mpr hsome, bytes, cs, rfl, Base64.toNat_lt_of_decode hbytes, hbytes⟩
    · rintro ⟨hsome, bytes, cs, rfl, -, hbytes⟩
      exact ⟨cs, rfl, List.map_eq_nil_iff.not.mp hsome, bytes, hbytes⟩

theorem validateField_of_unsound (field : TlsField) {value : Value} (hvalue : value.IsOptionalText)
    (h : ¬IsSound value) (hascii : value.IsAscii) :
    ∃ reason, Blames field value reason ∧ validateField field value = .error (.rejected reason) := by
  rcases hvalue with rfl | ⟨t, rfl⟩
  · exact ⟨_, .missing, rfl⟩
  · by_cases hempty : t = []
    · subst hempty
      exact ⟨_, .empty, rfl⟩
    · obtain ⟨cs, hchars⟩ := Value.exists_asciiChars?_iff.mpr (hascii t rfl)
      obtain ⟨rfl, hcs⟩ := Value.asciiChars?_eq_some.mp hchars
      have hsome : cs ≠ [] := List.map_eq_nil_iff.not.mp hempty
      have hdecoded : Value.decodeBase64 (.str (.ofChars cs)) = .ok (Base64.decode cs) :=
        Value.decodeBase64_str.mpr ⟨cs, rfl, hcs, rfl⟩
      cases hdecode : Base64.decode cs with
      | ok bytes => exact absurd ⟨cs, rfl, hsome, Base64.exists_decode_iff.mp ⟨bytes, hdecode⟩⟩ h
      | error e =>
        refine ⟨_, .malformed hsome hdecode, ?_⟩
        have htruthy : (Value.str (.ofChars cs)).truthy = true := decide_eq_true hempty
        unfold validateField
        rw [htruthy, hdecoded, hdecode]
        rfl

theorem exists_firstUnsound {t : TlsCredentials} (h : ¬∀ part ∈ t.listing, IsSound part.2) :
    ∃ field value, FirstUnsound t field value := by
  classical
  push Not at h
  obtain ⟨part, hpart, hunsound⟩ := h
  obtain ⟨⟨field, value⟩, hfound⟩ : ∃ first, t.listing.find? (fun part => ¬IsSound part.2) = some first :=
    Option.isSome_iff_exists.mp (List.find?_isSome.mpr ⟨part, hpart, decide_eq_true hunsound⟩)
  obtain ⟨hvalue, before, after, hlisting, hbefore⟩ := List.find?_eq_some_iff_append.mp hfound
  exact ⟨field, value, before, after, hlisting, fun other hother => by simpa using hbefore other hother,
    of_decide_eq_true hvalue⟩

theorem Blames.names {field : TlsField} {value : Value} {reason : Rejection}
    (h : Blames field value reason) : Names field reason := by
  have hmissing : Names field (.missingTlsField field) :=
    ⟨"Missing ", " on Argo cluster tlsClientConfig", rfl⟩
  cases h with
  | missing => exact hmissing
  | empty => exact hmissing
  | @malformed _ e _ _ =>
    refine ⟨"Invalid ", " on Argo cluster tlsClientConfig: " ++ e.message, congrArg Text.ofString ?_⟩
    rw [← String.append_assoc]
    rfl

theorem validate_of_firstUnsound {t : TlsCredentials} (ht : t.IsTextual) {field : TlsField}
    {value : Value} (h : FirstUnsound t field value) (hascii : value.IsAscii) :
    ∃ reason, Blames field value reason ∧ validate (some t) = .error (.rejected reason) := by
  obtain ⟨before, after, hlisting, hbefore, hvalue⟩ := h
  rw [TlsCredentials.IsTextual, hlisting] at ht
  obtain ⟨htextual, hrest⟩ := List.forall_mem_append.mp ht
  obtain ⟨reason, hblames, hreason⟩ :=
    validateField_of_unsound field (List.forall_mem_cons.mp hrest).1 hvalue hascii
  refine ⟨reason, hblames, ?_⟩
  rw [validate, hlisting]
  refine Except.forM_of_error (fun part hpart => ?_) hreason
  exact validateField_eq_ok.mpr ((isSound_iff (htextual part hpart)).mp (hbefore part hpart))

/-- TLS data is accepted exactly if every field of it is sound. Otherwise there is a first field that is
not, and the rejection names it, provided that it is in ASCII. -/
theorem validates_iff_sound {tls? : Option TlsCredentials} (h : ∀ t, tls? = some t → t.IsTextual) :
    (validate tls? = .ok () ↔ ∃ t, tls? = some t ∧ ∀ part ∈ t.listing, IsSound part.2) ∧
      (tls? = none → validate tls? = .error (.rejected .missingTls)) ∧
      ∀ t, tls? = some t →
        ((∀ part ∈ t.listing, IsSound part.2) ∨ ∃ field value, FirstUnsound t field value) ∧
        ∀ field value, FirstUnsound t field value → value.IsAscii →
          ∃ reason, Blames field value reason ∧ Names field reason ∧
            validate tls? = .error (.rejected reason) := by
  refine ⟨?_, ?_, ?_⟩
  · rw [validate_eq_ok]
    constructor
    · rintro ⟨t, ht, hall⟩
      exact ⟨t, ht, fun part hpart => (isSound_iff (h t ht part hpart)).mpr (hall part hpart)⟩
    · rintro ⟨t, ht, hall⟩
      exact ⟨t, ht, fun part hpart => (isSound_iff (h t ht part hpart)).mp (hall part hpart)⟩
  · rintro rfl
    rfl
  · rintro t rfl
    refine ⟨or_iff_not_imp_left.mpr exists_firstUnsound, fun field value hfirst hascii => ?_⟩
    obtain ⟨reason, hblames, hreason⟩ := validate_of_firstUnsound (h t rfl) hfirst hascii
    exact ⟨reason, hblames, hblames.names, hreason⟩

def brokenTls : TlsCredentials := ⟨.str "QUJD", .str "QQ==", .str "not base64!"⟩

theorem brokenTls_rejected : ∃ reason, Blames .keyData (.str "not base64!") reason ∧
    Names .keyData reason ∧ validate (some brokenTls) = .error (.rejected reason) := by
  have htextual : ∀ t, some brokenTls = some t → t.IsTextual := by
    rintro _ ⟨⟩ part hpart
    simp only [brokenTls, listing, List.mem_cons, List.not_mem_nil, or_false] at hpart
    rcases hpart with rfl | rfl | rfl <;> exact .inr ⟨_, rfl⟩
  have hca : IsSound (.str "QUJD") :=
    (isSound_iff (.inr ⟨_, rfl⟩)).mpr ⟨by decide, "ABC".toUTF8.data.toList, by decide +kernel⟩
  have hcert : IsSound (.str "QQ==") :=
    (isSound_iff (.inr ⟨_, rfl⟩)).mpr ⟨by decide, "A".toUTF8.data.toList, by decide +kernel⟩
  have hkey : ¬IsSound (.str "not base64!") := by
    rintro hsound
    obtain ⟨-, bytes, hbytes⟩ := (isSound_iff (.inr ⟨_, rfl⟩)).mp hsound
    have hdecoded : Value.decodeBase64 (.str "not base64!") = .ok (.error .foreignCharacter) := by
      decide +kernel
    cases hdecoded.symm.trans hbytes
  refine ((validates_iff_sound htextual).2.2 _ rfl).2 .keyData _ ⟨[_, _], [], rfl, ?_, hkey⟩ ?_
  · simp only [List.forall_mem_cons, List.not_mem_nil, false_imp_iff, implies_true, and_true]
    exact ⟨hca, hcert⟩
  · rintro _ ⟨⟩
    decide

theorem overpadded_accepted :
    validate (some ⟨.str "QUJD=", .str "QUJD", .str "QUJD"⟩) = .ok () ∧
      ¬Base64.IsEncoded "QUJD=".toList := by
  refine ⟨by decide +kernel, ?_⟩
  rintro ⟨digits, pads, -, -, -, hlength⟩
  exact absurd hlength (by decide)

end TlsCredentials
end ClusterRegistrar
