import ClusterRegistrar.Json.Printer
import ClusterRegistrar.Rejection
import ClusterRegistrar.Value.Encoded

/-! Credentials of a cluster: TLS data and a bearer token, each of which may be missing, and their
JSON form, in which a missing field is left out. -/
namespace ClusterRegistrar

structure TlsCredentials where
  caData : Value := .null
  certData : Value := .null
  keyData : Value := .null
deriving Inhabited

namespace TlsCredentials

def listing (t : TlsCredentials) : List (TlsField × Value) :=
  [(.caData, t.caData), (.certData, t.certData), (.keyData, t.keyData)]

def ofParts (caData certData keyData : Value) : Option TlsCredentials :=
  match caData, certData, keyData with
  | .null, .null, .null => none
  | _, _, _ => some ⟨caData, certData, keyData⟩

/-- A field has to be there and to be strict base64. -/
def validateField (field : TlsField) (value : Value) : Except Failure Unit := do
  if !value.truthy then Failure.reject (.missingTlsField field)
  match ← Fault.lift value.decodeBase64 with
  | .ok _ => return ()
  | .error e => Failure.reject (.invalidTlsField field e)

/-- Accepts complete data only; the first field that is wrong is reported. -/
def validate : Option TlsCredentials → Except Failure Unit
  | none => Failure.reject .missingTls
  | some t => t.listing.forM fun (field, value) => validateField field value

end TlsCredentials

structure Credentials where
  tls : Option TlsCredentials := none
  bearerToken : Value := .null
deriving Inhabited

namespace Credentials

def optionalEntry (name : Text) : Value → Entries
  | .null => []
  | v => [(.str name, v)]

def tlsEntries (t : TlsCredentials) : Entries :=
  t.listing.flatMap fun (field, value) => optionalEntry field.name value

def toValue (c : Credentials) : Value :=
  .map (((c.tls.map fun t => (.str "tlsClientConfig", .map (tlsEntries t))).toList) ++
    optionalEntry "bearerToken" c.bearerToken)

def encode (c : Credentials) : Except Failure String :=
  match Json.ofValue c.toValue with
  | .ok j => .ok (Json.compactText j)
  | .error (.kind name) => Failure.reject (.unencodableCredentials name)
  | .error .circular => Failure.reject .circularCredentials
  | .error .longNumeral => Failure.reject .longNumeralInCredentials
  | .error .nestedTooDeep => .error (.fault .nestedTooDeep)

/-- The text of a field, if it is there; a value without a text is of the wrong shape. -/
def shownField (fields : Entries) (name : Text) : Except Fault Value :=
  match fields.shownField? name with
  | some v => .ok v
  | none => .error .invalidField

def tlsOfValue (v : Value) : Except Fault (Option TlsCredentials) :=
  match v, v.entries? with
  | .null, _ => .ok none
  | _, some fields => do
    let caData ← shownField fields TlsField.caData.name
    let certData ← shownField fields TlsField.certData.name
    return some ⟨caData, certData, ← shownField fields TlsField.keyData.name⟩
  | _, none => .error .invalidField

def ofValue (v : Value) : Except Fault Credentials :=
  match v.entries? with
  | some fields => do
    let tls ← tlsOfValue (fields.field "tlsClientConfig")
    return ⟨tls, ← shownField fields "bearerToken"⟩
  | none => .error .notAMapping

end Credentials
end ClusterRegistrar
