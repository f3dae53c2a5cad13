import ClusterRegistrar.Base64
import ClusterRegistrar.Value.Shown

/-! Rejections: what the program tells its user about an input that it does not accept. Each is a
cause with the texts of the values that it is about; `Rejection.message` has the wording. A
`Failure` is a rejection or a fault. -/
namespace ClusterRegistrar

inductive ManifestKind where
  | secret
  | cluster
deriving DecidableEq, Repr

def ManifestKind.label : ManifestKind → String
  | .secret => "<class 'capi2argo.manifest.Secret'>"
  | .cluster => "<class 'capi2argo.manifest.ClusterResource'>"

inductive TlsField where
  | caData
  | certData
  | keyData
deriving DecidableEq, Repr

def TlsField.name : TlsField → String
  | .caData => "caData"
  | .certData => "certData"
  | .keyData => "keyData"

inductive KubeList where
  | clusters
  | users
deriving DecidableEq, Repr

def KubeList.name : KubeList → String
  | .clusters => "clusters"
  | .users => "users"

def KubeList.elementType : KubeList → String
  | .clusters => "NamedCluster"
  | .users => "NamedUser"

/-- What is wrong with an input. Documents and values stand as their texts, a secret as its
identity. -/
inductive Rejection where
  | missingKind (doc : Text)
  | missingApiVersion (doc : Text)
  | unexpectedVersion (expected : String) (doc : Text)
  | missingMetadata (kind : ManifestKind) (doc : Text)
  | missingName (kind : ManifestKind) (doc : Text)
  | malformedFile (path : Text)
  | documentNotMapping (path : Text) (doc : Text)
  | foreignSecretType (secret : Text)
  | foreignSecretName (secret : Text)
  | missingKubeconfig (secret : Text)
  | undecodableKubeconfig (secret : Text)
  | malformedKubeconfig (secret : Text)
  | kubeconfigNotMapping (secret : Text)
  | invalidKubeList (list : KubeList) (value : Text)
  | emptyKubeList (list : KubeList)
  | missingTls
  | missingTlsField (field : TlsField)
  | invalidTlsField (field : TlsField) (error : Base64.DecodeError)
  | unencodableCredentials (kind : String)
  | circularCredentials
  | longNumeralInCredentials
deriving DecidableEq

namespace Rejection

/-- The text that stands for every error of a YAML text. -/
def yamlErrorText : String := "<yaml error>"

def message : Rejection → Text
  | missingKind doc => "Invalid object missing kind: " ++ doc
  | missingApiVersion doc => "Invalid object missing apiVersion: " ++ doc
  | unexpectedVersion expected doc => s!"Invalid object expected '{expected}': " ++ doc
  | missingMetadata kind doc => s!"Invalid {kind.label} missing metadata: " ++ doc
  | missingName kind doc => s!"Invalid {kind.label} missing metadata.name: " ++ doc
  | malformedFile path => "File " ++ path ++ s!" failed to parse as yaml: {yamlErrorText}"
  | documentNotMapping path doc => "File " ++ path ++ " document was not a dictionary: " ++ doc
  | foreignSecretType secret => "Secret " ++ secret ++ " is not of type cluster.x-k8s.io/secret"
  | foreignSecretName secret => "Secret " ++ secret ++ " name does not end with -kubeconfig"
  | missingKubeconfig secret => "Secret " ++ secret ++ " missing data.value"
  | undecodableKubeconfig secret => "Secret " ++ secret ++ " data.value is not base64 encoded"
  | malformedKubeconfig secret =>
    "Secret " ++ secret ++ s!" contains invalid kubeconfig: {yamlErrorText}"
  | kubeconfigNotMapping secret => "Secret " ++ secret ++ " kubeconfig was not a dictionary"
  | invalidKubeList list value =>
    s!"Invalid kubeconfig: Field \"{list.name}\" of type list[{list.elementType}] " ++
      "in KubeConfig has invalid value " ++ value
  | emptyKubeList list => s!"Invalid kubeconfig missing {list.name}"
  | missingTls => "Missing tlsClientConfig on Argo cluster config"
  | missingTlsField field => s!"Missing {field.name} on Argo cluster tlsClientConfig"
  | invalidTlsField field error =>
    s!"Invalid {field.name} on Argo cluster tlsClientConfig: {error.message}"
  | unencodableCredentials kind =>
    s!"Unable to encode Argo cluster config: Object of type {kind} is not JSON serializable"
  | circularCredentials => "Unable to encode Argo cluster config: Circular reference detected"
  | longNumeralInCredentials =>
    s!"Unable to encode Argo cluster config: Exceeds the limit ({Numeral.maxDecimal} digits) " ++
      "for integer string conversion"

end Rejection

inductive Failure where
  | rejected (reason : Rejection)
  | fault (reason : Fault)
deriving DecidableEq

def Failure.reject (reason : Rejection) : Except Failure α := .error (.rejected reason)

def Fault.lift (result : Except Fault α) : Except Failure α := result.mapError .fault

def Failure.rejectWith (reason : Text → Rejection) (text : Except Fault Text) :
    Except Failure α := do
  Failure.reject (reason (← Fault.lift text))

end ClusterRegistrar
