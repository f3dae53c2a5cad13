import ClusterRegistrar.KubeConfig
import ClusterRegistrar.Manifest.Basic
import ClusterRegistrar.Naming
import ClusterRegistrar.Value.Encoded
import ClusterRegistrar.Yaml.Stream

/-! The workload cluster that a secret with a kubeconfig gives access to. -/
namespace ClusterRegistrar

structure WorkloadCluster where
  /-- The name of the secret without its ending. -/
  name : Value
  space : Value
  kubeConfig : KubeConfig
deriving Inhabited

def SourceSecret.hasKubeconfigName (s : SourceSecret) : Except Fault Bool :=
  return Affix.endsWith Naming.kubeconfigEnding (← s.name.text)

namespace WorkloadCluster

def content (s : SourceSecret) : Except Failure ByteArray := do
  let data ← Fault.lift s.data.fields
  let value := data.field "value"
  if !value.truthy then Failure.rejectWith .missingKubeconfig s.identity.id
  match ← Fault.lift value.decodeBase64 with
  | .ok bytes => return ⟨bytes.toArray⟩
  | .error _ => Failure.rejectWith .undecodableKubeconfig s.identity.id

def document (s : SourceSecret) : Except Failure Value := do
  match Yaml.readOneEncoded (← content s) with
  | .error (.malformed _) => Failure.rejectWith .malformedKubeconfig s.identity.id
  | .error (.fault f) => .error (.fault f)
  | .ok doc =>
    if doc.entries?.isSome then return doc
    else Failure.rejectWith .kubeconfigNotMapping s.identity.id

def ofSecret (s : SourceSecret) : Run WorkloadCluster := do
  if !s.isCapi then Run.ofExcept (Failure.rejectWith .foreignSecretType s.identity.id)
  if !(← Run.ofFault s.hasKubeconfigName) then
    Run.ofExcept (Failure.rejectWith .foreignSecretName s.identity.id)
  let doc ← Run.ofExcept (document s)
  let base ← Run.ofFault (Naming.baseName s.name)
  return ⟨base, s.space, ← KubeConfig.ofDocument doc⟩

end WorkloadCluster
end ClusterRegistrar
