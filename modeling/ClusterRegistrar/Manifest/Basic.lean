import ClusterRegistrar.NamespacedName

/-! The manifests that a conversion starts from: secrets that hold a kubeconfig, and the clusters
that they belong to. Nothing is checked beyond the name, so every field can hold any value. -/
namespace ClusterRegistrar

structure SourceSecret where
  name : Value
  space : Value
  type : Value := .null
  labels : Value := .empty
  data : Value := .empty
deriving Inhabited

namespace SourceSecret

def identity (s : SourceSecret) : NamespacedName := ⟨s.space, s.name⟩

def capiType : String := "cluster.x-k8s.io/secret"

def isCapi (s : SourceSecret) : Bool := s.type.isText capiType

end SourceSecret

structure SourceCluster where
  name : Value
  space : Value
  labels : Value := .empty
  annotations : Value := .empty
deriving Inhabited

def SourceCluster.identity (c : SourceCluster) : NamespacedName := ⟨c.space, c.name⟩

inductive Manifest where
  | secret (secret : SourceSecret)
  | cluster (cluster : SourceCluster)

namespace Manifest

def secret? : Manifest → Option SourceSecret
  | .secret s => some s
  | .cluster _ => none

def cluster? : Manifest → Option SourceCluster
  | .secret _ => none
  | .cluster c => some c

end Manifest
end ClusterRegistrar
