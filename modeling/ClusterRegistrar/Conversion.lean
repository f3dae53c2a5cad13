import ClusterRegistrar.Registration

/-! Conversion of secrets with a kubeconfig into secrets that register clusters. A secret of another
kind is passed over, and so is one whose kubeconfig cannot be read. -/
namespace ClusterRegistrar.Conversion

def clusterNameLabel : String := "cluster.x-k8s.io/cluster-name"

/-- Clusters by their names; of equal names the last one counts, so it comes first. -/
structure ClusterIndex where
  lastFirst : List ((Atom × Atom) × SourceCluster)

def ClusterIndex.ofList (clusters : List SourceCluster) : Except Fault ClusterIndex := do
  let keyed ← clusters.mapM fun c => return (← c.identity.key, c)
  return ⟨keyed.reverse⟩

def ClusterIndex.get? (index : ClusterIndex) (name : NamespacedName) :
    Except Fault (Option SourceCluster) := do
  let (space, base) ← name.key
  let found := index.lastFirst.find? fun ((s, b), _) => s.same space && b.same base
  return found.map (·.2)

/-- The name of the cluster that a secret belongs to: the one its label gives, else its own without
the ending, in its namespace. -/
def clusterNameOf (secret : SourceSecret) : Except Fault NamespacedName := do
  let label := (← secret.labels.fields).field clusterNameLabel
  if label.truthy then return ⟨secret.space, label⟩
  else return ⟨secret.space, ← Naming.baseName secret.name⟩

def findCluster (index : ClusterIndex) (secret : SourceSecret) :
    Except Fault (Option SourceCluster) := do
  index.get? (← clusterNameOf secret)

def register (settings : Settings) (index : ClusterIndex) (secret : SourceSecret)
    (w : WorkloadCluster) : Run GeneratedSecret := do
  let cluster? ← Run.ofFault (findCluster index secret)
  if cluster?.isNone then
    Run.record .info .conversion do
      return "No Cluster found for secret " ++ (← secret.identity.id) ++
        ", skipping take-along metadata"
  let (registration, problems) ← Registration.ofWorkload settings w secret cluster?
  problems.forM fun problem => Run.record .info .conversion (.ok problem.message)
  Run.ofExcept (registration.toSecret settings.validateTls)

def convertSecret (settings : Settings) (index : ClusterIndex) (secret : SourceSecret) :
    Run (Option GeneratedSecret) := do
  if !secret.isCapi then
    Run.record .debug .conversion do
      return "Skipping non-CAPI secret " ++ (← secret.identity.id)
    return none
  if !(← Run.ofFault secret.hasKubeconfigName) then
    Run.record .debug .conversion do
      return "Skipping non-kubeconfig secret " ++ (← secret.identity.id)
    return none
  match ← (WorkloadCluster.ofSecret secret).attempt with
  | .error reason => do
    Run.record .warning .conversion do
      return "Skipping secret " ++ (← secret.identity.id) ++ ": " ++ reason.message
    return none
  | .ok w => return some (← register settings index secret w)

def convertAll (settings : Settings) (index : ClusterIndex) (secrets : List SourceSecret) :
    Run (List GeneratedSecret) := do
  return (← secrets.mapM (convertSecret settings index)).flatMap Option.toList

def convert (settings : Settings) (secrets : List SourceSecret) (clusters : List SourceCluster) :
    Run (List GeneratedSecret) := do
  convertAll settings (← Run.ofFault (ClusterIndex.ofList clusters)) secrets

end ClusterRegistrar.Conversion
