import ClusterRegistrar.Credentials
import ClusterRegistrar.GeneratedSecret
import ClusterRegistrar.TakeAlong
import ClusterRegistrar.WorkloadCluster

/-! Registrations: everything that goes into the secret which registers one cluster. Its labels come
in three layers, of which a later one wins: those that every such secret has, those that name the
source, and those that are taken along. Annotations are collected, yet the secret has none. -/
namespace ClusterRegistrar

structure Registration where
  identity : NamespacedName
  clusterName : Value
  server : Value
  sourceLabels : Value := .empty
  takeAlongLabels : Value := .empty
  takeAlongAnnotations : Value := .empty
  credentials : Credentials := {}
deriving Inhabited

namespace Registration

def commonLabels : Entries :=
  [(.str "capi-to-argocd/owned", .str "true"),
   (.str "argocd.argoproj.io/secret-type", .str "cluster")]

def labelsOfSource (w : WorkloadCluster) : Except Fault Entries := do
  return [
    (.str "capi-to-argocd/cluster-secret-name",
      .str ((← w.name.shown) ++ Naming.kubeconfigEnding)),
    (.str "capi-to-argocd/cluster-namespace", w.space)]

/-- The three layers of labels. -/
def mergedLabels (r : Registration) : Except Fault Entries := do
  let source ← r.sourceLabels.toEntries
  let taken ← r.takeAlongLabels.toEntries
  return (Keyed.putAll commonLabels source).putAll taken

def utf8 : Value → Except Fault ByteArray
  | .atom (.str t) =>
    match t.utf8? with
    | some bytes => .ok bytes
    | none => .error .notEncodable
  | _ => .error .notText

def toSecret (r : Registration) (validate : Bool) : Except Failure GeneratedSecret := do
  if validate then TlsCredentials.validate r.credentials.tls
  let config ← r.credentials.encode
  let labels ← Fault.lift r.mergedLabels
  let name ← Fault.lift (utf8 r.clusterName)
  let server ← Fault.lift (utf8 r.server)
  return {
    name := r.identity.name
    space := r.identity.space
    labels := .map labels
    data := [("name", name), ("server", server), ("config", config.toUTF8)] }

/-- What is taken along from a cluster, labels before annotations. -/
def takeAlong : Option SourceCluster → Run (TakeAlong.Outcome × TakeAlong.Outcome)
  | none => return (⟨[], []⟩, ⟨[], []⟩)
  | some c => do
    let name ← Run.ofFault c.name.shown
    let resource := name ++ ", namespace: " ++ (← Run.ofFault c.space.shown)
    let labels ← TakeAlong.collect .labels c.labels resource
    let annotations ← TakeAlong.collect .annotations c.annotations resource
    return (labels, annotations)

def credentialsOf (cluster : KubeCluster) (user : KubeUser) : Credentials :=
  ⟨TlsCredentials.ofParts cluster.caData user.certData user.keyData, user.token⟩

/-- The registration of a workload cluster: the first cluster and the first user of its kubeconfig
count. Problems with take-along requests are returned with it and prevent nothing. -/
def ofWorkload (settings : Settings) (w : WorkloadCluster) (secret : SourceSecret)
    (cluster? : Option SourceCluster) : Run (Registration × List TakeAlong.Problem) := do
  let (labels, annotations) ← takeAlong cluster?
  let problems := labels.problems ++ annotations.problems
  problems.forM fun problem => Run.record .debug .registration do
    return "Take-along problem for " ++ (← secret.identity.id) ++ ": " ++ problem.message
  let cluster ← Run.ofFault w.kubeConfig.cluster
  let user ← Run.ofFault w.kubeConfig.user
  let identity ← Run.ofFault (Naming.generatedName settings secret.name secret.space)
  let clusterName ← Run.ofFault (Naming.clusterName settings cluster.name secret.space)
  let sourceLabels ← Run.ofFault (labelsOfSource w)
  let registration : Registration := {
    identity
    clusterName
    server := cluster.server
    sourceLabels := .map sourceLabels
    takeAlongLabels := .map labels.entries
    takeAlongAnnotations := .map annotations.entries
    credentials := credentialsOf cluster user }
  return (registration, problems)

end Registration
end ClusterRegistrar
