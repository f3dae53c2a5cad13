import ClusterRegistrar.Run

/-! Kubeconfigs, as far as they are needed to register a cluster: the clusters with their servers
and the users with their credentials. Every field is text, whatever the document has there; a field
that is missing or null stays null. -/
namespace ClusterRegistrar

structure KubeCluster where
  name : Value
  server : Value
  caData : Value := .null
deriving Inhabited

structure KubeUser where
  name : Value
  token : Value := .null
  certData : Value := .null
  keyData : Value := .null
deriving Inhabited

structure KubeConfig where
  clusters : List KubeCluster
  users : List KubeUser
deriving Inhabited

namespace KubeConfig

def required? (fields : Entries) (name : Text) : Option Value := do
  let v ← fields.field? name
  return .str (← v.shown.toOption)

def cluster? (v : Value) : Option KubeCluster := do
  let entry ← v.entries?
  let name ← required? entry "name"
  let fields ← (← entry.field? "cluster").entries?
  let server ← required? fields "server"
  return ⟨name, server, ← fields.shownField? "certificate-authority-data"⟩

/-- A user without credentials is accepted. -/
def user? (v : Value) : Option KubeUser := do
  let entry ← v.entries?
  let name ← required? entry "name"
  let fields ← ((entry.field? "user").getD .empty).entries?
  let token ← fields.shownField? "token"
  let certData ← fields.shownField? "client-certificate-data"
  return ⟨name, token, certData, ← fields.shownField? "client-key-data"⟩

def read (list : KubeList) (element? : Value → Option α) (fields : Entries) :
    Except Failure (List α) :=
  match fields.field? list.name with
  | none => .ok []
  | some value =>
    match value.elements.toOption.bind (·.mapM element?) with
    | some elements => .ok elements
    | none => Failure.rejectWith (.invalidKubeList list) value.quoted

/-- The kubeconfig in a document. It needs a cluster and a user. -/
def ofDocument (doc : Value) : Run KubeConfig := do
  let some fields := doc.entries? | Run.ofExcept (.error (.fault .notAMapping))
  let clusters ← Run.ofExcept (read .clusters cluster? fields)
  let users ← Run.ofExcept (read .users user? fields)
  if clusters.isEmpty then Run.reject (.emptyKubeList .clusters)
  if users.isEmpty then Run.reject (.emptyKubeList .users)
  if 1 < clusters.length || 1 < users.length then
    Run.record .debug .kubeconfig
      (.ok "Kubeconfig has multiple clusters or users, using the first of each")
  return ⟨clusters, users⟩

def cluster (k : KubeConfig) : Except Fault KubeCluster :=
  match k.clusters with
  | c :: _ => .ok c
  | [] => .error .emptyList

def user (k : KubeConfig) : Except Fault KubeUser :=
  match k.users with
  | u :: _ => .ok u
  | [] => .error .emptyList

end KubeConfig
end ClusterRegistrar
