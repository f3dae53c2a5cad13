import ClusterRegistrar.Value.Basic

/-! What the user asks of a conversion. -/
namespace ClusterRegistrar

structure Settings where
  argoNamespace : Value := .str "argocd"
  namespacedNames : Bool := false
  validateTls : Bool := false
deriving Inhabited

end ClusterRegistrar
