import ClusterRegistrar.NamespacedName
import ClusterRegistrar.Settings
import ClusterRegistrar.Text.Affix

/-! The names of generated secrets and of the clusters that they register. -/
namespace ClusterRegistrar.Naming

def kubeconfigEnding : String := "-kubeconfig"

def generatedStart : String := "cluster-"

def clusterName (settings : Settings) (name space : Value) : Except Fault Value :=
  if settings.namespacedNames then do
    let shown ← space.shown
    return .str (shown ++ "-" ++ (← name.shown))
  else .ok name

def baseName (secretName : Value) : Except Fault Value :=
  return .str (Affix.removeEnd kubeconfigEnding (← secretName.text))

/-- The name of the secret that is generated for a secret with a kubeconfig. It lives in the
namespace of the settings and not in that of its source. -/
def generatedName (settings : Settings) (secretName space : Value) :
    Except Fault NamespacedName := do
  let name ← clusterName settings (← baseName secretName) space
  return ⟨settings.argoNamespace, .str (generatedStart ++ (← name.shown))⟩

end ClusterRegistrar.Naming
