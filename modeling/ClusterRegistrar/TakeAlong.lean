import ClusterRegistrar.Run
import ClusterRegistrar.Text.Affix

/-! Labels and annotations that a cluster's owner wants on the generated secret. A key with the
request lead asks for the key behind it, its target; the target is copied with its value, followed
by an empty marker that tells where it came from. A request that names no target discards the
requests of its kind; one whose target is missing is reported and passed over. -/
namespace ClusterRegistrar.TakeAlong

inductive MetadataKind where
  | labels
  | annotations
  | other
deriving DecidableEq, Repr

def MetadataKind.name : MetadataKind → String
  | .labels => "label"
  | .annotations => "annotation"
  | .other => ""

def requestLead (name : Text) : Text := "take-along-" ++ name ++ ".capi-to-argocd."

def markerLead (name : Text) : Text := "taken-from-cluster-" ++ name ++ ".capi-to-argocd."

inductive Problem where
  | malformedKey (kind : Text) (key : Text)
  | missingTarget (kind : Text) (key : Text) (resource : Option Text)
deriving DecidableEq, Repr

def Problem.message : Problem → Text
  | .malformedKey kind key =>
    "invalid take-along " ++ kind ++ ". missing key after prefix: " ++ key
  | .missingTarget kind key resource =>
    let place : Text := match resource with
      | none | some [] => []
      | some r => ": " ++ r
    "take-along " ++ kind ++ " '" ++ key ++ "' not found on cluster resource" ++ place ++
      ". Ignoring"

def target? (name key : Text) : Except Problem (Option Text) :=
  match Affix.dropStart? (requestLead name) key with
  | none => .ok none
  | some [] => .error (.malformedKey name key)
  | some target => .ok (some target)

/-- The targets of all requests among keys, up to the first one that is malformed. -/
def targets (name : Text) : List Value → Except Fault (Except Problem (List Text))
  | [] => .ok (.ok [])
  | key :: rest => do
    match target? name (← key.text) with
    | .error problem => return .error problem
    | .ok found => return (← targets name rest).map (found.toList ++ ·)

/-- The value of a target in metadata. A list of texts can hold the target, yet no value for it. -/
def lookup (metadata : Value) (target : Text) : Except Fault (Option Value) :=
  match metadata.entries? with
  | some entries => .ok (entries.field? target)
  | none => do
    if (← metadata.elements).any (·.isText target) then .error .notIndexable else return none

/-- What is taken along, and the problems on the way. -/
structure Outcome where
  entries : Entries
  problems : List Problem

def Outcome.add (name : Text) (metadata : Value) (resource : Option Text) (o : Outcome)
    (target : Text) : Except Fault Outcome := do
  match ← lookup metadata target with
  | none => return { o with problems := o.problems ++ [.missingTarget name target resource] }
  | some value =>
    let copied := o.entries.put (.str target) value
    return { o with entries := copied.put (.str (markerLead name ++ target)) (.str []) }

def collect (kind : MetadataKind) (metadata : Value) (resource : Option Text) : Run Outcome := do
  let keys ← Run.ofFault metadata.elements
  match ← Run.ofFault (targets kind.name keys) with
  | .error problem => do
    Run.record .debug .takeAlong
      (.ok (s!"Discarding take-along {kind.name}s: " ++ problem.message))
    return ⟨[], [problem]⟩
  | .ok found =>
    Run.ofFault (found.foldlM (Outcome.add kind.name metadata resource) ⟨[], []⟩)

end ClusterRegistrar.TakeAlong
