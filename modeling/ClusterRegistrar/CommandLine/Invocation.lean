import ClusterRegistrar.CommandLine.Grammar
import ClusterRegistrar.CommandLine.Path
import ClusterRegistrar.Listing.Basic
import ClusterRegistrar.Run
import ClusterRegistrar.Settings

/-! What a command line asks for: the input, the settings of the conversion, and where its result
goes. Options in front of the command say what is logged; of an option that is repeated, the last
one counts. -/
namespace ClusterRegistrar.CommandLine

/-- An option that was given the mark `--` has no value. -/
structure Invocation where
  path : Text
  settings : Settings := {}
  listing : Option Listing := some .yaml
  outputFile : Option Text := some "/dev/stdout"
  logLevel : Option Level := none

structure UsageError where
  program : String
  misuse : Misuse

def UsageError.message (e : UsageError) : Text := s!"{e.program}: error: " ++ e.misuse.message

def helpOption : OptionForm := { names := ["-h", "--help"], takesValue := false, ends := true }

def programGrammar : Grammar where
  program := "capi2argo"
  options := [helpOption, { names := ["--log-level"], choices := some (Level.all.map Level.name) }]
  operand := { name := "command", takesRest := true, choices := some ["convert"] }

def convertGrammar : Grammar where
  program := "capi2argo convert"
  options := [
    helpOption,
    { names := ["--argo-namespace"] },
    { names := ["--enable-namespaced-names", "--no-enable-namespaced-names"], takesValue := false },
    { names := ["--validate-tls", "--no-validate-tls"], takesValue := false },
    { names := ["--output", "-o"], choices := some (Listing.all.map Listing.name) },
    { names := ["--output-file"] }]
  operand := { name := "path" }

inductive Request where
  | help
  | convert (invocation : Invocation)

namespace Invocation

def set (i : Invocation) (name : String) (value : Option Text) : Invocation :=
  match name with
  | "--argo-namespace" =>
    { i with settings := { i.settings with argoNamespace := value.elim (.list []) .str } }
  | "--enable-namespaced-names" =>
    { i with settings := { i.settings with namespacedNames := true } }
  | "--no-enable-namespaced-names" =>
    { i with settings := { i.settings with namespacedNames := false } }
  | "--validate-tls" => { i with settings := { i.settings with validateTls := true } }
  | "--no-validate-tls" => { i with settings := { i.settings with validateTls := false } }
  | "--output" | "-o" => { i with listing := value.bind Listing.ofName? }
  | "--output-file" => { i with outputFile := value }
  | _ => i

def setProgram (i : Invocation) (name : String) (value : Option Text) : Invocation :=
  match name with
  | "--log-level" => { i with logLevel := value.bind Level.ofName? }
  | _ => i

def setAll (i : Invocation) (setOne : Invocation → String → Option Text → Invocation)
    (given : List (NamedOption × Option Text)) : Invocation :=
  given.foldl (fun acc (o, value) => setOne acc o.name value) i

end Invocation

def readUnder (g : Grammar) (arguments : List Text) : Except UsageError Reading :=
  (g.read arguments).mapError (⟨g.program, ·⟩)

def Request.read (arguments : List Text) : Except UsageError Request := do
  let outer ← readUnder programGrammar arguments
  if outer.ended then return .help
  let inner ← readUnder convertGrammar ((outer.operand.getD []).drop 1)
  if inner.ended then return .help
  match outer.extras ++ inner.extras with
  | [] =>
    let start : Invocation := { path := Path.normal ((inner.operand.getD []).flatten) }
    let withProgram := start.setAll Invocation.setProgram outer.given
    return .convert (withProgram.setAll Invocation.set inner.given)
  | extras => .error ⟨programGrammar.program, .unrecognized extras⟩

end ClusterRegistrar.CommandLine
