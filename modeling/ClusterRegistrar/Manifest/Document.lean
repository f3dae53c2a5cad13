import ClusterRegistrar.Manifest.Basic
import ClusterRegistrar.Run
import ClusterRegistrar.Text.Affix
import ClusterRegistrar.Yaml.Stream

/-! Manifests from documents. A document is a resource or a list of resources; those that are
neither secrets nor Cluster API clusters are passed over. One bad document spoils the whole file. -/
namespace ClusterRegistrar.Manifest

/-- The version of a secret, and the group of a cluster, whose versions may change. -/
def versionOf : ManifestKind → String
  | .secret => "v1"
  | .cluster => "cluster.x-k8s.io"

/-- Whether a value is text with a given start; other values have no start. -/
def startsWith (start : Text) (v : Value) : Except Fault Bool :=
  return Affix.startsWith start (← v.text)

/-- What the manifests of all kinds share: the fields of the document and of its metadata, the name
and the namespace. -/
structure Header where
  fields : Entries
  metadata : Entries
  name : Value
  space : Value

/-- The header of a document that is taken for a manifest of the given kind. -/
def header (kind : ManifestKind) (doc : Value) : Except Failure Header := do
  let fields ← Fault.lift doc.fields
  let version := fields.field "apiVersion"
  if !version.truthy then Failure.rejectWith .missingApiVersion doc.shown
  if !(← Fault.lift (startsWith (versionOf kind) version)) then
    Failure.rejectWith (.unexpectedVersion (versionOf kind)) doc.shown
  if !(fields.field "metadata").truthy then
    Failure.rejectWith (.missingMetadata kind) doc.shown
  let metadata ← Fault.lift (fields.field "metadata").fields
  let name := metadata.field "name"
  if !name.truthy then Failure.rejectWith (.missingName kind) doc.shown
  return ⟨fields, metadata, name, (metadata.field? "namespace").getD "default"⟩

def ofSecretDocument (doc : Value) : Except Failure SourceSecret := do
  let h ← header .secret doc
  return {
    name := h.name
    space := h.space
    type := h.fields.field "type"
    labels := (h.metadata.field "labels").orElse .empty
    data := (h.fields.field "data").orElse .empty }

def ofClusterDocument (doc : Value) : Except Failure SourceCluster := do
  let h ← header .cluster doc
  return {
    name := h.name
    space := h.space
    labels := (h.metadata.field "labels").orElse .empty
    annotations := (h.metadata.field "annotations").orElse .empty }

def kindOf (kind version : Value) : Except Fault (Option ManifestKind) := do
  if kind.isText "Secret" && version.isText "v1" then return some .secret
  if kind.isText "Cluster" then
    if ← startsWith (versionOf .cluster) version then return some .cluster
  return none

def ofResource (doc : Value) : Run (Option Manifest) := do
  let fields ← Run.ofFault doc.fields
  let kind := fields.field "kind"
  if !kind.truthy then Run.ofExcept (Failure.rejectWith .missingKind doc.shown)
  let version := fields.field "apiVersion"
  if !version.truthy then Run.ofExcept (Failure.rejectWith .missingApiVersion doc.shown)
  match ← Run.ofFault (kindOf kind version) with
  | some .secret => return some (.secret (← Run.ofExcept (ofSecretDocument doc)))
  | some .cluster => return some (.cluster (← Run.ofExcept (ofClusterDocument doc)))
  | none => do
    Run.record .debug .manifest do
      let shown ← version.shown
      return "Ignoring object " ++ shown ++ "/" ++ (← kind.shown)
    return none

def ofResources (items : List Value) : Run (List Manifest) := do
  return (← items.mapM ofResource).flatMap Option.toList

/-- The manifests in a document: of its items if it is a list, none if it is null. -/
def ofDocument (path : Text) (doc : Value) : Run (List Manifest) :=
  match doc, doc.entries? with
  | .null, _ => return []
  | _, some fields =>
    if (fields.field "kind").isText "List" then do
      ofResources (← Run.ofFault ((fields.field "items").orElse (.list [])).elements)
    else ofResources [doc]
  | _, none => Run.ofExcept (Failure.rejectWith (.documentNotMapping path) doc.shown)

def ofDocuments (path : Text) (docs : List Value) : Run (List Manifest) := do
  return (← docs.mapM (ofDocument path)).flatten

/-- Line ends of every system as line feeds. -/
def unifyLineEnds : List Char → List Char
  | '\r' :: '\n' :: rest => '\n' :: unifyLineEnds rest
  | '\r' :: rest => '\n' :: unifyLineEnds rest
  | c :: rest => c :: unifyLineEnds rest
  | [] => []

def documents (path : Text) (content : ByteArray) : Except Failure (List Value) := do
  let some text := String.fromUTF8? content | .error (.fault .notUtf8)
  match Yaml.readAll (unifyLineEnds text.toList) with
  | .ok docs => return docs
  | .error (.malformed _) => Failure.reject (.malformedFile path)
  | .error (.fault f) => .error (.fault f)

def ofFile (path : Text) (content : ByteArray) : Run (List Manifest) := do
  ofDocuments path (← Run.ofExcept (documents path content))

end ClusterRegistrar.Manifest
