import ClusterRegistrar.GeneratedSecret
import ClusterRegistrar.Json.Printer
import ClusterRegistrar.Listing.Table
import ClusterRegistrar.Text.Lines
import ClusterRegistrar.Yaml.Writer.Layout

/-! Listings of generated secrets: a YAML stream of documents, a JSON array, or a table of names and
servers. No secrets make an empty stream and no table, yet an empty array. -/
namespace ClusterRegistrar

inductive Listing where
  | yaml
  | json
  | table
deriving DecidableEq, Repr

namespace Listing

def name : Listing → String
  | yaml => "yaml"
  | json => "json"
  | table => "table"

def all : List Listing := [yaml, json, table]

def ofName? (t : Text) : Option Listing := all.find? fun listing => t = listing.name

def entriesOf (s : GeneratedSecret) : Except Fault Entries := do (← s.toDocument).fields

def yamlText (secrets : List GeneratedSecret) : Except Fault (List Char) := do
  Yaml.writeDocuments (← secrets.mapM entriesOf)

def yamlLines (secrets : List GeneratedSecret) : Except Fault (List Text) :=
  if secrets.isEmpty then .ok []
  else return Lines.split (Lines.dropFinalBreaks (Text.ofChars (← yamlText secrets)))

def ofRefusal : Json.Refusal → Fault
  | .kind _ => .noJsonForm
  | .circular => .insideItself
  | .longNumeral => .longNumeral
  | .nestedTooDeep => .nestedTooDeep

def jsonText (secrets : List GeneratedSecret) : Except Fault (List Char) := do
  let documents ← secrets.mapM GeneratedSecret.toDocument
  let json ← (Json.ofValue (.list documents)).mapError ofRefusal
  return Json.indented 4 0 json

def jsonLines (secrets : List GeneratedSecret) : Except Fault (List Text) :=
  return Lines.split (Text.ofChars (← jsonText secrets))

def headers : List String := ["NAME", "NAMESPACE", "CLUSTER", "SERVER"]

def dataText (s : GeneratedSecret) (key : String) : Except Fault Text :=
  match s.dataAt? key with
  | none => .error .missingEntry
  | some bytes =>
    match String.fromUTF8? bytes with
    | some text => .ok text
    | none => .error .notUtf8

def row (s : GeneratedSecret) : Except Fault Value := do
  let cluster ← dataText s "name"
  let server ← dataText s "server"
  return .list [s.name, s.space, .str cluster, .str server]

def tablePrintout (secrets : List GeneratedSecret) : Table.Printout :=
  if secrets.isEmpty then ⟨[], none⟩
  else
    match secrets.mapM row with
    | .ok rows => Table.print (.list (headers.map fun (name : String) => .str name)) rows
    | .error f => ⟨[], some f⟩

/-- A listing as it is printed. A stream or an array is complete before its first line. -/
def print : Listing → List GeneratedSecret → Table.Printout
  | yaml, secrets => .ofLines (yamlLines secrets)
  | json, secrets => .ofLines (jsonLines secrets)
  | table, secrets => tablePrintout secrets

def lines (listing : Listing) (secrets : List GeneratedSecret) : Except Fault (List Text) :=
  (listing.print secrets).complete

end Listing
end ClusterRegistrar
