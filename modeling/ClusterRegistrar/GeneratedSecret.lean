import ClusterRegistrar.Base64
import ClusterRegistrar.NamespacedName

/-! The secrets that register clusters, and the documents that stand for them. -/
namespace ClusterRegistrar

structure GeneratedSecret where
  name : Value
  space : Value
  labels : Value
  data : List (Text × ByteArray)
deriving Inhabited

namespace GeneratedSecret

def apiVersion : String := "v1"

def kind : String := "Secret"

def identity (s : GeneratedSecret) : NamespacedName := ⟨s.space, s.name⟩

def dataAt? (s : GeneratedSecret) (key : Text) : Option ByteArray :=
  (s.data.find? fun entry => entry.1 = key).map (·.2)

def setLabel (s : GeneratedSecret) (key value : Value) : Except Fault GeneratedSecret :=
  match s.labels.entries? with
  | some entries => return { s with labels := .map (entries.put (← key.key) value) }
  | none => .error .notIndexable

def putData (data : List (Text × ByteArray)) (key : Text) (bytes : ByteArray) :
    List (Text × ByteArray) :=
  match data with
  | [] => [(key, bytes)]
  | (k, b) :: rest => if k = key then (k, bytes) :: rest else (k, b) :: putData rest key bytes

def setData (s : GeneratedSecret) (key : Text) (bytes : ByteArray) : GeneratedSecret :=
  { s with data := putData s.data key bytes }

def encodeData (bytes : ByteArray) : Value :=
  .str (.ofChars (Base64.encode bytes.data.toList))

def toDocument (s : GeneratedSecret) : Except Fault Value := do
  let labels ← s.labels.toEntries
  return .map [
    (.str "apiVersion", .str apiVersion),
    (.str "kind", .str kind),
    (.str "metadata", .map [
      (.str "name", s.name),
      (.str "namespace", s.space),
      (.str "labels", .map labels)]),
    (.str "data", .map (s.data.map fun (key, bytes) => (.str key, encodeData bytes)))]

end GeneratedSecret
end ClusterRegistrar
