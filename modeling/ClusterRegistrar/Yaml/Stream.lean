import ClusterRegistrar.Text.Utf16
import ClusterRegistrar.Yaml.Node.Parse
import ClusterRegistrar.Yaml.Node.Value

/-! Reading YAML texts into values: a text of one document, or a stream of any number of them. -/
namespace ClusterRegistrar.Yaml

/-- The characters of a text in UTF-8, or in UTF-16 behind a byte order mark. -/
def decode? (bytes : ByteArray) : Option (List Char) :=
  match bytes.data.toList with
  | 0xff :: 0xfe :: _ => Utf16.decode? true bytes.data.toList
  | 0xfe :: 0xff :: _ => Utf16.decode? false bytes.data.toList
  | _ => (String.fromUTF8? bytes).map String.toList

def Parser.start (text : List Char) : Parser :=
  let (tokens, trouble) := scan text
  ⟨tokens, trouble, [], [], .empty⟩

def readOne (text : List Char) : Except Trouble Value := do
  if !text.all isPrintable then .error (.malformed .unprintable)
  let parser := Parser.start text
  let (parsed?, _) ← (Parser.onlyDocument? (Parser.fuelFor parser.tokens)).run parser
  match parsed? with
  | none => return .null
  | some parsed => parsed.nodes.value 0 parsed.root

def readOneEncoded (bytes : ByteArray) : Except Trouble Value :=
  match decode? bytes with
  | some text => readOne text
  | none => .error (.malformed .undecodable)

/-- The documents from a parser on, the next one with the given number. A document is parsed as a
whole before its value is built, and built before the next one is parsed. -/
def readDocuments (fuel : Nat) : List Token → Nat → Parser → Except Trouble (List Value)
  | [], _, _ => .ok []
  | _ :: bound, number, p => do
    let (parsed?, p) ← (Parser.document? fuel (number = 0)).run p
    match parsed? with
    | none => return []
    | some parsed =>
      let value ← parsed.nodes.value number parsed.root
      return value :: (← readDocuments fuel bound (number + 1) p)

def readAll (text : List Char) : Except Trouble (List Value) :=
  if !text.all isPrintable then .error (.malformed .unprintable)
  else
    let p := Parser.start text
    readDocuments (Parser.fuelFor p.tokens) (.streamEnd :: p.tokens) 0 p

end ClusterRegistrar.Yaml
