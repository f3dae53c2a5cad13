import ClusterRegistrar.Yaml.Node.Basic
import ClusterRegistrar.Yaml.Token.Scanner

/-! Parsing tokens into nodes, one document at a time. Each parser takes tokens from the front; a
node that the tokens leave out is an empty plain scalar. An anchor names its node from the start of
the node on, so that an alias inside a collection can name the collection. -/
namespace ClusterRegistrar.Yaml

structure Parser where
  tokens : List Token
  /-- What is wrong behind the tokens, if they do not reach the end of the stream. -/
  trouble : Option Trouble
  anchors : List (String × NodeId)
  handles : List (String × String)
  nodes : Nodes

namespace Parser

abbrev Parse := StateT Parser (Except Trouble)

def fail (error : Error) : Parse α := throw (.malformed error)

def peek : Parse Token := do
  let p ← get
  match p.tokens with
  | token :: _ => return token
  | [] => throw (p.trouble.getD (.malformed .unexpectedToken))

def drop : Parse Unit := modify fun p => { p with tokens := p.tokens.tail }

def accept (token : Token) : Parse Bool := do
  if (← peek) = token then
    drop
    return true
  else return false

def expect (token : Token) : Parse Unit := do
  if !(← accept token) then fail .unexpectedToken

def add (node : Node) : Parse NodeId :=
  modifyGet fun p => (p.nodes.all.size, { p with nodes := p.nodes.add node })

def setContent (id : NodeId) (content : Content) : Parse Unit :=
  modify fun p => { p with nodes := p.nodes.setContent id content }

def emptyNode : Parse NodeId := add ⟨Tag.ofForm [], .scalar []⟩

/-- Gives an anchor its meaning from here on. -/
def name (anchor : Option String) (id : NodeId) : Parse Unit :=
  match anchor with
  | some a => modify fun p => { p with anchors := (a, id) :: p.anchors }
  | none => return ()

def properties : Parse (Option String × Option (Option String × String)) := do
  match ← peek with
  | .anchor a =>
    drop
    match ← peek with
    | .tag handle suffix => drop; return (some a, some (handle, suffix))
    | _ => return (some a, none)
  | .tag handle suffix =>
    drop
    match ← peek with
    | .anchor a => drop; return (some a, some (handle, suffix))
    | _ => return (none, some (handle, suffix))
  | _ => return (none, none)

/-- The name of a tag, its handle replaced by what that stands for. -/
def resolveHandle (tag : Option String × String) : Parse String := do
  match tag.1 with
  | none => return tag.2
  | some handle =>
    match (← get).handles.lookup handle with
    | some lead => return lead ++ tag.2
    | none => fail .unknownTagHandle

/-- The tag of a scalar: the stated one, else by its form if it is plain, else text. The tag `!`
asks for the form. -/
def scalarTag (stated : Option String) (plain : Bool) (text : Text) : Tag :=
  match stated with
  | some "!" => Tag.ofForm text
  | some uri => Tag.ofUri uri
  | none => if plain then Tag.ofForm text else .str

def collectionTag (stated : Option String) (usual : Tag) : Tag :=
  match stated with
  | none | some "!" => usual
  | some uri => Tag.ofUri uri

def endsBlockEntry (indentless : Bool) : Token → Bool
  | .blockEntry | .blockEnd => true
  | .key | .value => indentless
  | _ => false

def endsBlockPart : Token → Bool
  | .key | .value | .blockEnd => true
  | _ => false

def endsFlowPart (close : Token) (token : Token) : Bool := token = .flowEntry || token = close

def maxDepth : Nat := 485

/-- What is left of the depth inside one more collection. -/
def deeper : Nat → Parse Nat
  | 0 => throw (.fault .nestedTooDeep)
  | room + 1 => return room

mutual

/-- A node. `block` allows block collections, and `indentless` a block sequence at the indentation
of the mapping around it; `room` is how deep collections may still be nested. -/
def node (block indentless : Bool) (room : Nat) : Nat → Parse NodeId
  | 0 => fail .unexpectedToken
  | fuel + 1 => do
    match ← peek with
    | .alias a =>
      drop
      match (← get).anchors.lookup a with
      | some id => return id
      | none => fail .unknownAnchor
    | _ =>
      let (anchor, tag) ← properties
      let stated ← tag.mapM resolveHandle
      let token ← peek
      let isContent := match token with
        | .blockEntry => indentless
        | .scalar .. | .flowSequenceStart | .flowMappingStart => true
        | .blockSequenceStart | .blockMappingStart => block
        | _ => false
      if !isContent && anchor.isNone && tag.isNone then fail .unexpectedToken
      let anchors := (← get).anchors
      if anchor.any fun a => (anchors.lookup a).isSome then fail .repeatedAnchor
      let scalar (plain : Bool) (text : Text) : Parse NodeId := do
        let id ← add ⟨scalarTag stated plain text, .scalar text⟩
        name anchor id
        return id
      let sequence (items : Nat → Parse (List NodeId)) : Parse NodeId := do
        let room ← deeper room
        let id ← add ⟨collectionTag stated .seq, .seq []⟩
        name anchor id
        setContent id (.seq (← items room))
        return id
      let mapping (entries : Nat → Parse (List (NodeId × NodeId))) : Parse NodeId := do
        let room ← deeper room
        let id ← add ⟨collectionTag stated .map, .map []⟩
        name anchor id
        setContent id (.map (← entries room))
        return id
      if !isContent then scalar true []
      else
        match token with
        | .blockEntry => sequence fun room => blockItems true room fuel
        | .scalar text plain =>
          drop
          scalar plain text
        | .flowSequenceStart =>
          drop
          sequence fun room => flowItems true room fuel
        | .flowMappingStart =>
          drop
          mapping fun room => flowEntries true room fuel
        | .blockSequenceStart =>
          drop
          sequence fun room => blockItems false room fuel
        | _ =>
          drop
          mapping fun room => blockEntries room fuel
termination_by structural fuel => fuel

/-- The entries of a block sequence, and the token that ends it unless it is indentless. -/
def blockItems (indentless : Bool) (room : Nat) : Nat → Parse (List NodeId)
  | 0 => fail .unexpectedToken
  | fuel + 1 => do
    if ← accept .blockEntry then
      let item ←
        if endsBlockEntry indentless (← peek) then emptyNode else node true false room fuel
      return item :: (← blockItems indentless room fuel)
    else
      if !indentless then expect .blockEnd
      return []
termination_by structural fuel => fuel

def blockEntries (room : Nat) : Nat → Parse (List (NodeId × NodeId))
  | 0 => fail .unexpectedToken
  | fuel + 1 => do
    if ← accept .key then
      let key ← if endsBlockPart (← peek) then emptyNode else node true true room fuel
      let value ←
        if ← accept .value then
          if endsBlockPart (← peek) then emptyNode else node true true room fuel
        else emptyNode
      return (key, value) :: (← blockEntries room fuel)
    else
      expect .blockEnd
      return []
termination_by structural fuel => fuel

/-- The entries of a flow sequence and its closing bracket. A key among them opens a mapping of one
entry. -/
def flowItems (first : Bool) (room : Nat) : Nat → Parse (List NodeId)
  | 0 => fail .unexpectedToken
  | fuel + 1 => do
    if ← accept .flowSequenceEnd then return []
    if !first then expect .flowEntry
    if ← accept .flowSequenceEnd then return []
    let item ←
      if ← accept .key then
        let inner ← deeper room
        let id ← add ⟨.map, .map []⟩
        setContent id (.map [← flowEntry .flowSequenceEnd inner fuel])
        pure id
      else node false false room fuel
    return item :: (← flowItems false room fuel)
termination_by structural fuel => fuel

def flowEntries (first : Bool) (room : Nat) : Nat → Parse (List (NodeId × NodeId))
  | 0 => fail .unexpectedToken
  | fuel + 1 => do
    if ← accept .flowMappingEnd then return []
    if !first then expect .flowEntry
    if ← accept .flowMappingEnd then return []
    let entry ←
      if ← accept .key then flowEntry .flowMappingEnd room fuel
      else do
        let key ← node false false room fuel
        pure (key, ← emptyNode)
    return entry :: (← flowEntries false room fuel)
termination_by structural fuel => fuel

def flowEntry (close : Token) (room : Nat) : Nat → Parse (NodeId × NodeId)
  | 0 => fail .unexpectedToken
  | fuel + 1 => do
    let next ← peek
    let key ←
      if next = .value || endsFlowPart close next then emptyNode else node false false room fuel
    let value ←
      if ← accept .value then
        if endsFlowPart close (← peek) then emptyNode else node false false room fuel
      else emptyNode
    return (key, value)
termination_by structural fuel => fuel

end

def defaultHandles : List (String × String) := [("!", "!"), ("!!", Tag.standardLead)]

/-- Directives in front of a document; `version` says whether one has stated a version. -/
def directives : Nat → Bool → List (String × String) → Parse (List (String × String))
  | 0, _, handles => return handles
  | fuel + 1, version, handles => do
    match ← peek with
    | .versionDirective major =>
      drop
      if version then fail .repeatedDirective
      if major ≠ 1 then fail .unsupportedVersion
      directives fuel true handles
    | .tagDirective handle lead =>
      drop
      if (handles.lookup handle).isSome then fail .repeatedDirective
      directives fuel version ((handle, lead) :: handles)
    | .reservedDirective =>
      drop
      directives fuel version handles
    | _ => return handles

/-- Fuel that suffices for a list of tokens: every level and every entry takes one. -/
def fuelFor (tokens : List Token) : Nat := 4 * tokens.length + 8

def skipDocumentEnds : Nat → Parse Unit
  | 0 => return ()
  | fuel + 1 => do if ← accept .documentEnd then skipDocumentEnds fuel

def documentStart (fuel : Nat) : Parse Unit := do
  let handles ← directives fuel false []
  modify fun p => { p with handles := handles ++ defaultHandles }
  expect .documentStart

def content (fuel : Nat) : Parse NodeId := do
  match ← peek with
  | .versionDirective _ | .tagDirective .. | .reservedDirective | .documentStart | .documentEnd
  | .streamEnd => emptyNode
  | _ => node true false maxDepth fuel

structure Parsed where
  nodes : Nodes
  root : NodeId

def finish (root : NodeId) : Parse Parsed := do
  let _ ← accept .documentEnd
  return ⟨(← get).nodes, root⟩

/-- The next document, if there is one. Only the first document of a stream may lack its start
mark. The fuel has to suffice for the tokens that are left. -/
def document? (fuel : Nat) (first : Bool) : Parse (Option Parsed) := do
  modify fun p => { p with anchors := [], nodes := .empty }
  let implicit ← if first then
      match ← peek with
      | .versionDirective _ | .tagDirective .. | .reservedDirective | .documentStart | .streamEnd =>
        pure false
      | _ => pure true
    else pure false
  if implicit then
    modify fun p => { p with handles := defaultHandles }
    return some (← finish (← node true false maxDepth fuel))
  else
    skipDocumentEnds fuel
    if (← peek) = .streamEnd then return none
    documentStart fuel
    return some (← finish (← content fuel))

/-- The only document of a stream, if there is one. Where another one starts, its start is parsed
before it is refused. -/
def onlyDocument? (fuel : Nat) : Parse (Option Parsed) := do
  match ← document? fuel true with
  | none => return none
  | some parsed =>
    skipDocumentEnds fuel
    if (← peek) = .streamEnd then return some parsed
    documentStart fuel
    fail .severalDocuments

end Parser

end ClusterRegistrar.Yaml
