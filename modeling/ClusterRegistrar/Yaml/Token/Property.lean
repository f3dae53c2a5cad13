import ClusterRegistrar.Text.Numeral
import ClusterRegistrar.Yaml.Cursor
import ClusterRegistrar.Yaml.Error
import ClusterRegistrar.Yaml.Token

/-! Scanning what is no scalar and no indicator: directives, anchors, aliases and tags. -/
namespace ClusterRegistrar.Yaml

/-! ### Names -/

def scanName (c : Cursor) : Option (String × Cursor) :=
  let name := c.rest.takeWhile isNameChar
  if name.isEmpty then none else some (String.ofList name, c.skip name.length)

def endsAnchor (cs : List Char) : Bool :=
  atBlank cs || headOrEnd (fun c => "?:,]\x7d%@`".toList.contains c) cs

def scanAnchor (c : Cursor) : Except Trouble (String × Cursor) :=
  match scanName c.next with
  | some (name, c) =>
    if endsAnchor c.rest then .ok (name, c) else .error (.malformed .malformedAnchor)
  | none => .error (.malformed .malformedAnchor)

/-! ### Tags -/

/-- The bytes that a run of `%` escapes writes, and its length; the text itself bounds the steps. -/
def uriBytes : List Char → List Char → Option (List UInt8 × Nat)
  | [], _ => some ([], 0)
  | _ :: fuel, cs =>
    match cs with
    | '%' :: rest => do
      let n ← match rest with
        | a :: b :: _ => if Numeral.isHexDigit a && Numeral.isHexDigit b
            then some (Numeral.hexValue [a, b]) else none
        | _ => none
      let (bytes, length) ← uriBytes fuel (rest.drop 2)
      return (UInt8.ofNat n :: bytes, length + 3)
    | _ => some ([], 0)

def scanUriEscapes (c : Cursor) : Option (List Char × Cursor) := do
  let (bytes, length) ← uriBytes c.rest c.rest
  let text ← String.fromUTF8? ⟨bytes.toArray⟩
  return (text.toList, c.skip length)

def tagChars : List Char → Cursor → Option (List Char × Cursor)
  | [], c => some ([], c)
  | _ :: fuel, c =>
    match c.rest with
    | '%' :: _ => do
      let (part, c) ← scanUriEscapes c
      let (more, c) ← tagChars fuel c
      return (part ++ more, c)
    | ch :: _ =>
      if isTagChar ch then do
        let (more, c) ← tagChars fuel c.next
        return (ch :: more, c)
      else some ([], c)
    | [] => some ([], c)

def scanTagUri (c : Cursor) : Except Trouble (String × Cursor) :=
  match tagChars c.rest c with
  | some (text, d) =>
    if d.index = c.index then .error (.malformed .malformedTag) else .ok (String.ofList text, d)
  | none => .error (.malformed .malformedTag)

def scanTagHandle (c : Cursor) : Except Trouble (String × Cursor) :=
  match c.rest with
  | '!' :: rest =>
    if rest.head? = some ' ' then .ok ("!", c.next)
    else
      let name := rest.takeWhile isNameChar
      if (rest.drop name.length).head? = some '!' then
        .ok (String.ofList ('!' :: (name ++ ['!'])), c.skip (name.length + 2))
      else .error (.malformed .malformedTag)
  | _ => .error (.malformed .malformedTag)

/-- Whether a second `!` stands before the next space, so that the tag starts with a handle. -/
def hasHandle (cs : List Char) : Bool :=
  (cs.takeWhile fun c => c ≠ ' ' && !isBreak c).contains '!'

def scanTag (c : Cursor) : Except Trouble (Token × Cursor) := do
  let after := c.rest.drop 1
  let (token, c) ←
    match after with
    | '<' :: _ => do
      let (suffix, c) ← scanTagUri (c.skip 2)
      if c.rest.head? = some '>' then .ok (Token.tag none suffix, c.next)
      else .error (.malformed .malformedTag)
    | _ =>
      if atBlank after then .ok (Token.tag none "!", c.next)
      else if hasHandle after then do
        let (handle, c) ← scanTagHandle c
        let (suffix, c) ← scanTagUri c
        .ok (Token.tag (some handle) suffix, c)
      else do
        let (suffix, c) ← scanTagUri c.next
        .ok (Token.tag (some "!") suffix, c)
  if atSpace c.rest then return (token, c) else .error (.malformed .malformedTag)

/-! ### Directives -/

def scanVersionNumber (c : Cursor) : Except Trouble (Nat × Cursor) :=
  let digits := c.rest.takeWhile Numeral.isDigit
  if Numeral.maxDecimal < digits.length then .error (.fault .malformedNumber)
  else match Numeral.ofDigits? 10 digits with
  | some n => .ok (n, c.skip digits.length)
  | none => .error (.malformed .malformedDirective)

/-- A version, of which only the major number matters. -/
def scanVersion (c : Cursor) : Except Trouble (Token × Cursor) := do
  let (major, c) ← scanVersionNumber c.skipSpaces
  if c.rest.head? ≠ some '.' then .error (.malformed .malformedDirective)
  let (_, c) ← scanVersionNumber c.next
  if atSpace c.rest then return (.versionDirective major, c)
  else .error (.malformed .malformedDirective)

def scanHandleDefinition (c : Cursor) : Except Trouble (Token × Cursor) := do
  let (handle, c) ← scanTagHandle c.skipSpaces
  if c.rest.head? ≠ some ' ' then .error (.malformed .malformedDirective)
  let (lead, c) ← scanTagUri c.skipSpaces
  if atSpace c.rest then return (.tagDirective handle lead, c)
  else .error (.malformed .malformedDirective)

def scanDirective (c : Cursor) : Except Trouble (Token × Cursor) := do
  match scanName c.next with
  | none => .error (.malformed .malformedDirective)
  | some (name, c) =>
    if !atSpace c.rest then .error (.malformed .malformedDirective)
    let (token, c) ←
      if name = "YAML" then scanVersion c
      else if name = "TAG" then scanHandleDefinition c
      else .ok (.reservedDirective, c.skipWhile (!isBreak ·))
    match c.skipRestOfLine? with
    | some c => return (token, c)
    | none => .error (.malformed .malformedDirective)

end ClusterRegistrar.Yaml
