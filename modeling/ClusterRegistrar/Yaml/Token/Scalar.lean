import ClusterRegistrar.Text.Basic
import ClusterRegistrar.Yaml.Cursor
import ClusterRegistrar.Yaml.Error

/-! Scanning scalars: plain, quoted and block. Each scanner takes the cursor at the scalar's start
and returns the text and the cursor behind it. Within a scalar a single line break folds into a
space and a run of breaks loses its first one; literal block scalars keep all. A loop is bounded by
the text that remains when it starts: every step takes a character of it. -/
namespace ClusterRegistrar.Yaml

/-- A line break and those that follow it, as they read after folding. -/
def foldBreaks (first : Char) (more : List Char) : List Char :=
  if first ≠ '\n' then first :: more
  else if more.isEmpty then [' ']
  else more

/-! ### Plain scalars -/

def colonEnds (flow : Bool) (rest : List Char) : Bool :=
  atBlank rest || (flow && headOrEnd (fun c => ",[]\x7b\x7d".toList.contains c) rest)

/-- How many characters of a plain scalar stand here, up to a blank or an indicator. -/
def plainLength (flow : Bool) : List Char → Nat
  | [] => 0
  | c :: rest =>
    if isSpaceOrTab c || isBreak c then 0
    else if c = ':' && colonEnds flow rest then 0
    else if flow && ",?[]\x7b\x7d".toList.contains c then 0
    else plainLength flow rest + 1

/-- The line breaks and spaces that follow a line break; nothing if a document mark starts a
line. -/
def plainBreaks : List Char → Cursor → Option (List Char) × Cursor
  | [], c => (some [], c)
  | _ :: fuel, c =>
    match c.takeBreak? with
    | some (b, c) =>
      if atDocumentMark c.rest then (none, c)
      else
        let (more, c) := plainBreaks fuel c
        (more.map (b :: ·), c)
    | none =>
      if c.rest.head? = some ' ' then plainBreaks fuel c.next else (some [], c)

/-- What separates two words of a plain scalar, and whether a line ended there; an empty separator
ends the scalar. -/
def plainGap (c : Cursor) : List Char × Cursor × Bool :=
  let spaces := c.rest.takeWhile (· = ' ')
  let c := c.skip spaces.length
  match c.takeBreak? with
  | none => (spaces, c, false)
  | some (first, c) =>
    if atDocumentMark c.rest then ([], c, true)
    else
      match plainBreaks c.rest c with
      | (none, c) => ([], c, true)
      | (some more, c) => (foldBreaks first more, c, true)

/-- A plain scalar; also says whether it ended behind a line break. -/
def plainFrom (flow : Bool) (indent : Int) :
    List Char → Cursor → List Char → Bool → List Char × Cursor × Bool
  | [], c, _, ended => ([], c, ended)
  | _ :: fuel, c, gap, ended =>
    let length := if c.rest.head? = some '#' then 0 else plainLength flow c.rest
    if length = 0 then ([], c, ended)
    else
      let word := c.rest.take length
      let (nextGap, c, broke) := plainGap (c.skip length)
      if nextGap.isEmpty || c.rest.head? = some '#' || (!flow && c.column < indent) then
        (gap ++ word, c, broke)
      else
        let (text, c, ended) := plainFrom flow indent fuel c nextGap broke
        (gap ++ word ++ text, c, ended)

def scanPlain (flow : Bool) (indent : Int) (c : Cursor) : List Char × Cursor × Bool :=
  plainFrom flow indent c.rest c [] false

/-! ### Quoted scalars -/

def escapedChar? (c : Char) : Option Char :=
  match c with
  | '0' => some '\x00'
  | 'a' => some '\x07'
  | 'b' => some '\x08'
  | 't' => some '\t'
  | '\t' => some '\t'
  | 'n' => some '\n'
  | 'v' => some '\x0b'
  | 'f' => some '\x0c'
  | 'r' => some '\r'
  | 'e' => some '\x1b'
  | ' ' => some ' '
  | '"' => some '"'
  | '\\' => some '\\'
  | '/' => some '/'
  | 'N' => some '\x85'
  | '_' => some '\xa0'
  | 'L' => some '\u2028'
  | 'P' => some '\u2029'
  | _ => none

def escapeWidth? (c : Char) : Option Nat :=
  if c = 'x' then some 2 else if c = 'u' then some 4 else if c = 'U' then some 8 else none

def hexNumber? (width : Nat) (cs : List Char) : Option Nat :=
  let digits := cs.take width
  if digits.length = width && digits.all Numeral.isHexDigit then some (Numeral.hexValue digits)
  else none

/-- The code point of an escape by number; a surrogate stays one, also next to another. -/
def numberedCodePoint (n : Nat) : Except Trouble CodePoint :=
  if 0x80000000 ≤ n then .error (.fault .excessiveNumber)
  else if 0x110000 ≤ n then .error (.fault .impossibleCharacter)
  else .ok (.ofNat n)

def quotedBreaks : List Char → Cursor → Except Trouble (List Char × Cursor)
  | [], c => .ok ([], c)
  | _ :: fuel, c =>
    if atDocumentMark c.rest then .error (.malformed .documentMarkInScalar)
    else
      let c := c.skipWhile isSpaceOrTab
      match c.takeBreak? with
      | none => .ok ([], c)
      | some (b, c) => do
        let (more, c) ← quotedBreaks fuel c
        return (b :: more, c)

def scanEscape (c : Cursor) : Except Trouble (Text × Cursor) :=
  match c.rest with
  | [] => .error (.malformed .malformedEscape)
  | e :: rest =>
    match escapedChar? e, escapeWidth? e with
    | some ch, _ => .ok ([.char ch], c.next)
    | none, some width =>
      match hexNumber? width rest with
      | none => .error (.malformed .malformedEscape)
      | some n => return ([← numberedCodePoint n], c.skip (width + 1))
    | none, none =>
      match c.takeBreak? with
      | some (_, c) => do
        let (breaks, c) ← quotedBreaks c.rest c
        return (.ofChars breaks, c)
      | none => .error (.malformed .malformedEscape)

/-- What a run of blanks in a quoted scalar reads as: itself within a line, folded around a line
break. -/
def quotedGap (c : Cursor) : Except Trouble (List Char × Cursor) :=
  let blanks := c.rest.takeWhile isSpaceOrTab
  let c := c.skip blanks.length
  match c.takeBreak? with
  | none => .ok (blanks, c)
  | some (first, c) => do
    let (more, c) ← quotedBreaks c.rest c
    return (foldBreaks first more, c)

def quotedFrom (double : Bool) : List Char → Cursor → Except Trouble (Text × Cursor)
  | [], _ => .error (.malformed .unterminatedScalar)
  | _ :: fuel, c =>
    let continueWith (part : Text) (c : Cursor) : Except Trouble (Text × Cursor) := do
      let (text, c) ← quotedFrom double fuel c
      return (part ++ text, c)
    match c.rest with
    | [] => .error (.malformed .unterminatedScalar)
    | ch :: rest =>
      if isSpaceOrTab ch || isBreak ch then do
        let (gap, c) ← quotedGap c
        continueWith (.ofChars gap) c
      else if double then
        if ch = '"' then .ok ([], c.next)
        else if ch = '\\' then do
          let (part, c) ← scanEscape c.next
          continueWith part c
        else continueWith [.char ch] c.next
      else if ch = '\'' then
        if rest.head? = some '\'' then continueWith [.char '\''] (c.skip 2) else .ok ([], c.next)
      else continueWith [.char ch] c.next

def scanQuoted (double : Bool) (c : Cursor) : Except Trouble (Text × Cursor) :=
  quotedFrom double c.rest c.next

/-! ### Block scalars -/

/-- What becomes of the line breaks at the end of a block scalar. -/
inductive Chomping where
  | strip
  | clip
  | keep
deriving DecidableEq, Repr

def chomping? (c : Char) : Option Chomping :=
  if c = '+' then some .keep else if c = '-' then some .strip else none

def increment? (c : Char) : Option Nat :=
  if Numeral.isDigit c then some (c.toNat - '0'.toNat) else none

def blockIndicators (c : Cursor) : Option (Chomping × Option Nat × Cursor) :=
  let checked (n : Nat) (result : Chomping × Option Nat × Cursor) :
      Option (Chomping × Option Nat × Cursor) := if n = 0 then none else some result
  match c.rest with
  | a :: rest =>
    match chomping? a, increment? a with
    | some ch, _ =>
      match rest.head?.bind increment? with
      | some n => checked n (ch, some n, c.skip 2)
      | none => some (ch, none, c.next)
    | none, some n =>
      match rest.head?.bind chomping? with
      | some ch => checked n (ch, some n, c.skip 2)
      | none => checked n (.clip, some n, c.next)
    | none, none => some (.clip, none, c)
  | [] => some (.clip, none, c)

def leadingBlankLines : List Char → Cursor → Nat → List Char × Nat × Cursor
  | [], c, deepest => ([], deepest, c)
  | _ :: fuel, c, deepest =>
    match c.takeBreak? with
    | some (b, c) =>
      let (more, deepest, c) := leadingBlankLines fuel c deepest
      (b :: more, deepest, c)
    | none =>
      if c.rest.head? = some ' ' then leadingBlankLines fuel c.next (max deepest c.next.column)
      else ([], deepest, c)

def skipIndent (indent : Nat) (c : Cursor) : Cursor :=
  c.skip (min (indent - c.column) (c.rest.takeWhile (· = ' ')).length)

def blankLines (indent : Nat) : List Char → Cursor → List Char × Cursor
  | [], c => ([], c)
  | _ :: fuel, c =>
    let c := skipIndent indent c
    match c.takeBreak? with
    | some (b, c) =>
      let (more, c) := blankLines indent fuel c
      (b :: more, c)
    | none => ([], c)

/-- The lines of a block scalar from the cursor on. `breaks` are the blank lines in front. -/
def blockLines (folded : Bool) (chomping : Chomping) (indent : Nat) :
    List Char → Cursor → List Char → List Char × Cursor
  | [], c, _ => ([], c)
  | _ :: fuel, c, breaks =>
    let startsBlank := c.rest.head?.any isSpaceOrTab
    let line := c.rest.takeWhile (!isBreak ·)
    let c := c.skip line.length
    let (lineBreak, c) := match c.takeBreak? with
      | some (b, c) => ([b], c)
      | none => ([], c)
    let (more, c) := blankLines indent c.rest c
    if c.column = indent ∧ !c.rest.isEmpty then
      let folds := folded && lineBreak = ['\n'] && !startsBlank && !c.rest.head?.any isSpaceOrTab
      let joint := if folds then (if more.isEmpty then [' '] else []) else lineBreak
      let (text, c) := blockLines folded chomping indent fuel c more
      (breaks ++ line ++ joint ++ text, c)
    else
      let tail := match chomping with
        | .strip => []
        | .clip => lineBreak
        | .keep => lineBreak ++ more
      (breaks ++ line ++ tail, c)

/-- A block scalar; the cursor is at its indicator and `parentIndent` is the indentation of the
collection around it. -/
def scanBlock (folded : Bool) (parentIndent : Int) (c : Cursor) :
    Except Trouble (List Char × Cursor) :=
  match blockIndicators c.next with
  | none => .error (.malformed .malformedBlockHeader)
  | some (chomping, increment, c) =>
    if !atSpace c.rest then .error (.malformed .malformedBlockHeader)
    else
      match c.skipRestOfLine? with
      | none => .error (.malformed .malformedBlockHeader)
      | some c =>
        let least := (max (parentIndent + 1) 1).toNat
        let (breaks, indent, c) := match increment with
          | none =>
            let (breaks, deepest, c) := leadingBlankLines c.rest c 0
            (breaks, max least deepest, c)
          | some n =>
            let indent := least + n - 1
            let (breaks, c) := blankLines indent c.rest c
            (breaks, indent, c)
        if c.column = indent ∧ !c.rest.isEmpty then
          .ok (blockLines folded chomping indent c.rest c breaks)
        else .ok (if chomping = .keep then breaks else [], c)

end ClusterRegistrar.Yaml
