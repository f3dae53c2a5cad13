import ClusterRegistrar.Yaml.Character

/-! A place in a text: what remains, and how many characters, lines and columns lie before it. A
byte order mark takes no column, and `\r\n` is one line end. -/
namespace ClusterRegistrar.Yaml

structure Cursor where
  rest : List Char
  index : Nat
  line : Nat
  column : Nat

namespace Cursor

def start (text : List Char) : Cursor := ⟨text, 0, 0, 0⟩

def next (c : Cursor) : Cursor :=
  match c.rest with
  | [] => c
  | ch :: rest =>
    if isBreak ch && !(ch = '\r' && rest.head? = some '\n') then ⟨rest, c.index + 1, c.line + 1, 0⟩
    else if ch = '\ufeff' then ⟨rest, c.index + 1, c.line, c.column⟩
    else ⟨rest, c.index + 1, c.line, c.column + 1⟩

def skip : Nat → Cursor → Cursor
  | 0, c => c
  | n + 1, c => skip n c.next

def skipWhile (test : Char → Bool) (c : Cursor) : Cursor := c.skip (c.rest.takeWhile test).length

def skipSpaces (c : Cursor) : Cursor := c.skipWhile (· = ' ')

def skipComment (c : Cursor) : Cursor :=
  if c.rest.head? = some '#' then c.skipWhile (!isBreak ·) else c

/-- Past one line end, with the character that it stands for: a line feed, or the separator itself
for the two separators of Unicode. -/
def takeBreak? (c : Cursor) : Option (Char × Cursor) :=
  match c.rest with
  | '\r' :: '\n' :: _ => some ('\n', c.skip 2)
  | ch :: _ =>
    if ch = '\u2028' ∨ ch = '\u2029' then some (ch, c.next)
    else if isBreak ch then some ('\n', c.next)
    else none
  | [] => none

/-- Past spaces, a comment and the line end, where nothing else may stand. -/
def skipRestOfLine? (c : Cursor) : Option Cursor :=
  let c := c.skipSpaces.skipComment
  if atLineEnd c.rest then
    match c.takeBreak? with
    | some (_, c) => some c
    | none => some c
  else none

end Cursor
end ClusterRegistrar.Yaml
