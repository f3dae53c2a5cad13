import ClusterRegistrar.Text.Basic
import ClusterRegistrar.Text.Printable

/-! Quoted text for messages. Text stands in single quotes unless it holds a single and no double
quote; the quote, backslash and the common controls are escaped by name, other unprintable
characters and half pairs by their number in two, four or eight hexadecimal digits. -/
namespace ClusterRegistrar.Quoted

def quoteFor (t : Text) : Char :=
  if t.contains (.char '\'') && !t.contains (.char '"') then '"' else '\''

def numbered (n : Nat) : List Char :=
  if n < 0x100 then '\\' :: 'x' :: Numeral.hexLower 2 n
  else if n < 0x10000 then '\\' :: 'u' :: Numeral.hexLower 4 n
  else '\\' :: 'U' :: Numeral.hexLower 8 n

def escapeChar (quote c : Char) : List Char :=
  if c = quote ∨ c = '\\' then ['\\', c]
  else if c = '\n' then ['\\', 'n']
  else if c = '\r' then ['\\', 'r']
  else if c = '\t' then ['\\', 't']
  else if Printable.isPrintable c then [c]
  else numbered c.toNat

def escape (quote : Char) : CodePoint → List Char
  | .char c => escapeChar quote c
  | p => numbered p.number

def ofText (t : Text) : List Char :=
  let quote := quoteFor t
  quote :: (t.flatMap (escape quote) ++ [quote])

def escapeByte (quote : Char) (b : UInt8) : List Char :=
  if b < 0x7f then escapeChar quote (Char.ofNat b.toNat) else numbered b.toNat

def ofBytes (bytes : ByteArray) : List Char :=
  let quote := quoteFor (bytes.data.toList.map fun b => .char (Char.ofNat b.toNat))
  'b' :: quote :: (bytes.data.toList.flatMap (escapeByte quote) ++ [quote])

end ClusterRegistrar.Quoted
