import ClusterRegistrar.Yaml.Character
import ClusterRegistrar.Yaml.Tag

/-! How a text is written as a scalar: plain if a reader would take it for text and find its ends,
else in single quotes if these keep every character, else in double quotes with escapes. -/
namespace ClusterRegistrar.Yaml

inductive Style where
  | plain
  | single
  | double
deriving DecidableEq, Repr

namespace Style

def isOrdinary (c : Char) : Bool := c = '\n' || (' ' ≤ c && c ≤ '~')

def isLineEnd (c : Char) : Bool := c = '\n' || c = '\x85' || c = '\u2028' || c = '\u2029'

def isSeparator (c : Char) : Bool :=
  c = ' ' || c = '\t' || c = '\r' || c = '\x00' || isLineEnd c

def separated (rest : List Char) : Bool :=
  match rest with
  | [] => true
  | c :: _ => isSeparator c

def indicators : List Char :=
  ['#', ',', '[', ']', '{', '}', '&', '*', '!', '|', '>', '\'', '"', '%', '@', '\x60']

def startsAsIndicator (cs : List Char) : Bool :=
  ['-', '-', '-'].isPrefixOf cs || ['.', '.', '.'].isPrefixOf cs ||
    match cs with
    | [] => false
    | c :: rest => indicators.contains c || ((c = '?' || c = ':' || c = '-') && separated rest)

/-- Whether a colon before a separator, or a number sign behind one, ends a plain scalar early. -/
def endsEarly : List Char → Bool
  | [] => false
  | ':' :: rest => separated rest || endsEarly rest
  | c :: rest => (isSeparator c && rest.head? = some '#') || endsEarly rest

def isMultiline (cs : List Char) : Bool := cs.any isLineEnd

def isSpaceOrBreak (c : Char) : Bool := c = ' ' || c = '\n'

def mixesSpaceAndBreak : List Char → Bool
  | a :: b :: rest =>
    (a = ' ' && b = '\n') || (a = '\n' && b = ' ') || mixesSpaceAndBreak (b :: rest)
  | _ => false

def hasLooseEnd (cs : List Char) : Bool :=
  cs.head?.any isSpaceOrBreak || cs.getLast?.any isSpaceOrBreak

/-- Whether a reader finds where the plain text ends. -/
def canBePlain (cs : List Char) : Bool :=
  cs.all isOrdinary && !isMultiline cs && !hasLooseEnd cs && !startsAsIndicator cs && !endsEarly cs

def canBeSingle (cs : List Char) : Bool := cs.all isOrdinary && !mixesSpaceAndBreak cs

/-- The style of a text that is no key, and of a key on one line. Half pairs need escapes. -/
def ofText (text : Text) : Style :=
  match text.chars? with
  | none => .double
  | some cs =>
    if Tag.ofChars cs = .str && canBePlain cs then .plain
    else if canBeSingle cs then .single
    else .double

end Style
end ClusterRegistrar.Yaml
