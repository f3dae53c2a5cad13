/-! Character classes of YAML 1.1. The end of the text counts as white space wherever a token may
end, so most tests look at the head of the remaining text. -/
namespace ClusterRegistrar.Yaml

def isBreak (c : Char) : Bool :=
  c = '\n' || c = '\r' || c = '\x85' || c = '\u2028' || c = '\u2029'

def isSpaceOrTab (c : Char) : Bool := c = ' ' || c = '\t'

def isPrintable (c : Char) : Bool :=
  let n := c.toNat
  n = 0x9 || n = 0xa || n = 0xd || (0x20 ≤ n && n ≤ 0x7e) || n = 0x85 ||
    (0xa0 ≤ n && n ≤ 0xd7ff) || (0xe000 ≤ n && n ≤ 0xfffd) || 0x10000 ≤ n

def isNameChar (c : Char) : Bool :=
  ('0' ≤ c && c ≤ '9') || ('A' ≤ c && c ≤ 'Z') || ('a' ≤ c && c ≤ 'z') || c = '-' || c = '_'

def isTagChar (c : Char) : Bool :=
  ('0' ≤ c && c ≤ '9') || ('A' ≤ c && c ≤ 'Z') || ('a' ≤ c && c ≤ 'z') ||
    "-;/?:@&=+$,_.!~*'()[]%".toList.contains c

def headOrEnd (test : Char → Bool) : List Char → Bool
  | [] => true
  | c :: _ => test c

def atLineEnd (cs : List Char) : Bool := headOrEnd isBreak cs

def atSpace (cs : List Char) : Bool := headOrEnd (fun c => c = ' ' || isBreak c) cs

def atBlank (cs : List Char) : Bool := headOrEnd (fun c => isSpaceOrTab c || isBreak c) cs

/-- Three times a character and a blank: the mark that starts or ends a document. -/
def atMark (mark : Char) : List Char → Bool
  | a :: b :: c :: rest => a = mark && b = mark && c = mark && atBlank rest
  | _ => false

def atDocumentMark (cs : List Char) : Bool := atMark '-' cs || atMark '.' cs

end ClusterRegistrar.Yaml
