import ClusterRegistrar.Fault
import ClusterRegistrar.Text.Basic

/-! Paths of files: names between slashes. Empty names and `.` lead nowhere and can be left out. A
half pair from `U+DC80` to `U+DCFF` stands for a byte that is no UTF-8. -/
namespace ClusterRegistrar.CommandLine.Path

def slash : CodePoint := '/'

def here : Text := "."

def above : Text := ".."

def names (path : Text) : List Text := (path.split slash).filter fun name => name ≠ []

def plainNames (path : Text) : List Text := (names path).filter (· ≠ here)

/-- The root that a path starts from: two slashes are a root of their own, more than two count as
one. -/
def root (path : Text) : Text :=
  match path.takeWhile (· = slash) with
  | [] => []
  | [a, b] => [a, b]
  | a :: _ => [a]

def isAbsolute (path : Text) : Bool := path.head? = some slash

def normal (path : Text) : Text :=
  let text := root path ++ Text.separated [slash] (plainNames path)
  if text.isEmpty then here else text

def endsInSlash (path : Text) : Bool := path.getLast? = some slash

def bytesOf? : CodePoint → Option Nat
  | .char c => some c.utf8Size
  | .surrogate n => if 0x480 ≤ n.val ∧ n.val < 0x500 then some 1 else none

def size (name : Text) : Nat := name.foldl (fun n p => n + (bytesOf? p).getD 0) 0

def maxSize : Nat := 4095

def maxNameSize : Nat := 255

def check (path : Text) : Except Fault Unit :=
  if path.any fun p => (bytesOf? p).isNone then .error .notEncodable
  else if path.contains (.char '\x00') then .error .nulInPath
  else if maxSize < size path then .error .longPath
  else .ok ()

end ClusterRegistrar.CommandLine.Path
