import ClusterRegistrar.Text.Numeral
import ClusterRegistrar.Yaml.Writer.Style

/-! The text of scalars. A line that has grown beyond `width` is folded at the next place where the
style allows it: at a single space in plain and single-quoted text, and behind a backslash in
double-quoted text. `column` is where the text goes on, `indent` where a folded line starts. -/
namespace ClusterRegistrar.Yaml.Scalar

def width : Nat := 80

structure Place where
  fold : Bool
  indent : Nat

def Place.freshLine (p : Place) : List Char := '\n' :: List.replicate p.indent ' '

def runKind (c : Char) : Nat := if c = ' ' then 0 else if c = '\n' then 1 else 2

def runs (cs : List Char) : List (List Char) := cs.splitBy fun a b => runKind a = runKind b

/-- Runs of plain text; a space on its own can become a line end. -/
def plainRuns (p : Place) (column : Nat) : List (List Char) → List Char
  | [] => []
  | run :: rest =>
    if p.fold && run = [' '] && width < column then p.freshLine ++ plainRuns p p.indent rest
    else run ++ plainRuns p (column + run.length) rest

def plain (p : Place) (column : Nat) (cs : List Char) : List Char := plainRuns p column (runs cs)

def doubleQuotes (run : List Char) : List Char :=
  run.flatMap fun c => if c = '\'' then ['\'', '\''] else [c]

/-- Runs of single-quoted text. A space becomes a line end only within the text; line feeds get
one more in front, and the text goes on in a fresh line. -/
def singleRuns (p : Place) (first : Bool) (column : Nat) : List (List Char) → List Char
  | [] => []
  | run :: rest =>
    if p.fold && run = [' '] && width < column && !first && !rest.isEmpty then
      p.freshLine ++ singleRuns p false p.indent rest
    else if run.head? = some '\n' then
      '\n' :: run ++ List.replicate p.indent ' ' ++ singleRuns p false p.indent rest
    else
      let written := doubleQuotes run
      written ++ singleRuns p false (column + written.length) rest

def single (p : Place) (column : Nat) (cs : List Char) : List Char :=
  '\'' :: singleRuns p true (column + 1) (runs cs) ++ ['\'']

def namedEscapes : List (Char × Char) := [
  ('\x00', '0'), ('\x07', 'a'), ('\x08', 'b'), ('\t', 't'), ('\n', 'n'), ('\x0b', 'v'),
  ('\x0c', 'f'), ('\r', 'r'), ('\x1b', 'e'), ('"', '"'), ('\\', '\\'), ('\x85', 'N'),
  ('\u00a0', '_'), ('\u2028', 'L'), ('\u2029', 'P')]

/-- The escape of a code point, if it needs one: a letter, or the number in two, four or eight
digits. -/
def escape? (p : CodePoint) : Option (List Char) :=
  match namedEscapes.find? fun (c, _) => p = .char c with
  | some (_, letter) => some ['\\', letter]
  | none =>
    if 0x20 ≤ p.number ∧ p.number ≤ 0x7e then none
    else if p.number ≤ 0xff then some ('\\' :: 'x' :: Numeral.hexUpper 2 p.number)
    else if p.number ≤ 0xffff then some ('\\' :: 'u' :: Numeral.hexUpper 4 p.number)
    else some ('\\' :: 'U' :: Numeral.hexUpper 8 p.number)

def isSpace (p : CodePoint) : Bool := p = .char ' '

/-- A folded line in double quotes: a backslash at its end, and one in front of a space that the
next line starts with. -/
def foldDouble (place : Place) (beforeSpace : Bool) : List Char :=
  '\\' :: place.freshLine ++ (if beforeSpace then ['\\'] else [])

def foldColumn (place : Place) (beforeSpace : Bool) : Nat :=
  if beforeSpace then place.indent + 1 else place.indent

/-- The inner text of double quotes. A line is folded in front of a space, and before or behind an
escape, but neither before the first nor behind the last code point but one. -/
def doubleInner (place : Place) (first afterEscape : Bool) (column : Nat) : Text → List Char
  | [] => []
  | p :: rest =>
    let inside := place.fold && !first && !rest.isEmpty
    match escape? p with
    | some e =>
      if inside && width < column + e.length - 1 then
        let beforeSpace := rest.head?.any isSpace
        e ++ foldDouble place beforeSpace ++
          doubleInner place false true (foldColumn place beforeSpace) rest
      else e ++ doubleInner place false true (column + e.length) rest
    | none =>
      let written := Text.toChars [p]
      if inside && (isSpace p || afterEscape) && width < column then
        foldDouble place (isSpace p) ++
          written ++ doubleInner place false false (foldColumn place (isSpace p) + 1) rest
      else written ++ doubleInner place false false (column + 1) rest

def double (p : Place) (column : Nat) (text : Text) : List Char :=
  '"' :: doubleInner p true false (column + 1) text ++ ['"']

def ofText (p : Place) (column : Nat) (text : Text) : List Char :=
  match Style.ofText text with
  | .plain => plain p column text.toChars
  | .single => single p column text.toChars
  | .double => double p column text

end ClusterRegistrar.Yaml.Scalar
