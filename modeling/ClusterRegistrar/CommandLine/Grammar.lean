import ClusterRegistrar.Text.Affix
import ClusterRegistrar.Text.Blank
import ClusterRegistrar.Text.Quoted

/-! Command lines: options with or without a value, and one operand. A long option may be shortened
as long as one option alone fits; a value stands behind `=` or in the next argument, behind a short
option also without `=`, and short options without a value can share an argument. What is behind
`--` is no option. -/
namespace ClusterRegistrar.CommandLine

structure OptionForm where
  names : List String
  takesValue : Bool := true
  choices : Option (List String) := none
  /-- Whether nothing behind the option counts. -/
  ends : Bool := false
deriving DecidableEq, Repr

structure OperandForm where
  name : String
  takesRest : Bool := false
  choices : Option (List String) := none
deriving DecidableEq, Repr

structure Grammar where
  program : String
  options : List OptionForm
  operand : OperandForm
deriving Repr

inductive Misuse where
  | ambiguous (argument : Text) (fits : List String)
  | missingValue (option : String)
  | surplusValue (option : String) (value : Text)
  | invalidChoice (argument : String) (value : Text) (choices : List String)
  | missingOperand (name : String)
  | unrecognized (arguments : List Text)
deriving DecidableEq, Repr

def Misuse.message : Misuse → Text
  | ambiguous argument fits =>
    "ambiguous option: " ++ argument ++ " could match " ++ ", ".intercalate fits
  | missingValue option => s!"argument {option}: expected one argument"
  | surplusValue option value =>
    s!"argument {option}: ignored explicit argument " ++ Text.ofChars (Quoted.ofText value)
  | invalidChoice argument value choices =>
    s!"argument {argument}: invalid choice: " ++ Text.ofChars (Quoted.ofText value) ++
      " (choose from " ++ Text.separated ", " (choices.map fun (choice : String) =>
        Text.ofChars (Quoted.ofText choice)) ++ ")"
  | missingOperand name => s!"the following arguments are required: {name}"
  | unrecognized arguments => "unrecognized arguments: " ++ Text.separated " " arguments

def OptionForm.title (o : OptionForm) : String := "/".intercalate o.names

structure NamedOption where
  name : String
  form : OptionForm
deriving DecidableEq, Repr

namespace Grammar

def named (g : Grammar) : List NamedOption :=
  g.options.flatMap fun o => o.names.map (⟨·, o⟩)

def named? (g : Grammar) (name : Text) : Option NamedOption :=
  g.named.find? fun o => name = o.name

end Grammar

def hyphen : CodePoint := '-'

def endOfOptions : Text := "--"

def splitAtEquals (t : Text) : Text × Option Text :=
  match t.dropWhile (· ≠ .char '=') with
  | _ :: value => (t.takeWhile (· ≠ .char '='), some value)
  | [] => (t, none)

/-- An argument that names an option, unless it is unknown, and the text that is joined to it. -/
structure Mention where
  argument : Text
  option : Option NamedOption
  joined : Option Text
deriving Repr

def isAnyDigit : CodePoint → Bool
  | .char c => Numeral.isDigit (Blank.latinDigit c)
  | .surrogate _ => false

def isNegativeNumber (argument : Text) : Bool :=
  match (Affix.removeEnd "\n" argument) with
  | [] => false
  | sign :: rest =>
    let behind := rest.dropWhile isAnyDigit
    sign = hyphen && ((!rest.isEmpty && behind.isEmpty) ||
      match behind with
      | point :: decimals =>
        point = .char '.' && !decimals.isEmpty && decimals.all isAnyDigit
      | [] => false)

/-- The options that a shortened or joined argument fits, with the text that is joined to it. -/
def fits (g : Grammar) (argument : Text) : List (NamedOption × Option Text) :=
  if Affix.startsWith endOfOptions argument then
    let (start, joined) := splitAtEquals argument
    (g.named.filter fun o => Affix.startsWith start o.name).map (·, joined)
  else
    g.named.filterMap fun o =>
      if argument.take 2 = o.name then some (o, some (argument.drop 2))
      else if Affix.startsWith argument o.name then some (o, none)
      else none

def mention? (g : Grammar) (argument : Text) : Except Misuse (Option Mention) :=
  if argument.head? ≠ some hyphen ∨ argument = [hyphen] then .ok none
  else
    match g.named? argument with
    | some o => .ok (some ⟨argument, some o, none⟩)
    | none =>
      let (start, value?) := splitAtEquals argument
      match value?, g.named? start with
      | some value, some o => .ok (some ⟨argument, some o, some value⟩)
      | _, _ =>
        match fits g argument with
        | [(o, joined)] => .ok (some ⟨argument, some o, joined⟩)
        | [] =>
          if isNegativeNumber argument || argument.contains (.char ' ') then .ok none
          else .ok (some ⟨argument, none, none⟩)
        | several => .error (.ambiguous argument (several.map (·.1.name)))

inductive Part where
  | option (mention : Mention)
  | argument (text : Text)
  | separator
deriving Repr

def Part.text : Part → Text
  | option m => m.argument
  | argument text => text
  | separator => endOfOptions

def parts (g : Grammar) : List Text → Except Misuse (List Part)
  | [] => .ok []
  | argument :: rest =>
    if argument = endOfOptions then .ok (.separator :: rest.map .argument)
    else do
      let part := match ← mention? g argument with
        | some m => Part.option m
        | none => Part.argument argument
      return part :: (← parts g rest)

/-- The options that share an argument: some without a value, and a last one with the text that is
joined to it. -/
structure Cluster where
  flags : List NamedOption := []
  last : NamedOption
  joined : Option Text

/-- Takes joined text apart: behind a short option without a value, it goes on with another short
option. -/
def Cluster.ofJoined (g : Grammar) (o : NamedOption) : Text → Except Misuse Cluster
  | [] =>
    if o.form.takesValue then .ok ⟨[], o, some []⟩ else .error (.surplusValue o.form.title [])
  | letter :: rest =>
    if o.form.takesValue then .ok ⟨[], o, some (letter :: rest)⟩
    else if Affix.startsWith endOfOptions o.name then
      .error (.surplusValue o.form.title (letter :: rest))
    else
      match g.named? [hyphen, letter], rest with
      | none, _ => .error (.surplusValue o.form.title (letter :: rest))
      | some next, [] => .ok ⟨[o], next, none⟩
      | some next, rest => do
        let behind ← ofJoined g next rest
        return { behind with flags := o :: behind.flags }

def Cluster.ofMention (g : Grammar) (o : NamedOption) : Option Text → Except Misuse Cluster
  | none => .ok ⟨[], o, none⟩
  | some text => ofJoined g o text

/-- What a command line says: the options in order with their values, the operand, and what fits
nowhere. The value of an option is missing if it has none, and also if it is the mark `--`. -/
structure Reading where
  given : List (NamedOption × Option Text) := []
  operand : Option (List Text) := none
  extras : List Text := []
  ended : Bool := false

def checkChoice (title : String) (choices : Option (List String)) (value : Text) :
    Except Misuse Unit :=
  match choices with
  | some accepted =>
    if accepted.any fun (choice : String) => value = choice then .ok ()
    else .error (.invalidChoice title value accepted)
  | none => .ok ()

def Reading.give (r : Reading) (o : NamedOption) (value : Option Text) : Reading :=
  { r with given := (o, value) :: r.given }

def Reading.addExtra (r : Reading) (text : Text) : Reading :=
  { r with extras := text :: r.extras }

def Cluster.read (b : Cluster) (value : Option Text) (behind : Except Misuse Reading) :
    Except Misuse Reading :=
  if (b.flags ++ [b.last]).any (·.form.ends) then .ok { ended := true }
  else do
    let accepted := value.filter (· ≠ endOfOptions)
    accepted.forM (checkChoice b.last.form.title b.last.form.choices)
    return b.flags.foldr (fun o r => r.give o none) ((← behind).give b.last accepted)

def readParts (g : Grammar) (operand : Option (List Text)) : List Part → Except Misuse Reading
  | [] => .ok { operand }
  | .option m :: rest =>
    match m.option with
    | none => do return (← readParts g operand rest).addExtra m.argument
    | some o => do
      let cluster ← Cluster.ofMention g o m.joined
      if cluster.joined.isNone && cluster.last.form.takesValue then
        match rest with
        | .argument value :: rest => cluster.read (some value) (readParts g operand rest)
        | _ => .error (.missingValue cluster.last.form.title)
      else cluster.read cluster.joined (readParts g operand rest)
  | .separator :: .argument text :: rest =>
    if operand.isSome then do
      return ((← readParts g operand rest).addExtra text).addExtra endOfOptions
    else if g.operand.takesRest then do
      checkChoice g.operand.name g.operand.choices endOfOptions
      return { operand := some (endOfOptions :: text :: rest.map Part.text) }
    else do
      checkChoice g.operand.name g.operand.choices text
      readParts g (some [text]) rest
  | .separator :: rest => do return (← readParts g operand rest).addExtra endOfOptions
  | .argument text :: .separator :: rest =>
    if operand.isSome then do
      return ((← readParts g operand rest).addExtra endOfOptions).addExtra text
    else do
      checkChoice g.operand.name g.operand.choices text
      if g.operand.takesRest then
        return { operand := some (text :: endOfOptions :: rest.map Part.text) }
      else readParts g (some [text]) rest
  | .argument text :: rest =>
    if operand.isSome then do return (← readParts g operand rest).addExtra text
    else do
      checkChoice g.operand.name g.operand.choices text
      if g.operand.takesRest then return { operand := some (text :: rest.map Part.text) }
      else readParts g (some [text]) rest

def Grammar.read (g : Grammar) (arguments : List Text) : Except Misuse Reading := do
  let reading ← readParts g none (← parts g arguments)
  if reading.operand.isNone && !reading.ended then .error (.missingOperand g.operand.name)
  else return reading

end ClusterRegistrar.CommandLine
