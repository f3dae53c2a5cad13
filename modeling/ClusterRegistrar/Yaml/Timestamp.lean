import ClusterRegistrar.Text.Numeral
import ClusterRegistrar.Time
import ClusterRegistrar.Yaml.Character
import ClusterRegistrar.Yaml.Error

/-! Timestamps of YAML 1.1: a date, or a date and a time with an optional fraction and an optional
offset from UTC. -/
namespace ClusterRegistrar.Yaml

structure Timestamp where
  date : Date
  clock : Option (Nat × Nat × Nat × List Char)
  offset : Option Int
  twoDigits : Bool

namespace Timestamp

def digits? (least most : Nat) (cs : List Char) : Option (Nat × Nat × List Char) :=
  let run := (cs.take most).takeWhile Numeral.isDigit
  if run.length < least then none
  else (Numeral.ofDigits? 10 run).map (·, run.length, cs.drop run.length)

def after? (c : Char) (cs : List Char) : Option (List Char) :=
  match cs with
  | d :: rest => if c = d then some rest else none
  | [] => none

def afterSeparator? (cs : List Char) : Option (List Char) :=
  match cs with
  | 'T' :: rest | 't' :: rest => some rest
  | _ =>
    let blanks := cs.takeWhile isSpaceOrTab
    if blanks.isEmpty then none else some (cs.drop blanks.length)

/-- The offset at the end of a timestamp: nothing, `Z`, or hours and minutes. -/
def offset? (cs : List Char) : Option (Option Int) :=
  match cs with
  | [] => some none
  | _ =>
    match cs.dropWhile isSpaceOrTab with
    | ['Z'] => some (some 0)
    | sign :: rest =>
      if sign = '+' ∨ sign = '-' then do
        let (hours, _, rest) ← digits? 1 2 rest
        let minutes ← match rest with
          | [] => some 0
          | _ => do
            let (minutes, _, rest) ← digits? 2 2 (← after? ':' rest)
            if rest.isEmpty then some minutes else none
        let seconds : Int := ((hours * 60 + minutes) * 60 : Nat)
        return some (if sign = '-' then -seconds else seconds)
      else none
    | [] => none

def read? (cs : List Char) : Option Timestamp := do
  let (year, _, rest) ← digits? 4 4 cs
  let (month, monthDigits, rest) ← digits? 1 2 (← after? '-' rest)
  let (day, dayDigits, rest) ← digits? 1 2 (← after? '-' rest)
  let date : Date := ⟨year, month, day⟩
  let twoDigits := monthDigits = 2 && dayDigits = 2
  match rest with
  | [] => return ⟨date, none, none, twoDigits⟩
  | _ =>
    let (hour, _, rest) ← digits? 1 2 (← afterSeparator? rest)
    let (minute, _, rest) ← digits? 2 2 (← after? ':' rest)
    let (second, _, rest) ← digits? 2 2 (← after? ':' rest)
    let (fraction, rest) := match rest with
      | '.' :: rest => rest.span Numeral.isDigit
      | _ => ([], rest)
    let offset ← offset? rest
    return ⟨date, some (hour, minute, second, fraction), offset, twoDigits⟩

def microseconds (fraction : List Char) : Nat :=
  let digits := fraction.take 6
  (Numeral.ofDigits? 10 (digits ++ List.replicate (6 - digits.length) '0')).getD 0

def resolve (t : Timestamp) : Except Fault (Date ⊕ DateTime) :=
  match t.clock with
  | none => if t.date.valid then .ok (.inl t.date) else .error .impossibleDate
  | some (hour, minute, second, fraction) =>
    let time : DateTime := ⟨t.date, hour, minute, second, microseconds fraction, t.offset⟩
    if time.valid then .ok (.inr time) else .error .impossibleDate

end Timestamp
end ClusterRegistrar.Yaml
