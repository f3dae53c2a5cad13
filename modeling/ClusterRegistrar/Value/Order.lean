import ClusterRegistrar.Value.Basic

/-! Equality of whole values, and the order of values that have one: numbers by value, text by code
point, lists element by element. Values of other kinds have no order among each other. -/
namespace ClusterRegistrar

/-- Whether `m * 2 ^ p` is below `n * 2 ^ q`. -/
def Binary64.scaledBelow (m p n q : Int) : Bool :=
  let shift := min p q
  m * Int.pow 2 (p - shift).toNat < n * Int.pow 2 (q - shift).toNat

namespace Value

mutual

/-- Equality of values of any kind: lists by their elements, mappings by the value of each key, a
cell of a graph only with itself. -/
def same : Value → Value → Bool
  | .atom a, .atom b => a.same b
  | .list items, .list others => sameItems items others
  | .map entries, .map others => entries.length = others.length && sameEntries entries others
  | .pair a b, .pair c d => same a c && same b d
  | .node g i, .node h j => g.document = h.document && i = j
  | _, _ => false

def sameItems : List Value → List Value → Bool
  | [], [] => true
  | a :: rest, b :: others => same a b && sameItems rest others
  | _, _ => false

def sameEntries : List (Atom × Value) → List (Atom × Value) → Bool
  | [], _ => true
  | (key, value) :: rest, others =>
    (match Keyed.get? others key with
     | some other => same value other
     | none => false) && sameEntries rest others

end

inductive Magnitude where
  | below
  | finite (m q : Int)
  | above

def Magnitude.less : Magnitude → Magnitude → Bool
  | .below, .below => false
  | .below, _ => true
  | .finite m p, .finite n q => Binary64.scaledBelow m p n q
  | .finite .., .above => true
  | _, _ => false

/-- The size of a number; nothing for NaN. -/
def magnitude? (a : Atom) : Option Magnitude :=
  match a.asInt?, a with
  | some i, _ => some (.finite i 0)
  | none, .float x _ =>
    match x.form with
    | .infinity negative => some (if negative then .below else .above)
    | .finite negative m q => some (.finite (if negative then -(m : Int) else m) q)
    | .nan => none
  | _, _ => none

def isNumber (a : Atom) : Bool :=
  match a with
  | .bool _ | .int _ | .float .. => true
  | _ => false

def numberBelow (a b : Atom) : Bool :=
  match magnitude? a, magnitude? b with
  | some m, some n => m.less n
  | _, _ => false

def atomBefore : Atom → Atom → Except Fault Bool
  | .str s, .str t => .ok (s.before t)
  | a, b => if isNumber a && isNumber b then .ok (numberBelow a b) else .error .incomparable

mutual

def before : Value → Value → Except Fault Bool
  | .atom a, .atom b => atomBefore a b
  | .list items, .list others => itemsBefore items others
  | _, _ => .error .incomparable

/-- The first elements that differ decide, and the shorter list comes first. -/
def itemsBefore : List Value → List Value → Except Fault Bool
  | [], others => .ok !others.isEmpty
  | _ :: _, [] => .ok false
  | a :: rest, b :: others => if same a b then itemsBefore rest others else before a b

end

end Value
end ClusterRegistrar
