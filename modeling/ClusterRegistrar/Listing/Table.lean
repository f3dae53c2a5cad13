import ClusterRegistrar.Value.Basic

/-! Tables of text. A column is as wide as its widest cell, in characters, and padded with spaces;
a row has as many cells as the header. -/
namespace ClusterRegistrar.Table

def gap : Nat := 4

def layerLength : Layer α → Nat
  | .list items => items.length
  | .pair .. => 2
  | .set members => members.length
  | .map entries => entries.length

def lengthOf (v : Value) : Except Fault Nat :=
  match v.atom?, v.layer? with
  | some (.str t), _ => .ok t.length
  | some (.bytes b), _ => .ok b.size
  | _, some layer => .ok (layerLength layer)
  | _, none => .error .noLength

def widen : List Nat → List Value → Except Fault (List Nat)
  | widths, [] => .ok widths
  | [], _ :: _ => .error .raggedRow
  | width :: widths, cell :: cells => do
    let n ← lengthOf cell
    return max width n :: (← widen widths cells)

def widths (rows : List Value) (columns : Nat) : Except Fault (List Nat) :=
  rows.foldlM (fun acc row => do widen acc (← row.elements)) (List.replicate columns 0)

def pad (width : Nat) (t : Text) : Text :=
  t ++ Text.ofChars (List.replicate (width - t.length) ' ')

def cellText : Value → Except Fault Text
  | .atom (.str t) => .ok t
  | _ => .error .notACell

def line : List Nat → List Value → Except Fault Text
  | [], _ => .ok []
  | _ :: _, [] => .error .raggedRow
  | width :: widths, cell :: cells => do
    let text ← cellText cell
    return pad (width + gap) text ++ (← line widths cells)

/-- Lines that are printed one after the other until one fails. -/
structure Printout where
  lines : List Text
  fault : Option Fault := none

def Printout.ofResults : List (Except Fault Text) → Printout
  | [] => ⟨[], none⟩
  | .error f :: _ => ⟨[], some f⟩
  | .ok line :: rest =>
    let behind := Printout.ofResults rest
    ⟨line :: behind.lines, behind.fault⟩

def Printout.ofLines : Except Fault (List Text) → Printout
  | .ok lines => ⟨lines, none⟩
  | .error f => ⟨[], some f⟩

def Printout.complete (p : Printout) : Except Fault (List Text) :=
  match p.fault with
  | none => .ok p.lines
  | some f => .error f

/-- A table: no line if it has no columns, else one for the headers and one per row. Widths are
taken before the first line is printed. -/
def print (headers : Value) (rows : List Value) : Printout :=
  match do widths (headers :: rows) (← lengthOf headers) with
  | .error f => ⟨[], some f⟩
  | .ok [] => ⟨[], none⟩
  | .ok widths => .ofResults ((headers :: rows).map fun row => do line widths (← row.elements))

def lines (headers : Value) (rows : List Value) : Except Fault (List Text) :=
  (print headers rows).complete

end ClusterRegistrar.Table
