import ClusterRegistrar.Listing.Basic
import ClusterRegistrar.Proofs.Conversion
import Mathlib.Algebra.GroupWithZero.Nat

/-! Tables of texts. A column is as wide as its longest cell, so a row with a cell for every column is
shown whole: in every line a column starts at the same place, and behind each cell there is a gap of
spaces. A row of another length has no line, and a table with such a row is not completed. -/
namespace ClusterRegistrar

namespace Table

def rowOf (cells : List Text) : Value := .list (cells.map .str)

theorem elements_rowOf (cells : List Text) : (rowOf cells).elements = .ok (cells.map .str) := rfl

theorem lengthOf_rowOf (cells : List Text) : lengthOf (rowOf cells) = .ok cells.length := by
  show Except.ok (cells.map Value.str).length = _
  rw [List.length_map]

/-! ### Widths -/

def cellLength (row : List Text) (column : Nat) : Nat := (row[column]?.map List.length).getD 0

theorem exists_widen {acc : List Nat} {row : List Text} (h : row.length ≤ acc.length) :
    ∃ next, widen acc (row.map .str) = .ok next ∧ next.length = acc.length ∧
      ∀ column : Nat, next[column]? = acc[column]?.map fun width => max width (cellLength row column) := by
  induction row generalizing acc with
  | nil =>
    refine ⟨acc, by cases acc <;> rfl, rfl, fun column => ?_⟩
    cases acc[column]? with
    | none => rfl
    | some width => simp [cellLength]
  | cons cell row ih =>
    cases acc with
    | nil => cases h
    | cons width acc =>
      obtain ⟨next, hnext, hlength, hcolumns⟩ := ih (Nat.le_of_succ_le_succ h)
      refine ⟨max width cell.length :: next, ?_, congrArg Nat.succ hlength, fun column => ?_⟩
      · rw [List.map_cons, widen, hnext]
        rfl
      · cases column with
        | zero => rfl
        | succ column => exact hcolumns column

theorem widen_of_longer {acc : List Nat} {row : List Text} (h : acc.length < row.length) :
    widen acc (row.map .str) = .error .raggedRow := by
  induction row generalizing acc with
  | nil => cases h
  | cons cell row ih =>
    cases acc with
    | nil => rfl
    | cons width acc =>
      rw [List.map_cons, widen, ih (Nat.lt_of_succ_lt_succ h)]
      rfl

/-- Widths that are enough for some rows, and no more than one of them needs. -/
def AreEnough (rows : List (List Text)) (widths : List Nat) : Prop :=
  ∀ column width : Nat, widths[column]? = some width →
    (∀ row ∈ rows, cellLength row column ≤ width) ∧
      (width = 0 ∨ ∃ row ∈ rows, cellLength row column = width)

theorem AreEnough.widen {rows : List (List Text)} {acc : List Nat} (hacc : AreEnough rows acc)
    {row : List Text} (h : row.length ≤ acc.length) :
    ∃ next, widen acc (row.map .str) = .ok next ∧ next.length = acc.length ∧
      AreEnough (rows ++ [row]) next := by
  obtain ⟨next, hnext, hlength, hcolumns⟩ := exists_widen h
  refine ⟨next, hnext, hlength, ?_⟩
  intro column width hwidth
  rw [hcolumns, Option.map_eq_some_iff] at hwidth
  obtain ⟨before, hbefore, rfl⟩ := hwidth
  obtain ⟨hle, hneeded⟩ := hacc column before hbefore
  constructor
  · intro other hother
    rcases List.mem_append.mp hother with hold | hnew
    · exact Nat.le_trans (hle other hold) (Nat.le_max_left _ _)
    · rw [List.mem_singleton.mp hnew]
      exact Nat.le_max_right _ _
  · rcases Nat.le_total before (cellLength row column) with hcell | hcell
    · right
      refine ⟨row, by simp, ?_⟩
      omega
    · rw [Nat.max_eq_left hcell]
      apply hneeded.imp_right
      rintro ⟨other, hother, hsame⟩
      exact ⟨other, List.mem_append_left _ hother, hsame⟩

theorem AreEnough.foldlM {done : List (List Text)} {acc : List Nat} (hacc : AreEnough done acc)
    {rows : List (List Text)} (h : ∀ row ∈ rows, row.length ≤ acc.length) :
    ∃ ws, (rows.map rowOf).foldlM (fun acc row => row.elements >>= Table.widen acc) acc = .ok ws ∧
      ws.length = acc.length ∧ AreEnough (done ++ rows) ws := by
  induction rows generalizing done acc with
  | nil => exact ⟨acc, rfl, rfl, by rwa [List.append_nil]⟩
  | cons row rows ih =>
    obtain ⟨hrow, hrows⟩ := List.forall_mem_cons.mp h
    obtain ⟨next, hnext, hlength, henough⟩ := hacc.widen hrow
    obtain ⟨ws, hws, hwidth, hall⟩ := ih henough fun row hmem => hlength ▸ hrows row hmem
    refine ⟨ws, ?_, hwidth.trans hlength, by rwa [List.append_cons]⟩
    rw [List.map_cons, List.foldlM_cons, elements_rowOf, Except.ok_bind, hnext, Except.ok_bind, hws]

theorem exists_widths {rows : List (List Text)} {columns : Nat}
    (h : ∀ row ∈ rows, row.length ≤ columns) :
    ∃ ws, widths (rows.map rowOf) columns = .ok ws ∧ ws.length = columns ∧ AreEnough rows ws := by
  have hlength : (List.replicate columns 0).length = columns := List.length_replicate
  have hstart : AreEnough [] (List.replicate columns 0) := by
    intro column width hwidth
    refine ⟨by simp, .inl ?_⟩
    exact List.eq_of_mem_replicate (List.mem_of_getElem? hwidth)
  have hrows : ∀ row ∈ rows, row.length ≤ (List.replicate columns 0).length := by rwa [hlength]
  obtain ⟨ws, hws, hwidth, henough⟩ := hstart.foldlM hrows
  exact ⟨ws, hws, hwidth.trans hlength, henough⟩

theorem widths_of_longer {rows : List (List Text)} {columns : Nat}
    (h : ∃ row ∈ rows, columns < row.length) :
    widths (rows.map rowOf) columns = .error .raggedRow := by
  have hlength : (List.replicate columns 0).length = columns := List.length_replicate
  unfold widths
  generalize List.replicate columns 0 = acc at hlength
  induction rows generalizing acc with
  | nil =>
    obtain ⟨row, hrow, -⟩ := h
    cases hrow
  | cons row rows ih =>
    rw [List.map_cons, List.foldlM_cons, elements_rowOf, Except.ok_bind]
    rcases Nat.lt_or_ge columns row.length with hlong | hshort
    · rw [widen_of_longer (hlength.symm ▸ hlong)]
      rfl
    · have hshort : row.length ≤ acc.length := hlength.symm ▸ hshort
      obtain ⟨next, hnext, hnextLength, -⟩ := exists_widen hshort
      rw [hnext, Except.ok_bind]
      apply ih _ next (hnextLength.trans hlength)
      obtain ⟨other, hmem, hlong⟩ := h
      rcases List.mem_cons.mp hmem with rfl | hmem
      · omega
      · exact ⟨other, hmem, hlong⟩

/-- The length of the longest cell of a column. -/
structure IsWidest (rows : List (List Text)) (column width : Nat) : Prop where
  le : ∀ row ∈ rows, ∀ cell, row[column]? = some cell → cell.length ≤ width
  reached : ∃ row ∈ rows, ∃ cell, row[column]? = some cell ∧ cell.length = width

theorem cellLength_of_cell {row : List Text} {column : Nat} {cell : Text}
    (h : row[column]? = some cell) : cellLength row column = cell.length := by
  rw [cellLength, h]
  rfl

theorem AreEnough.isWidest {rows : List (List Text)} {ws : List Nat} (h : AreEnough rows ws)
    (hrows : rows ≠ []) (hlength : ∀ row ∈ rows, row.length = ws.length) {column width : Nat}
    (hwidth : ws[column]? = some width) : IsWidest rows column width := by
  obtain ⟨hle, hneeded⟩ := h column width hwidth
  have hcell : ∀ row ∈ rows, ∃ cell, row[column]? = some cell := by
    intro row hrow
    have hinside : column < row.length := by
      rw [hlength row hrow]
      exact (List.getElem?_eq_some_iff.mp hwidth).1
    exact ⟨_, List.getElem?_eq_getElem hinside⟩
  have hbound : ∀ row ∈ rows, ∀ cell, row[column]? = some cell → cell.length ≤ width := by
    intro row hrow cell hrowCell
    rw [← cellLength_of_cell hrowCell]
    exact hle row hrow
  refine ⟨hbound, ?_⟩
  rcases hneeded with rfl | ⟨row, hrow, hreached⟩
  -- A column of width zero holds empty cells only, so any row reaches it.
  · obtain ⟨row, hrow⟩ := List.exists_mem_of_ne_nil rows hrows
    obtain ⟨cell, hrowCell⟩ := hcell row hrow
    exact ⟨row, hrow, cell, hrowCell, Nat.le_zero.mp (hbound row hrow cell hrowCell)⟩
  · obtain ⟨cell, hrowCell⟩ := hcell row hrow
    exact ⟨row, hrow, cell, hrowCell, (cellLength_of_cell hrowCell).symm.trans hreached⟩

/-! ### Lines -/

def offset (ws : List Nat) (column : Nat) : Nat := ((ws.take column).map (· + gap)).sum

/-- A line of columns of some widths shows cells: in the place of each column stands its cell, whole,
and nothing behind it but spaces, as many as the gap at least. -/
structure Shows (ws : List Nat) (cells : List Text) (line : Text) : Prop where
  length : line.length = (ws.map (· + gap)).sum
  column : ∀ (column width : Nat) (cell : Text), ws[column]? = some width →
    cells[column]? = some cell → ∃ spaces, gap ≤ spaces ∧ cell.length + spaces = width + gap ∧
      (line.drop (offset ws column)).take (width + gap) =
        cell ++ Text.ofChars (List.replicate spaces ' ')

theorem length_pad {n : Nat} {t : Text} (h : t.length ≤ n) : (pad n t).length = n := by
  have hspaces : (Text.ofChars (List.replicate (n - t.length) ' ')).length = n - t.length := by
    rw [Text.ofChars, List.length_map, List.length_replicate]
  rw [pad, List.length_append, hspaces]
  omega

theorem Shows.nil : Shows [] [] [] where
  length := rfl
  column := nofun

theorem Shows.cons {width : Nat} {cell : Text} (h : cell.length ≤ width) {ws : List Nat}
    {cells : List Text} {line : Text} (hline : Shows ws cells line) :
    Shows (width :: ws) (cell :: cells) (pad (width + gap) cell ++ line) := by
  have hpad : (pad (width + gap) cell).length = width + gap := length_pad (by omega)
  constructor
  · rw [List.length_append, hpad, hline.length, List.map_cons, List.sum_cons]
  · intro column other shown hwidth hcell
    cases column with
    | zero =>
      cases hwidth
      cases hcell
      refine ⟨width + gap - cell.length, by omega, by omega, ?_⟩
      rw [offset, List.take_zero, List.map_nil, List.sum_nil, List.drop_zero]
      exact List.take_left' hpad
    | succ column =>
      obtain ⟨spaces, hgap, htotal, hslice⟩ := hline.column column other shown hwidth hcell
      refine ⟨spaces, hgap, htotal, ?_⟩
      have hoffset : offset (width :: ws) (column + 1) =
          (pad (width + gap) cell).length + offset ws column := by
        rw [hpad, offset, List.take_succ_cons, List.map_cons, List.sum_cons]
        rfl
      rw [hoffset, List.drop_length_add_append]
      exact hslice

theorem exists_line {ws : List Nat} {cells : List Text}
    (h : List.Forall₂ (fun width cell => cell.length ≤ width) ws cells) :
    ∃ line, Table.line ws (cells.map .str) = .ok line ∧ Shows ws cells line := by
  induction h with
  | nil => exact ⟨[], rfl, .nil⟩
  | @cons width cell ws cells hcell _ ih =>
    obtain ⟨rest, hrest, hshows⟩ := ih
    refine ⟨pad (width + gap) cell ++ rest, ?_, hshows.cons hcell⟩
    rw [List.map_cons, line, hrest]
    rfl

theorem exists_line_or_short (ws : List Nat) (cells : List Text) :
    (ws.length ≤ cells.length ∧ ∃ line, Table.line ws (cells.map .str) = .ok line) ∨
      (cells.length < ws.length ∧ Table.line ws (cells.map .str) = .error .raggedRow) := by
  induction ws generalizing cells with
  | nil => exact .inl ⟨Nat.zero_le _, [], rfl⟩
  | cons width ws ih =>
    cases cells with
    | nil => exact .inr ⟨Nat.zero_lt_succ _, rfl⟩
    | cons cell cells =>
      rw [List.map_cons, line]
      rcases ih cells with ⟨hlength, line, hline⟩ | ⟨hlength, hline⟩
      · rw [hline]
        exact .inl ⟨Nat.succ_le_succ hlength, _, rfl⟩
      · rw [hline]
        exact .inr ⟨Nat.succ_lt_succ hlength, rfl⟩

/-! ### Tables -/

theorem complete_ofResults (results : List (Except Fault Text)) :
    (Printout.ofResults results).complete = results.mapM id := by
  induction results with
  | nil => rfl
  | cons result rest ih =>
    cases result with
    | error f => rfl
    | ok line =>
      rw [List.mapM_cons, ← ih]
      show (Printout.mk (line :: (Printout.ofResults rest).lines) _).complete = _
      generalize Printout.ofResults rest = behind
      obtain ⟨lines, fault⟩ := behind
      cases fault <;> rfl

theorem lines_of_widths {headers : List Text} {rows : List (List Text)} {ws : List Nat}
    (hws : widths ((headers :: rows).map rowOf) headers.length = .ok ws) (hsome : ws ≠ []) :
    lines (rowOf headers) (rows.map rowOf) =
      (headers :: rows).mapM fun cells => line ws (cells.map .str) := by
  have hprint : print (rowOf headers) (rows.map rowOf) = .ofResults
      (((headers :: rows).map rowOf).map fun row => row.elements >>= line ws) := by
    rw [print, lengthOf_rowOf, Except.ok_bind, ← List.map_cons, hws]
    cases ws with
    | nil => exact absurd rfl hsome
    | cons => rfl
  rw [lines, hprint, complete_ofResults, List.map_map, List.mapM_map]
  rfl

theorem lines_of_error {headers : List Text} {rows : List (List Text)} {f : Fault}
    (h : widths ((headers :: rows).map rowOf) headers.length = .error f) :
    lines (rowOf headers) (rows.map rowOf) = .error f := by
  rw [lines, print, lengthOf_rowOf, Except.ok_bind, ← List.map_cons, h]
  rfl

def AreAligned (rows : List (List Text)) (lines : List Text) : Prop :=
  ∃ ws : List Nat, (∀ row ∈ rows, row.length = ws.length) ∧
    (∀ column width : Nat, ws[column]? = some width → IsWidest rows column width) ∧
    List.Forall₂ (Shows ws) rows lines

theorem exists_lines {headers : List Text} {rows : List (List Text)} (hheaders : headers ≠ [])
    (hrows : ∀ row ∈ rows, row.length = headers.length) :
    ∃ ls, lines (rowOf headers) (rows.map rowOf) = .ok ls ∧ AreAligned (headers :: rows) ls := by
  have hall : ∀ row ∈ headers :: rows, row.length = headers.length :=
    List.forall_mem_cons.mpr ⟨rfl, hrows⟩
  obtain ⟨ws, hws, hlength, henough⟩ := exists_widths fun row hrow => Nat.le_of_eq (hall row hrow)
  have hwidths : ∀ row ∈ headers :: rows, row.length = ws.length := fun row hrow =>
    (hall row hrow).trans hlength.symm
  have hwidest : ∀ column width : Nat, ws[column]? = some width →
      IsWidest (headers :: rows) column width := fun column width hwidth =>
    henough.isWidest (List.cons_ne_nil _ _) hwidths hwidth
  have hsome : ws ≠ [] := by
    rintro rfl
    exact hheaders (List.length_eq_zero_iff.mp hlength.symm)
  have hshown : ∀ row ∈ headers :: rows, ∃ l, line ws (row.map .str) = .ok l ∧ Shows ws row l := by
    intro row hrow
    apply exists_line
    rw [List.forall₂_iff_get]
    refine ⟨(hwidths row hrow).symm, fun column hcolumn hinside => ?_⟩
    exact (hwidest column _ (List.getElem?_eq_getElem hcolumn)).le row hrow _
      (List.getElem?_eq_getElem hinside)
  obtain ⟨ls, hls⟩ := Except.exists_mapM_eq_ok.mpr fun row hrow =>
    (hshown row hrow).imp fun _ hl => hl.1
  refine ⟨ls, (lines_of_widths hws hsome).trans hls, ws, hwidths, hwidest, ?_⟩
  apply ((List.forall₂_and_left _ _).mpr ⟨hshown, Except.mapM_eq_ok.mp hls⟩).imp
  rintro row l ⟨⟨_, hl, hshows⟩, hline⟩
  cases hl.symm.trans hline
  exact hshows

theorem lines_of_ragged {headers : List Text} {rows : List (List Text)}
    (h : ∃ row ∈ rows, row.length ≠ headers.length) :
    lines (rowOf headers) (rows.map rowOf) = .error .raggedRow := by
  by_cases hlong : ∃ row ∈ headers :: rows, headers.length < row.length
  · exact lines_of_error (widths_of_longer hlong)
  · have hshort : ∀ row ∈ headers :: rows, row.length ≤ headers.length := fun row hrow =>
      Nat.le_of_not_lt fun hlonger => hlong ⟨row, hrow, hlonger⟩
    obtain ⟨ws, hws, hlength, -⟩ := exists_widths hshort
    obtain ⟨row, hrow, hother⟩ := h
    have hless : row.length < ws.length := by
      rw [hlength]
      exact Nat.lt_of_le_of_ne (hshort row (List.mem_cons_of_mem _ hrow)) hother
    rw [lines_of_widths hws (List.ne_nil_of_length_pos (Nat.zero_lt_of_lt hless))]
    cases hlines : (headers :: rows).mapM fun cells => line ws (cells.map .str) with
    | ok ls =>
      obtain ⟨l, hl⟩ := Except.exists_mapM_eq_ok.mp ⟨ls, hlines⟩ row (List.mem_cons_of_mem _ hrow)
      rcases exists_line_or_short ws row with ⟨hlong, -⟩ | ⟨-, hnone⟩
      · omega
      · cases hl.symm.trans hnone
    | error f =>
      obtain ⟨failed, -, hf⟩ := Except.exists_of_mapM_error hlines
      rcases exists_line_or_short ws failed with ⟨-, l, hl⟩ | ⟨-, hnone⟩
      · cases hl.symm.trans hf
      · cases hnone.symm.trans hf
        rfl

end Table

/-! ### Generated secrets -/

namespace Listing

/-- The cells of a generated secret: its names, and the texts that its data hold in UTF-8 for the name
and the server of the cluster. -/
inductive IsRowOf (g : GeneratedSecret) : List Text → Prop where
  | mk {name space cluster server : Text} {clusterBytes serverBytes : ByteArray}
    (hname : g.name = .str name) (hspace : g.space = .str space)
    (hclusterBytes : g.dataAt? "name" = some clusterBytes)
    (hserverBytes : g.dataAt? "server" = some serverBytes)
    (hcluster : cluster.utf8? = some clusterBytes) (hserver : server.utf8? = some serverBytes) :
    IsRowOf g [name, space, cluster, server]

theorem dataText_of_utf8 {g : GeneratedSecret} {key : String} {bytes : ByteArray} {t : Text}
    (hbytes : g.dataAt? key = some bytes) (ht : t.utf8? = some bytes) : dataText g key = .ok t := by
  obtain ⟨cs, rfl, rfl⟩ := Text.utf8?_eq_some.mp ht
  unfold dataText
  rw [hbytes]
  dsimp only
  rw [Text.fromUTF8?_toUTF8]
  exact congrArg (Except.ok ∘ Text.ofChars) String.toList_ofList

theorem IsRowOf.row_eq {g : GeneratedSecret} {cells : List Text} (h : IsRowOf g cells) :
    row g = .ok (Table.rowOf cells) := by
  obtain ⟨hname, hspace, hclusterBytes, hserverBytes, hcluster, hserver⟩ := h
  rw [row, dataText_of_utf8 hclusterBytes hcluster, Except.ok_bind,
    dataText_of_utf8 hserverBytes hserver, Except.ok_bind, hname, hspace]
  rfl

theorem exists_isRowOf {settings : Settings} {index : Conversion.ClusterIndex} {s : SourceSecret}
    {g : GeneratedSecret} (h : Conversion.Generates settings index s g) {space : Text}
    (hspace : settings.argoNamespace = .str space) : ∃ cells, IsRowOf g cells := by
  obtain ⟨w, -, hg⟩ := h
  simp only [Conversion.result_register, Except.bind_eq_ok, Fault.lift_eq_ok] at hg
  obtain ⟨cluster?, -, taken, -, r, hr, hg⟩ := hg
  obtain ⟨hargo, name, hname⟩ := Naming.of_generatedName (Registration.names_of_draft hr).1
  obtain ⟨_, _, clusterBytes, serverBytes, -, -, hcluster, hserver, rfl⟩ :=
    Registration.toSecret_eq_ok.mp (Registration.toSecret_unvalidated hg)
  obtain ⟨cluster, -, hcluster⟩ := Registration.exists_text_of_utf8 hcluster
  obtain ⟨server, -, hserver⟩ := Registration.exists_text_of_utf8 hserver
  exact ⟨_, .mk hname (hargo.trans hspace) rfl rfl hcluster hserver⟩

def headerCells : List Text := headers.map Text.ofString

theorem lines_table_of_rows {gs : List GeneratedSecret} {rows : List (List Text)}
    (hsome : gs ≠ []) (h : List.Forall₂ IsRowOf gs rows) :
    lines .table gs = Table.lines (Table.rowOf headerCells) (rows.map Table.rowOf) := by
  have hrows : gs.mapM row = .ok (rows.map Table.rowOf) := by
    rw [Except.mapM_eq_ok, List.forall₂_map_right_iff]
    exact h.imp fun g cells hcells => hcells.row_eq
  have hheaders : Value.list (headers.map fun (name : String) => .str name) =
      Table.rowOf headerCells := by
    rw [Table.rowOf, headerCells, List.map_map]
    rfl
  have hprint : print .table gs = Table.print (Table.rowOf headerCells) (rows.map Table.rowOf) := by
    show tablePrintout gs = _
    rw [tablePrintout, if_neg (by simpa using hsome), hrows, hheaders]
  exact congrArg Table.Printout.complete hprint

theorem length_of_isRowOf {g : GeneratedSecret} {cells : List Text} (h : IsRowOf g cells) :
    cells.length = headerCells.length := by
  cases h
  rfl

/-- A table is shown with its columns aligned if every row has a cell for each of them, and is not
completed if some row has not. The generated secrets of a conversion always have a table, with the names
of each secret and the texts in its data in a row. -/
theorem columns_line_up :
    (∀ (headers : List Text) (rows : List (List Text)), headers ≠ [] →
      ((∀ row ∈ rows, row.length = headers.length) →
        ∃ ls, Table.lines (Table.rowOf headers) (rows.map Table.rowOf) = .ok ls ∧
          Table.AreAligned (headers :: rows) ls) ∧
      ((∃ row ∈ rows, row.length ≠ headers.length) →
        Table.lines (Table.rowOf headers) (rows.map Table.rowOf) = .error .raggedRow)) ∧
    ∀ (settings : Settings) (space : Text), settings.argoNamespace = .str space →
      ∀ secrets clusters gs, (Conversion.convert settings secrets clusters).result = .ok gs →
        (gs = [] → lines .table gs = .ok []) ∧
        (gs ≠ [] → ∃ rows ls, List.Forall₂ IsRowOf gs rows ∧ lines .table gs = .ok ls ∧
          Table.AreAligned (headerCells :: rows) ls) := by
  constructor
  · intro headers rows hheaders
    exact ⟨Table.exists_lines hheaders, Table.lines_of_ragged⟩
  · intro settings space hspace secrets clusters gs h
    constructor
    · rintro rfl
      rfl
    · intro hsome
      obtain ⟨index, -, hall⟩ := Conversion.convert_eq_ok.mp h
      have hcells : ∀ g ∈ gs, ∃ cells, IsRowOf g cells :=
        forall_right_of_forall₂ (Conversion.forall₂_generates hall) fun s g hg => exists_isRowOf hg hspace
      obtain ⟨rows, hrows⟩ : ∃ rows, List.Forall₂ IsRowOf gs rows := by
        obtain ⟨rows, hrows⟩ := exists_forall₂ (R := flip IsRowOf) hcells
        exact ⟨rows, hrows.flip⟩
      obtain ⟨ls, hls, haligned⟩ := Table.exists_lines (show headerCells ≠ [] by decide)
        (forall_right_of_forall₂ hrows fun g cells => length_of_isRowOf)
      exact ⟨rows, ls, hrows, (lines_table_of_rows hsome hrows).trans hls, haligned⟩

def unevenRows : List (List Text) := [["control", "a"], ["", "https://b"]]

def unevenHeaders : List Text := ["NAME", "SERVER"]

theorem uneven_cells_line_up :
    (∃ ls, Table.lines (Table.rowOf unevenHeaders) (unevenRows.map Table.rowOf) = .ok ls ∧
      Table.AreAligned (unevenHeaders :: unevenRows) ls) ∧
    Table.lines (Table.rowOf unevenHeaders) (([("control" : Text)] :: unevenRows).map Table.rowOf) =
      .error .raggedRow ∧
    ∃ g cells ls, (Conversion.convert {} [.ofContent "ns" "p-kubeconfig" SourceSecret.plainContent]
        []).result = .ok [g] ∧
      IsRowOf g cells ∧ lines .table [g] = .ok ls ∧ Table.AreAligned [headerCells, cells] ls := by
  obtain ⟨htables, hconverted⟩ := columns_line_up
  refine ⟨(htables unevenHeaders unevenRows (by decide)).1 (by decide),
    (htables unevenHeaders ([("control" : Text)] :: unevenRows) (by decide)).2 (by decide), ?_⟩
  obtain ⟨gs, hgs, hlength⟩ : ∃ gs, (Conversion.convert {}
      [.ofContent "ns" "p-kubeconfig" SourceSecret.plainContent] []).result = .ok gs ∧
      decide (gs.length = 1) = true := Except.exists_of_any (by decide +kernel)
  obtain ⟨g, rfl⟩ := List.length_eq_one_iff.mp (of_decide_eq_true hlength)
  obtain ⟨rows, ls, hrows, hls, haligned⟩ :=
    (hconverted {} "argocd" rfl _ _ _ hgs).2 (List.cons_ne_nil g [])
  obtain ⟨cells, _, hcells, hnone, rfl⟩ := List.forall₂_cons_left_iff.mp hrows
  cases List.forall₂_nil_left_iff.mp hnone
  exact ⟨g, cells, ls, hgs, hcells, hls, haligned⟩

end Listing
end ClusterRegistrar
