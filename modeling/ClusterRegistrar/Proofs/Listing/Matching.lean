import ClusterRegistrar.Listing.Basic
import ClusterRegistrar.Proofs.Conversion.Matching
import ClusterRegistrar.Proofs.Yaml.Sharing

/-! Listings of generated secrets that match. Where the values of a secret were read does not show in
any format: a YAML stream tells which objects are the same, and nothing else of it. -/
namespace ClusterRegistrar

variable {M : Correspondence}

/-! ### Tables -/

namespace Table

theorem layerLength_eq {A : Atom → Atom → Prop} {R : α → β → Prop} {l : Layer α} {l' : Layer β}
    (h : Layer.Rel A R l l') : layerLength l = layerLength l' := by
  cases h with
  | list h | set h | map h => exact h.length_eq
  | pair => rfl

theorem lengthOf_eq {v w : Value} (h : v.Matches M w) : lengthOf v = lengthOf w := by
  have hlayer := h.layer?_rel
  cases h with
  | atom ha => cases ha <;> rfl
  | _ =>
    simp only [Value.layer?] at hlayer
    cases hlayer with
    | some hlayer => exact congrArg Except.ok (layerLength_eq hlayer)

theorem cellText_eq {v w : Value} (h : v.Matches M w) : cellText v = cellText w := by
  cases h with
  | atom ha => cases ha <;> rfl
  | _ => rfl

theorem widen_eq {cells cells' : List Value} (h : List.Forall₂ (Value.Matches M) cells cells')
    (widths : List Nat) : widen widths cells = widen widths cells' := by
  induction h generalizing widths with
  | nil => rfl
  | cons hcell _ ih =>
    cases widths with
    | nil => rfl
    | cons width rest => simp only [widen, lengthOf_eq hcell, ih]

theorem line_eq {cells cells' : List Value} (h : List.Forall₂ (Value.Matches M) cells cells')
    (widths : List Nat) : line widths cells = line widths cells' := by
  induction h generalizing widths with
  | nil => rfl
  | cons hcell _ ih =>
    cases widths with
    | nil => rfl
    | cons width rest => simp only [line, cellText_eq hcell, ih]

def RowsAlike (rows rows' : List Value) : Prop :=
  List.Forall₂ (fun row row' => ∃ M : Correspondence, row.Matches M row') rows rows'

theorem widths_eq {rows rows' : List Value} (h : RowsAlike rows rows') (columns : Nat) :
    widths rows columns = widths rows' columns := by
  unfold widths
  generalize List.replicate columns 0 = acc
  induction h generalizing acc with
  | nil => rfl
  | cons hrow _ ih =>
    obtain ⟨M, hrow⟩ := hrow
    rw [List.foldlM_cons, List.foldlM_cons, hrow.elements_agree.bind_eq fun _ _ h => widen_eq h acc]
    simp only [ih]

theorem print_eq {headers headers' : Value} (hheaders : headers.Matches M headers')
    {rows rows' : List Value} (h : RowsAlike rows rows') :
    print headers rows = print headers' rows' := by
  have hall : RowsAlike (headers :: rows) (headers' :: rows') := .cons ⟨M, hheaders⟩ h
  have hlines (widths : List Nat) :
      ((headers :: rows).map fun row => row.elements >>= line widths) =
        (headers' :: rows').map fun row => row.elements >>= line widths :=
    map_eq_of_forall₂ hall fun _ _ ⟨_, hrow⟩ =>
      hrow.elements_agree.bind_eq fun _ _ h => line_eq h widths
  unfold print
  rw [lengthOf_eq hheaders]
  simp only [widths_eq hall, hlines]

end Table

/-! ### Generated secrets -/

namespace GeneratedSecret

theorem toDocument_agree {g h : GeneratedSecret} (hgh : g.Matches M h) :
    Except.Agree (Value.Matches M) g.toDocument h.toDocument := by
  unfold toDocument
  refine hgh.labels.toEntries_agree.bind fun labels labels' hlabels => .ok ?_
  have hdata : List.Forall₂ (Entry.Rel (Atom.Matches M) (Value.Matches M))
      (g.data.map fun entry => (Atom.str entry.1, encodeData entry.2))
      (h.data.map fun entry => (Atom.str entry.1, encodeData entry.2)) := by
    rw [hgh.data, List.forall₂_map_left_iff, List.forall₂_map_right_iff, List.forall₂_same]
    exact fun entry _ => .mk (.plain rfl) (.str _)
  refine .map (.cons (.mk (.plain rfl) (.str _)) (.cons (.mk (.plain rfl) (.str _))
    (.cons (.mk (.plain rfl) (.map ?_)) (.cons (.mk (.plain rfl) (.map hdata)) .nil))))
  exact .cons (.mk (.plain rfl) hgh.name) (.cons (.mk (.plain rfl) hgh.space)
    (.cons (.mk (.plain rfl) (.map hlabels)) .nil))

end GeneratedSecret

namespace Listing

variable {gs hs : List GeneratedSecret}

theorem yamlText_eq (h : List.Forall₂ GeneratedSecret.Alike gs hs) : yamlText gs = yamlText hs := by
  unfold yamlText
  have hentries : List.Forall₂ (fun g h => Except.Agree (fun doc other => ∃ M : Correspondence,
      Entries.Matches M doc other) (entriesOf g) (entriesOf h)) gs hs := by
    refine h.imp fun g h ⟨M, hgh⟩ => ?_
    have hfields : Except.Agree (Entries.Matches M) (entriesOf g) (entriesOf h) :=
      (GeneratedSecret.toDocument_agree hgh).bind fun _ _ h => h.fields_agree
    exact hfields.imp fun _ _ h => ⟨M, h⟩
  exact (Except.Agree.mapM hentries).bind_eq fun _ _ hdocs => Yaml.writeDocuments_eq hdocs

theorem jsonText_eq (h : List.Forall₂ GeneratedSecret.Alike gs hs) : jsonText gs = jsonText hs := by
  unfold jsonText
  have hdocs := Except.Agree.mapM (h.imp fun g h ⟨M, hgh⟩ =>
    (GeneratedSecret.toDocument_agree hgh).imp fun v w h => (⟨M, h⟩ : ∃ M, Value.Matches M v w))
  refine hdocs.bind_eq fun docs docs' hdocs => ?_
  rw [Json.ofValue_list_eq hdocs]

theorem row_agree {g h : GeneratedSecret} (hgh : g.Matches M h) :
    Except.Agree (Value.Matches M) (row g) (row h) := by
  unfold row dataText GeneratedSecret.dataAt?
  rw [hgh.data]
  refine .bind_same _ fun cluster => .bind_same _ fun server => .ok (.list ?_)
  exact .cons hgh.name (.cons hgh.space (.cons (.str _) (.cons (.str _) .nil)))

theorem headers_eq (M : Correspondence) :
    (Value.list (headers.map fun (name : String) => .str name)).Matches M
      (.list (headers.map fun (name : String) => .str name)) := by
  refine .list ?_
  rw [List.forall₂_map_left_iff, List.forall₂_map_right_iff, List.forall₂_same]
  exact fun name _ => .str _

theorem tablePrintout_eq (h : List.Forall₂ GeneratedSecret.Alike gs hs) :
    tablePrintout gs = tablePrintout hs := by
  have hrows := Except.Agree.mapM (h.imp fun g h ⟨M, hgh⟩ =>
    (row_agree hgh).imp fun v w h => (⟨M, h⟩ : ∃ M, Value.Matches M v w))
  unfold tablePrintout
  rw [isEmpty_eq_of_forall₂ h]
  generalize gs.mapM row = left, hs.mapM row = right at hrows ⊢
  cases hrows with
  | error f => rfl
  | ok hrows => simp only [Table.print_eq (headers_eq .empty) hrows]

theorem print_eq (listing : Listing) (h : List.Forall₂ GeneratedSecret.Alike gs hs) :
    listing.print gs = listing.print hs := by
  cases listing with
  | yaml => simp only [print, yamlLines, yamlText_eq h, isEmpty_eq_of_forall₂ h]
  | json => simp only [print, jsonLines, jsonText_eq h]
  | table => exact tablePrintout_eq h

end Listing
end ClusterRegistrar
