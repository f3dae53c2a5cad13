import ClusterRegistrar.Proofs.Yaml.Layout

/-! The text of documents as it is written, and the tokens that it is scanned into. Every document starts
with a mark and ends with a line end, so that documents can stand behind each other. -/
namespace ClusterRegistrar.Yaml

def documentText : List (Text × TextTree) → List Char
  | [] => "--- \x7b\x7d\n".toList
  | entry :: rest =>
    '-' :: '-' :: '-' :: '\n' ::
      (Block.stacked 0 (Block.writeEntries 0 (TextTree.blockEntries (entry :: rest))) ++ ['\n'])

def documentTokens (entries : List (Text × TextTree)) : List Token :=
  .documentStart :: (TextTree.map entries).tokens

theorem writeDocument_valueEntries {entries : List (Text × TextTree)} {depth : Nat}
    (h : (TextTree.map entries).Fits depth) (hdepth : depth ≤ Sharing.maxDepth) :
    writeDocument (TextTree.valueEntries entries) = .ok (documentText entries) := by
  have hblock : Sharing.blockOf (.map (TextTree.valueEntries entries)) =
      .ok (TextTree.map entries).block := blockOf_value h hdepth
  rw [writeDocument, hblock]
  cases entries <;> rfl

/-! ### Tokens -/

namespace Scanner

/-- A scanner in front of a document or of the end, and the tokens there once all levels are closed. -/
def AtDocument (latest : List Token) (indent : Int) (outer : List Int) (closed : List Token) : Prop :=
  indent ≤ 0 ∧ ∀ c, (block latest indent outer true none c).unwind (-1) = block closed (-1) [] true none c

theorem atDocument_start (latest : List Token) : AtDocument latest (-1) [] latest :=
  ⟨by decide, fun _ => rfl⟩

theorem atDocument_mapping (latest : List Token) : AtDocument latest 0 [-1] (.blockEnd :: latest) :=
  ⟨by decide, fun _ => rfl⟩

variable {latest closed : List Token} {outer : List Int} {indent : Int} {c : Cursor} {rest : List Char}
  {entries : List (Text × TextTree)} {depth : Nat}

theorem leads_emptyDocument (hlevel : AtDocument latest indent outer closed) (hcolumn : c.column = 0)
    (hrest : c.rest = documentText [] ++ rest) (hcontent : AtContent rest) :
    (block latest indent outer true none c).Leads
        (block ((documentTokens []).reverse ++ closed) (-1) [] true none
          (c.skip (documentText []).length)) ∧
      (c.skip (documentText []).length).column = 0 := by
  have hbraces : (c.skip 3).rest =
      ' ' :: '\x7b' :: '\x7d' :: ('\n' :: List.replicate 0 ' ' ++ rest) := by
    rw [Cursor.rest_skip, hrest]
    rfl
  have hend : (c.skip 6).rest = '\n' :: List.replicate 0 ' ' ++ rest := by
    rw [Cursor.rest_skip, hrest]
    rfl
  have hline : ((c.skip 6).skip 1).column = 0 := by rw [Cursor.skip_freshLine hend]
  refine ⟨?_, hline⟩
  exact (leads_documentStart hcolumn hlevel.1 hrest rfl (hlevel.2 c)).trans
    (leads_braces hbraces hcontent (Int.le_trans (by decide) (Int.natCast_nonneg _)))

theorem leads_mappingDocument {entry : Text × TextTree} (hfits : (TextTree.map (entry :: entries)).Fits depth)
    (hkeys : (TextTree.map (entry :: entries)).Everywhere KeyFits fun _ => True)
    (hdepth : 2 * depth < Scalar.width) (hlevel : AtDocument latest indent outer closed)
    (hcolumn : c.column = 0) (hrest : c.rest = documentText (entry :: entries) ++ rest)
    (hcontent : AtContent rest) :
    (block latest indent outer true none c).Leads
        (block ((TextTree.entryTokens (entry :: entries)).reverse ++
            .blockMappingStart :: .documentStart :: closed) 0 [-1] true none
          (c.skip (documentText (entry :: entries)).length)) ∧
      (c.skip (documentText (entry :: entries)).length).column = 0 := by
  obtain _ | @⟨depth, _, -, hinner⟩ := hfits
  obtain _ | ⟨hkeys, hinnerKeys⟩ := hkeys
  have hvalues : ∀ entry' ∈ entry :: entries, ∀ behind, ReadsValue behind 0 entry'.2 :=
    fun entry' hentry behind => readsValue (hinner entry' hentry) (hinnerKeys entry' hentry) behind (by omega)
  have hstart : (c.skip 3).rest = '\n' :: List.replicate 0 ' ' ++
      (Block.stacked 0 (Block.writeEntries 0 (TextTree.blockEntries (entry :: entries))) ++
        ('\n' :: List.replicate 0 ' ' ++ rest)) := by
    rw [Cursor.rest_skip, hrest, documentText]
    simp
  have hcontents := atContent_stacked 0 (List.cons_ne_nil entry entries) ('\n' :: List.replicate 0 ' ' ++ rest)
  have hline := Cursor.skip_freshLine hstart
  have hmark := leads_documentStart hcolumn hlevel.1 hrest rfl (hlevel.2 c)
  have hfresh : (block (.documentStart :: closed) (-1) [] false none (c.skip 3)).Leads
      (block (.documentStart :: closed) (-1) [] true none ((c.skip 3).skip 1)) :=
    leads_of_settles (settles_freshLine hstart hcontents (forgets_none _)) (by rw [hline]; exact hcontents)
      (by simp [Cursor.rest_skip]; omega)
  have hfirst : Enters 0 (.documentStart :: closed) (-1) []
      (.blockMappingStart :: .documentStart :: closed) [-1] := .first (by decide)
  have hentries := leads_entries (by decide) (List.cons_ne_nil entry entries) hkeys hvalues hfirst
    (congrArg Cursor.column hline) (congrArg Cursor.rest hline) hcontent (Nat.le_refl 0)
  have hend := Cursor.skip_freshLine (Cursor.rest_skip_of_append (congrArg Cursor.rest hline))
  rw [Cursor.skip_skip] at hend
  have hlength : (documentText (entry :: entries)).length = 3 + 1 +
      ((Block.stacked 0 (Block.writeEntries 0 (TextTree.blockEntries (entry :: entries)))).length + 1) := by
    simp only [documentText, List.length_cons, List.length_append, List.length_nil]
    omega
  have htotal : c.skip (documentText (entry :: entries)).length = ((c.skip 3).skip 1).skip
      ((Block.stacked 0 (Block.writeEntries 0 (TextTree.blockEntries (entry :: entries)))).length + 1) := by
    rw [Cursor.skip_skip, Cursor.skip_skip, hlength, Nat.add_assoc]
  rw [htotal]
  exact ⟨hmark.trans (hfresh.trans hentries), congrArg Cursor.column hend⟩

theorem leads_document (hfits : (TextTree.map entries).Fits depth)
    (hkeys : (TextTree.map entries).Everywhere KeyFits fun _ => True)
    (hdepth : 2 * depth < Scalar.width) (hlevel : AtDocument latest indent outer closed)
    (hcolumn : c.column = 0) (hrest : c.rest = documentText entries ++ rest) (hcontent : AtContent rest) :
    ∃ latest' indent' outer',
      AtDocument latest' indent' outer' ((documentTokens entries).reverse ++ closed) ∧
        (block latest indent outer true none c).Leads
          (block latest' indent' outer' true none (c.skip (documentText entries).length)) ∧
        (c.skip (documentText entries).length).column = 0 := by
  cases entries with
  | nil => exact ⟨_, _, _, atDocument_start _, leads_emptyDocument hlevel hcolumn hrest hcontent⟩
  | cons entry entries =>
    have htokens : (documentTokens (entry :: entries)).reverse ++ closed =
        .blockEnd :: ((TextTree.entryTokens (entry :: entries)).reverse ++
          .blockMappingStart :: .documentStart :: closed) := by
      simp [documentTokens, TextTree.tokens]
    rw [htokens]
    exact ⟨_, _, _, atDocument_mapping _,
      leads_mappingDocument hfits hkeys hdepth hlevel hcolumn hrest hcontent⟩

/-- Documents are read one after the other, up to the end. -/
theorem finishes_documents {docs : List (List (Text × TextTree))}
    (hfits : ∀ entries ∈ docs, (TextTree.map entries).Fits depth)
    (hkeys : ∀ entries ∈ docs, (TextTree.map entries).Everywhere KeyFits fun _ => True)
    (hdepth : 2 * depth < Scalar.width) (hlevel : AtDocument latest indent outer closed)
    (hcolumn : c.column = 0) (hrest : c.rest = docs.flatMap documentText) :
    (block latest indent outer true none c).Finishes
      (closed.reverse ++ (docs.flatMap documentTokens ++ [.streamEnd])) := by
  induction docs generalizing latest indent outer closed c with
  | nil => exact finishes_end hrest hlevel.1 (hlevel.2 c)
  | cons entries docs ih =>
    obtain ⟨hfit, hfits⟩ := List.forall_mem_cons.mp hfits
    obtain ⟨hkey, hkeys⟩ := List.forall_mem_cons.mp hkeys
    have hcontent : AtContent (docs.flatMap documentText) := by
      cases docs with
      | nil => exact .nil
      | cons next docs =>
        cases next <;> exact .cons (by decide) (by decide) (by decide) _
    obtain ⟨latest', indent', outer', hlevel', hleads, hcolumn'⟩ :=
      leads_document hfit hkey hdepth hlevel hcolumn hrest hcontent
    have hfinishes := ih hfits hkeys hlevel' hcolumn' (Cursor.rest_skip_of_append hrest)
    rw [List.reverse_append, List.reverse_reverse, List.append_assoc, ← List.append_assoc _ _ [_],
      ← List.flatMap_cons] at hfinishes
    exact hleads _ hfinishes

end Scanner

theorem scan_documents {docs : List (List (Text × TextTree))} {depth : Nat}
    (hfits : ∀ entries ∈ docs, (TextTree.map entries).Fits depth)
    (hkeys : ∀ entries ∈ docs, (TextTree.map entries).Everywhere KeyFits fun _ => True)
    (hdepth : 2 * depth < Scalar.width) :
    scan (docs.flatMap documentText) = (docs.flatMap documentTokens ++ [.streamEnd], none) :=
  Scanner.finishes_documents hfits hkeys hdepth (Scanner.atDocument_start []) rfl rfl _
    (Nat.lt_succ_self _)

/-! ### Characters -/

structure IsWritten (cs : List Char) : Prop where
  ordinary : ∀ c ∈ cs, Style.isOrdinary c = true
  ends : Scalar.EndsDark cs

theorem isOrdinary_of_isInline {c : Char} (h : IsInline c) : Style.isOrdinary c = true := by
  simp [Style.isOrdinary, h.1, h.2]

theorem IsWritten.append {before cs : List Char} (h : IsWritten cs)
    (hbefore : ∀ c ∈ before, Style.isOrdinary c = true) : IsWritten (before ++ cs) :=
  ⟨List.forall_mem_append.mpr ⟨hbefore, h.ordinary⟩, h.ends.append before⟩

theorem isWritten_ofText (place : Scalar.Place) (column : Nat) (t : Text) :
    IsWritten (Scalar.ofText place column t) :=
  ⟨Scalar.forall_mem_ofText (fun _ => isOrdinary_of_isInline) (fun _ => rfl) (fun _ => rfl) column,
    Scalar.endsDark_ofText place column t⟩

theorem isOrdinary_freshLine (indent : Nat) : ∀ c ∈ Block.freshLine indent, Style.isOrdinary c = true := by
  rw [Block.freshLine, List.forall_mem_cons]
  refine ⟨rfl, fun c hc => ?_⟩
  rw [List.eq_of_mem_replicate hc]
  rfl

section

variable {indent : Nat}

theorem isWritten_write_text (behind : Block.Behind) (column : Nat) (t : Text) :
    IsWritten (Block.write behind indent column (.text t)) := by
  rw [Block.write_text]
  show IsWritten ([' '] ++ _)
  exact (isWritten_ofText _ _ t).append (List.forall_mem_singleton.mpr rfl)

theorem isWritten_writeEntry {tree : TextTree} (key : Text)
    (htree : ∀ behind column, IsWritten (Block.write behind indent column tree.block)) :
    IsWritten (Block.writeEntry indent (.text key) tree.block) := by
  have hcolon : Style.isOrdinary ':' = true := rfl
  unfold Block.writeEntry
  split
  · rw [List.append_cons]
    refine (htree _ _).append (List.forall_mem_append.mpr ⟨?_, by simpa using hcolon⟩)
    exact (isWritten_ofText _ _ key).ordinary
  · rw [List.append_cons]
    refine (htree _ _).append (List.forall_mem_append.mpr ⟨?_, by simpa using hcolon⟩)
    rw [List.forall_mem_append, List.forall_mem_cons]
    exact ⟨⟨rfl, (isWritten_write_text _ _ key).ordinary⟩, isOrdinary_freshLine indent⟩

theorem isWritten_stacked {entries : List (Text × TextTree)} (hne : entries ≠ [])
    (hentries : ∀ entry ∈ entries, ∀ behind column,
      IsWritten (Block.write behind indent column entry.2.block)) :
    IsWritten (Block.stacked indent (Block.writeEntries indent (TextTree.blockEntries entries))) := by
  induction entries with
  | nil => exact absurd rfl hne
  | cons entry entries ih =>
    obtain ⟨key, tree⟩ := entry
    obtain ⟨hentry, hentries⟩ := List.forall_mem_cons.mp hentries
    have hfirst := isWritten_writeEntry key hentry
    cases entries with
    | nil => exact hfirst
    | cons next entries =>
      refine (ih (List.cons_ne_nil _ _) hentries).append ?_
      rw [List.forall_mem_append]
      exact ⟨hfirst.ordinary, isOrdinary_freshLine indent⟩

end

theorem isWritten_write (tree : TextTree) (behind : Block.Behind) (indent column : Nat) :
    IsWritten (Block.write behind indent column tree.block) := by
  induction tree generalizing behind indent column with
  | text t => exact isWritten_write_text behind column t
  | map entries ih =>
    cases entries with
    | nil =>
      rw [TextTree.block, TextTree.blockEntries, Block.write_braces]
      exact ⟨List.all_eq_true.mp rfl, '\x7d', rfl, by decide⟩
    | cons entry entries =>
      rw [TextTree.block, TextTree.blockEntries, Block.write_entries]
      refine (isWritten_stacked (List.cons_ne_nil entry entries) fun entry' hentry behind column =>
        ih entry' hentry behind _ column).append ?_
      have hspace : ∀ c ∈ [' '], Style.isOrdinary c = true := List.forall_mem_singleton.mpr rfl
      cases behind with
      | key => exact isOrdinary_freshLine _
      | dash => exact hspace
      | mark => exact hspace

theorem exists_documentText_eq (entries : List (Text × TextTree)) :
    ∃ body, documentText entries = body ++ ['\n'] ∧ IsWritten body := by
  cases entries with
  | nil => exact ⟨"--- \x7b\x7d".toList, rfl, List.all_eq_true.mp rfl, '\x7d', rfl, by decide⟩
  | cons entry entries =>
    have hbody := isWritten_stacked (List.cons_ne_nil entry entries) fun entry' _ behind column =>
      isWritten_write entry'.2 behind 0 column
    have hmark : ∀ c ∈ ['-', '-', '-', '\n'], Style.isOrdinary c = true := List.all_eq_true.mp rfl
    exact ⟨_, rfl, hbody.append hmark⟩

end ClusterRegistrar.Yaml
