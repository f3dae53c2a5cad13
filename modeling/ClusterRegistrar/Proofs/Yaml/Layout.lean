import ClusterRegistrar.Proofs.Yaml.Scanner
import ClusterRegistrar.Proofs.Yaml.Tree

/-! The block layout of trees is scanned into their tokens. A mapping is read key by key: each key leads
to its value and each value to the next key, at whatever column the mapping starts. -/
namespace ClusterRegistrar

open Yaml

namespace TextTree

mutual

def tokens : TextTree → List Token
  | .text t => [.ofText t]
  | .map [] => [.flowMappingStart, .flowMappingEnd]
  | .map (entry :: rest) => .blockMappingStart :: entryTokens (entry :: rest) ++ [.blockEnd]

def entryTokens : List (Text × TextTree) → List Token
  | [] => []
  | (key, tree) :: rest => .key :: .ofText key :: .value :: tokens tree ++ entryTokens rest

end

end TextTree

namespace Yaml

/-- A key that is written on one line is short enough to be read there. -/
def KeyFits (t : Text) : Prop :=
  (Block.text t : Block Nat).isShortKey = true → (Block.keyText 0 (.text t)).length ≤ 1024

instance (t : Text) : Decidable (KeyFits t) := inferInstanceAs (Decidable (_ → _))

namespace Block

variable {behind : Behind} {indent column : Nat}

theorem write_text (t : Text) : write behind indent column (.text t) =
    ' ' :: Scalar.ofText ⟨true, indent + step⟩ (column + 1) t := rfl

theorem write_braces : write behind indent column (.map none false []) = [' ', '\x7b', '\x7d'] := rfl

theorem write_entries (entry : Block Nat × Block Nat) (rest : List (Block Nat × Block Nat)) :
    write behind indent column (.map none false (entry :: rest)) =
      lead (decide (behind ≠ .key)) (indent + step) ++
        stacked (indent + step) (writeEntries (indent + step) (entry :: rest)) := by
  cases behind <;> rfl

def writeEntry (indent : Nat) (key value : Block Nat) : List Char :=
  if key.isShortKey then
    keyText indent key ++ ':' :: write .key indent (indent + (keyText indent key).length + 1) value
  else
    '?' :: write .mark indent (indent + 1) key ++ freshLine indent ++
      ':' :: write .mark indent (indent + 1) value

theorem writeEntries_cons (key value : Block Nat) (rest : List (Block Nat × Block Nat)) :
    writeEntries indent ((key, value) :: rest) =
      writeEntry indent key value :: writeEntries indent rest := rfl

theorem atBlank_write (tree : TextTree) (rest : List Char) :
    atBlank (write behind indent column tree.block ++ rest) = true := by
  cases tree with
  | text t => rfl
  | map entries =>
    cases entries with
    | nil => rfl
    | cons entry entries =>
      rw [TextTree.block, TextTree.blockEntries, write_entries]
      cases behind <;> rfl

theorem keyText_text (key : Text) :
    keyText column (.text key) = Scalar.ofText ⟨false, 0⟩ column key := rfl

theorem not_mem_of_isShortKey {key : Text} (h : (Block.text key : Block Nat).isShortKey = true) :
    '\n' ∉ key.toChars := by
  simp only [isShortKey, Bool.and_eq_true, Bool.not_eq_true', Style.isMultiline] at h
  intro hmem
  have hnot := List.any_eq_false.mp h.1.2 '\n' hmem
  exact hnot rfl

end Block

namespace Scanner

variable {latest latest' : List Token} {outer outer' : List Int} {c : Cursor} {rest : List Char}
  {indent : Int} {start n : Nat}

/-- A tree behind a mark, at a given indentation, is read up to the next token, whatever comes next. -/
def ReadsValue (behind : Block.Behind) (indent : Nat) (tree : TextTree) : Prop :=
  ∀ (latest : List Token) (outer : List Int) (c : Cursor) (column n : Nat) (rest : List Char),
    c.rest = Block.write behind indent column tree.block ++ ('\n' :: List.replicate n ' ' ++ rest) →
    AtContent rest → n ≤ indent → indent ≤ c.column → (behind ≠ .key → c.column = indent + 1) →
      (block latest indent outer (decide (behind ≠ .key)) none c).Leads
        (block (tree.tokens.reverse ++ latest) indent outer true none
          (c.skip ((Block.write behind indent column tree.block).length + (n + 1))))

theorem readsValue_text {behind : Block.Behind} {indent : Nat} (h : indent + 2 < Scalar.width) (t : Text) :
    ReadsValue behind indent (.text t) := by
  intro latest outer c column n rest hrest hcontent hn hcolumn _
  have hplace : (⟨true, indent + 2⟩ : Scalar.Place).HasRoom := fun _ => ⟨Nat.succ_pos _, h⟩
  have hindent : (indent : Int) + 1 ≤ (indent + 2 : Nat) := by omega
  rw [TextTree.block, Block.write_text, List.length_cons, Nat.add_comm (List.length _) 1]
  exact leads_text hplace hindent (Nat.succ_pos _) hrest hcontent (Int.ofNat_le.mpr hcolumn)
    (Int.ofNat_le.mpr hn)

section

variable {key : Text} {tree : TextTree} (hroom : start + 2 < Scalar.width)
  (hvalue : ∀ behind, ReadsValue behind start tree)
  (henters : Enters start latest indent outer latest' outer') (hcolumn : c.column = start)
  (hcontent : AtContent rest) (hn : n ≤ start)

include hvalue henters hcolumn hcontent hn

theorem leads_shortEntry (hkey : KeyFits key) (hshort : (Block.text key : Block Nat).isShortKey = true)
    {column : Nat} (hrest : c.rest = Block.keyText start (.text key) ++
      ':' :: (Block.write .key start column tree.block ++ ('\n' :: List.replicate n ' ' ++ rest))) :
    (block latest indent outer true none c).Leads
      (block (tree.tokens.reverse ++ .value :: .ofText key :: .key :: latest') start outer' true none
        ((c.skip ((Block.keyText start (.text key)).length + 1)).skip
          ((Block.write .key start column tree.block).length + (n + 1)))) := by
  rw [Block.keyText_text] at hrest ⊢
  have hline := Block.not_mem_of_isShortKey hshort
  have hlength : (Scalar.ofText ⟨false, 0⟩ start key).length ≤ 1024 := by
    rw [Scalar.ofText_unfolded start 0]
    exact hkey hshort
  have hinline : ∀ ch ∈ Scalar.ofText ⟨false, 0⟩ start key ++ [':'], IsInline ch := by
    rw [List.forall_mem_append]
    refine ⟨Scalar.forall_mem_ofText (fun _ h => h) ?_ (fun hmem => absurd hmem hline) start,
      List.forall_mem_singleton.mpr (by decide)⟩
    exact nofun
  have hcolon : c.rest = (Scalar.ofText ⟨false, 0⟩ start key ++ [':']) ++ _ :=
    hrest.trans (List.append_cons _ _ _)
  have hskip := Cursor.skip_inline hcolon hinline
  rw [List.length_append, List.length_singleton] at hskip
  refine (leads_simpleKey henters hcolumn rfl hline hrest (Block.atBlank_write tree _) hlength).trans
    (hvalue .key _ _ _ column n rest ?_ hcontent hn ?_ fun hkey => absurd rfl hkey)
  · rw [hskip]
  · rw [hskip, hcolumn]
    exact Nat.le_add_right _ _

include hroom

theorem leads_markedEntry
    (hrest : c.rest = '?' :: (Block.write .mark start (start + 1) (.text key) ++ (Block.freshLine start ++
      ':' :: (Block.write .mark start (start + 1) tree.block ++
        ('\n' :: List.replicate n ' ' ++ rest))))) :
    (block latest indent outer true none c).Leads
      (block (tree.tokens.reverse ++ .value :: .ofText key :: .key :: latest') start outer' true none
        ((((c.skip 1).skip ((Block.write .mark start (start + 1) (.text key)).length + (start + 1))).skip
          1).skip ((Block.write .mark start (start + 1) tree.block).length + (n + 1)))) := by
  have hmark : c.skip 1 = ⟨_, c.index + 1, c.line, c.column + 1⟩ :=
    Cursor.next_inline hrest (by decide)
  have hkeyRest : (c.skip 1).rest = Block.write .mark start (start + 1) (.text key) ++
      (Block.freshLine start ++ ':' :: (Block.write .mark start (start + 1) tree.block ++
        ('\n' :: List.replicate n ' ' ++ rest))) := by rw [hmark]
  have hkeyColumn : (c.skip 1).column = start + 1 := by rw [hmark, hcolumn]
  have hreadsKey : ReadsValue .mark start (.text key) := readsValue_text hroom key
  have hkey := hreadsKey (.key :: latest') outer' (c.skip 1) (start + 1) start _ hkeyRest
    (.cons (by decide) (by decide) (by decide) _) (Nat.le_refl _) (by omega) fun _ => hkeyColumn
  have hline := Cursor.skip_freshLine (Cursor.rest_skip_of_append hkeyRest)
  rw [Cursor.skip_skip] at hline
  refine (leads_keyMark henters hcolumn hrest (Block.atBlank_write (.text key) _)).trans (hkey.trans ?_)
  show (block _ _ _ _ none (((c.skip 1).skip ((Block.write .mark start (start + 1) (.text key)).length +
    (start + 1))))).Leads _
  generalize (c.skip 1).skip ((Block.write .mark start (start + 1) (.text key)).length + (start + 1)) = d
    at hline ⊢
  have hcolonRest : d.rest = ':' :: _ := congrArg Cursor.rest hline
  have hcolonColumn : d.column = start := congrArg Cursor.column hline
  have hcolon : d.skip 1 = ⟨_, d.index + 1, d.line, d.column + 1⟩ :=
    Cursor.next_inline hcolonRest (by decide)
  have hvalueColumn : (d.skip 1).column = start + 1 := by rw [hcolon, hcolonColumn]
  exact (leads_valueMark hcolonColumn hcolonRest (Block.atBlank_write tree _)).trans
    (hvalue .mark _ _ _ (start + 1) n rest (by rw [hcolon]) hcontent hn (by omega) fun _ => hvalueColumn)

theorem leads_entry (hkey : KeyFits key)
    (hrest : c.rest = Block.writeEntry start (.text key) tree.block ++
      ('\n' :: List.replicate n ' ' ++ rest)) :
    (block latest indent outer true none c).Leads
      (block ((TextTree.entryTokens [(key, tree)]).reverse ++ latest') start outer' true none
        (c.skip ((Block.writeEntry start (.text key) tree.block).length + (n + 1)))) := by
  have htokens : (TextTree.entryTokens [(key, tree)]).reverse ++ latest' =
      tree.tokens.reverse ++ .value :: .ofText key :: .key :: latest' := by
    simp [TextTree.entryTokens]
  rw [htokens]
  unfold Block.writeEntry at hrest ⊢
  split at hrest
  · rename_i hshort
    rw [List.append_assoc, List.cons_append] at hrest
    have hlength (name value : List Char) :
        (name ++ ':' :: value).length + (n + 1) = name.length + 1 + (value.length + (n + 1)) := by
      simp only [List.length_append, List.length_cons]
      omega
    have hleads := leads_shortEntry hvalue henters hcolumn hcontent hn hkey hshort hrest
    rw [Cursor.skip_skip] at hleads
    rw [if_pos hshort, hlength]
    exact hleads
  · rename_i hlong
    simp only [List.cons_append, List.append_assoc] at hrest
    have hlength (name value : List Char) :
        ('?' :: name ++ Block.freshLine start ++ ':' :: value).length + (n + 1) =
          1 + (name.length + (start + 1)) + 1 + (value.length + (n + 1)) := by
      simp only [List.length_append, List.length_cons, Block.freshLine, List.length_replicate]
      omega
    have hleads := leads_markedEntry hroom hvalue henters hcolumn hcontent hn hrest
    simp only [Cursor.skip_skip] at hleads
    rw [if_neg hlong, hlength]
    exact hleads

end

theorem atContent_stacked (start : Nat) {entries : List (Text × TextTree)} (hne : entries ≠ [])
    (behind : List Char) : AtContent (Block.stacked start
      (Block.writeEntries start (TextTree.blockEntries entries)) ++ behind) := by
  have hentry (key : Text) (tree : TextTree) (behind : List Char) :
      AtContent (Block.writeEntry start (.text key) tree.block ++ behind) := by
    unfold Block.writeEntry
    split
    · rw [List.append_assoc, Block.keyText_text]
      exact Scalar.atContent_ofText _ _ _ (plainLength_colon (Block.atBlank_write tree behind))
    · exact .cons (by decide) (by decide) (by decide) _
  match entries with
  | [(key, tree)] => exact hentry key tree behind
  | (key, tree) :: (next, nextTree) :: rest =>
    show AtContent (Block.writeEntry start (.text key) tree.block ++ _ ++ _ ++ behind)
    rw [List.append_assoc, List.append_assoc]
    exact hentry key tree _

theorem leads_entries (hroom : start + 2 < Scalar.width) {entries : List (Text × TextTree)}
    (hne : entries ≠ [])
    (hkeys : ∀ entry ∈ entries, KeyFits entry.1)
    (hvalues : ∀ entry ∈ entries, ∀ behind, ReadsValue behind start entry.2)
    (henters : Enters start latest indent outer latest' outer') (hcolumn : c.column = start)
    (hrest : c.rest =
      Block.stacked start (Block.writeEntries start (TextTree.blockEntries entries)) ++
        ('\n' :: List.replicate n ' ' ++ rest))
    (hcontent : AtContent rest) (hn : n ≤ start) :
    (block latest indent outer true none c).Leads
      (block ((TextTree.entryTokens entries).reverse ++ latest') start outer' true none
        (c.skip ((Block.stacked start
          (Block.writeEntries start (TextTree.blockEntries entries))).length + (n + 1)))) := by
  induction entries generalizing latest indent outer latest' outer' c with
  | nil => exact absurd rfl hne
  | cons entry entries ih =>
    obtain ⟨key, tree⟩ := entry
    obtain ⟨hkey, hkeys⟩ := List.forall_mem_cons.mp hkeys
    obtain ⟨hvalue, hvalues⟩ := List.forall_mem_cons.mp hvalues
    rw [TextTree.blockEntries, Block.writeEntries_cons] at hrest ⊢
    cases entries with
    | nil => exact leads_entry hroom hvalue henters hcolumn hcontent hn hkey hrest
    | cons next entries =>
      have hstacked : Block.stacked start (Block.writeEntry start (.text key) tree.block ::
          Block.writeEntries start (TextTree.blockEntries (next :: entries))) =
            Block.writeEntry start (.text key) tree.block ++ Block.freshLine start ++
              Block.stacked start (Block.writeEntries start (TextTree.blockEntries (next :: entries))) := rfl
      have htokens : TextTree.entryTokens ((key, tree) :: next :: entries) =
          TextTree.entryTokens [(key, tree)] ++ TextTree.entryTokens (next :: entries) := by
        simp [TextTree.entryTokens]
      rw [hstacked, List.append_assoc, List.append_assoc] at hrest
      have hnext := atContent_stacked start (List.cons_ne_nil next entries)
        ('\n' :: List.replicate n ' ' ++ rest)
      have hline := Cursor.skip_freshLine (Cursor.rest_skip_of_append hrest)
      rw [Cursor.skip_skip] at hline
      have hfirst := leads_entry hroom hvalue henters hcolumn hnext (Nat.le_refl start) hkey hrest
      have hothers := ih (List.cons_ne_nil next entries) hkeys hvalues
        (.next ((TextTree.entryTokens [(key, tree)]).reverse ++ latest') outer')
        (congrArg Cursor.column hline) (congrArg Cursor.rest hline)
      have hleads := hfirst.trans hothers
      rw [Cursor.skip_skip] at hleads
      have hlength : (Block.stacked start (Block.writeEntry start (.text key) tree.block ::
          Block.writeEntries start (TextTree.blockEntries (next :: entries)))).length =
            (Block.writeEntry start (.text key) tree.block).length + (start + 1) +
              (Block.stacked start
                (Block.writeEntries start (TextTree.blockEntries (next :: entries)))).length := by
        simp only [hstacked, List.length_append, Block.freshLine, List.length_cons, List.length_replicate]
      rw [htokens, List.reverse_append, List.append_assoc, hlength, Nat.add_assoc _ _ (n + 1)]
      exact hleads

theorem leads_lead (latest : List Token) (outer : List Int) {behind : Block.Behind} {indent : Nat}
    (hrest : c.rest = Block.lead (decide (behind ≠ .key)) (indent + 2) ++ rest) (hcontent : AtContent rest)
    (hcolumn : behind ≠ .key → c.column = indent + 1) :
    (block latest indent outer (decide (behind ≠ .key)) none c).Leads
        (block latest indent outer true none
          (c.skip (Block.lead (decide (behind ≠ .key)) (indent + 2)).length)) ∧
      (c.skip (Block.lead (decide (behind ≠ .key)) (indent + 2)).length).column = indent + 2 := by
  have hend := Cursor.rest_skip_of_append hrest
  have hshorter : (c.skip (Block.lead (decide (behind ≠ .key)) (indent + 2)).length).rest.length ≤
      c.rest.length := by
    rw [hend, hrest, List.length_append]
    exact Nat.le_add_left _ _
  by_cases hkey : behind = .key
  · rw [decide_eq_false (not_not.mpr hkey)] at *
    have hlength : (Block.lead false (indent + 2)).length = indent + 2 + 1 := by
      simp [Block.lead, Block.freshLine]
    rw [hlength] at hend hshorter ⊢
    refine ⟨leads_of_settles (settles_freshLine hrest hcontent (forgets_none _)) ?_ hshorter, ?_⟩
    · rwa [hend]
    · rw [Cursor.skip_freshLine hrest]
  · rw [decide_eq_true hkey] at *
    refine ⟨leads_of_settles (settles_spaces (n := 1) hrest hcontent) ?_ hshorter, ?_⟩
    · rwa [hend]
    · have hspace : c.skip 1 = ⟨rest, c.index + 1, c.line, c.column + 1⟩ :=
        Cursor.next_inline hrest (by decide)
      show (c.skip 1).column = indent + 2
      rw [hspace, hcolumn hkey]

/-- The values of a document are read, as deep as they are. -/
theorem readsValue {tree : TextTree} {room : Nat} (hfits : tree.Fits room)
    (hkeys : tree.Everywhere KeyFits fun _ => True) (behind : Block.Behind) {indent : Nat}
    (hroom : indent + 2 * room + 2 < Scalar.width) : ReadsValue behind indent tree := by
  induction tree generalizing room behind indent with
  | text t => exact readsValue_text (by omega) t
  | map entries ih =>
    cases entries with
    | nil =>
      intro latest outer c column n rest hrest hcontent _ hcolumn _
      rw [TextTree.block, TextTree.blockEntries, Block.write_braces] at hrest ⊢
      exact leads_braces hrest hcontent (Int.ofNat_le.mpr hcolumn)
    | cons entry entries =>
      obtain _ | @⟨room, _, -, hinner⟩ := hfits
      obtain _ | ⟨hkeys, hinnerKeys⟩ := hkeys
      have hvalues : ∀ entry' ∈ entry :: entries, ∀ behind, ReadsValue behind (indent + 2) entry'.2 :=
        fun entry' hentry behind => ih entry' hentry (hinner entry' hentry) (hinnerKeys entry' hentry)
          behind (by omega)
      intro latest outer c column n rest hrest hcontent hn hcolumn hmark
      have hwritten : Block.write behind indent column (TextTree.map (entry :: entries)).block =
          Block.lead (decide (behind ≠ .key)) (indent + 2) ++ Block.stacked (indent + 2)
            (Block.writeEntries (indent + 2) (TextTree.blockEntries (entry :: entries))) :=
        Block.write_entries _ _
      rw [hwritten, List.append_assoc] at hrest
      obtain ⟨hlead, hstart⟩ :=
        leads_lead latest outer hrest (atContent_stacked (indent + 2) (List.cons_ne_nil entry entries) _) hmark
      have hfirst : Enters (indent + 2) latest indent outer (.blockMappingStart :: latest)
          (indent :: outer) := .first (by omega)
      have hentries := leads_entries (by omega) (List.cons_ne_nil entry entries) hkeys hvalues hfirst hstart
        (Cursor.rest_skip_of_append hrest) hcontent (by omega)
      have hline := Cursor.skip_freshLine (Cursor.rest_skip_of_append (Cursor.rest_skip_of_append hrest))
      have hleads := hlead.trans hentries
      simp only [Cursor.skip_skip] at hleads hline
      have htokens : (TextTree.map (entry :: entries)).tokens.reverse ++ latest =
          .blockEnd :: ((TextTree.entryTokens (entry :: entries)).reverse ++
            .blockMappingStart :: latest) := by
        simp [TextTree.tokens]
      rw [htokens, hwritten, List.length_append, Nat.add_assoc]
      rw [Nat.add_assoc] at hline
      refine hleads.trans (leads_close ?_ ?_)
      · rw [hline]
        exact hcontent
      · rw [hline]
        show (n : Int) < (indent + 2 : Nat)
        omega

end Scanner

end Yaml
end ClusterRegistrar
