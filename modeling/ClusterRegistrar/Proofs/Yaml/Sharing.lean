import ClusterRegistrar.Proofs.Value.Folding
import ClusterRegistrar.Yaml.Writer.Layout

/-! Writing values that match. Anchors are numbered in the order of the aliases that need them, so the
text of a document shows which of its parts are one object, and nothing of where they were read.
Values that match are written alike: their marks correspond to each other at every step, and a cell
is not entered while it is being written, so the steps last on either side. -/
namespace ClusterRegistrar.Yaml.Sharing

variable {M : Correspondence}

/-! ### Numbering -/

/-- Blocks of one form, with marks that correspond to each other. -/
inductive Alike (M : Correspondence) : Block Mark → Block Mark → Prop where
  | again {m n : Mark} (h : M.relates m n) : Alike M (.alias m) (.alias n)
  | word {m n : Option Mark} (h : Option.Rel M.relates m n) (tag : Tag) (text : List Char) :
    Alike M (.word m tag text) (.word n tag text)
  | text (t : Text) : Alike M (.text t) (.text t)
  | binary (b : ByteArray) : Alike M (.binary b) (.binary b)
  | seq {m n : Option Mark} {items others : List (Block Mark)} (h : Option.Rel M.relates m n)
    (isPair : Bool) (hitems : List.Forall₂ (Alike M) items others) :
    Alike M (.seq m isPair items) (.seq n isPair others)
  | map {m n : Option Mark} {entries others : List (Block Mark × Block Mark)}
    (h : Option.Rel M.relates m n) (isSet : Bool)
    (hentries : List.Forall₂ (Prod.RProd (Alike M) (Alike M)) entries others) :
    Alike M (.map m isSet entries) (.map n isSet others)

mutual

theorem aliases_rel : ∀ {b c : Block Mark}, Alike M b c →
    List.Forall₂ M.relates (aliases b) (aliases c)
  | .alias _, _, h => by
    cases h with
    | again h => exact .cons h .nil
  | .word .., _, h => by
    cases h
    exact .nil
  | .text _, _, h => by
    cases h
    exact .nil
  | .binary _, _, h => by
    cases h
    exact .nil
  | .seq .., _, h => by
    cases h with
    | seq _ _ hitems => exact aliasesAll_rel hitems
  | .map .., _, h => by
    cases h with
    | map _ _ hentries => exact aliasesEntries_rel hentries

theorem aliasesAll_rel : ∀ {items others : List (Block Mark)}, List.Forall₂ (Alike M) items others →
    List.Forall₂ M.relates (aliasesAll items) (aliasesAll others)
  | [], _, h => by
    cases h
    exact .nil
  | _ :: _, _, h => by
    cases h with
    | cons h hrest => exact List.rel_append (aliases_rel h) (aliasesAll_rel hrest)

theorem aliasesEntries_rel : ∀ {entries others : List (Block Mark × Block Mark)},
    List.Forall₂ (Prod.RProd (Alike M) (Alike M)) entries others →
      List.Forall₂ M.relates (aliasesEntries entries) (aliasesEntries others)
  | [], _, h => by
    cases h
    exact .nil
  | (_, _) :: _, _, h => by
    cases h with
    | cons h hrest =>
      cases h with
      | intro hkey hvalue =>
        exact List.rel_append (List.rel_append (aliases_rel hkey) (aliases_rel hvalue))
          (aliasesEntries_rel hrest)

end

theorem eraseDups_rel {marks others : List Mark} (h : List.Forall₂ M.relates marks others) :
    List.Forall₂ M.relates marks.eraseDups others.eraseDups := by
  cases h with
  | nil => exact .nil
  | @cons m n rest more hmark hrest =>
    rw [List.eraseDups_cons, List.eraseDups_cons]
    refine .cons hmark (eraseDups_rel (List.rel_filter ?_ hrest))
    intro m' n' hmark'
    simp only [Bool.not_eq_true', beq_eq_false_iff_ne, ne_eq, M.eq_iff hmark' hmark]
termination_by marks.length
decreasing_by
  subst_vars
  exact Nat.lt_succ_of_le (List.length_filter_le _ _)

theorem anchorOf_eq {needed others : List Mark} (h : List.Forall₂ M.relates needed others)
    {m n : Mark} (hmark : M.relates m n) : anchorOf needed m = anchorOf others n := by
  have hindex : needed.idxOf? m = others.idxOf? n := by
    induction h with
    | nil => rfl
    | cons hfirst _ ih =>
      rw [List.idxOf?_cons, List.idxOf?_cons, ih]
      simp only [beq_iff_eq, M.eq_iff hfirst hmark]
  rw [anchorOf, anchorOf, hindex]

theorem bind_anchorOf_eq {needed others : List Mark} (h : List.Forall₂ M.relates needed others)
    {m n : Option Mark} (hmarks : Option.Rel M.relates m n) :
    m.bind (anchorOf needed) = n.bind (anchorOf others) := by
  cases hmarks with
  | none => rfl
  | some hmark => exact anchorOf_eq h hmark

mutual

theorem number_eq {needed needed' : List Mark} (hneeded : List.Forall₂ M.relates needed needed') :
    ∀ {b c : Block Mark}, Alike M b c → number needed b = number needed' c
  | .alias _, _, h => by
    cases h with
    | again h => rw [number, number, anchorOf_eq hneeded h]
  | .word .., _, h => by
    cases h with
    | word h => rw [number, number, bind_anchorOf_eq hneeded h]
  | .text _, _, h => by
    cases h
    rfl
  | .binary _, _, h => by
    cases h
    rfl
  | .seq .., _, h => by
    cases h with
    | seq h _ hitems =>
      rw [number, number, bind_anchorOf_eq hneeded h, numberAll_eq hneeded hitems]
  | .map .., _, h => by
    cases h with
    | map h _ hentries =>
      rw [number, number, bind_anchorOf_eq hneeded h, numberEntries_eq hneeded hentries]

theorem numberAll_eq {needed needed' : List Mark} (hneeded : List.Forall₂ M.relates needed needed') :
    ∀ {items others : List (Block Mark)}, List.Forall₂ (Alike M) items others →
      numberAll needed items = numberAll needed' others
  | [], _, h => by
    cases h
    rfl
  | _ :: _, _, h => by
    cases h with
    | cons h hrest => rw [numberAll, numberAll, number_eq hneeded h, numberAll_eq hneeded hrest]

theorem numberEntries_eq {needed needed' : List Mark}
    (hneeded : List.Forall₂ M.relates needed needed') :
    ∀ {entries others : List (Block Mark × Block Mark)},
      List.Forall₂ (Prod.RProd (Alike M) (Alike M)) entries others →
        numberEntries needed entries = numberEntries needed' others
  | [], _, h => by
    cases h
    rfl
  | (_, _) :: _, _, h => by
    cases h with
    | cons h hrest =>
      cases h with
      | intro hkey hvalue =>
        rw [numberEntries, numberEntries, number_eq hneeded hkey, number_eq hneeded hvalue,
          numberEntries_eq hneeded hrest]

end

/-! ### Marking -/

/-- Two computations that start where marks correspond to each other and some marks are known, and
end in the same way: with related results, more marks, and marks that correspond. -/
def Agree (M : Correspondence) (known : List Mark) (R : α → β → Prop) (x : Marking α)
    (y : Marking β) : Prop :=
  ∀ s s', known ⊆ s → List.Forall₂ M.relates s s' →
    Except.Agree (fun r r' => R r.1 r'.1 ∧ s ⊆ r.2 ∧ List.Forall₂ M.relates r.2 r'.2) (x.run s)
      (y.run s')

namespace Agree

variable {known : List Mark} {R : α → β → Prop}

theorem pure {a : α} {b : β} (h : R a b) :
    Agree M known R (Pure.pure a : Marking α) (Pure.pure b : Marking β) :=
  fun s _ _ hs => .ok ⟨h, List.Subset.refl s, hs⟩

theorem throw (f : Fault) :
    Agree M known R (MonadExcept.throw f : Marking α) (MonadExcept.throw f : Marking β) :=
  fun _ _ _ _ => .error f

theorem bind {S : γ → δ → Prop} {x : Marking α} {y : Marking β} {f : α → Marking γ}
    {g : β → Marking δ} (h : Agree M known R x y)
    (hfg : ∀ a b, R a b → Agree M known S (f a) (g b)) : Agree M known S (x >>= f) (y >>= g) := by
  intro s s' hknown hs
  rw [StateT.run_bind, StateT.run_bind]
  refine (h s s' hknown hs).bind ?_
  rintro ⟨a, t⟩ ⟨b, t'⟩ ⟨hab, hmore, ht⟩
  refine (hfg a b hab t t' (List.Subset.trans hknown hmore) ht).imp ?_
  rintro ⟨c, u⟩ ⟨d, u'⟩ ⟨hcd, hstill, hu⟩
  exact ⟨hcd, List.Subset.trans hmore hstill, hu⟩

theorem weaken {more : List Mark} (hmore : known ⊆ more) {x : Marking α} {y : Marking β}
    (h : Agree M known R x y) : Agree M more R x y :=
  fun s s' hs => h s s' (List.Subset.trans hmore hs)

theorem mapM {S : γ → δ → Prop} {f : α → Marking γ} {g : β → Marking δ} {as : List α} {bs : List β}
    (h : List.Forall₂ R as bs) (hfg : ∀ a b, R a b → Agree M known S (f a) (g b)) :
    Agree M known (List.Forall₂ S) (as.mapM f) (bs.mapM g) := by
  induction h with
  | nil => exact .pure .nil
  | cons hab _ ih =>
    rw [List.mapM_cons, List.mapM_cons]
    exact (hfg _ _ hab).bind fun _ _ hfirst => ih.bind fun _ _ hrest => .pure (.cons hfirst hrest)

end Agree

theorem occur_of_mem {m : Mark} {s : List Mark} (h : m ∈ s) (first : Marking (Block Mark)) :
    (occur m first).run s = .ok (.alias m, s) := by
  have hrun : (occur m first).run s =
      (if s.contains m then return .alias m else modify (m :: ·) >>= fun _ => first :
        Marking (Block Mark)).run s := rfl
  rw [hrun, if_pos (List.contains_iff_mem.mpr h)]
  rfl

theorem occur_of_not_mem {m : Mark} {s : List Mark} (h : m ∉ s) (first : Marking (Block Mark)) :
    (occur m first).run s = first.run (m :: s) := by
  have hrun : (occur m first).run s =
      (if s.contains m then return .alias m else modify (m :: ·) >>= fun _ => first :
        Marking (Block Mark)).run s := rfl
  rw [hrun, if_neg (fun hmem => h (List.contains_iff_mem.mp hmem))]
  rfl

/-- What is written at the first occurrence only matters where that has not been met. -/
theorem Agree.occur {known : List Mark} {m n : Mark} (hmark : M.relates m n)
    {first other : Marking (Block Mark)}
    (h : m ∉ known → Agree M (m :: known) (Alike M) first other) :
    Agree M known (Alike M) (occur m first) (occur n other) := by
  intro s s' hknown hs
  have hmem : m ∈ s ↔ n ∈ s' := List.rel_mem M.unique hmark hs
  by_cases hm : m ∈ s
  · rw [occur_of_mem hm, occur_of_mem (hmem.mp hm)]
    exact .ok ⟨.again hmark, List.Subset.refl s, hs⟩
  · rw [occur_of_not_mem hm, occur_of_not_mem (fun hn => hm (hmem.mpr hn))]
    refine (h (fun hm' => hm (hknown hm')) (m :: s) (n :: s') ?_ (.cons hmark hs)).imp ?_
    · exact List.cons_subset_cons m hknown
    · rintro ⟨b, t⟩ ⟨c, t'⟩ ⟨hbc, hmore, ht⟩
      exact ⟨hbc, List.Subset.trans (List.subset_cons_self m s) hmore, ht⟩

/-! ### Parts, cells and values -/

variable {known : List Mark}

theorem agree_occurAt {o o' : Option Origin}
    (h : Option.Rel (fun p q => M.relates (.atom p) (.atom q)) o o') (tag : Tag)
    (text : List Char) : Agree M known (Alike M) (occurAt o tag text) (occurAt o' tag text) := by
  cases h with
  | none => exact .pure (.word .none tag text)
  | some h => exact .occur h fun _ => .pure (.word (.some h) tag text)

theorem agree_ofAtom {a b : Atom} (h : a.Matches M b) :
    Agree M known (Alike M) (ofAtom a) (ofAtom b) := by
  cases h with
  | plain h =>
    cases a with
    | null | bool | float => exact .pure (.word .none _ _)
    | int i =>
      dsimp only [ofAtom]
      generalize Numeral.decimalInt? i = digits?
      cases digits? with
      | none => exact .throw _
      | some digits => exact .pure (.word .none _ _)
    | str t => exact .pure (.text t)
    | bytes b => exact .pure (.binary b)
    | date d o | time d o =>
      cases h
      exact agree_occurAt .none _ _
  | float => exact .pure (.word .none _ _)
  | date h | time h => exact agree_occurAt (.some h) _ _

theorem agree_deeper (isEmpty : Bool) (room : Nat) :
    Agree M known (· = ·) (deeper isEmpty room) (deeper isEmpty room) := by
  unfold deeper
  split
  · exact .pure rfl
  · cases room with
    | zero => exact .throw _
    | succ room => exact .pure rfl

theorem agree_ofMembers {members others : List Atom}
    (h : List.Forall₂ (Atom.Matches M) members others) :
    Agree M known (List.Forall₂ (Prod.RProd (Alike M) (Alike M))) (ofMembers members)
      (ofMembers others) :=
  .mapM h fun _ _ hmember =>
    (agree_ofAtom hmember).bind fun _ _ hblock => .pure (.intro hblock (.word .none _ _))

theorem agree_ofPart {d e : Nat} {cell cell' : Nat → Nat → Marking (Block Mark)}
    (hcells : ∀ room i j, M.cells d e i j →
      Agree M known (Alike M) (cell room i) (cell' room j)) {p q : Part} (h : p.Matches M d e q)
    (room : Nat) : Agree M known (Alike M) (ofPart cell room p) (ofPart cell' room q) := by
  induction h generalizing room with
  | atom h => exact agree_ofAtom h
  | cell h => exact hcells room _ _ h
  | pair _ _ hfirst hsecond =>
    refine (agree_deeper false room).bind ?_
    rintro room _ rfl
    refine (hfirst room).bind fun _ _ hblock => (hsecond room).bind fun _ _ hother => ?_
    exact .pure (.seq .none true (.cons hblock (.cons hother .nil)))

private theorem exists_step {size steps : Nat} {around : List Nat} (hdistinct : around.Nodup)
    (hbounds : ∀ k ∈ around, k < size) (hsteps : size < steps + around.length) :
    ∃ rest, steps = rest + 1 := by
  have hlength := hdistinct.length_le_of_subset fun k hk => List.mem_range.mpr (hbounds k hk)
  rw [List.length_range] at hlength
  exact Nat.exists_eq_succ_of_ne_zero (by omega)

theorem agree_ofCell {g h : Graph} (hgraph : g.Matches M h) {steps steps' i j : Nat}
    {around around' : List Nat} (hij : M.cells g.document h.document i j)
    (haround : List.Forall₂ (M.cells g.document h.document) around around')
    (hdistinct : around.Nodup) (hsteps : g.cells.size < steps + around.length)
    (hsteps' : h.cells.size < steps' + around'.length) (room : Nat) :
    Agree M (around.map (.cell g.document)) (Alike M) (ofCell g steps room i)
      (ofCell h steps' room j) := by
  have hunique := M.biUnique_cells g.document h.document
  induction steps generalizing steps' i j around around' room with
  | zero =>
    obtain ⟨_, hstep⟩ := exists_step hdistinct
      (forall_left_of_forall₂ haround fun k l hkl => (hgraph k l hkl).1) hsteps
    cases hstep
  | succ steps ih =>
    obtain ⟨steps', rfl⟩ := exists_step ((List.rel_nodup hunique haround).mp hdistinct)
      (forall_right_of_forall₂ haround fun k l hkl => (hgraph k l hkl).2.1) hsteps'
    obtain ⟨-, -, hlayer⟩ := hgraph i j hij
    refine .occur hij fun hnot => ?_
    rw [← List.map_cons]
    have hi : i ∉ around := fun hmem => hnot (List.mem_map_of_mem hmem)
    have hcells : ∀ room k l, M.cells g.document h.document k l →
        Agree M ((i :: around).map (.cell g.document)) (Alike M) (ofCell g steps room k)
          (ofCell h steps' room l) := by
      intro room k l hkl
      refine ih hkl (.cons hij haround) (List.nodup_cons.mpr ⟨hi, hdistinct⟩) ?_ ?_ room
      · rw [List.length_cons]
        omega
      · rw [List.length_cons]
        omega
    rw [hlayer.isEmpty_eq]
    refine (agree_deeper _ room).bind ?_
    rintro room _ rfl
    have hpart {p q : Part} (hpq : p.Matches M g.document h.document q) :
        Agree M ((i :: around).map (.cell g.document)) (Alike M) (ofPart (ofCell g steps) room p)
          (ofPart (ofCell h steps') room q) := agree_ofPart hcells hpq room
    generalize g.cell i = c, h.cell j = c' at hlayer
    cases hlayer with
    | list hitems =>
      exact (Agree.mapM hitems fun _ _ => hpart).bind fun _ _ hblocks =>
        .pure (.seq (.some hij) false hblocks)
    | pair hfirst hsecond =>
      exact (hpart hfirst).bind fun _ _ hblock => (hpart hsecond).bind fun _ _ hother =>
        .pure (.seq (.some hij) true (.cons hblock (.cons hother .nil)))
    | set hmembers =>
      exact (agree_ofMembers hmembers).bind fun _ _ hblocks =>
        .pure (.map (.some hij) true hblocks)
    | map hentries =>
      refine (Agree.mapM (S := Prod.RProd (Alike M) (Alike M)) hentries ?_).bind
        fun _ _ hblocks => .pure (.map (.some hij) false hblocks)
      rintro _ _ ⟨hkey, hvalue⟩
      exact (agree_ofAtom hkey).bind fun _ _ hname => (hpart hvalue).bind fun _ _ hblock =>
        .pure (.intro hname hblock)

mutual

theorem agree_ofValue : ∀ {v w : Value}, v.Matches M w → ∀ room,
    Agree M known (Alike M) (ofValue room v) (ofValue room w)
  | .atom _, _, h, _ => by
    cases h with
    | atom h => exact agree_ofAtom h
  | .list _, _, h, room => by
    cases h with
    | list h =>
      rw [ofValue, ofValue, isEmpty_eq_of_forall₂ h]
      refine (agree_deeper _ room).bind ?_
      rintro room _ rfl
      exact (agree_ofValues h room).bind fun _ _ hblocks => .pure (.seq .none false hblocks)
  | .pair _ _, _, h, room => by
    cases h with
    | pair hfirst hsecond =>
      refine (agree_deeper false room).bind ?_
      rintro room _ rfl
      exact (agree_ofValue hfirst room).bind fun _ _ hblock =>
        (agree_ofValue hsecond room).bind fun _ _ hother =>
          .pure (.seq .none true (.cons hblock (.cons hother .nil)))
  | .map _, _, h, room => by
    cases h with
    | map h =>
      rw [ofValue, ofValue, isEmpty_eq_of_forall₂ h]
      refine (agree_deeper _ room).bind ?_
      rintro room _ rfl
      exact (agree_ofEntries h room).bind fun _ _ hblocks => .pure (.map .none false hblocks)
  | .node _ _, _, h, room => by
    cases h with
    | node hcell hgraph =>
      refine .weaken (List.nil_subset _) ?_
      exact agree_ofCell hgraph hcell .nil List.nodup_nil (Nat.lt_succ_self _)
        (Nat.lt_succ_self _) room

theorem agree_ofValues : ∀ {items others : List Value},
    List.Forall₂ (Value.Matches M) items others → ∀ room,
      Agree M known (List.Forall₂ (Alike M)) (ofValues room items) (ofValues room others)
  | [], _, h, _ => by
    cases h
    exact .pure .nil
  | _ :: _, _, h, room => by
    cases h with
    | cons h hrest =>
      exact (agree_ofValue h room).bind fun _ _ hblock =>
        (agree_ofValues hrest room).bind fun _ _ hblocks => .pure (.cons hblock hblocks)

theorem agree_ofEntries : ∀ {entries others : List (Atom × Value)},
    Entries.Matches M entries others → ∀ room,
      Agree M known (List.Forall₂ (Prod.RProd (Alike M) (Alike M))) (ofEntries room entries)
        (ofEntries room others)
  | [], _, h, _ => by
    cases h
    exact .pure .nil
  | (_, _) :: _, _, h, room => by
    cases h with
    | cons h hrest =>
      cases h with
      | mk hkey hvalue =>
        exact (agree_ofAtom hkey).bind fun _ _ hname =>
          (agree_ofValue hvalue room).bind fun _ _ hblock =>
            (agree_ofEntries hrest room).bind fun _ _ hblocks =>
              .pure (.cons (.intro hname hblock) hblocks)

end

/-- Values that match are the same block. -/
theorem blockOf_eq {v w : Value} (h : v.Matches M w) : blockOf v = blockOf w := by
  have hagree : Agree M [] (Alike M) (ofValue maxDepth v) (ofValue maxDepth w) :=
    agree_ofValue h maxDepth
  refine (hagree [] [] (List.Subset.refl _) .nil).bind_eq ?_
  rintro ⟨b, _⟩ ⟨c, _⟩ ⟨hbc, -, -⟩
  exact congrArg Except.ok (number_eq (eraseDups_rel (aliases_rel hbc)) hbc)

end ClusterRegistrar.Yaml.Sharing

namespace ClusterRegistrar.Yaml

variable {M : Correspondence}

theorem writeDocument_eq {entries others : Entries} (h : entries.Matches M others) :
    writeDocument entries = writeDocument others := by
  rw [writeDocument, writeDocument, Sharing.blockOf_eq (.map h)]

theorem writeDocuments_eq {docs others : List Entries}
    (h : List.Forall₂ (fun doc other => ∃ M : Correspondence, doc.Matches M other) docs others) :
    writeDocuments docs = writeDocuments others := by
  rw [writeDocuments, writeDocuments, mapM_eq_of_forall₂ h fun _ _ ⟨_, h⟩ => writeDocument_eq h]

end ClusterRegistrar.Yaml
