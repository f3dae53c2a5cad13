import ClusterRegistrar.Proofs.Run
import ClusterRegistrar.Value.Encoded
import ClusterRegistrar.Value.Shown
import ClusterRegistrar.Yaml.Writer.Sharing
import Mathlib.Logic.Relator

/-! Values that differ in nothing but where they were read. A value that was read refers to its cells
by the number of its document, and some atoms have an origin; both change when a document is moved to
another place of a file, or to another file. Two values match if they are the same up to these
references, and what is one object on one side is one object on the other. All that looks at values
one layer deep does the same with values that match. Where each value of a list matches its own
counterpart by a correspondence of its own, cells are one to one within each value only: two values of
the list may share cells where their counterparts share none, and the other way round. -/
namespace ClusterRegistrar

open Yaml.Sharing (Mark)

/-- A one to one correspondence between objects that were read: cells and atoms with an origin. -/
structure Correspondence where
  relates : Mark → Mark → Prop
  unique : Relator.BiUnique relates

def Correspondence.empty : Correspondence where
  relates _ _ := False
  unique := ⟨fun _ _ _ h => h.elim, fun _ _ _ h => h.elim⟩

/-! ### Atoms -/

def Atom.origin? : Atom → Option Origin
  | .float _ origin | .date _ origin | .time _ origin => origin
  | _ => none

inductive Atom.Matches (M : Correspondence) : Atom → Atom → Prop where
  | plain {a : Atom} (h : a.origin? = none) : Matches M a a
  | float {x : Binary64} {o p : Origin} (h : M.relates (.atom o) (.atom p)) :
    Matches M (.float x (some o)) (.float x (some p))
  | date {d : Date} {o p : Origin} (h : M.relates (.atom o) (.atom p)) :
    Matches M (.date d (some o)) (.date d (some p))
  | time {t : DateTime} {o p : Origin} (h : M.relates (.atom o) (.atom p)) :
    Matches M (.time t (some o)) (.time t (some p))

variable {M : Correspondence}

theorem Correspondence.eq_iff {a b c d : Mark} (h : M.relates a c) (h' : M.relates b d) :
    a = b ↔ c = d := by
  constructor
  · rintro rfl
    exact M.unique.2 h h'
  · rintro rfl
    exact M.unique.1 h h'

namespace Atom.Matches

theorem truthy_eq {a b : Atom} (h : a.Matches M b) : a.truthy = b.truthy := by
  cases h <;> rfl

/-- Only the equality of NaN looks at origins, and it asks no more than whether they are the same. -/
theorem same_eq {a b c d : Atom} (h : a.Matches M c) (h' : b.Matches M d) :
    a.same b = c.same d := by
  cases h with
  | plain hplain =>
    cases h' with
    | plain => rfl
    | _ => cases a <;> cases hplain <;> simp [same, sameNumber, asInt?]
  | float ho =>
    cases h' with
    | plain hplain => cases b <;> cases hplain <;> simp [same, sameNumber, asInt?]
    | float hp =>
      have horigins := M.eq_iff ho hp
      rw [Mark.atom.injEq, Mark.atom.injEq] at horigins
      simp [same, sameNumber, asInt?, horigins]
    | date | time => rfl
  | date ho | time ho =>
    cases h' with
    | plain hplain => cases b <;> cases hplain <;> rfl
    | _ => rfl

end Atom.Matches

/-- A correspondence that relates the origins of atoms in a given way. -/
def Correspondence.Keeps (M : Correspondence) (origins : Origin → Origin → Prop) : Prop :=
  ∀ o p, M.relates (.atom o) (.atom p) ↔ origins o p

theorem Atom.Matches.of_keeps {origins : Origin → Origin → Prop} (hM : M.Keeps origins)
    {N : Correspondence} (hN : N.Keeps origins) {a b : Atom} (h : a.Matches M b) : a.Matches N b := by
  cases h with
  | plain h => exact .plain h
  | float h => exact .float ((hN _ _).mpr ((hM _ _).mp h))
  | date h => exact .date ((hN _ _).mpr ((hM _ _).mp h))
  | time h => exact .time ((hN _ _).mpr ((hM _ _).mp h))

/-! ### Layers -/

inductive Entry.Rel (A : Atom → Atom → Prop) (R : α → β → Prop) : Atom × α → Atom × β → Prop where
  | mk {key other : Atom} {a : α} {b : β} (hkey : A key other) (h : R a b) :
    Rel A R (key, a) (other, b)

inductive Layer.Rel (A : Atom → Atom → Prop) (R : α → β → Prop) : Layer α → Layer β → Prop where
  | list {items : List α} {others : List β} (h : List.Forall₂ R items others) :
    Rel A R (.list items) (.list others)
  | pair {a b : α} {c d : β} (hfirst : R a c) (hsecond : R b d) : Rel A R (.pair a b) (.pair c d)
  | set {members others : List Atom} (h : List.Forall₂ A members others) :
    Rel A R (.set members) (.set others)
  | map {entries : Keyed α} {others : Keyed β} (h : List.Forall₂ (Entry.Rel A R) entries others) :
    Rel A R (.map entries) (.map others)

theorem Layer.Rel.map_of_imp {A : Atom → Atom → Prop} {R : α → β → Prop} {S : γ → δ → Prop}
    {l : Layer α} {l' : Layer β} (h : Layer.Rel A R l l') {f : α → γ} {g : β → δ}
    (hfg : ∀ a b, R a b → S (f a) (g b)) : Layer.Rel A S (f <$> l) (g <$> l') := by
  cases h with
  | list h => exact .list (List.rel_map (fun a b => hfg a b) h)
  | pair ha hb => exact .pair (hfg _ _ ha) (hfg _ _ hb)
  | set h => exact .set h
  | map h =>
    refine .map (List.rel_map ?_ h)
    rintro _ _ ⟨hkey, hvalue⟩
    exact .mk hkey (hfg _ _ hvalue)

theorem Layer.Rel.isEmpty_eq {A : Atom → Atom → Prop} {R : α → β → Prop} {l : Layer α}
    {l' : Layer β} (h : Layer.Rel A R l l') : l.isEmpty = l'.isEmpty := by
  cases h with
  | list h | set h | map h => exact isEmpty_eq_of_forall₂ h
  | pair => rfl

/-! ### Values -/

inductive Part.Matches (M : Correspondence) (d e : Nat) : Part → Part → Prop where
  | atom {a b : Atom} (h : a.Matches M b) : Matches M d e (.atom a) (.atom b)
  | cell {i j : Nat} (h : M.relates (.cell d i) (.cell e j)) : Matches M d e (.cell i) (.cell j)
  | pair {a b p q : Part} (hfirst : Matches M d e a p) (hsecond : Matches M d e b q) :
    Matches M d e (.pair a b) (.pair p q)

def Graph.Matches (M : Correspondence) (g h : Graph) : Prop :=
  ∀ i j, M.relates (.cell g.document i) (.cell h.document j) →
    i < g.cells.size ∧ j < h.cells.size ∧
      Layer.Rel (Atom.Matches M) (Part.Matches M g.document h.document) (g.cell i) (h.cell j)

inductive Value.Matches (M : Correspondence) : Value → Value → Prop where
  | atom {a b : Atom} (h : a.Matches M b) : Matches M (.atom a) (.atom b)
  | list {items others : List Value} (h : List.Forall₂ (Matches M) items others) :
    Matches M (.list items) (.list others)
  | pair {a b v w : Value} (hfirst : Matches M a v) (hsecond : Matches M b w) :
    Matches M (.pair a b) (.pair v w)
  | map {entries others : List (Atom × Value)}
    (h : List.Forall₂ (Entry.Rel (Atom.Matches M) (Matches M)) entries others) :
    Matches M (.map entries) (.map others)
  | node {g h : Graph} {i j : Nat} (hcell : M.relates (.cell g.document i) (.cell h.document j))
    (hgraph : g.Matches M h) : Matches M (.node g i) (.node h j)

def Entries.Matches (M : Correspondence) : Entries → Entries → Prop :=
  List.Forall₂ (Entry.Rel (Atom.Matches M) (Value.Matches M))

theorem Part.Matches.toValue {g h : Graph} (hgraph : g.Matches M h) {p q : Part}
    (hparts : p.Matches M g.document h.document q) : (p.toValue g).Matches M (q.toValue h) := by
  induction hparts with
  | atom ha => exact .atom ha
  | cell hcell => exact .node hcell hgraph
  | pair _ _ hfirst hsecond => exact .pair hfirst hsecond

namespace Value.Matches

theorem str (t : Text) : (Value.str t).Matches M (.str t) := .atom (.plain rfl)

theorem null : Value.null.Matches M .null := .atom (.plain rfl)

theorem empty : Value.empty.Matches M .empty := .map .nil

variable {v w : Value}

theorem atom?_rel (h : v.Matches M w) : Option.Rel (Atom.Matches M) v.atom? w.atom? := by
  cases h with
  | atom h => exact .some h
  | _ => exact .none

theorem layer?_rel (h : v.Matches M w) :
    Option.Rel (Layer.Rel (Atom.Matches M) (Value.Matches M)) v.layer? w.layer? := by
  cases h with
  | atom => exact .none
  | list h => exact .some (.list h)
  | pair hfirst hsecond => exact .some (.pair hfirst hsecond)
  | map h => exact .some (.map h)
  | node hcell hgraph =>
    obtain ⟨-, -, hlayer⟩ := hgraph _ _ hcell
    exact .some (hlayer.map_of_imp fun _ _ hpart => hpart.toValue hgraph)

theorem entries?_rel (h : v.Matches M w) : Option.Rel (Entries.Matches M) v.entries? w.entries? := by
  have hlayer := h.layer?_rel
  unfold Value.entries?
  generalize v.layer? = left, w.layer? = right at hlayer ⊢
  cases hlayer with
  | none => exact .none
  | some hlayer =>
    cases hlayer with
    | map hentries => exact .some hentries
    | _ => exact .none

theorem fields_agree (h : v.Matches M w) : Except.Agree (Entries.Matches M) v.fields w.fields := by
  have hentries := h.entries?_rel
  unfold Value.fields
  generalize v.entries? = left, w.entries? = right at hentries ⊢
  cases hentries with
  | none => exact .error _
  | some hentries => exact .ok hentries

theorem truthy_eq (h : v.Matches M w) : v.truthy = w.truthy := by
  have hlayer := h.layer?_rel
  have hatom := h.atom?_rel
  unfold Value.truthy
  generalize v.layer? = left, w.layer? = right at hlayer ⊢
  generalize v.atom? = a?, w.atom? = b? at hatom ⊢
  cases hatom with
  | some ha => exact ha.truthy_eq
  | none =>
    cases hlayer with
    | none => rfl
    | some hlayer => exact congrArg Bool.not hlayer.isEmpty_eq

theorem orElse {v' w' : Value} (h : v.Matches M w) (h' : v'.Matches M w') :
    (v.orElse v').Matches M (w.orElse w') := by
  unfold Value.orElse
  rw [h.truthy_eq]
  split
  · exact h
  · exact h'

theorem isText_eq (h : v.Matches M w) (t : Text) : v.isText t = w.isText t := by
  cases h with
  | atom ha => cases ha <;> rfl
  | _ => rfl

theorem text_eq (h : v.Matches M w) : v.text = w.text := by
  cases h with
  | atom ha => cases ha <;> rfl
  | _ => rfl

theorem key_agree (h : v.Matches M w) : Except.Agree (Atom.Matches M) v.key w.key := by
  cases h with
  | atom ha => exact .ok ha
  | _ => exact .error _

theorem decodeBase64_eq (h : v.Matches M w) : v.decodeBase64 = w.decodeBase64 := by
  cases h with
  | atom ha => cases ha <;> rfl
  | _ => rfl

private theorem elements_of_plain {a : Atom} (ha : a.origin? = none) :
    Except.Agree (List.Forall₂ (Value.Matches M)) (Value.atom a).elements
      (Value.atom a).elements := by
  have hplain {α : Type} (items : List α) (f : α → Atom) (hf : ∀ x, (f x).origin? = none) :
      List.Forall₂ (Value.Matches M) (items.map fun x => .atom (f x))
        (items.map fun x => .atom (f x)) := by
    rw [List.forall₂_map_left_iff, List.forall₂_map_right_iff, List.forall₂_same]
    exact fun x _ => .atom (.plain (hf x))
  cases a with
  | str t => exact .ok (hplain t (fun p => .str [p]) fun _ => rfl)
  | bytes b => exact .ok (hplain b.data.toList (fun x => .int x.toNat) fun _ => rfl)
  | _ => exact .error _

theorem elements_agree (h : v.Matches M w) :
    Except.Agree (List.Forall₂ (Value.Matches M)) v.elements w.elements := by
  have hlayer := h.layer?_rel
  have hatom := h.atom?_rel
  by_cases hv : v.atom? = none
  · unfold Value.elements
    rw [hv] at hatom ⊢
    generalize w.atom? = b? at hatom ⊢
    generalize v.layer? = left, w.layer? = right at hlayer ⊢
    cases hatom
    cases hlayer with
    | none => exact .error _
    | some hlayer =>
      cases hlayer with
      | list h => exact .ok h
      | pair hfirst hsecond => exact .ok (.cons hfirst (.cons hsecond .nil))
      | set h => exact .ok (List.rel_map (fun _ _ => .atom) h)
      | map h =>
        refine .ok (List.rel_map ?_ h)
        rintro _ _ ⟨hkey, -⟩
        exact .atom hkey
  · cases h with
    | atom ha =>
      cases ha with
      | plain hplain => exact elements_of_plain hplain
      | _ => exact .error _
    | _ => exact absurd rfl hv

end Value.Matches

/-! ### Entries -/

namespace Entry.Rel

variable {α β : Type} {R : α → β → Prop} {entries : Keyed α} {others : Keyed β}

theorem get?_rel (h : List.Forall₂ (Entry.Rel (Atom.Matches M) R) entries others) {k l : Atom}
    (hkey : k.Matches M l) : Option.Rel R (Keyed.get? entries k) (Keyed.get? others l) := by
  induction h with
  | nil => exact .none
  | cons hentry _ ih =>
    obtain ⟨hfirst, hvalue⟩ := hentry
    unfold Keyed.get?
    rw [hfirst.same_eq hkey]
    split
    · exact .some hvalue
    · exact ih

theorem put (h : List.Forall₂ (Entry.Rel (Atom.Matches M) R) entries others) {k l : Atom}
    (hkey : k.Matches M l) {a : α} {b : β} (hab : R a b) :
    List.Forall₂ (Entry.Rel (Atom.Matches M) R) (Keyed.put entries k a)
      (Keyed.put others l b) := by
  induction h with
  | nil => exact .cons (.mk hkey hab) .nil
  | cons hentry hrest ih =>
    obtain ⟨hfirst, hvalue⟩ := hentry
    unfold Keyed.put
    rw [hfirst.same_eq hkey]
    split
    · exact .cons (.mk hfirst hab) hrest
    · exact .cons (.mk hfirst hvalue) ih

theorem putAll (h : List.Forall₂ (Entry.Rel (Atom.Matches M) R) entries others)
    {more moreOthers : Keyed _} (hmore : List.Forall₂ (Entry.Rel (Atom.Matches M) R) more moreOthers) :
    List.Forall₂ (Entry.Rel (Atom.Matches M) R) (Keyed.putAll entries more)
      (Keyed.putAll others moreOthers) := by
  unfold Keyed.putAll
  induction hmore generalizing entries others with
  | nil => exact h
  | cons hentry _ ih =>
    obtain ⟨hkey, hvalue⟩ := hentry
    exact ih (put h hkey hvalue)

end Entry.Rel

namespace Entries.Matches

variable {entries others : Entries}

theorem field?_rel (h : entries.Matches M others) (name : Text) :
    Option.Rel (Value.Matches M) (entries.field? name) (others.field? name) :=
  Entry.Rel.get?_rel h (.plain rfl)

theorem field (h : entries.Matches M others) (name : Text) :
    (entries.field name).Matches M (others.field name) := by
  have hfield := h.field?_rel name
  unfold Entries.field
  generalize entries.field? name = left, others.field? name = right at hfield ⊢
  cases hfield with
  | none => exact .null
  | some h => exact h

end Entries.Matches

namespace Value.Matches

theorem asEntry_agree {v w : Value} (h : v.Matches M w) :
    Except.Agree (Entry.Rel (Atom.Matches M) (Value.Matches M)) v.asEntry w.asEntry := by
  unfold asEntry
  refine h.elements_agree.bind fun items others hitems => ?_
  cases hitems with
  | cons hkey hrest =>
    cases hrest with
    | cons hvalue hrest =>
      cases hrest with
      | nil => exact hkey.key_agree.bind fun _ _ hkey => .ok (.mk hkey hvalue)
      | cons => exact .error _
    | nil => exact .error _
  | nil => exact .error _

theorem toEntries_agree {v w : Value} (h : v.Matches M w) :
    Except.Agree (Entries.Matches M) v.toEntries w.toEntries := by
  have hentries := h.entries?_rel
  unfold toEntries
  generalize v.entries? = left, w.entries? = right at hentries ⊢
  cases hentries with
  | some hentries => exact .ok hentries
  | none =>
    refine h.elements_agree.bind fun items others hitems => ?_
    refine Except.Agree.foldlM hitems ?_ List.Forall₂.nil
    intro acc acc' item item' hacc hitem
    refine hitem.asEntry_agree.bind ?_
    rintro _ _ ⟨hkey, hvalue⟩
    exact .ok (Entry.Rel.put hacc hkey hvalue)

end Value.Matches
end ClusterRegistrar
