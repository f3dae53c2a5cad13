import ClusterRegistrar.Value.Fold

/-! Documents of mappings and texts. Every key is text and each key occurs once, so that a document
that is written and read again can be compared with what it was. -/
namespace ClusterRegistrar

inductive TextTree where
  | text (t : Text)
  | map (entries : List (Text × TextTree))

namespace TextTree

mutual

private theorem induct_tree {P : TextTree → Prop} (text : ∀ t, P (.text t))
    (map : ∀ entries : List (Text × TextTree), (∀ entry ∈ entries, P entry.2) → P (.map entries)) :
    ∀ tree, P tree
  | .text t => text t
  | .map entries => map entries (induct_entries text map entries)

private theorem induct_entries {P : TextTree → Prop} (text : ∀ t, P (.text t))
    (map : ∀ entries : List (Text × TextTree), (∀ entry ∈ entries, P entry.2) → P (.map entries)) :
    ∀ entries : List (Text × TextTree), ∀ entry ∈ entries, P entry.2
  | [], _, h => nomatch h
  | (key, tree) :: rest, entry, h => by
    rcases List.mem_cons.mp h with rfl | h
    · exact induct_tree text map tree
    · exact induct_entries text map rest entry h

end

@[induction_eliminator, elab_as_elim]
theorem induct {P : TextTree → Prop} (text : ∀ t, P (.text t))
    (map : ∀ entries : List (Text × TextTree), (∀ entry ∈ entries, P entry.2) → P (.map entries))
    (tree : TextTree) : P tree := induct_tree text map tree

mutual

def value : TextTree → Value
  | .text t => .str t
  | .map entries => .map (valueEntries entries)

def valueEntries : List (Text × TextTree) → Entries
  | [] => []
  | (key, tree) :: rest => (.str key, value tree) :: valueEntries rest

end

theorem valueEntries_eq_map (entries : List (Text × TextTree)) :
    valueEntries entries = entries.map fun entry => (.str entry.1, entry.2.value) := by
  induction entries with
  | nil => rfl
  | cons entry rest ih =>
    rw [List.map_cons, ← ih]
    rfl

theorem value_map (entries : List (Text × TextTree)) :
    (map entries).value = .map (entries.map fun entry => (.str entry.1, entry.2.value)) := by
  rw [value, valueEntries_eq_map]

/-- A tree of at most so many mappings inside each other, each with keys of its own. -/
inductive Fits : Nat → TextTree → Prop where
  | text {room : Nat} (t : Text) : Fits room (.text t)
  | map {room : Nat} {entries : List (Text × TextTree)} (distinct : (entries.map Prod.fst).Nodup)
    (inner : ∀ entry ∈ entries, Fits room entry.2) : Fits (room + 1) (.map entries)

inductive Everywhere (key text : Text → Prop) : TextTree → Prop where
  | text {t : Text} (h : text t) : Everywhere key text (.text t)
  | map {entries : List (Text × TextTree)} (keys : ∀ entry ∈ entries, key entry.1)
    (inner : ∀ entry ∈ entries, Everywhere key text entry.2) : Everywhere key text (.map entries)

end TextTree

/-! ### Values that show trees -/

mutual

/-- A value that has the entries of a tree in their order, at every depth. -/
inductive Value.Shows : Value → TextTree → Prop where
  | text (t : Text) : Value.Shows (.str t) (.text t)
  | map {v : Value} {fields : Entries} {entries : List (Text × TextTree)} (h : v.entries? = some fields)
    (inner : fields.Show entries) : Value.Shows v (.map entries)

inductive Entries.Show : Entries → List (Text × TextTree) → Prop where
  | nil : Entries.Show [] []
  | cons (t : Text) {v : Value} {tree : TextTree} {fields : Entries} {entries : List (Text × TextTree)}
    (first : v.Shows tree) (rest : fields.Show entries) :
    Entries.Show ((.str t, v) :: fields) ((t, tree) :: entries)

end

theorem Value.Shows.eq_of_text {v : Value} {t : Text} (h : v.Shows (.text t)) : v = .str t := by
  cases h
  rfl

section

variable {fields : Entries} {entries : List (Text × TextTree)} {t : Text} {tree : TextTree}

theorem Value.Shows.exists_fields {v : Value} (h : v.Shows (.map entries)) :
    ∃ fields, v.entries? = some fields ∧ Entries.Show fields entries := by
  obtain _ | ⟨hfields, hshow⟩ := h
  exact ⟨_, hfields, hshow⟩

theorem Entries.field?_cons (key : Text) (v : Value) (rest : Entries) (t : Text) :
    Entries.field? ((.str key, v) :: rest) t = if key = t then some v else rest.field? t := by
  simp [Entries.field?, Keyed.get?, Atom.same]

theorem Entries.Show.rel_field? (h : fields.Show entries) (t : Text) :
    Option.Rel Value.Shows (fields.field? t) (entries.lookup t) := by
  induction entries generalizing fields with
  | nil =>
    cases h
    exact .none
  | cons entry entries ih =>
    obtain _ | ⟨key, hfirst, hrest⟩ := h
    rw [Entries.field?_cons, List.lookup_cons]
    by_cases hkey : key = t
    · rw [if_pos hkey, beq_iff_eq.mpr hkey.symm]
      exact .some hfirst
    · rw [if_neg hkey, beq_false_of_ne (Ne.symm hkey)]
      exact ih hrest

theorem Entries.Show.exists_field? (h : fields.Show entries) (hlookup : entries.lookup t = some tree) :
    ∃ v, fields.field? t = some v ∧ v.Shows tree := by
  have hrel := h.rel_field? t
  rw [hlookup] at hrel
  generalize fields.field? t = v? at hrel
  obtain ⟨hshows⟩ := hrel
  exact ⟨_, rfl, hshows⟩

theorem Entries.Show.field?_of_text {u : Text} (h : fields.Show entries)
    (hlookup : entries.lookup t = some (.text u)) : fields.field? t = some (.str u) := by
  obtain ⟨v, hv, hshows⟩ := h.exists_field? hlookup
  rw [hv, hshows.eq_of_text]

theorem Entries.Show.field?_eq_none (h : fields.Show entries) (hlookup : entries.lookup t = none) :
    fields.field? t = none := by
  have hrel := h.rel_field? t
  rw [hlookup] at hrel
  generalize fields.field? t = v? at hrel
  cases hrel
  rfl

end

theorem Entries.Show.eq_of_texts {items : List α} {key text : α → Text} {fields : Entries}
    (h : fields.Show (items.map fun a => (key a, .text (text a)))) :
    fields = items.map fun a => (.str (key a), .str (text a)) := by
  induction items generalizing fields with
  | nil =>
    cases h
    rfl
  | cons a items ih =>
    obtain _ | ⟨_, hfirst, hrest⟩ := h
    cases hfirst
    rw [List.map_cons, ih hrest]

end ClusterRegistrar
