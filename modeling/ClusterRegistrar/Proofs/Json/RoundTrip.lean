import ClusterRegistrar.Proofs.Json.Strings
import Mathlib.Data.List.Forall2

/-! JSON text reads back, whatever follows it. The laws of arrays and objects allow blanks between
the parts, so that one line and indented lines are two cases of one rule. -/
namespace ClusterRegistrar.Json

/-- A text from which a value is read, whatever follows it. -/
structure Reads (text : List Char) (j : Json) : Prop where
  head : ∃ c rest, text = c :: rest ∧ isBlank c = false ∧ c ≠ ']'
  read : ∀ fuel rest, text.length ≤ fuel → readValue? fuel (text ++ rest) = some (j, rest)

structure ReadsField (text : List Char) (field : Text × Json) : Prop where
  head : ∃ rest, text = '"' :: rest
  read : ∀ fuel rest body, text.length ≤ fuel → text ++ rest = '"' :: body →
    ∃ value, readString? (body.length + 1) body = some (field.1, ':' :: value) ∧
      readValue? fuel (skipBlanks value) = some (field.2, rest)

theorem Reads.length_pos {text : List Char} {j : Json} (h : Reads text j) : 0 < text.length := by
  obtain ⟨c, rest, rfl, -, -⟩ := h.head
  simp

theorem skipBlanks_cons {c : Char} (hc : isBlank c = false) (rest : List Char) :
    skipBlanks (c :: rest) = c :: rest :=
  List.dropWhile_cons_of_neg (by simp [hc])

theorem skipBlanks_append {gap : List Char} (hgap : ∀ c ∈ gap, isBlank c = true)
    {c : Char} (hc : isBlank c = false) (rest : List Char) :
    skipBlanks (gap ++ c :: rest) = c :: rest := by
  rw [skipBlanks, List.dropWhile_append_of_pos hgap]
  exact skipBlanks_cons hc rest

theorem Reads.skipBlanks_append {text : List Char} {j : Json} (h : Reads text j)
    {gap : List Char} (hgap : ∀ c ∈ gap, isBlank c = true) (rest : List Char) :
    skipBlanks (gap ++ (text ++ rest)) = text ++ rest := by
  obtain ⟨c, more, rfl, hc, -⟩ := h.head
  exact Json.skipBlanks_append hgap hc _

/-! ### Strings -/

private theorem length_escape_pos (p : CodePoint) : 0 < (escape p).length := by
  cases p with
  | surrogate n => exact Nat.succ_pos _
  | char c =>
    show 0 < (escapeChar c).length
    have hescaped := escaped_escapeChar c
    generalize escapeChar c = cs at hescaped ⊢
    cases hescaped <;> simp [escapeUnit]

private theorem length_le_flatMap_escape (t : Text) : t.length ≤ (t.flatMap escape).length := by
  induction t with
  | nil => simp
  | cons p rest ih =>
    have := length_escape_pos p
    simp only [List.flatMap_cons, List.length_append, List.length_cons]
    omega

theorem readString?_quote (t : Text) (rest : List Char) :
    ∃ body, quote t ++ rest = '"' :: body ∧
      readString? (body.length + 1) body = some (t.joined, rest) := by
  refine ⟨t.flatMap escape ++ '"' :: rest, by simp [quote], readString?_escape t ?_ rest⟩
  have := length_le_flatMap_escape t
  simp only [List.length_append, List.length_cons]
  omega

theorem reads_quote (t : Text) : Reads (quote t) (.str t.joined) where
  head := ⟨'"', _, rfl, by decide, by decide⟩
  read fuel rest hfuel := by
    have hquote : 0 < (quote t).length := Nat.succ_pos _
    obtain ⟨fuel, rfl⟩ := Nat.exists_eq_succ_of_ne_zero
      (Nat.ne_zero_of_lt (Nat.lt_of_lt_of_le hquote hfuel))
    obtain ⟨body, hbody, hread⟩ := readString?_quote t rest
    rw [hbody]
    simp only [readValue?, hread, Option.bind_eq_bind, Option.bind_some, Option.pure_def]

/-! ### Arrays -/

private theorem head_separated (separator : List Char) {text : List Char} {j : Json}
    (h : Reads text j) (texts : List (List Char)) (rest : List Char) :
    ∃ c more, separated separator (text :: texts) ++ rest = c :: more ∧ isBlank c = false ∧
      c ≠ ']' := by
  obtain ⟨c, more, rfl, hc⟩ := h.head
  cases texts with
  | nil => exact ⟨c, _, rfl, hc⟩
  | cons next texts => exact ⟨c, _, rfl, hc⟩

section Layout

variable {before between after : List Char} (hbefore : ∀ c ∈ before, isBlank c = true)
  (hbetween : ∀ c ∈ between, isBlank c = true) (hafter : ∀ c ∈ after, isBlank c = true)

include hbetween hafter in
theorem readItems?_separated {text : List Char} {item : Json} {texts : List (List Char)}
    {items : List Json} (h : List.Forall₂ Reads (text :: texts) (item :: items)) {fuel : Nat}
    (hfuel : (separated (',' :: between) (text :: texts)).length < fuel) (rest : List Char) :
    readItems? fuel (separated (',' :: between) (text :: texts) ++ (after ++ ']' :: rest)) =
      some (item :: items, rest) := by
  obtain ⟨fuel, rfl⟩ := Nat.exists_eq_succ_of_ne_zero (Nat.ne_zero_of_lt hfuel)
  obtain ⟨hitem, hitems⟩ := List.forall₂_cons.mp h
  induction texts generalizing text item items fuel with
  | nil =>
    cases hitems
    have hread := hitem.read fuel (after ++ ']' :: rest) (by simp only [separated] at hfuel; omega)
    have hclose := skipBlanks_append hafter (c := ']') (by decide) rest
    simp only [separated, readItems?, hread, hclose, Option.bind_eq_bind, Option.bind_some,
      Option.pure_def]
  | cons next texts ih =>
    obtain ⟨second, items, hnext, hmore, rfl⟩ := List.forall₂_cons_left_iff.mp hitems
    simp only [separated, List.length_append, List.length_cons] at hfuel
    -- An item is not empty, so the rest is shorter and less fuel is enough for it.
    have := hitem.length_pos
    obtain ⟨fuel, rfl⟩ := Nat.exists_eq_succ_of_ne_zero (show fuel ≠ 0 by omega)
    obtain ⟨c, more, htail, hc, -⟩ :=
      head_separated (',' :: between) hnext texts (after ++ ']' :: rest)
    have hrest := ih hitems fuel (by omega) hnext hmore
    rw [htail] at hrest
    have hread := hitem.read (fuel + 1) (',' :: (between ++ (c :: more))) (by omega)
    have hcomma := skipBlanks_cons (c := ',') (by decide) (between ++ c :: more)
    have hgap := skipBlanks_append hbetween hc more
    simp only [separated, List.append_assoc, List.cons_append, htail]
    rw [readItems?]
    simp only [hread, hcomma, hgap, hrest, Option.bind_eq_bind, Option.bind_some, Option.pure_def]

include hbefore hbetween hafter in
theorem reads_array {texts : List (List Char)} {items : List Json}
    (h : List.Forall₂ Reads texts items) (hne : texts ≠ []) :
    Reads ('[' :: (before ++ (separated (',' :: between) texts ++ (after ++ [']']))))
      (.arr items) where
  head := ⟨'[', _, rfl, by decide, by decide⟩
  read fuel rest hfuel := by
    cases h with
    | nil => exact (hne rfl).elim
    | @cons text item texts items hitem hitems =>
      simp only [List.length_append, List.length_cons] at hfuel
      obtain ⟨fuel, rfl⟩ := Nat.exists_eq_succ_of_ne_zero (show fuel ≠ 0 by omega)
      obtain ⟨c, more, htext, hc, hbracket⟩ :=
        head_separated (',' :: between) hitem texts (after ++ ']' :: rest)
      have hread : readItems? fuel _ = some (item :: items, rest) :=
        readItems?_separated hbetween hafter (.cons hitem hitems) (by omega) rest
      have hgap := skipBlanks_append hbefore hc more
      rw [htext] at hread
      simp only [List.cons_append, List.append_assoc, List.nil_append, htext]
      rw [readValue?, hgap]
      split
      · rename_i heq
        exact (hbracket (List.cons.inj heq).1).elim
      · simp only [hread, Option.bind_eq_bind, Option.bind_some, Option.pure_def]

end Layout

theorem reads_emptyArray : Reads ['[', ']'] (.arr []) where
  head := ⟨'[', _, rfl, by decide, by decide⟩
  read fuel rest hfuel := by
    obtain ⟨fuel, rfl⟩ := Nat.exists_eq_succ_of_ne_zero (Nat.ne_zero_of_lt hfuel)
    rfl

/-! ### Objects -/

theorem readsField_quote (name : Text) {gap value : List Char} {j : Json}
    (hgap : ∀ c ∈ gap, isBlank c = true) (h : Reads value j) :
    ReadsField (quote name ++ ':' :: (gap ++ value)) (name.joined, j) where
  head := ⟨_, rfl⟩
  read fuel rest body hfuel hbody := by
    simp only [List.length_append, List.length_cons] at hfuel
    simp only [List.append_assoc, List.cons_append] at hbody
    obtain ⟨_, hquote, hname⟩ := readString?_quote name (':' :: (gap ++ (value ++ rest)))
    cases hquote.symm.trans hbody
    refine ⟨_, hname, ?_⟩
    rw [h.skipBlanks_append hgap]
    exact h.read fuel rest (by omega)

private theorem head_separatedFields (separator : List Char) {text : List Char}
    {field : Text × Json} (h : ReadsField text field) (texts : List (List Char))
    (rest : List Char) : ∃ more, separated separator (text :: texts) ++ rest = '"' :: more := by
  obtain ⟨more, rfl⟩ := h.head
  cases texts with
  | nil => exact ⟨_, rfl⟩
  | cons next texts => exact ⟨_, rfl⟩

section Layout

variable {before between after : List Char} (hbefore : ∀ c ∈ before, isBlank c = true)
  (hbetween : ∀ c ∈ between, isBlank c = true) (hafter : ∀ c ∈ after, isBlank c = true)

include hbetween hafter in
theorem readFields?_separated {text : List Char} {field : Text × Json} {texts : List (List Char)}
    {fields : List (Text × Json)} (h : List.Forall₂ ReadsField (text :: texts) (field :: fields))
    {fuel : Nat} (hfuel : (separated (',' :: between) (text :: texts)).length < fuel)
    (rest : List Char) :
    readFields? fuel (separated (',' :: between) (text :: texts) ++ (after ++ '}' :: rest)) =
      some (field :: fields, rest) := by
  obtain ⟨fuel, rfl⟩ := Nat.exists_eq_succ_of_ne_zero (Nat.ne_zero_of_lt hfuel)
  obtain ⟨hfield, hfields⟩ := List.forall₂_cons.mp h
  induction texts generalizing text field fields fuel with
  | nil =>
    cases hfields
    simp only [separated] at hfuel ⊢
    obtain ⟨more, rfl⟩ := hfield.head
    obtain ⟨value, hname, hvalue⟩ :=
      hfield.read fuel (after ++ '}' :: rest) _ (by omega) (List.cons_append ..)
    have hcolon := skipBlanks_cons (c := ':') (by decide) value
    have hclose := skipBlanks_append hafter (c := '}') (by decide) rest
    rw [List.cons_append, readFields?]
    simp only [hname, hcolon, hvalue, hclose, Option.bind_eq_bind, Option.bind_some,
      Option.pure_def]
  | cons next texts ih =>
    obtain ⟨second, fields, hnext, hmore, rfl⟩ := List.forall₂_cons_left_iff.mp hfields
    simp only [separated, List.length_append, List.length_cons] at hfuel
    obtain ⟨more, htail⟩ :=
      head_separatedFields (',' :: between) hnext texts (after ++ '}' :: rest)
    obtain ⟨opening, rfl⟩ := hfield.head
    simp only [List.length_cons] at hfuel
    obtain ⟨fuel, rfl⟩ := Nat.exists_eq_succ_of_ne_zero (show fuel ≠ 0 by omega)
    have hrest := ih hfields fuel (by omega) hnext hmore
    rw [htail] at hrest
    obtain ⟨value, hname, hvalue⟩ :=
      hfield.read (fuel + 1) (',' :: (between ++ '"' :: more)) _
        (by simp only [List.length_cons]; omega) (List.cons_append ..)
    have hcolon := skipBlanks_cons (c := ':') (by decide) value
    have hcomma := skipBlanks_cons (c := ',') (by decide) (between ++ '"' :: more)
    have hgap := skipBlanks_append hbetween (c := '"') (by decide) more
    simp only [separated, List.append_assoc, List.cons_append, htail]
    rw [readFields?]
    simp only [hname, hcolon, hvalue, hcomma, hgap, hrest, Option.bind_eq_bind, Option.bind_some,
      Option.pure_def]

include hbefore hbetween hafter in
theorem reads_object {texts : List (List Char)} {fields : List (Text × Json)}
    (h : List.Forall₂ ReadsField texts fields) (hne : texts ≠ []) :
    Reads ('{' :: (before ++ (separated (',' :: between) texts ++ (after ++ ['}']))))
      (.obj fields) where
  head := ⟨'{', _, rfl, by decide, by decide⟩
  read fuel rest hfuel := by
    cases h with
    | nil => exact (hne rfl).elim
    | @cons text field texts fields hfield hfields =>
      simp only [List.length_append, List.length_cons] at hfuel
      obtain ⟨fuel, rfl⟩ := Nat.exists_eq_succ_of_ne_zero (show fuel ≠ 0 by omega)
      obtain ⟨more, htext⟩ :=
        head_separatedFields (',' :: between) hfield texts (after ++ '}' :: rest)
      have hread : readFields? fuel _ = some (field :: fields, rest) :=
        readFields?_separated hbetween hafter (.cons hfield hfields) (by omega) rest
      have hgap := skipBlanks_append hbefore (c := '"') (by decide) more
      rw [htext] at hread
      simp only [List.cons_append, List.append_assoc, List.nil_append, htext]
      rw [readValue?, hgap]
      split
      · rename_i heq
        simp at heq
      · simp only [hread, Option.bind_eq_bind, Option.bind_some, Option.pure_def]

end Layout

theorem reads_emptyObject : Reads ['{', '}'] (.obj []) where
  head := ⟨'{', _, rfl, by decide, by decide⟩
  read fuel rest hfuel := by
    obtain ⟨fuel, rfl⟩ := Nat.exists_eq_succ_of_ne_zero (Nat.ne_zero_of_lt hfuel)
    rfl

/-! ### Whole values -/

mutual

def joined : Json → Json
  | .str t => .str t.joined
  | .arr items => .arr (joinedAll items)
  | .obj fields => .obj (joinedFields fields)
  | j => j

def joinedAll : List Json → List Json
  | [] => []
  | j :: rest => joined j :: joinedAll rest

def joinedFields : List (Text × Json) → List (Text × Json)
  | [] => []
  | (name, j) :: rest => (name.joined, joined j) :: joinedFields rest

end

theorem joinedFields_eq_map (fields : List (Text × Json)) :
    joinedFields fields = fields.map fun field => (field.1.joined, field.2.joined) := by
  induction fields with
  | nil => rfl
  | cons field rest ih =>
    rw [List.map_cons, ← ih]
    rfl

inductive IsTextual : Json → Prop where
  | str (t : Text) : IsTextual (.str t)
  | arr {items : List Json} (h : ∀ j ∈ items, IsTextual j) : IsTextual (.arr items)
  | obj {fields : List (Text × Json)} (h : ∀ field ∈ fields, IsTextual field.2) :
    IsTextual (.obj fields)

private theorem reads_compactAll {items : List Json}
    (h : ∀ j ∈ items, Reads (compact j) j.joined) :
    List.Forall₂ Reads (compactAll items) (joinedAll items) := by
  induction items with
  | nil => exact .nil
  | cons j rest ih =>
    exact .cons (h j (by simp)) (ih fun k hk => h k (by simp [hk]))

private theorem reads_compactFields {fields : List (Text × Json)}
    (h : ∀ field ∈ fields, Reads (compact field.2) field.2.joined) :
    List.Forall₂ ReadsField (compactFields fields) (joinedFields fields) := by
  induction fields with
  | nil => exact .nil
  | cons field rest ih =>
    obtain ⟨name, j⟩ := field
    have hfield : ReadsField (quote name ++ ':' :: ([] ++ compact j)) (name.joined, j.joined) :=
      readsField_quote name (by simp) (h (name, j) (by simp))
    exact .cons hfield (ih fun f hf => h f (by simp [hf]))

theorem reads_compact {j : Json} (h : j.IsTextual) : Reads (compact j) j.joined := by
  induction h with
  | str t => exact reads_quote t
  | @arr items _ ih =>
    cases items with
    | nil => exact reads_emptyArray
    | cons j rest =>
      have hread : Reads ('[' :: ([] ++ (separated [','] (compactAll (j :: rest)) ++
          ([] ++ [']'])))) (.arr (joinedAll (j :: rest))) :=
        reads_array (by simp) (by simp) (by simp) (reads_compactAll ih) (by simp [compactAll])
      simpa [compact, joined] using hread
  | @obj fields _ ih =>
    cases fields with
    | nil => exact reads_emptyObject
    | cons field rest =>
      have hread : Reads ('{' :: ([] ++ (separated [','] (compactFields (field :: rest)) ++
          ([] ++ ['}'])))) (.obj (joinedFields (field :: rest))) :=
        reads_object (by simp) (by simp) (by simp) (reads_compactFields ih)
          (by simp [compactFields])
      simpa [compact, joined] using hread

theorem read?_of_reads {text : List Char} {j : Json} (h : Reads text j) : read? text = some j := by
  have hblanks : skipBlanks ([] ++ (text ++ [])) = text ++ [] := h.skipBlanks_append (by simp) []
  rw [List.append_nil, List.nil_append] at hblanks
  have hread := h.read (2 * text.length + 2) [] (by omega)
  rw [List.append_nil] at hread
  simp only [read?, hblanks, hread, Option.bind_eq_bind, Option.bind_some]
  rfl

theorem ofText?_compactText {j : Json} (h : j.IsTextual) :
    ofText? (compactText j) = some j.joined := by
  rw [ofText?, compactText, String.toList_ofList]
  exact read?_of_reads (reads_compact h)

end ClusterRegistrar.Json
