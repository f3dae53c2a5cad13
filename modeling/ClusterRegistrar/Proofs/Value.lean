import ClusterRegistrar.Proofs.Text
import ClusterRegistrar.Value.Encoded
import ClusterRegistrar.Value.Shown

/-! Mappings as seen through their keys. Setting a key leaves no entries but those that were there
and the one that was set, and a key that is text is found exactly if it is among the keys. -/
namespace ClusterRegistrar

namespace Keyed

theorem mem_of_get? {entries : Keyed α} {t : Text} {a : α} (h : get? entries (.str t) = some a) :
    (.str t, a) ∈ entries := by
  induction entries with
  | nil => cases h
  | cons entry rest ih =>
    obtain ⟨key, b⟩ := entry
    unfold get? at h
    split at h
    · rename_i hkey
      rw [Atom.same_str] at hkey
      cases h
      rw [hkey]
      exact List.mem_cons_self
    · exact List.mem_cons_of_mem _ (ih h)

theorem mem_put {entries : Keyed α} {t : Text} {a : α} {entry : Atom × α}
    (h : entry ∈ put entries (.str t) a) : entry ∈ entries ∨ entry = (.str t, a) := by
  induction entries with
  | nil => exact .inr (List.mem_singleton.mp h)
  | cons first rest ih =>
    obtain ⟨key, b⟩ := first
    unfold put at h
    split at h
    · rename_i hkey
      rw [Atom.same_str] at hkey
      rcases List.mem_cons.mp h with rfl | hrest
      · exact .inr (by rw [hkey])
      · exact .inl (List.mem_cons_of_mem _ hrest)
    · rcases List.mem_cons.mp h with rfl | hrest
      · exact .inl List.mem_cons_self
      · exact (ih hrest).imp_left (List.mem_cons_of_mem _)

/-- What holds of two mappings' entries holds of those that they have together, provided that the
keys of the second one are texts. -/
theorem forall_mem_putAll {P : Atom × α → Prop} {entries more : Keyed α}
    (hentries : ∀ entry ∈ entries, P entry) (hmore : ∀ entry ∈ more, P entry)
    (hkeys : ∀ entry ∈ more, ∃ t, entry.1 = .str t) :
    ∀ entry ∈ putAll entries more, P entry := by
  unfold putAll
  induction more generalizing entries with
  | nil => exact hentries
  | cons first rest ih =>
    obtain ⟨t, ht⟩ := hkeys first List.mem_cons_self
    obtain ⟨key, a⟩ := first
    obtain rfl : key = .str t := ht
    refine ih (fun entry hentry => ?_) (fun entry h => hmore entry (List.mem_cons_of_mem _ h))
      fun entry h => hkeys entry (List.mem_cons_of_mem _ h)
    rcases mem_put hentry with hold | rfl
    · exact hentries entry hold
    · exact hmore _ List.mem_cons_self

theorem put_of_missing {entries : Keyed α} {t : Text} (h : .str t ∉ entries.map Prod.fst) (a : α) :
    put entries (.str t) a = entries ++ [(.str t, a)] := by
  induction entries with
  | nil => rfl
  | cons first rest ih =>
    rw [List.map_cons, List.mem_cons, not_or] at h
    have hkey : ¬first.1.same (.str t) := fun hsame => h.1 (Atom.same_str.mp hsame).symm
    rw [put, if_neg hkey, ih h.2]
    rfl

theorem putAll_of_distinct {entries more : Keyed α} (hkeys : ∀ entry ∈ more, ∃ t, entry.1 = .str t)
    (h : ((entries ++ more).map Prod.fst).Nodup) : putAll entries more = entries ++ more := by
  unfold putAll
  induction more generalizing entries with
  | nil => simp
  | cons first rest ih =>
    obtain ⟨⟨t, ht⟩, hrest⟩ := List.forall_mem_cons.mp hkeys
    obtain ⟨key, a⟩ := first
    obtain rfl : key = .str t := ht
    rw [List.append_cons] at h
    have hmissing : .str t ∉ entries.map Prod.fst := by
      intro hmem
      simp only [List.map_append, List.nodup_append] at h
      exact h.1.2.2 _ hmem _ (by simp) rfl
    rw [List.foldl_cons, put_of_missing hmissing, ih hrest h, ← List.append_cons]

end Keyed

theorem Atom.null_iff_of_same {a b : Atom} (h : a.same b = true) : a = .null ↔ b = .null := by
  cases a <;> cases b <;> simp [same, sameNumber, asInt?] at h ⊢

namespace Entries

def texts (entries : Entries) : List Text :=
  entries.filterMap fun entry => match entry.1 with
    | .str t => some t
    | _ => none

theorem field?_isSome_iff {entries : Entries} {t : Text} :
    (entries.field? t).isSome ↔ t ∈ entries.texts := by
  unfold field? texts
  induction entries with
  | nil => simp [Keyed.get?]
  | cons entry rest ih =>
    obtain ⟨key, v⟩ := entry
    by_cases hkey : key = .str t
    · subst hkey
      simp [Keyed.get?, Atom.same_str]
    · have hsame : ¬key.same (.str t) := fun h => hkey (Atom.same_str.mp h)
      rw [Keyed.get?, if_neg hsame, ih]
      cases key with
      | str u => simp [show t ≠ u from fun h => hkey (by rw [h])]
      | _ => simp

section

variable {entries other : Entries}

/-- Among entries under different texts, an entry is what is found under its key. -/
theorem field?_eq_some_iff (h : entries.texts.Nodup) {t : Text} {v : Value} :
    entries.field? t = some v ↔ (.str t, v) ∈ entries := by
  refine ⟨Keyed.mem_of_get?, fun hmem => ?_⟩
  induction entries with
  | nil => cases hmem
  | cons first rest ih =>
    obtain ⟨key, value⟩ := first
    rcases List.mem_cons.mp hmem with heq | hrest
    · cases heq
      rw [field?, Keyed.get?, if_pos (Atom.same_str.mpr rfl)]
    · have hother : ¬key.same (.str t) := by
        intro hsame
        cases Atom.same_str.mp hsame
        have hthere : t ∈ texts rest := List.mem_filterMap.mpr ⟨_, hrest, rfl⟩
        exact (List.nodup_cons.mp h).1 hthere
      rw [field?, Keyed.get?, if_neg hother]
      exact ih (h.sublist ((List.sublist_cons_self ..).filterMap _)) hrest

theorem texts_perm (h : entries.Perm other) : entries.texts.Perm other.texts := h.filterMap _

theorem field?_perm (h : entries.Perm other) (hdistinct : entries.texts.Nodup) (t : Text) :
    entries.field? t = other.field? t := by
  ext v
  rw [field?_eq_some_iff hdistinct, field?_eq_some_iff ((texts_perm h).nodup hdistinct), h.mem_iff]

theorem texts_nodup (h : (entries.map Prod.fst).Nodup) : entries.texts.Nodup := by
  induction entries with
  | nil => exact List.nodup_nil
  | cons entry rest ih =>
    obtain ⟨hnew, hrest⟩ := List.nodup_cons.mp h
    obtain ⟨key, v⟩ := entry
    cases key with
    | str t =>
      refine List.nodup_cons.mpr ⟨fun hmem => hnew ?_, ih hrest⟩
      obtain ⟨w, hw⟩ := Option.isSome_iff_exists.mp (field?_isSome_iff.mpr hmem)
      exact List.mem_map.mpr ⟨_, Keyed.mem_of_get? hw, rfl⟩
    | _ => exact ih hrest

end

theorem field_of_field? {entries : Entries} {name : Text} {v : Value}
    (h : entries.field? name = some v) : entries.field name = v := by
  rw [field, h]
  rfl

theorem field_of_missing {entries : Entries} {name : Text} (h : entries.field? name = none) :
    entries.field name = .null := by
  rw [field, h]
  rfl

theorem field_put_same (entries : Entries) (t : Text) (v : Value) :
    field (Keyed.put entries (.str t) v) t = v :=
  field_of_field? (Keyed.get?_put_same entries t v)

theorem field_put_other (entries : Entries) {t u : Text} (v : Value) (h : t ≠ u) :
    field (Keyed.put entries (.str t) v) u = entries.field u := by
  rw [field, field?, Keyed.get?_put_other entries v h]
  rfl

end Entries

theorem Numeral.written_eq_error {i : Int} (h : Nat.pow 10 Numeral.maxDecimal ≤ i.natAbs) :
    Numeral.written i = .error .longNumeral := by
  unfold Numeral.written Numeral.decimalInt?
  -- The bound is left alone, so that the power is never computed.
  generalize Nat.pow 10 Numeral.maxDecimal = bound at h ⊢
  rw [if_neg (Nat.not_lt.mpr h)]

namespace Value

theorem isText_iff {v : Value} {t : Text} : v.isText t = true ↔ v = .str t := by
  cases v with
  | atom a => cases a <;> simp [isText]
  | _ => simp [isText]

theorem text_eq_ok {v : Value} {t : Text} : v.text = .ok t ↔ v = .str t := by
  cases v with
  | atom a => cases a <;> simp [text]
  | _ => simp [text]

theorem key_eq_ok {v : Value} {a : Atom} : v.key = .ok a ↔ v = .atom a := by
  cases v <;> simp [key, atom?]

theorem fields_eq_ok {v : Value} {fields : Entries} :
    v.fields = .ok fields ↔ v.entries? = some fields := by
  unfold Value.fields
  cases v.entries? <;> simp

theorem fields_eq_error {v : Value} {f : Fault} :
    v.fields = .error f ↔ v.entries? = none ∧ f = .noFields := by
  unfold Value.fields
  cases v.entries? <;> simp [eq_comm]

theorem truthy_of_entries? {v : Value} {fields : Entries} (h : v.entries? = some fields) :
    v.truthy = !fields.isEmpty := by
  unfold entries? at h
  split at h
  · next layer hlayer =>
    cases h
    cases v with
    | atom a => cases hlayer
    | _ => simp [truthy, atom?, hlayer, Layer.isEmpty]
  · cases h

theorem truthy_of_field {v : Value} {entries : Entries} (h : v.entries? = some entries) {t : Text}
    (ht : (entries.field t).truthy = true) : v.truthy = true := by
  rw [Value.truthy_of_entries? h]
  cases entries with
  | nil => cases ht
  | cons => rfl

theorem shown_int (i : Int) : (Value.int i).shown = Numeral.written i := by
  have hshallow : ¬maxShownDepth < depth (.int i) := by
    simp [depth, Folder.value]
  simp only [shown, quoted, if_neg hshallow, Folder.value, quoting, quotedAtom]

def membersOf : Layer Value → List Value
  | .list items => items
  | .pair a b => [a, b]
  | .set members => members.map .atom
  | .map entries => entries.map fun entry => .atom entry.1

theorem atom?_of_layer? {v : Value} {layer : Layer Value} (h : v.layer? = some layer) :
    v.atom? = none := by
  cases v with
  | atom a => cases h
  | _ => rfl

theorem elements_of_layer? {v : Value} {layer : Layer Value} (h : v.layer? = some layer) :
    v.elements = .ok (membersOf layer) := by
  rw [elements, atom?_of_layer? h, h]
  cases layer <;> rfl

/-- The items of a list. A pair, which no document has under a key, is a list of two. -/
def listed? (v : Value) : Option (List Value) :=
  match v.layer? with
  | some (.list items) => some items
  | some (.pair a b) => some [a, b]
  | _ => none

theorem elements_of_listed? {v : Value} {items : List Value} (h : v.listed? = some items) :
    v.elements = .ok items := by
  unfold listed? at h
  split at h
  · rename_i hlayer
    rw [elements_of_layer? hlayer, ← Option.some.inj h, membersOf]
  · rename_i hlayer
    rw [elements_of_layer? hlayer, ← Option.some.inj h, membersOf]
  · cases h

def HasTextKeys (v : Value) : Prop :=
  ∃ entries, v.entries? = some entries ∧ ∀ entry ∈ entries, ∃ t, entry.1 = .str t

theorem elements_of_textKeys {v : Value} {entries : Entries} (h : v.entries? = some entries)
    (hkeys : ∀ entry ∈ entries, ∃ t, entry.1 = .str t) :
    v.elements = .ok (entries.texts.map .str) := by
  have hlayer : v.layer? = some (.map entries) := by
    unfold entries? at h
    split at h
    · cases h; assumption
    · cases h
  have hlist : entries.map (fun entry => Value.atom entry.1) = entries.texts.map .str := by
    clear h hlayer
    unfold Entries.texts
    induction entries with
    | nil => rfl
    | cons entry rest ih =>
      obtain ⟨t, ht⟩ := hkeys entry List.mem_cons_self
      rw [List.map_cons, List.filterMap_cons, ht,
        ih fun e he => hkeys e (List.mem_cons_of_mem _ he)]
      rfl
  rw [elements_of_layer? hlayer, membersOf, ← hlist]

def IsTextMap (v : Value) : Prop :=
  ∃ entries, v.entries? = some entries ∧
    ∀ entry ∈ entries, (∃ t, entry.1 = .str t) ∧ ∃ t, entry.2 = .str t

theorem IsTextMap.exists_field {v : Value} (h : v.IsTextMap) :
    ∃ entries, v.entries? = some entries ∧
      ∀ name value, entries.field? name = some value → ∃ t, value = .str t := by
  obtain ⟨entries, hentries, htexts⟩ := h
  exact ⟨entries, hentries, fun name value hvalue => (htexts _ (Keyed.mem_of_get? hvalue)).2⟩

theorem asciiChars?_eq_some {t : Text} {cs : List Char} :
    asciiChars? t = some cs ↔ t = .ofChars cs ∧ ∀ c ∈ cs, c.toNat < 128 := by
  simp only [asciiChars?, Option.filter_eq_some_iff, Text.chars?_eq_some, List.all_eq_true,
    decide_eq_true_eq]

theorem exists_asciiChars?_iff {t : Text} :
    (∃ cs, asciiChars? t = some cs) ↔ ∀ p ∈ t, p.number < 128 := by
  simp only [asciiChars?_eq_some]
  constructor
  · rintro ⟨cs, rfl, hascii⟩ p hp
    obtain ⟨c, hc, rfl⟩ := List.mem_map.mp hp
    exact hascii c hc
  · intro h
    induction t with
    | nil => exact ⟨[], rfl, nofun⟩
    | cons p rest ih =>
      obtain ⟨cs, rfl, hascii⟩ := ih fun q hq => h q (List.mem_cons_of_mem _ hq)
      have hp := h p List.mem_cons_self
      cases p with
      | char c => exact ⟨c :: cs, rfl, List.forall_mem_cons.mpr ⟨hp, hascii⟩⟩
      | surrogate n =>
        have hlarge : 0xd800 ≤ (CodePoint.surrogate n).number := Nat.le_add_right _ _
        omega

theorem decodeBase64_str {t : Text} {decoded : Except Base64.DecodeError (List UInt8)} :
    decodeBase64 (.str t) = .ok decoded ↔
      ∃ cs, t = .ofChars cs ∧ (∀ c ∈ cs, c.toNat < 128) ∧ Base64.decode cs = decoded := by
  simp only [← and_assoc, ← asciiChars?_eq_some, decodeBase64, encodedChars]
  cases asciiChars? t <;> simp [pure, Except.pure, bind, Except.bind]

theorem decodeBase64_error_iff {t : Text} :
    (∃ f, decodeBase64 (.str t) = .error f) ↔ ∃ p ∈ t, 128 ≤ p.number := by
  have hnone : (∃ f, decodeBase64 (.str t) = .error f) ↔ ¬∃ cs, asciiChars? t = some cs := by
    simp only [decodeBase64, encodedChars]
    cases asciiChars? t <;> simp [pure, Except.pure, bind, Except.bind]
  rw [hnone, exists_asciiChars?_iff]
  simp

theorem isScalar_of_decodeBase64 {t : Text} {decoded : Except Base64.DecodeError (List UInt8)}
    (h : decodeBase64 (.str t) = .ok decoded) : t.IsScalar := by
  obtain ⟨cs, ht, -, -⟩ := decodeBase64_str.mp h
  exact ⟨cs, ht⟩

end Value
end ClusterRegistrar
