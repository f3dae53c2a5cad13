import ClusterRegistrar.Proofs.Base64

/-! What the strict decoder accepts. Digits and pads are counted by their place in a group: two or three
digits are completed to a group, and full groups may have any number of pads behind them. So the texts
that are accepted are those of base64, and besides them only full groups with pads that complete
nothing. -/
namespace ClusterRegistrar.Base64

def IsDigit (c : Char) : Prop :=
  ('A' ≤ c ∧ c ≤ 'Z') ∨ ('a' ≤ c ∧ c ≤ 'z') ∨ ('0' ≤ c ∧ c ≤ '9') ∨ c = '+' ∨ c = '/'

theorem value?_isSome_iff {c : Char} : (value? c).isSome ↔ IsDigit c := by
  unfold value? IsDigit
  split_ifs <;> simp_all

/-- Base64 of whole groups, of which one or two pads complete the last. -/
def IsEncoded (cs : List Char) : Prop :=
  ∃ digits pads, cs = digits ++ List.replicate pads '=' ∧ (∀ c ∈ digits, IsDigit c) ∧ pads ≤ 2 ∧
    cs.length % 4 = 0

/-- Groups of digits alone, and pads that complete none of them. -/
def IsOverpadded (cs : List Char) : Prop :=
  ∃ digits pads, cs = digits ++ List.replicate pads '=' ∧ (∀ c ∈ digits, IsDigit c) ∧ digits ≠ [] ∧
    digits.length % 4 = 0 ∧ 0 < pads

/-! ### Places in a group -/

def Closes (place pads : Nat) : Prop := place = 0 ∨ place = 2 ∧ pads = 2 ∨ place = 3 ∧ pads = 1

def Reads (p : Progress) (cs : List Char) : Prop := ∃ bytes, readFrom true p cs = .ok bytes

theorem reads_nil {p : Progress} : Reads p [] ↔ p.place = 0 := by
  obtain ⟨place, left, pads, padded, count⟩ := p
  unfold Reads readFrom Progress.finish
  rcases place with _ | _ | place <;> simp

theorem not_isDigit_pad : ¬IsDigit '=' := by
  unfold IsDigit
  decide

section Reading

variable {p : Progress} {left pads count : Nat} {c : Char} {rest : List Char}

theorem not_reads_foreign (hpad : c ≠ '=') (h : ¬IsDigit c) : ¬Reads p (c :: rest) := by
  rintro ⟨bytes, hread⟩
  have hvalue : value? c = none :=
    Option.not_isSome_iff_eq_none.mp fun hsome => h (value?_isSome_iff.mp hsome)
  rw [readFrom, if_neg hpad, hvalue] at hread
  cases hread

theorem not_reads_behind_pad (hpadded : p.padded = true) (hpad : c ≠ '=') : ¬Reads p (c :: rest) := by
  rintro ⟨bytes, hread⟩
  rw [readFrom, if_neg hpad] at hread
  cases hvalue : value? c <;> simp [hvalue, hpadded] at hread

theorem reads_digit (h : IsDigit c) (hpadded : p.padded = false) :
    Reads p (c :: rest) ↔ ∃ d, value? c = some d ∧ Reads (p.push d).1 rest := by
  obtain ⟨d, hd⟩ := Option.isSome_iff_exists.mp (value?_isSome_iff.mpr h)
  have hpad : c ≠ '=' := fun heq => not_isDigit_pad (heq ▸ h)
  simp only [Reads, readFrom, if_neg hpad, hd, hpadded, Bool.and_false, Bool.false_eq_true, if_false,
    Except.bind_eq_ok, Option.some.injEq, exists_eq_left']
  constructor
  · rintro ⟨bytes, more, hmore, -⟩
    exact ⟨more, hmore⟩
  · rintro ⟨more, hmore⟩
    exact ⟨_, more, hmore, rfl⟩

theorem exists_push {place : Nat} (hplace : place < 4) (left count d : Nat) :
    ∃ left' count', (Progress.push ⟨place, left, 0, false, count⟩ d).1 =
      ⟨(place + 1) % 4, left', 0, false, count'⟩ := by
  obtain _ | _ | _ | _ | place := place
  · exact ⟨_, _, rfl⟩
  · exact ⟨_, _, rfl⟩
  · exact ⟨_, _, rfl⟩
  · exact ⟨0, count + 1, by simp [Progress.push]⟩
  · exact absurd hplace (by simp)

theorem reads_behind_full {cs : List Char} :
    Reads ⟨0, left, pads, true, count⟩ cs ↔ ∃ more, cs = List.replicate more '=' := by
  induction cs with
  | nil => exact ⟨fun _ => ⟨0, rfl⟩, fun _ => reads_nil.mpr rfl⟩
  | cons c rest ih =>
    by_cases hpad : c = '='
    · subst hpad
      have hskip : Reads ⟨0, left, pads, true, count⟩ ('=' :: rest) ↔
          Reads ⟨0, left, pads, true, count⟩ rest := Iff.rfl
      rw [hskip, ih]
      constructor
      · rintro ⟨more, rfl⟩
        exact ⟨more + 1, rfl⟩
      · rintro ⟨_ | more, h⟩
        · cases h
        · exact ⟨more, (List.cons.inj h).2⟩
    · refine iff_of_false (not_reads_behind_pad rfl hpad) ?_
      rintro ⟨_ | more, h⟩
      · cases h
      · exact hpad (List.cons.inj h).1

theorem not_reads_behind_single {cs : List Char} : ¬Reads ⟨1, left, pads, true, count⟩ cs := by
  induction cs with
  | nil => exact fun h => nomatch reads_nil.mp h
  | cons c rest ih =>
    by_cases hpad : c = '='
    · subst hpad
      exact ih
    · exact not_reads_behind_pad rfl hpad

theorem reads_last_pad {place padsBefore : Nat} {padded : Bool} (hplace : 2 ≤ place)
    (h : 4 ≤ place + padsBefore + 1) :
    Reads ⟨place, left, padsBefore, padded, count⟩ ('=' :: rest) ↔ rest = [] := by
  unfold Reads
  rw [readFrom, if_pos rfl, if_pos hplace, if_pos h]
  cases rest <;> simp

theorem reads_pad {place : Nat} (hplace : place < 4) :
    Reads ⟨place, left, 0, false, count⟩ ('=' :: rest) ↔
      ∃ more, rest = List.replicate more '=' ∧ Closes place (more + 1) := by
  obtain _ | _ | _ | _ | place := place
  · have hskip : Reads ⟨0, left, 0, false, count⟩ ('=' :: rest) ↔
        Reads ⟨0, left, 0, true, count⟩ rest := Iff.rfl
    simp [hskip, reads_behind_full, Closes]
  · have hskip : Reads ⟨1, left, 0, false, count⟩ ('=' :: rest) ↔
        Reads ⟨1, left, 0, true, count⟩ rest := Iff.rfl
    simp [hskip, not_reads_behind_single, Closes]
  · have hskip : Reads ⟨2, left, 0, false, count⟩ ('=' :: rest) ↔
        Reads ⟨2, left, 1, true, count⟩ rest := Iff.rfl
    rw [show 0 + 1 + 1 = 2 from rfl, hskip]
    cases rest with
    | nil => simp [reads_nil, Closes]
    | cons c rest =>
      by_cases hpad : c = '='
      · subst hpad
        simp [reads_last_pad, Closes]
      · simp [not_reads_behind_pad, hpad, Closes]
  · simp [reads_last_pad, Closes]
  · exact absurd hplace (by simp)

end Reading

/-- What is accepted at a place in a group: digits, and the pads that close the last group of them. -/
theorem reads_iff {place left count : Nat} (hplace : place < 4) {cs : List Char} :
    Reads ⟨place, left, 0, false, count⟩ cs ↔ ∃ digits pads,
      cs = digits ++ List.replicate pads '=' ∧ (∀ c ∈ digits, IsDigit c) ∧
        Closes ((place + digits.length) % 4) pads := by
  induction cs generalizing place left count with
  | nil =>
    rw [reads_nil]
    constructor
    · rintro rfl
      exact ⟨[], 0, rfl, nofun, .inl rfl⟩
    · rintro ⟨digits, pads, h, -, hcloses⟩
      obtain ⟨rfl, hpads⟩ := List.append_eq_nil_iff.mp h.symm
      obtain rfl : pads = 0 := by simpa using hpads
      simp only [Closes, List.length_nil] at hcloses
      show place = 0
      omega
  | cons c rest ih =>
    by_cases hpad : c = '='
    · subst hpad
      rw [reads_pad hplace]
      constructor
      · rintro ⟨more, rfl, hcloses⟩
        refine ⟨[], more + 1, rfl, nofun, ?_⟩
        rwa [List.length_nil, Nat.add_zero, Nat.mod_eq_of_lt hplace]
      · rintro ⟨_ | ⟨d, digits⟩, pads, h, hdigits, hcloses⟩
        · rw [List.length_nil, Nat.add_zero, Nat.mod_eq_of_lt hplace] at hcloses
          obtain _ | more := pads
          · cases h
          · exact ⟨more, (List.cons.inj h).2, hcloses⟩
        · rw [← (List.cons.inj h).1] at hdigits
          exact absurd (hdigits _ List.mem_cons_self) not_isDigit_pad
    · by_cases hdigit : IsDigit c
      · rw [reads_digit hdigit rfl]
        obtain ⟨d, hd⟩ := Option.isSome_iff_exists.mp (value?_isSome_iff.mpr hdigit)
        obtain ⟨left', count', hpush⟩ := exists_push hplace left count d
        simp only [hd, Option.some.injEq, exists_eq_left', hpush, ih (Nat.mod_lt _ (by decide))]
        have hplaces (digits : List Char) :
            ((place + 1) % 4 + digits.length) % 4 = (place + (c :: digits).length) % 4 := by
          rw [List.length_cons]
          omega
        constructor
        · rintro ⟨digits, pads, rfl, hdigits, hcloses⟩
          exact ⟨c :: digits, pads, rfl, List.forall_mem_cons.mpr ⟨hdigit, hdigits⟩,
            hplaces digits ▸ hcloses⟩
        · rintro ⟨_ | ⟨e, digits⟩, pads, h, hdigits, hcloses⟩
          · obtain _ | more := pads
            · cases h
            · exact absurd (List.cons.inj h).1 hpad
          · obtain ⟨rfl, rfl⟩ := List.cons.inj h
            exact ⟨digits, pads, rfl, (List.forall_mem_cons.mp hdigits).2,
              (hplaces digits).symm ▸ hcloses⟩
      · refine iff_of_false (not_reads_foreign hpad hdigit) ?_
        rintro ⟨_ | ⟨e, digits⟩, pads, h, hdigits, -⟩
        · obtain _ | more := pads
          · cases h
          · exact hpad (List.cons.inj h).1
        · rw [← (List.cons.inj h).1] at hdigits
          exact hdigit (hdigits _ List.mem_cons_self)

theorem head?_ne_pad_of_decode {cs : List Char} {bytes : List UInt8} (h : decode cs = .ok bytes) :
    cs.head? ≠ some '=' := by
  unfold decode at h
  split at h
  · cases h
  · rename_i hcs
    cases cs with
    | nil => exact nofun
    | cons c rest =>
      rintro ⟨⟩
      exact hcs rest rfl

theorem head?_ne_pad {digits : List Char} {pads : Nat} (hdigits : ∀ c ∈ digits, IsDigit c)
    (h : digits ≠ [] ∨ pads = 0) : (digits ++ List.replicate pads '=').head? ≠ some '=' := by
  cases digits with
  | nil =>
    rw [h.resolve_left (· rfl)]
    exact nofun
  | cons c digits =>
    rintro ⟨⟩
    exact not_isDigit_pad (hdigits _ List.mem_cons_self)

theorem exists_decode_iff {cs : List Char} :
    (∃ bytes, decode cs = .ok bytes) ↔ IsEncoded cs ∨ IsOverpadded cs := by
  constructor
  · rintro ⟨bytes, h⟩
    have hhead := head?_ne_pad_of_decode h
    rw [decode_eq_readFrom hhead] at h
    obtain ⟨digits, pads, rfl, hdigits, hcloses⟩ := (reads_iff (by decide)).mp ⟨bytes, h⟩
    by_cases hover : digits.length % 4 = 0 ∧ 0 < pads
    · refine .inr ⟨digits, pads, rfl, hdigits, ?_, hover⟩
      rintro rfl
      obtain ⟨more, rfl⟩ := Nat.exists_eq_add_of_lt hover.2
      exact hhead (by simp [List.replicate_succ])
    · refine .inl ⟨digits, pads, rfl, hdigits, ?_⟩
      simp only [Closes, List.length_append, List.length_replicate] at hcloses ⊢
      omega
  · intro h
    have hreads {digits : List Char} {pads : Nat} (hdigits : ∀ c ∈ digits, IsDigit c)
        (hfirst : digits ≠ [] ∨ pads = 0) (hcloses : Closes (digits.length % 4) pads) :
        ∃ bytes, decode (digits ++ List.replicate pads '=') = .ok bytes := by
      rw [decode_eq_readFrom (head?_ne_pad hdigits hfirst)]
      exact (reads_iff (by decide)).mpr ⟨digits, pads, rfl, hdigits, by rwa [Nat.zero_add]⟩
    rcases h with ⟨digits, pads, rfl, hdigits, hpads, hlength⟩ |
      ⟨digits, pads, rfl, hdigits, hsome, hfull, -⟩
    · rw [List.length_append, List.length_replicate] at hlength
      refine hreads hdigits ?_ ?_
      · by_cases hnil : digits = []
        · rw [hnil, List.length_nil] at hlength
          exact .inr (by omega)
        · exact .inl hnil
      · unfold Closes
        omega
    · exact hreads hdigits (.inl hsome) (.inl hfull)

theorem toNat_lt_of_isDigit {c : Char} (h : IsDigit c) : c.toNat < 128 := by
  obtain ⟨n, hn⟩ := Option.isSome_iff_exists.mp (value?_isSome_iff.mpr h)
  unfold value? at hn
  split_ifs at hn with hupper hlower hdecimal hplus hslash
  · exact Nat.lt_of_le_of_lt hupper.2 (by decide)
  · exact Nat.lt_of_le_of_lt hlower.2 (by decide)
  · exact Nat.lt_of_le_of_lt hdecimal.2 (by decide)
  · rw [hplus]
    decide
  · rw [hslash]
    decide

theorem toNat_lt_of_decode {cs : List Char} {bytes : List UInt8} (h : decode cs = .ok bytes) :
    ∀ c ∈ cs, c.toNat < 128 := by
  have hchars {digits : List Char} {pads : Nat} (hdigits : ∀ c ∈ digits, IsDigit c) :
      ∀ c ∈ digits ++ List.replicate pads '=', c.toNat < 128 := by
    intro c hc
    rcases List.mem_append.mp hc with hc | hc
    · exact toNat_lt_of_isDigit (hdigits c hc)
    · rw [(List.mem_replicate.mp hc).2]
      decide
  rcases exists_decode_iff.mp ⟨bytes, h⟩ with ⟨_, _, rfl, hdigits, -⟩ | ⟨_, _, rfl, hdigits, -⟩
  · exact hchars hdigits
  · exact hchars hdigits

end ClusterRegistrar.Base64
