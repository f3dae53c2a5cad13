import ClusterRegistrar.Proofs.Text.Numeral
import ClusterRegistrar.Proofs.Yaml.Scalar.Quoted
import ClusterRegistrar.Yaml.Writer.Scalar

/-! Text in double quotes reads back, whatever it holds. A code point is written as it is or as an
escape, and where a line is folded nothing is read. -/
namespace ClusterRegistrar.Yaml.Scalar

/-! ### Escapes -/

private theorem escapedChar?_namedEscapes :
    ∀ named ∈ namedEscapes, escapedChar? named.2 = some named.1 := by
  decide

theorem scanEscape_named {ch letter : Char} (h : escapedChar? letter = some ch) {c : Cursor}
    {rest : List Char} (hrest : c.rest = letter :: rest) :
    scanEscape c = .ok ([.char ch], c.next) := by
  simp only [scanEscape, hrest, h]

private theorem hexDigit_toUpper : ∀ d < 16,
    Numeral.digitValue? (Nat.digitChar d).toUpper = some d ∧
      Numeral.isHexDigit (Nat.digitChar d).toUpper = true := by
  decide

theorem hexNumber?_hexUpper {width n : Nat} (h : n < 16 ^ (width + 1)) (rest : List Char) :
    (Numeral.hexUpper (width + 1) n).length = width + 1 ∧
      hexNumber? (width + 1) (Numeral.hexUpper (width + 1) n ++ rest) = some n := by
  obtain ⟨digits, hlength, hdigits, rfl, hwritten⟩ := Numeral.exists_hexDigits width h
  have hupper : Numeral.hexUpper (width + 1) (digits.foldl (fun acc d => acc * 16 + d) 0) =
      digits.map fun d => (Nat.digitChar d).toUpper := by
    rw [Numeral.hexUpper, hwritten, List.map_map]
    rfl
  have hlength' : (digits.map fun d => (Nat.digitChar d).toUpper).length = width + 1 := by
    rw [List.length_map, hlength]
  have hall : (digits.map fun d => (Nat.digitChar d).toUpper).all Numeral.isHexDigit = true := by
    simp only [List.all_map, List.all_eq_true, Function.comp_apply]
    exact fun d hd => (hexDigit_toUpper d (hdigits d hd)).2
  have hvalue (acc : Nat) : (digits.map fun d => (Nat.digitChar d).toUpper).foldl
      (fun acc c => acc * 16 + (Numeral.digitValue? c).getD 0) acc =
        digits.foldl (fun acc d => acc * 16 + d) acc := by
    clear hlength hwritten hupper hlength' hall h
    induction digits generalizing acc with
    | nil => rfl
    | cons d rest ih =>
      obtain ⟨hd, hrest⟩ := List.forall_mem_cons.mp hdigits
      simp only [List.map_cons, List.foldl_cons, (hexDigit_toUpper d hd).1, Option.getD_some]
      exact ih hrest _
  rw [hupper]
  refine ⟨hlength', ?_⟩
  have htake : List.take (width + 1)
      ((digits.map fun d => (Nat.digitChar d).toUpper) ++ rest) =
        digits.map fun d => (Nat.digitChar d).toUpper := by
    rw [← hlength', List.take_left]
  simp only [hexNumber?, htake, hlength', hall, decide_true, Bool.and_self, if_true,
    Numeral.hexValue, hvalue]

theorem scanEscape_number {letter : Char} {width : Nat} (hnot : escapedChar? letter = none)
    (hwidth : escapeWidth? letter = some (width + 1)) {p : CodePoint}
    (h : p.number < 16 ^ (width + 1)) {c : Cursor} {rest : List Char}
    (hrest : c.rest = letter :: (Numeral.hexUpper (width + 1) p.number ++ rest)) :
    scanEscape c = .ok ([p], c.skip (width + 1 + 1)) := by
  have hpoint : numberedCodePoint p.number = .ok p := by
    have := p.number_lt
    rw [numberedCodePoint, if_neg (by omega), if_neg (by omega), p.ofNat_number]
  simp only [scanEscape, hrest, hnot, hwidth, (hexNumber?_hexUpper h rest).2, hpoint]
  rfl

theorem exists_of_escape? {p : CodePoint} {e : List Char} (h : escape? p = some e) :
    ∃ body, e = '\\' :: body ∧ ∀ (c : Cursor) (rest : List Char), c.rest = body ++ rest →
      scanEscape c = .ok ([p], c.skip body.length) := by
  have hnumber := p.number_lt
  unfold escape? at h
  split at h
  · rename_i ch letter hfind
    cases h
    have hmem := List.mem_of_find?_eq_some hfind
    have hp : p = .char ch := by simpa using List.find?_some hfind
    refine ⟨[letter], rfl, fun c rest hrest => ?_⟩
    rw [hp]
    exact scanEscape_named (escapedChar?_namedEscapes _ hmem) hrest
  · have hcode {letter : Char} {width : Nat} (hnot : escapedChar? letter = none)
        (hwidth : escapeWidth? letter = some (width + 1)) (hp : p.number < 16 ^ (width + 1)) :
        ∃ body, '\\' :: letter :: Numeral.hexUpper (width + 1) p.number = '\\' :: body ∧
          ∀ (c : Cursor) (rest : List Char), c.rest = body ++ rest →
            scanEscape c = .ok ([p], c.skip body.length) := by
      refine ⟨_, rfl, fun c rest hrest => ?_⟩
      rw [List.length_cons, (hexNumber?_hexUpper hp []).1]
      exact scanEscape_number hnot hwidth hp hrest
    split at h
    · cases h
    split at h
    · cases h
      exact hcode (by decide) (by decide) (by omega)
    split at h
    · cases h
      exact hcode (by decide) (by decide) (by omega)
    · cases h
      exact hcode (by decide) (by decide) (by omega)

theorem exists_of_escape?_none {p : CodePoint} (h : escape? p = none) :
    ∃ ch, p = .char ch ∧ IsInline ch ∧ ch ≠ '"' ∧ ch ≠ '\\' := by
  unfold escape? at h
  split at h
  · cases h
  · rename_i hfind
    split at h
    · rename_i hrange
      cases p with
      | surrogate n =>
        simp only [CodePoint.number] at hrange
        omega
      | char ch =>
        have hnamed := List.find?_eq_none.mp hfind
        refine ⟨ch, rfl, isInline_iff.mpr hrange, ?_, ?_⟩
        · rintro rfl
          exact absurd (hnamed ('"', '"') (by decide)) (by decide)
        · rintro rfl
          exact absurd (hnamed ('\\', '\\') (by decide)) (by decide)
    · split at h
      · cases h
      · split at h <;> cases h

theorem isInline_of_mem_hexUpper {width n : Nat} (h : n < 16 ^ (width + 1)) :
    ∀ c ∈ Numeral.hexUpper (width + 1) n, IsInline c := by
  have hupper : ∀ d < 16, IsInline (Nat.digitChar d).toUpper := by decide
  obtain ⟨digits, -, hdigits, -, hwritten⟩ := Numeral.exists_hexDigits width h
  intro c hc
  rw [Numeral.hexUpper, hwritten, List.map_map] at hc
  obtain ⟨d, hd, rfl⟩ := List.mem_map.mp hc
  exact hupper d (hdigits d hd)

theorem isInline_of_escape? {p : CodePoint} {e : List Char} (h : escape? p = some e) :
    ∀ c ∈ e, IsInline c := by
  have hnumber := p.number_lt
  have hcode {letter : Char} {width : Nat} (hletter : IsInline letter)
      (hp : p.number < 16 ^ (width + 1)) :
      ∀ c ∈ '\\' :: letter :: Numeral.hexUpper (width + 1) p.number, IsInline c := by
    simp only [List.forall_mem_cons]
    exact ⟨by decide, hletter, isInline_of_mem_hexUpper hp⟩
  unfold escape? at h
  split at h
  · rename_i ch letter hfind
    cases h
    have hletters : ∀ named ∈ namedEscapes, IsInline named.2 := by decide
    have hletter := hletters _ (List.mem_of_find?_eq_some hfind)
    simp only [List.forall_mem_cons]
    exact ⟨by decide, hletter, nofun⟩
  · split at h
    · cases h
    split at h
    · cases h
      exact hcode (by decide) (by omega)
    split at h
    · cases h
      exact hcode (by decide) (by omega)
    · cases h
      exact hcode (by decide) (by omega)

/-! ### Inner text -/

def Place.HasRoom (place : Place) : Prop :=
  place.fold = true → 0 < place.indent ∧ place.indent < width

def doubleTail (place : Place) (first afterEscape : Bool) (column : Nat) (t : Text) : List Char :=
  doubleInner place first afterEscape column t ++ ['"']

section

variable {place : Place} {first afterEscape : Bool} {column : Nat} {p : CodePoint} {t : Text}

theorem doubleTail_escaped {e : List Char} (h : escape? p = some e) :
    doubleTail place first afterEscape column (p :: t) =
      if (place.fold && !first && !t.isEmpty) && width < column + e.length - 1 then
        e ++ (foldDouble place (t.head?.any isSpace) ++
          doubleTail place false true (foldColumn place (t.head?.any isSpace)) t)
      else e ++ doubleTail place false true (column + e.length) t := by
  rw [doubleTail, doubleInner, h]
  dsimp only
  split <;> simp only [doubleTail, List.append_assoc]

theorem doubleTail_plain {ch : Char} (h : escape? (.char ch) = none) :
    doubleTail place first afterEscape column (.char ch :: t) =
      if (place.fold && !first && !t.isEmpty) && (isSpace (.char ch) || afterEscape) &&
          width < column then
        foldDouble place (isSpace (.char ch)) ++
          ch :: doubleTail place false false (foldColumn place (isSpace (.char ch)) + 1) t
      else ch :: doubleTail place false false (column + 1) t := by
  have hwritten : Text.toChars [.char ch] = [ch] := rfl
  rw [doubleTail, doubleInner, h, hwritten]
  dsimp only
  split <;> simp only [doubleTail, List.append_assoc, List.cons_append, List.nil_append]

theorem startsDark_doubleTail (h : isSpace p = false) :
    StartsDark (doubleTail place first afterEscape column (p :: t)) := by
  cases hescape : escape? p with
  | some e =>
    obtain ⟨body, rfl, -⟩ := exists_of_escape? hescape
    rw [doubleTail_escaped hescape]
    split <;> exact ⟨'\\', _, rfl, by decide, by decide⟩
  | none =>
    obtain ⟨ch, rfl, hch, -, -⟩ := exists_of_escape?_none hescape
    have hspace : ch ≠ ' ' := by
      rintro rfl
      cases h
    rw [doubleTail_plain hescape]
    split
    · exact ⟨'\\', _, rfl, by decide, by decide⟩
    · exact ⟨ch, _, rfl, hch, hspace⟩

end

private theorem readsQuoted_space {written : List Char} {t : Text}
    (h : ReadsQuoted true written t) :
    ReadsQuoted true ('\\' :: ' ' :: written) (.char ' ' :: t) := by
  show ReadsQuoted true ('\\' :: [' '] ++ written) ([.char ' '] ++ t)
  exact h.escape fun c rest hrest => scanEscape_named rfl hrest

private theorem doubleTail_space {place : Place} {afterEscape : Bool} {column : Nat}
    (h : column ≤ width) (t : Text) :
    doubleTail place false afterEscape column (.char ' ' :: t) =
      ' ' :: doubleTail place false false (column + 1) t := by
  rw [doubleTail_plain (by decide), if_neg]
  simp [Nat.not_lt.mpr h]

/-- A fold behind an escape is read away. A space after it is written with the fold, so the text behind
that space is read in its place. -/
private theorem readsQuoted_foldBehind {place : Place} (hpositive : 0 < place.indent)
    (hroom : place.indent < width) {q : CodePoint} {t : Text}
    (hread : ReadsQuoted true (doubleTail place false true place.indent (q :: t)) (q :: t))
    (hinner : ReadsQuoted true (doubleTail place false false (place.indent + 1 + 1) t) t) :
    ReadsQuoted true (foldDouble place (isSpace q) ++
      doubleTail place false true (foldColumn place (isSpace q)) (q :: t)) (q :: t) := by
  cases hspace : isSpace q with
  | true =>
    obtain rfl : q = .char ' ' := of_decide_eq_true hspace
    show ReadsQuoted true ('\\' :: '\n' :: List.replicate place.indent ' ' ++ ['\\'] ++
      doubleTail place false true (place.indent + 1) (.char ' ' :: t)) (.char ' ' :: t)
    rw [doubleTail_space hroom, List.append_assoc]
    exact (readsQuoted_space hinner).fold ⟨'\\', _, rfl, by decide, by decide⟩ hpositive
  | false =>
    show ReadsQuoted true ('\\' :: '\n' :: List.replicate place.indent ' ' ++ [] ++
      doubleTail place false true place.indent (q :: t)) (q :: t)
    rw [List.append_nil]
    exact hread.fold (startsDark_doubleTail hspace) hpositive

private theorem readsQuoted_foldBefore {place : Place} (hpositive : 0 < place.indent) {ch : Char}
    (hch : IsInline ch) (hquote : ch ≠ '"') (hback : ch ≠ '\\') {written : List Char} {t : Text}
    (h : ReadsQuoted true written t) :
    ReadsQuoted true (foldDouble place (isSpace (.char ch)) ++ ch :: written) (.char ch :: t) := by
  cases hspace : isSpace (.char ch) with
  | true =>
    obtain rfl : ch = ' ' := CodePoint.char.inj (of_decide_eq_true hspace)
    show ReadsQuoted true ('\\' :: '\n' :: List.replicate place.indent ' ' ++ ['\\'] ++
      ' ' :: written) (.char ' ' :: t)
    rw [List.append_assoc]
    exact (readsQuoted_space h).fold ⟨'\\', _, rfl, by decide, by decide⟩ hpositive
  | false =>
    have hne : ch ≠ ' ' := fun heq => of_decide_eq_false hspace (congrArg _ heq)
    show ReadsQuoted true ('\\' :: '\n' :: List.replicate place.indent ' ' ++ [] ++
      ch :: written) (.char ch :: t)
    rw [List.append_nil]
    exact (h.char hch hne (fun _ => ⟨hquote, hback⟩) nofun).fold ⟨ch, _, rfl, hch, hne⟩ hpositive

/-- Inner text is read up to the closing quote. The induction is on the length, since a space behind a
folded line is written together with the fold. -/
theorem readsQuoted_doubleTail {place : Place} (hplace : place.HasRoom) (t : Text)
    (first afterEscape : Bool) (column : Nat) :
    ReadsQuoted true (doubleTail place first afterEscape column t) t ∧
      StartsCalm (doubleTail place first afterEscape column t) := by
  induction hlength : t.length using Nat.strongRecOn
    generalizing t first afterEscape column with
  | ind n ih =>
    cases t with
    | nil =>
      have hdark : StartsDark ['"'] := ⟨'"', [], rfl, by decide, by decide⟩
      exact ⟨ReadsQuoted.close_double, hdark.calm⟩
    | cons p t =>
      have hrest (afterEscape : Bool) (column : Nat) :=
        ih t.length (by rw [← hlength]; exact Nat.lt_succ_self _) t false afterEscape column rfl
      cases hescape : escape? p with
      | some e =>
        obtain ⟨body, rfl, hscan⟩ := exists_of_escape? hescape
        have hread {written : List Char} (h : ReadsQuoted true written t) :
            ReadsQuoted true ('\\' :: body ++ written) (p :: t) :=
          h.escape fun c rest hrest => hscan c _ hrest
        rw [doubleTail_escaped hescape]
        split
        · rename_i hfold
          simp only [Bool.and_eq_true, Bool.not_eq_true', decide_eq_true_eq] at hfold
          obtain ⟨hpositive, hroom⟩ := hplace hfold.1.1.1
          refine ⟨hread ?_, StartsDark.calm ⟨'\\', _, rfl, by decide, by decide⟩⟩
          cases t with
          | nil => simp at hfold
          | cons q t =>
            have hinner := ih t.length (by rw [← hlength]; simp only [List.length_cons]; omega) t
              false false (place.indent + 1 + 1) rfl
            exact readsQuoted_foldBehind hpositive hroom (hrest _ _).1 hinner.1
        · exact ⟨hread (hrest _ _).1, StartsDark.calm ⟨'\\', _, rfl, by decide, by decide⟩⟩
      | none =>
        obtain ⟨ch, rfl, hch, hquote, hback⟩ := exists_of_escape?_none hescape
        rw [doubleTail_plain hescape]
        split
        · rename_i hfold
          simp only [Bool.and_eq_true, Bool.not_eq_true', decide_eq_true_eq] at hfold
          obtain ⟨hpositive, -⟩ := hplace hfold.1.1.1.1
          exact ⟨readsQuoted_foldBefore hpositive hch hquote hback (hrest _ _).1,
            StartsDark.calm ⟨'\\', _, rfl, by decide, by decide⟩⟩
        · by_cases hspace : ch = ' '
          · subst hspace
            exact ⟨(hrest _ _).1.space (hrest _ _).2, (hrest _ _).2.space⟩
          · exact ⟨(hrest _ _).1.char hch hspace (fun _ => ⟨hquote, hback⟩) nofun,
              StartsDark.calm ⟨ch, _, rfl, hch, hspace⟩⟩

theorem exists_double {place : Place} (hplace : place.HasRoom) (column : Nat) (t : Text) :
    ∃ written, double place column t = '"' :: written ∧ ReadsQuoted true written t :=
  ⟨_, rfl, (readsQuoted_doubleTail hplace t true false (column + 1)).1⟩

end ClusterRegistrar.Yaml.Scalar
