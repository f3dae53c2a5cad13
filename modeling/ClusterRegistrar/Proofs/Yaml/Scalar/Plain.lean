import ClusterRegistrar.Proofs.Yaml.Scalar.Single

/-! Plain text reads back up to the colon behind a key or up to the end of the line. No word of it holds
what would end it early, and a space where a line is folded is read from the line end. -/
namespace ClusterRegistrar.Yaml

/-! ### Words -/

open Style (endsEarly separated)

theorem endsEarly_of_append {before after : List Char} (h : endsEarly (before ++ after) = false) :
    endsEarly after = false := by
  induction before with
  | nil => exact h
  | cons c before ih =>
    refine ih ?_
    rw [List.cons_append] at h
    unfold endsEarly at h
    split at h
    · rename_i heq
      cases heq
    · rename_i heq
      cases heq
      exact (Bool.or_eq_false_iff.mp h).2
    · rename_i heq
      cases heq
      exact (Bool.or_eq_false_iff.mp h).2

theorem plainLength_of_append {word rest : List Char} (hword : ∀ c ∈ word, IsInline c ∧ c ≠ ' ')
    (hcolon : word.getLast? ≠ some ':') (hrest : plainLength false rest = 0) :
    plainLength false (word ++ rest) = word.length := by
  induction word with
  | nil => exact hrest
  | cons c word ih =>
    obtain ⟨⟨hc, hspace⟩, hmore⟩ := List.forall_mem_cons.mp hword
    have hblank : (isSpaceOrTab c || isBreak c) = false := by
      rw [hc.isSpaceOrTab, hc.isBreak, decide_eq_false hspace]
      rfl
    have hends : (c = ':' && colonEnds false (word ++ rest)) = false := by
      cases word with
      | nil =>
        have hne : c ≠ ':' := fun heq => hcolon (congrArg some heq)
        simp [hne]
      | cons d word =>
        obtain ⟨⟨hd, hdspace⟩, -⟩ := List.forall_mem_cons.mp hmore
        simp [colonEnds, atBlank, headOrEnd, hd.isSpaceOrTab, hd.isBreak, hdspace]
    have hlast : word.getLast? ≠ some ':' := by
      cases word with
      | nil => simp
      | cons d word => rwa [List.getLast?_cons_cons] at hcolon
    rw [List.cons_append, plainLength, hblank, hends]
    simp only [Bool.false_eq_true, if_false, Bool.false_and, ih hmore hlast, List.length_cons]

/-! ### Gaps -/

def plainBehind (indent : Int) (fuel : List Char) (c : Cursor) : List Char × Cursor × Bool :=
  let (gap, c, broke) := plainGap c
  if gap.isEmpty || c.rest.head? = some '#' || c.column < indent then ([], c, broke)
  else plainFrom false indent fuel c gap broke

theorem plainFrom_word {indent : Int} {f : Char} {fuel : List Char} {c : Cursor} {gap word : List Char}
    {ended : Bool} {rest : List Char} (hrest : c.rest = word ++ rest) (hne : word ≠ [])
    (hcomment : word.head? ≠ some '#') (hlength : plainLength false c.rest = word.length) :
    plainFrom false indent (f :: fuel) c gap ended =
      (gap ++ word ++ (plainBehind indent fuel (c.skip word.length)).1,
        (plainBehind indent fuel (c.skip word.length)).2) := by
  have hhead : c.rest.head? ≠ some '#' := by
    rw [hrest, List.head?_append_of_ne_nil _ hne]
    exact hcomment
  have htake : c.rest.take word.length = word := by
    rw [hrest, List.take_left]
  have hpositive : word.length ≠ 0 := fun h => hne (List.length_eq_zero_iff.mp h)
  rw [plainFrom, if_neg hhead, hlength, htake]
  simp only [hpositive, if_false, plainBehind, Bool.not_false, Bool.true_and]
  split
  · simp
  · simp

/-- A cursor behind a plain scalar, the cursor where the next token is looked for, and whether a line
ends between the two. -/
def EndsPlain (indent : Int) (c d : Cursor) (ended : Bool) : Prop :=
  plainLength false c.rest = 0 ∧
    ∃ gap, plainGap c = (gap, d, ended) ∧ (gap = [] ∨ d.column < indent)

theorem EndsPlain.plainBehind {indent : Int} {c d : Cursor} {ended : Bool} (h : EndsPlain indent c d ended)
    (fuel : List Char) : plainBehind indent fuel c = ([], d, ended) := by
  obtain ⟨-, gap, hgap, hends⟩ := h
  rw [Yaml.plainBehind, hgap]
  refine if_pos ?_
  rcases hends with rfl | hends
  · rfl
  · simp [hends]

theorem plainBehind_of_gap {indent : Int} {fuel : List Char} {c d : Cursor} {gap : List Char}
    {broke : Bool} (hgap : plainGap c = (gap, d, broke)) (hne : gap ≠ [])
    (hcomment : d.rest.head? ≠ some '#') (hcolumn : indent ≤ d.column) :
    plainBehind indent fuel c = plainFrom false indent fuel d gap broke := by
  rw [plainBehind, hgap]
  refine if_neg ?_
  simp [hne, hcomment, hcolumn]

section

variable {c : Cursor} {rest : List Char}

theorem plainGap_spaces {n : Nat} (h : c.rest = List.replicate n ' ' ++ rest)
    (hrest : NoBreak rest) (hspace : rest.head? ≠ some ' ') :
    plainGap c = (List.replicate n ' ', c.skip n, false) := by
  have htake : c.rest.takeWhile (· = ' ') = List.replicate n ' ' := by
    rw [h]
    refine takeWhile_of_append (fun d hd => ?_) fun d hd => ?_
    · simpa using List.eq_of_mem_replicate hd
    · exact decide_eq_false fun heq => hspace (heq ▸ hd)
  have hskip : (c.skip n).rest = rest := by
    have hskip := Cursor.rest_skip_of_append h
    rwa [List.length_replicate] at hskip
  have hbreak : (c.skip n).takeBreak? = none := Cursor.takeBreak?_of_noBreak (hskip ▸ hrest)
  simp only [plainGap, htake, List.length_replicate, hbreak]

theorem plainBreaks_spaces {n : Nat} (h : c.rest = List.replicate n ' ' ++ rest)
    (hrest : NoBreak rest) (hspace : rest.head? ≠ some ' ') {fuel : List Char} (hfuel : n ≤ fuel.length) :
    plainBreaks fuel c = (some [], c.skip n) := by
  induction n generalizing c fuel with
  | zero =>
    have hbreak : c.takeBreak? = none := Cursor.takeBreak?_of_noBreak (h ▸ hrest)
    cases fuel with
    | nil => rfl
    | cons f fuel =>
      rw [plainBreaks, hbreak]
      exact if_neg (h ▸ hspace)
  | succ n ih =>
    obtain ⟨f, fuel, rfl⟩ := List.exists_cons_of_length_pos (Nat.lt_of_lt_of_le (Nat.succ_pos _) hfuel)
    have hbreak : c.takeBreak? = none := Cursor.takeBreak?_of_noBreak (by rw [h]; rintro _ ⟨⟩; rfl)
    have hnext : c.next.rest = List.replicate n ' ' ++ rest := by
      rw [Cursor.rest_next, h]
      rfl
    rw [plainBreaks, hbreak]
    refine (if_pos (by rw [h]; rfl)).trans ?_
    rw [ih hnext (Nat.le_of_succ_le_succ hfuel)]
    rfl

theorem plainGap_freshLine {n : Nat} (h : c.rest = '\n' :: List.replicate n ' ' ++ rest)
    (hrest : NoBreak rest) (hspace : rest.head? ≠ some ' ') :
    plainGap c = ([' '], c.skip (n + 1), true) ∨
      n = 0 ∧ atDocumentMark rest = true ∧ plainGap c = ([], c.skip (n + 1), true) := by
  have htake : c.rest.takeWhile (· = ' ') = [] := by
    rw [h]
    rfl
  have hnext : c.next.rest = List.replicate n ' ' ++ rest := by
    rw [Cursor.rest_next, h]
    rfl
  simp only [plainGap, htake, List.length_nil, Cursor.skip, Cursor.takeBreak?_lineFeed h]
  cases hmark : atDocumentMark c.next.rest with
  | true =>
    cases n with
    | zero =>
      rw [hnext] at hmark
      exact .inr ⟨rfl, hmark, rfl⟩
    | succ n =>
      rw [hnext, List.replicate_succ, List.cons_append,
        atDocumentMark_cons (by decide) (by decide)] at hmark
      cases hmark
  | false =>
    have hlength : n ≤ c.next.rest.length := by simp [hnext]
    rw [plainBreaks_spaces hnext hrest hspace hlength]
    exact .inl rfl

/-! ### Ends -/

theorem plainLength_colon (hrest : atBlank rest = true) : plainLength false (':' :: rest) = 0 := by
  simp [plainLength, colonEnds, hrest, isSpaceOrTab, isBreak]

theorem endsPlain_colon (indent : Int) (h : c.rest = ':' :: rest) (hrest : atBlank rest = true) :
    EndsPlain indent c c false := by
  refine ⟨?_, [], ?_, .inl rfl⟩
  · rw [h, plainLength_colon hrest]
  · exact plainGap_spaces (n := 0) h (by rintro _ ⟨⟩; decide) (by simp)

theorem endsPlain_freshLine {indent : Int} {n : Nat} (h : c.rest = '\n' :: List.replicate n ' ' ++ rest)
    (hrest : AtContent rest) (hindent : n < indent) : EndsPlain indent c (c.skip (n + 1)) true := by
  refine ⟨by rw [h]; rfl, ?_⟩
  have hspace : rest.head? ≠ some ' ' := fun heq => (hrest ' ' heq).2.1 rfl
  rcases plainGap_freshLine h hrest.noBreak hspace with hgap | ⟨-, -, hgap⟩
  · refine ⟨_, hgap, .inr ?_⟩
    rw [Cursor.skip_freshLine h]
    exact hindent
  · exact ⟨_, hgap, .inl rfl⟩

end

namespace Scalar

/-! ### Runs -/

section

variable (place : Place) (column : Nat) (runs : List (List Char))

theorem plainRuns_word {run : List Char} (hrun : ∀ c ∈ run, c ≠ ' ' ∧ c ≠ '\n') :
    plainRuns place column (run :: runs) = run ++ plainRuns place (column + run.length) runs := by
  rw [plainRuns, if_neg]
  intro hfold
  simp only [Bool.and_eq_true, decide_eq_true_eq] at hfold
  exact (hrun ' ' (by simp [hfold.1.2])).1 rfl

theorem plainRuns_spaces (n : Nat) :
    (∃ next, plainRuns place column (List.replicate (n + 1) ' ' :: runs) =
      List.replicate (n + 1) ' ' ++ plainRuns place next runs) ∨
    place.fold = true ∧ n = 0 ∧ plainRuns place column (List.replicate (n + 1) ' ' :: runs) =
      place.freshLine ++ plainRuns place place.indent runs := by
  rw [plainRuns]
  split
  · rename_i hfold
    simp only [Bool.and_eq_true, decide_eq_true_eq] at hfold
    have hn : n = 0 := by simpa using congrArg List.length hfold.1.2
    exact .inr ⟨hfold.1.1, hn, rfl⟩
  · exact .inl ⟨_, rfl⟩

theorem exists_plainRuns_eq_cons (h : Turns true runs) (hne : runs ≠ [])
    (hinline : ∀ c ∈ runs.flatten, IsInline c) :
    ∃ ch more, plainRuns place column runs = ch :: more ∧ runs.flatten.head? = some ch ∧
      IsInline ch ∧ ch ≠ ' ' := by
  cases h with
  | nil => exact absurd rfl hne
  | @word run runs hrunNe hrun _ =>
    obtain ⟨ch, run, rfl⟩ := List.exists_cons_of_ne_nil hrunNe
    rw [plainRuns_word place column runs hrun]
    exact ⟨ch, _, rfl, rfl, hinline ch (by simp), (hrun ch List.mem_cons_self).1⟩

theorem behind_word (h : Turns false runs) (hinline : ∀ c ∈ runs.flatten, IsInline c)
    {rest : List Char} (hrest : runs = [] → plainLength false rest = 0) :
    separated runs.flatten = true ∧ runs.flatten.head? ≠ some '#' ∧
      plainLength false (plainRuns place column runs ++ rest) = 0 := by
  cases h with
  | nil => exact ⟨rfl, by simp, hrest rfl⟩
  | @spaces n runs _ =>
    refine ⟨rfl, by simp [List.replicate_succ], ?_⟩
    rcases plainRuns_spaces place column runs n with ⟨next, hwritten⟩ | ⟨-, -, hwritten⟩
    · rw [hwritten]
      rfl
    · rw [hwritten]
      rfl
  | lineFeeds n _ => exact absurd (hinline '\n' (by simp [List.replicate_succ])) (by decide)

end

structure KeepsGoing (cs : List Char) : Prop where
  inline : ∀ c ∈ cs, IsInline c
  colons : endsEarly cs = false
  comment : cs.head? ≠ some '#'
  last : cs.getLast? ≠ some ' '

namespace KeepsGoing

variable {before after : List Char}

theorem of_append (h : KeepsGoing (before ++ after)) (hcomment : after.head? ≠ some '#') :
    KeepsGoing after where
  inline := fun c hc => h.inline c (List.mem_append_right before hc)
  colons := endsEarly_of_append h.colons
  comment := hcomment
  last := by
    cases after with
    | nil => simp
    | cons c after =>
      intro heq
      exact h.last (by rw [List.getLast?_append_of_ne_nil before (List.cons_ne_nil c after), heq])

theorem getLast?_ne_colon (h : KeepsGoing (before ++ after)) (hafter : separated after = true) :
    before.getLast? ≠ some ':' := by
  intro hlast
  obtain ⟨init, rfl⟩ := List.getLast?_eq_some_iff.mp hlast
  have hcolons := h.colons
  rw [List.append_assoc] at hcolons
  have hends := endsEarly_of_append hcolons
  simp [endsEarly, hafter] at hends

theorem head?_ne_comment {n : Nat} (h : KeepsGoing (List.replicate (n + 1) ' ' ++ after)) :
    after.head? ≠ some '#' := by
  intro hhead
  obtain ⟨after, rfl⟩ := List.head?_eq_some_iff.mp hhead
  have hcolons := h.colons
  rw [List.replicate_succ', List.append_assoc] at hcolons
  have hends := endsEarly_of_append hcolons
  simp [endsEarly, Style.isSeparator] at hends

end KeepsGoing

/-- A cursor at runs of plain text, the cursor where the next token is looked for, whether a line ends
between the text and that, and fuel for the text. -/
structure AtRuns (place : Place) (indent : Int) (column : Nat) (runs : List (List Char)) (rest : List Char)
    (c d : Cursor) (ended : Bool) (fuel : List Char) : Prop where
  rest : c.rest = plainRuns place column runs ++ rest
  ends : EndsPlain indent (c.skip (plainRuns place column runs).length) d ended
  fuel : (plainRuns place column runs).length ≤ fuel.length

namespace AtRuns

variable {place : Place} {indent : Int} {column : Nat} {runs : List (List Char)} {rest fuel : List Char}
  {c d : Cursor} {ended : Bool}

theorem advance {runs' : List (List Char)} {written fuel' : List Char} {column' : Nat}
    (h : AtRuns place indent column runs rest c d ended fuel)
    (hwritten : plainRuns place column runs = written ++ plainRuns place column' runs')
    (hfuel : fuel.length ≤ written.length + fuel'.length) :
    AtRuns place indent column' runs' rest (c.skip written.length) d ended fuel' := by
  obtain ⟨hrest, hends, hlength⟩ := h
  rw [hwritten, List.append_assoc] at hrest
  rw [hwritten, List.length_append] at hends hlength
  rw [← Cursor.skip_skip] at hends
  exact ⟨Cursor.rest_skip_of_append hrest, hends, by omega⟩

theorem word {run : List Char} (h : AtRuns place indent column (run :: runs) rest c d ended fuel)
    (hne : run ≠ []) (hrun : ∀ ch ∈ run, ch ≠ ' ' ∧ ch ≠ '\n') (hturns : Turns false runs)
    (hgoing : KeepsGoing (run ++ runs.flatten)) :
    ∃ fuel', AtRuns place indent (column + run.length) runs rest (c.skip run.length) d ended fuel' ∧
      KeepsGoing runs.flatten ∧ (c.skip run.length).column = c.column + run.length ∧
      ∀ gap broke, plainFrom false indent fuel c gap broke =
        (gap ++ run ++ (plainBehind indent fuel' (c.skip run.length)).1,
          (plainBehind indent fuel' (c.skip run.length)).2) := by
  have hwritten := plainRuns_word place column runs hrun
  have hpositive : 0 < run.length := List.length_pos_iff.mpr hne
  have hrest := h.rest
  have hlength := h.fuel
  rw [hwritten, List.append_assoc] at hrest
  rw [hwritten, List.length_append] at hlength
  obtain ⟨f, fuel, rfl⟩ := List.exists_cons_of_length_pos (Nat.lt_of_lt_of_le hpositive
    (Nat.le_trans (Nat.le_add_right _ _) hlength))
  have hat : AtRuns place indent (column + run.length) runs rest (c.skip run.length) d ended fuel :=
    h.advance hwritten (by rw [List.length_cons]; omega)
  have hinline : ∀ ch ∈ run, IsInline ch ∧ ch ≠ ' ' := fun ch hch =>
    ⟨hgoing.inline ch (List.mem_append_left _ hch), (hrun ch hch).1⟩
  have hskip := Cursor.skip_inline hrest fun ch hch => (hinline ch hch).1
  have hgap : separated runs.flatten = true ∧ runs.flatten.head? ≠ some '#' ∧
      plainLength false (plainRuns place (column + run.length) runs ++ rest) = 0 := by
    refine behind_word place _ runs hturns
      (fun ch hch => hgoing.inline ch (List.mem_append_right run hch)) ?_
    rintro rfl
    have hnothing := hat.ends.1
    rw [plainRuns, List.length_nil, Cursor.skip, hskip] at hnothing
    exact hnothing
  have hword : plainLength false c.rest = run.length := by
    rw [hrest]
    exact plainLength_of_append hinline (hgoing.getLast?_ne_colon hgap.1) hgap.2.2
  have hcomment : run.head? ≠ some '#' := by
    have hhead := hgoing.comment
    rwa [List.head?_append_of_ne_nil run hne] at hhead
  exact ⟨fuel, hat, hgoing.of_append hgap.2.1, by rw [hskip],
    fun gap broke => plainFrom_word hrest hne hcomment hword⟩

theorem spaces {n : Nat}
    (h : AtRuns place indent column (List.replicate (n + 1) ' ' :: runs) rest c d ended fuel)
    (hturns : Turns true runs) (hne : runs ≠ []) (hgoing : KeepsGoing runs.flatten) (hplace : place.HasRoom)
    (hindent : place.fold = true → indent ≤ place.indent) (hcolumn : indent ≤ c.column) :
    ∃ column' c' broke, AtRuns place indent column' runs rest c' d ended fuel ∧ indent ≤ c'.column ∧
      plainBehind indent fuel c = plainFrom false indent fuel c' (List.replicate (n + 1) ' ') broke := by
  have hfirst (column : Nat) : NoBreak (plainRuns place column runs ++ rest) ∧
      (plainRuns place column runs ++ rest).head? ≠ some ' ' ∧
      (plainRuns place column runs ++ rest).head? ≠ some '#' := by
    obtain ⟨ch, more, hwritten, hhead, hch, hspace⟩ :=
      exists_plainRuns_eq_cons place column runs hturns hne hgoing.inline
    have hcomment := hgoing.comment
    rw [hwritten]
    rw [hhead] at hcomment
    refine ⟨?_, fun heq => hspace (Option.some.inj heq), hcomment⟩
    rintro _ ⟨⟩
    exact hch.isBreak
  have hrest := h.rest
  rcases plainRuns_spaces place column runs n with ⟨next, hwritten⟩ | ⟨hfold, rfl, hwritten⟩
  · have hat := h.advance hwritten (Nat.le_add_left _ _)
    rw [hwritten, List.append_assoc] at hrest
    have hskip := Cursor.skip_inline hrest fun ch hch => by
      rw [List.eq_of_mem_replicate hch]
      decide
    rw [List.length_replicate] at hat hskip
    have hgap := plainGap_spaces hrest (hfirst next).1 (hfirst next).2.1
    have hcolumn' : indent ≤ (c.skip (n + 1)).column := by
      rw [hskip]
      show indent ≤ ((c.column + (n + 1) : Nat) : Int)
      omega
    refine ⟨next, _, _, hat, hcolumn', plainBehind_of_gap hgap (by simp [List.replicate_succ]) ?_ hcolumn'⟩
    rw [hat.rest]
    exact (hfirst next).2.2
  · obtain ⟨hpositive, -⟩ := hplace hfold
    have hat := h.advance hwritten (Nat.le_add_left _ _)
    rw [hwritten, Place.freshLine, List.append_assoc] at hrest
    have hlength : place.freshLine.length = place.indent + 1 := by simp [Place.freshLine]
    rw [hlength] at hat
    have hgap : plainGap c = ([' '], c.skip (place.indent + 1), true) := by
      rcases plainGap_freshLine hrest (hfirst _).1 (hfirst _).2.1 with hgap | ⟨hzero, -, -⟩
      · exact hgap
      · omega
    have hcolumn' : indent ≤ (c.skip (place.indent + 1)).column := by
      rw [Cursor.skip_freshLine hrest]
      exact hindent hfold
    refine ⟨place.indent, _, _, hat, hcolumn', plainBehind_of_gap hgap (by simp) ?_ hcolumn'⟩
    rw [hat.rest]
    exact (hfirst _).2.2

end AtRuns

/-- Runs of plain text are read up to where the scalar ends. The induction is on the turns of words and
gaps: where a word is read, its gap is read with it. -/
theorem plainFrom_plainRuns {place : Place} {indent : Int} {wordFirst : Bool} {runs : List (List Char)}
    (h : Turns wordFirst runs) (hgoing : KeepsGoing runs.flatten) (hplace : place.HasRoom)
    (hindent : place.fold = true → indent ≤ place.indent) {column : Nat} {c d : Cursor} {ended : Bool}
    {rest fuel : List Char} (hat : AtRuns place indent column runs rest c d ended fuel) :
    (wordFirst = true → runs ≠ [] → indent ≤ c.column + 1 → ∀ gap broke,
      plainFrom false indent fuel c gap broke = (gap ++ runs.flatten, d, ended)) ∧
    (wordFirst = false → indent ≤ c.column → plainBehind indent fuel c = (runs.flatten, d, ended)) := by
  induction h generalizing column c fuel with
  | nil => exact ⟨fun _ hne => absurd rfl hne, fun _ _ => hat.ends.plainBehind fuel⟩
  | @word run runs hne hrun hturns ih =>
    refine ⟨fun _ _ hcolumn gap broke => ?_, nofun⟩
    rw [List.flatten_cons] at hgoing
    obtain ⟨fuel', hat', hgoing', hskip, hword⟩ := hat.word hne hrun hturns hgoing
    have hpositive : 0 < run.length := List.length_pos_iff.mpr hne
    rw [hword, (ih hgoing' hat').2 rfl (by omega), List.flatten_cons, List.append_assoc]
  | @spaces n runs hturns ih =>
    refine ⟨nofun, fun _ hcolumn => ?_⟩
    rw [List.flatten_cons] at hgoing ⊢
    have hgoing' := hgoing.of_append hgoing.head?_ne_comment
    have hne : runs ≠ [] := by
      rintro rfl
      exact hgoing.last (by simp [List.getLast?_replicate])
    obtain ⟨column', c', broke, hat', hcolumn', hgap⟩ :=
      hat.spaces hturns hne hgoing' hplace hindent hcolumn
    rw [hgap, (ih hgoing' hat').1 rfl hne (by omega)]
  | lineFeeds n _ =>
    exact absurd (hgoing.inline '\n' (by simp [List.replicate_succ])) (by decide)

theorem keepsGoing_of_canBePlain {cs : List Char} (h : Style.canBePlain cs = true) : KeepsGoing cs := by
  simp only [Style.canBePlain, Bool.and_eq_true, Bool.not_eq_true', List.all_eq_true] at h
  obtain ⟨⟨⟨⟨hordinary, hlines⟩, hloose⟩, hstarts⟩, hends⟩ := h
  simp only [Style.isMultiline, List.any_eq_false] at hlines
  simp only [Style.hasLooseEnd, Bool.or_eq_false_iff] at hloose
  refine ⟨fun c hc => isInline_of_isOrdinary (hordinary c hc) ?_, hends, fun hhead => ?_, fun hlast => ?_⟩
  · rintro rfl
    exact hlines '\n' hc rfl
  · obtain ⟨cs, rfl⟩ := List.head?_eq_some_iff.mp hhead
    simp [Style.startsAsIndicator, Style.indicators] at hstarts
  · rw [hlast] at hloose
    cases hloose.2

theorem mixesSpaceAndBreak_of_inline {cs : List Char} (h : ∀ c ∈ cs, IsInline c) :
    Style.mixesSpaceAndBreak cs = false := by
  induction cs with
  | nil => rfl
  | cons a cs ih =>
    obtain ⟨ha, hcs⟩ := List.forall_mem_cons.mp h
    cases cs with
    | nil => rfl
    | cons b cs =>
      have hne {c : Char} (hc : IsInline c) : c ≠ '\n' := hc.ne_of_not (by decide)
      simp [Style.mixesSpaceAndBreak, ih hcs, hne ha, hne (hcs b List.mem_cons_self)]

theorem runs_ne_nil {cs : List Char} (h : cs ≠ []) : runs cs ≠ [] :=
  fun heq => h (by rw [← flatten_runs cs, heq]; rfl)

theorem turns_of_canBePlain {cs : List Char} (h : Style.canBePlain cs = true) (hne : cs ≠ []) :
    Turns true (runs cs) := by
  obtain ⟨wordFirst, hturns, hhead⟩ :=
    exists_turns (mixesSpaceAndBreak_of_inline (keepsGoing_of_canBePlain h).inline)
  obtain ⟨a, cs, rfl⟩ := List.exists_cons_of_ne_nil hne
  simp only [Style.canBePlain, Style.hasLooseEnd, Bool.and_eq_true, Bool.not_eq_true',
    Bool.or_eq_false_iff, List.head?_cons, Option.any_some, Style.isSpaceOrBreak,
    decide_eq_false_iff_not] at h
  exact (hhead a rfl).mpr (runKind_eq_two.mpr h.1.1.2.1) ▸ hturns

theorem scanPlain_plain {cs : List Char} (h : Style.canBePlain cs = true) (hne : cs ≠ []) {place : Place}
    {indent : Int} (hplace : place.HasRoom) (hindent : place.fold = true → indent ≤ place.indent)
    {column : Nat} {c d : Cursor} {ended : Bool} {rest : List Char}
    (hrest : c.rest = plain place column cs ++ rest) (hcolumn : indent ≤ c.column + 1)
    (hends : EndsPlain indent (c.skip (plain place column cs).length) d ended) :
    scanPlain false indent c = (cs, d, ended) := by
  have hgoing := keepsGoing_of_canBePlain h
  have hlength : (plain place column cs).length ≤ c.rest.length := by simp [hrest]
  have hfrom := (plainFrom_plainRuns (turns_of_canBePlain h hne) (by rwa [flatten_runs]) hplace hindent
    ⟨hrest, hends, hlength⟩).1 rfl (runs_ne_nil hne) hcolumn [] false
  rwa [flatten_runs] at hfrom

/-! ### Starts -/

theorem startsAsIndicator_of_canBePlain {cs : List Char} (h : Style.canBePlain cs = true) :
    Style.startsAsIndicator cs = false := by
  simp only [Style.canBePlain, Bool.and_eq_true, Bool.not_eq_true'] at h
  exact h.1.2

theorem exists_first_word {cs : List Char} (h : Style.canBePlain cs = true) (hne : cs ≠ [])
    (place : Place) (column : Nat) {rest : List Char} (hrest : plainLength false rest = 0) :
    ∃ word gap more, cs = word ++ gap ∧ plain place column cs ++ rest = word ++ more ∧ word ≠ [] ∧
      (∀ ch ∈ word, IsInline ch ∧ ch ≠ ' ') ∧ separated gap = true ∧ plainLength false more = 0 := by
  have hinline := (keepsGoing_of_canBePlain h).inline
  have hturns := turns_of_canBePlain h hne
  have hflatten := flatten_runs cs
  obtain ⟨word, behind, hruns⟩ := List.exists_cons_of_ne_nil (runs_ne_nil hne)
  rw [plain, hruns]
  rw [hruns] at hturns hflatten
  rw [List.flatten_cons] at hflatten
  subst hflatten
  rw [List.forall_mem_append] at hinline
  cases hturns with
  | word hwordNe hword hturns =>
    obtain ⟨hgap, -, hmore⟩ := behind_word place (column + word.length) behind hturns hinline.2
      fun _ => hrest
    refine ⟨word, _, _, rfl, ?_, hwordNe, fun ch hch => ⟨hinline.1 ch hch, (hword ch hch).1⟩, hgap, hmore⟩
    rw [plainRuns_word place column behind hword, List.append_assoc]

theorem atMark_eq_false {mark : Char} {word more : List Char} (hmark : IsInline mark ∧ mark ≠ ' ' ∧ mark ≠ ':')
    (hword : [mark, mark, mark].isPrefixOf word = false) (hmore : plainLength false more = 0) :
    atMark mark (word ++ more) = false := by
  have hhead : more.head? ≠ some mark := by
    intro hhead
    obtain ⟨more, rfl⟩ := List.head?_eq_some_iff.mp hhead
    simp [plainLength, hmark.1.isSpaceOrTab, hmark.1.isBreak, hmark.2.1, hmark.2.2] at hmore
  obtain _ | ⟨a, _ | ⟨b, _ | ⟨d, word⟩⟩⟩ := word
  · obtain _ | ⟨x, more⟩ := more
    · rfl
    · exact atMark_cons_of_ne (by simpa using hhead) more
  · obtain _ | ⟨x, _ | ⟨y, more⟩⟩ := more <;> simp_all [atMark]
  · obtain _ | ⟨x, more⟩ := more <;> simp_all [atMark]
  · rw [List.cons_append, List.cons_append, List.cons_append, atMark]
    by_contra hall
    simp only [Bool.not_eq_false, Bool.and_eq_true, decide_eq_true_eq] at hall
    obtain ⟨⟨⟨rfl, rfl⟩, rfl⟩, -⟩ := hall
    simp at hword

theorem exists_plain_start {cs : List Char} (h : Style.canBePlain cs = true) (hne : cs ≠ [])
    (place : Place) (column : Nat) {rest : List Char} (hrest : plainLength false rest = 0) :
    ∃ ch more, plain place column cs ++ rest = ch :: more ∧ IsInline ch ∧ ch ≠ ' ' ∧
      ch ∉ Style.indicators ∧ ((ch = '?' ∨ ch = ':' ∨ ch = '-') → atBlank more = false) ∧
      atMark '-' (ch :: more) = false ∧ atMark '.' (ch :: more) = false := by
  have hstarts := startsAsIndicator_of_canBePlain h
  simp only [Style.startsAsIndicator, Bool.or_eq_false_iff] at hstarts
  obtain ⟨⟨hdashes, hpoints⟩, hfirst⟩ := hstarts
  obtain ⟨word, gap, more, rfl, hwritten, hwordNe, hword, hgap, hmore⟩ :=
    exists_first_word h hne place column hrest
  have hstart (mark : Char) (hmark : [mark, mark, mark].isPrefixOf (word ++ gap) = false) :
      [mark, mark, mark].isPrefixOf word = false := by
    rw [Bool.eq_false_iff, ne_eq, List.isPrefixOf_iff_prefix] at hmark ⊢
    exact fun hword => hmark (hword.trans (List.prefix_append word gap))
  obtain ⟨ch, word, rfl⟩ := List.exists_cons_of_ne_nil hwordNe
  obtain ⟨⟨hch, hspace⟩, hword⟩ := List.forall_mem_cons.mp hword
  simp only [List.cons_append, Bool.and_eq_false_iff, Bool.or_eq_false_iff, decide_eq_false_iff_not]
    at hfirst
  refine ⟨ch, word ++ more, hwritten, hch, hspace, by simpa using hfirst.1, fun hmark => ?_, ?_, ?_⟩
  · cases word with
    | nil =>
      rcases hfirst.2 with hnot | hnot
      · rcases hmark with rfl | rfl | rfl <;> simp at hnot
      · rw [List.nil_append, hgap] at hnot
        cases hnot
    | cons d word =>
      obtain ⟨⟨hd, hdspace⟩, -⟩ := List.forall_mem_cons.mp hword
      simp [atBlank, headOrEnd, hd.isSpaceOrTab, hd.isBreak, hdspace]
  · exact atMark_eq_false (by decide) (hstart '-' hdashes) hmore
  · exact atMark_eq_false (by decide) (hstart '.' hpoints) hmore

end Scalar
end ClusterRegistrar.Yaml
