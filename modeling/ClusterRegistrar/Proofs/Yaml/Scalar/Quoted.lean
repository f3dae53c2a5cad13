import ClusterRegistrar.Proofs.Run
import ClusterRegistrar.Proofs.Yaml.Cursor
import ClusterRegistrar.Yaml.Token.Scalar

/-! What a reader of quoted scalars makes of each part that a writer can make: characters, runs of
spaces, line ends within a text, escapes and the closing quote. -/
namespace ClusterRegistrar.Yaml

/-- Quoted text, its closing quote included, from which a text is read. No quote may follow, since a
quote in single quotes is two of them. -/
def ReadsQuoted (double : Bool) (written : List Char) (t : Text) : Prop :=
  ∀ (c : Cursor) (rest : List Char), c.rest = written ++ rest → rest.head? ≠ some '\'' →
    ∀ fuel : List Char, written.length ≤ fuel.length →
      quotedFrom double fuel c = .ok (t, c.skip written.length)

def StartsDark (written : List Char) : Prop :=
  ∃ c more, written = c :: more ∧ IsInline c ∧ c ≠ ' '

def StartsCalm (written : List Char) : Prop :=
  ∃ n dark, written = List.replicate n ' ' ++ dark ∧ StartsDark dark

namespace StartsDark

variable {written : List Char} (h : StartsDark written)

include h

theorem calm : StartsCalm written := ⟨0, written, rfl, h⟩

theorem head_not_blank (rest : List Char) :
    ∀ c, (written ++ rest).head? = some c → isSpaceOrTab c = false := by
  obtain ⟨d, more, rfl, hd, hspace⟩ := h
  rintro c ⟨⟩
  rw [hd.isSpaceOrTab, decide_eq_false hspace]

theorem noBreak (rest : List Char) : NoBreak (written ++ rest) := by
  obtain ⟨d, more, rfl, hd, -⟩ := h
  rintro c ⟨⟩
  exact hd.isBreak

end StartsDark

theorem StartsCalm.space {written : List Char} (h : StartsCalm written) :
    StartsCalm (' ' :: written) := by
  obtain ⟨n, dark, rfl, hdark⟩ := h
  exact ⟨n + 1, dark, rfl, hdark⟩

/-! ### Gaps -/

section

variable {c : Cursor}

private theorem forall_mem_spaces {n : Nat} : ∀ ch ∈ List.replicate n ' ', isSpaceOrTab ch = true := by
  intro ch hch
  rw [List.eq_of_mem_replicate hch]
  rfl

theorem quotedGap_spaces {n : Nat} {dark rest : List Char}
    (h : c.rest = List.replicate n ' ' ++ (dark ++ rest)) (hdark : StartsDark dark) :
    quotedGap c = .ok (List.replicate n ' ', c.skip n) := by
  have htake : c.rest.takeWhile isSpaceOrTab = List.replicate n ' ' := by
    rw [h, takeWhile_of_append forall_mem_spaces (hdark.head_not_blank rest)]
  have hrest : (c.skip n).rest = dark ++ rest := by
    have hskip := Cursor.rest_skip_of_append h
    rwa [List.length_replicate] at hskip
  have hbreak : (c.skip n).takeBreak? = none :=
    Cursor.takeBreak?_of_noBreak (hrest ▸ hdark.noBreak rest)
  simp only [quotedGap, htake, List.length_replicate, hbreak]

theorem quotedBreaks_lineFeeds {k n : Nat} {dark rest : List Char} (hn : 0 < n)
    (h : c.rest = List.replicate k '\n' ++ (List.replicate n ' ' ++ (dark ++ rest)))
    (hdark : StartsDark dark) {fuel : List Char} (hfuel : k + n ≤ fuel.length) :
    quotedBreaks fuel c = .ok (List.replicate k '\n', c.skip (k + n)) := by
  induction k generalizing c fuel with
  | zero =>
    simp only [List.replicate_zero, List.nil_append, Nat.zero_add] at h hfuel ⊢
    obtain ⟨f, fuel, rfl⟩ := List.exists_cons_of_length_pos (Nat.lt_of_lt_of_le hn hfuel)
    obtain ⟨n, rfl⟩ := Nat.exists_eq_succ_of_ne_zero (Nat.ne_zero_of_lt hn)
    have hmark : atDocumentMark c.rest = false := by
      rw [h]
      exact atDocumentMark_cons (by decide) (by decide) _
    have hskip : c.skipWhile isSpaceOrTab = c.skip (n + 1) := by
      have hwhile := Cursor.skipWhile_of_append h forall_mem_spaces (hdark.head_not_blank rest)
      rwa [List.length_replicate] at hwhile
    have hrest : (c.skip (n + 1)).rest = dark ++ rest := by
      have hskip := Cursor.rest_skip_of_append h
      rwa [List.length_replicate] at hskip
    have hbreak : (c.skip (n + 1)).takeBreak? = none :=
      Cursor.takeBreak?_of_noBreak (hrest ▸ hdark.noBreak rest)
    simp only [quotedBreaks, hmark, Bool.false_eq_true, if_false, hskip, hbreak]
  | succ k ih =>
    rw [List.replicate_succ, List.cons_append] at h
    obtain ⟨f, fuel, rfl⟩ := List.exists_cons_of_length_pos (show 0 < fuel.length by omega)
    have hmark : atDocumentMark c.rest = false := by
      rw [h]
      exact atDocumentMark_cons (by decide) (by decide) _
    have hskip : c.skipWhile isSpaceOrTab = c := by
      rw [Cursor.skipWhile, h]
      rfl
    have hrest : c.next.rest = List.replicate k '\n' ++ (List.replicate n ' ' ++ (dark ++ rest)) := by
      rw [Cursor.rest_next, h]
      rfl
    have hlength : k + n ≤ fuel.length := by
      rw [List.length_cons] at hfuel
      omega
    have hmore := ih hrest hlength
    simp only [quotedBreaks, hmark, Bool.false_eq_true, if_false, hskip, Cursor.takeBreak?_lineFeed h,
      hmore]
    rw [Nat.add_right_comm]
    rfl

end

namespace ReadsQuoted

variable {double : Bool} {written : List Char} {t : Text}

/-! ### The end -/

theorem close_double : ReadsQuoted true ['"'] [] := by
  intro c rest h _ fuel hfuel
  obtain ⟨f, fuel, rfl⟩ := List.exists_cons_of_length_pos hfuel
  rw [quotedFrom, h]
  rfl

theorem close_single : ReadsQuoted false ['\''] [] := by
  intro c rest h hquote fuel hfuel
  obtain ⟨f, fuel, rfl⟩ := List.exists_cons_of_length_pos hfuel
  rw [quotedFrom, h]
  simp only [List.singleton_append]
  rw [if_neg (by decide), if_neg (by decide), if_pos trivial, if_neg hquote]
  rfl

/-! ### Characters -/

theorem char (h : ReadsQuoted double written t) {ch : Char} (hch : IsInline ch) (hspace : ch ≠ ' ')
    (hdouble : double = true → ch ≠ '"' ∧ ch ≠ '\\') (hsingle : double = false → ch ≠ '\'') :
    ReadsQuoted double (ch :: written) (.char ch :: t) := by
  intro c rest hrest hquote fuel hfuel
  obtain ⟨f, fuel, rfl⟩ := List.exists_cons_of_length_pos (Nat.lt_of_lt_of_le (Nat.succ_pos _) hfuel)
  have hnext : c.next.rest = written ++ rest := by
    rw [Cursor.rest_next, hrest]
    rfl
  have hread := h c.next rest hnext hquote fuel (Nat.le_of_succ_le_succ hfuel)
  have hblank : (isSpaceOrTab ch || isBreak ch) = false := by
    rw [hch.isSpaceOrTab, hch.isBreak, decide_eq_false hspace]
    rfl
  rw [quotedFrom, hrest]
  simp only [List.cons_append, hblank, Bool.false_eq_true, if_false, hread]
  cases double with
  | true =>
    rw [if_pos rfl, if_neg (hdouble rfl).1, if_neg (hdouble rfl).2]
    rfl
  | false =>
    rw [if_neg (by decide), if_neg (hsingle rfl)]
    rfl

theorem quote (h : ReadsQuoted false written t) :
    ReadsQuoted false ('\'' :: '\'' :: written) (.char '\'' :: t) := by
  intro c rest hrest hquote fuel hfuel
  obtain ⟨f, fuel, rfl⟩ := List.exists_cons_of_length_pos (Nat.lt_of_lt_of_le (Nat.succ_pos _) hfuel)
  have hskip : (c.skip 2).rest = written ++ rest := by
    rw [Cursor.rest_skip, hrest]
    rfl
  simp only [List.length_cons] at hfuel
  have hread := h (c.skip 2) rest hskip hquote fuel (by omega)
  rw [Cursor.skip_skip, Nat.add_comm] at hread
  rw [quotedFrom, hrest]
  simp only [List.cons_append]
  rw [if_neg (by decide), if_neg (by decide), if_pos trivial,
    if_pos (show ('\'' :: (written ++ rest)).head? = some '\'' from rfl), hread]
  rfl

/-! ### Blanks -/

theorem gap (h : ReadsQuoted double written t) {ch : Char} {gap part : List Char}
    (hch : isSpaceOrTab ch = true ∨ isBreak ch = true)
    (hgap : ∀ (c : Cursor) (rest : List Char), c.rest = ch :: gap ++ (written ++ rest) →
      quotedGap c = .ok (part, c.skip (gap.length + 1))) :
    ReadsQuoted double (ch :: gap ++ written) (.ofChars part ++ t) := by
  intro c rest hrest hquote fuel hfuel
  obtain ⟨f, fuel, rfl⟩ := List.exists_cons_of_length_pos (Nat.lt_of_lt_of_le (Nat.succ_pos _) hfuel)
  rw [List.append_assoc] at hrest
  have hskip : (c.skip (ch :: gap).length).rest = written ++ rest :=
    Cursor.rest_skip_of_append hrest
  rw [List.length_cons] at hskip
  simp only [List.cons_append, List.length_cons, List.length_append] at hfuel
  have hread := h (c.skip (gap.length + 1)) rest hskip hquote fuel (by omega)
  rw [Cursor.skip_skip] at hread
  have hblank : (isSpaceOrTab ch || isBreak ch) = true := by simpa using hch
  rw [quotedFrom, hrest]
  simp only [List.cons_append, hblank, if_true, hgap c rest hrest, Except.ok_bind, hread]
  rw [List.length_cons, List.length_append, Nat.add_right_comm]
  rfl

theorem spaces (h : ReadsQuoted double written t) (hdark : StartsDark written) (n : Nat) :
    ReadsQuoted double (List.replicate (n + 1) ' ' ++ written)
      (.ofChars (List.replicate (n + 1) ' ') ++ t) := by
  refine h.gap (.inl (show isSpaceOrTab ' ' = true from rfl)) fun c rest hrest => ?_
  rw [List.length_replicate]
  exact quotedGap_spaces hrest hdark

theorem lineFeeds (h : ReadsQuoted double written t) (hdark : StartsDark written) (k : Nat) {n : Nat}
    (hn : 0 < n) :
    ReadsQuoted double ('\n' :: (List.replicate k '\n' ++ List.replicate n ' ') ++ written)
      (.ofChars (foldBreaks '\n' (List.replicate k '\n')) ++ t) := by
  refine h.gap (.inr rfl) fun c rest hrest => ?_
  have hblanks : c.rest.takeWhile isSpaceOrTab = [] := by
    rw [hrest]
    rfl
  have hnext : c.next.rest =
      List.replicate k '\n' ++ (List.replicate n ' ' ++ (written ++ rest)) := by
    rw [Cursor.rest_next, hrest]
    simp only [List.cons_append, List.append_assoc, List.tail_cons]
  have hlength : k + n ≤ c.next.rest.length := by
    rw [hnext]
    simp only [List.length_append, List.length_replicate]
    omega
  simp only [quotedGap, hblanks, List.length_nil, Cursor.skip, Cursor.takeBreak?_lineFeed hrest,
    quotedBreaks_lineFeeds hn hnext hdark hlength, List.length_append, List.length_replicate]
  rfl

theorem space (h : ReadsQuoted double written t) (hcalm : StartsCalm written) :
    ReadsQuoted double (' ' :: written) (.char ' ' :: t) := by
  obtain ⟨n, dark, rfl, hdark⟩ := hcalm
  cases n with
  | zero => exact h.spaces hdark 0
  | succ n =>
    intro c rest hrest hquote fuel hfuel
    obtain ⟨f, fuel, rfl⟩ :=
      List.exists_cons_of_length_pos (Nat.lt_of_lt_of_le (Nat.succ_pos _) hfuel)
    have hnext : c.next.rest = List.replicate (n + 1) ' ' ++ dark ++ rest := by
      rw [Cursor.rest_next, hrest]
      rfl
    have hread := h c.next rest hnext hquote (f :: fuel)
      (Nat.le_trans (Nat.le_succ _) hfuel)
    rw [List.append_assoc] at hnext
    rw [List.cons_append, List.append_assoc] at hrest
    have hgap := quotedGap_spaces hnext hdark
    have hwhole : quotedGap c = .ok (List.replicate (n + 2) ' ', c.skip (n + 2)) :=
      quotedGap_spaces hrest hdark
    rw [quotedFrom, hnext] at hread
    rw [quotedFrom, hrest]
    simp only [List.replicate_succ, List.cons_append, isSpaceOrTab, decide_true, Bool.true_or, if_true,
      hgap, hwhole, Except.ok_bind] at hread ⊢
    -- Both gaps end at the same place, so what is read behind them is the same.
    obtain ⟨⟨text, d⟩, hmore, heq⟩ := Except.bind_eq_ok.mp hread
    cases Except.ok.inj heq
    rw [show c.skip (n + 2) = c.next.skip (n + 1) from rfl, hmore]
    rfl

/-! ### Escapes -/

theorem escape (h : ReadsQuoted true written t) {escape : List Char} {part : Text}
    (hscan : ∀ (c : Cursor) (rest : List Char), c.rest = escape ++ (written ++ rest) →
      scanEscape c = .ok (part, c.skip escape.length)) :
    ReadsQuoted true ('\\' :: escape ++ written) (part ++ t) := by
  intro c rest hrest hquote fuel hfuel
  obtain ⟨f, fuel, rfl⟩ := List.exists_cons_of_length_pos (Nat.lt_of_lt_of_le (Nat.succ_pos _) hfuel)
  rw [List.append_assoc] at hrest
  have hnext : c.next.rest = escape ++ (written ++ rest) := by
    rw [Cursor.rest_next, hrest]
    rfl
  have hskip := Cursor.rest_skip_of_append hnext
  simp only [List.cons_append, List.length_cons, List.length_append] at hfuel
  have hread := h (c.next.skip escape.length) rest hskip hquote fuel (by omega)
  rw [Cursor.skip_skip] at hread
  rw [quotedFrom, hrest]
  simp only [List.cons_append]
  rw [if_neg (by decide), if_pos trivial, if_neg (by decide), if_pos trivial, hscan c.next rest hnext,
    Except.ok_bind, hread, List.length_cons, List.length_append]
  rfl

theorem fold (h : ReadsQuoted true written t) (hdark : StartsDark written) {n : Nat} (hn : 0 < n) :
    ReadsQuoted true ('\\' :: '\n' :: List.replicate n ' ' ++ written) t := by
  show ReadsQuoted true _ ([] ++ t)
  refine h.escape fun c rest hrest => ?_
  have hnext : c.next.rest = List.replicate 0 '\n' ++ (List.replicate n ' ' ++ (written ++ rest)) := by
    rw [Cursor.rest_next, hrest]
    rfl
  have hlength : 0 + n ≤ c.next.rest.length := by
    rw [hnext]
    simp only [List.length_append, List.length_replicate]
    omega
  have hbreaks := quotedBreaks_lineFeeds hn hnext hdark hlength
  have hbreak := Cursor.takeBreak?_lineFeed hrest
  rw [scanEscape, hrest]
  simp only [List.cons_append, escapedChar?, escapeWidth?, hbreak, hbreaks]
  rw [List.length_cons, List.length_replicate, Nat.zero_add]
  rfl

end ReadsQuoted

end ClusterRegistrar.Yaml
