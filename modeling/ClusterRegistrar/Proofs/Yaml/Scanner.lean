import ClusterRegistrar.Proofs.Yaml.Scalar.Written
import ClusterRegistrar.Yaml.Token.Scanner

/-! How a scanner reads block mappings of scalars. Between two tokens nothing matters but the place, the
levels and whether a key may start there, so what a writer makes is followed from one such state to the
next. -/
namespace ClusterRegistrar.Yaml

def Token.ofText (t : Text) : Token := .scalar t (Style.ofText t = .plain)

namespace Scanner

/-! ### Runs -/

/-- All tokens are found in as many steps as characters remain, and one more for the end. -/
def Finishes (s : Scanner) (tokens : List Token) : Prop :=
  ∀ fuel, s.cursor.rest.length < fuel → s.run fuel = (tokens, none)

/-- Reading goes on as from another scanner. -/
def Leads (s t : Scanner) : Prop := ∀ tokens, t.Finishes tokens → s.Finishes tokens

variable {s t u : Scanner}

theorem Leads.trans (h : s.Leads t) (h' : t.Leads u) : s.Leads u :=
  fun tokens hu => h tokens (h' tokens hu)

theorem leads_of_fetch (h : s.fetch = .ok (t, false))
    (hlength : t.cursor.rest.length < s.cursor.rest.length) : s.Leads t := by
  intro tokens ht fuel hfuel
  obtain ⟨fuel, rfl⟩ := Nat.exists_eq_succ_of_ne_zero (Nat.ne_zero_of_lt hfuel)
  rw [run, h]
  exact ht fuel (by omega)

theorem leads_of_fetch_eq (h : s.fetch = t.fetch)
    (hlength : t.cursor.rest.length ≤ s.cursor.rest.length) : s.Leads t := by
  intro tokens ht fuel hfuel
  have hrun := ht fuel (by omega)
  obtain ⟨fuel, rfl⟩ := Nat.exists_eq_succ_of_ne_zero (Nat.ne_zero_of_lt hfuel)
  rw [run] at hrun ⊢
  rw [h]
  split at hrun
  · cases hrun
  · exact hrun
  · exact hrun

theorem finishes_of_fetch (h : s.fetch = .ok (t, true)) : s.Finishes (t.firstTokens t.count) := by
  intro fuel hfuel
  obtain ⟨fuel, rfl⟩ := Nat.exists_eq_succ_of_ne_zero (Nat.ne_zero_of_lt hfuel)
  rw [run, h]

/-! ### Between tokens -/

section

variable {rest : List Char}

theorem skipSpaces_of_append {c : Cursor} {n : Nat} (hrest : c.rest = List.replicate n ' ' ++ rest)
    (h : AtContent rest) : c.skipSpaces = c.skip n := by
  have hwhile : c.skipSpaces = c.skip (List.replicate n ' ').length :=
    Cursor.skipWhile_of_append hrest (fun ch hch => by simpa using List.eq_of_mem_replicate hch)
      fun ch hch => by simpa using (h ch hch).2.1
  rwa [List.length_replicate] at hwhile

theorem skipBlanksFrom_spaces {n : Nat} {fuel : List Char} (hfuel : n ≤ fuel.length)
    (hrest : s.cursor.rest = List.replicate n ' ' ++ rest) (h : AtContent rest) :
    skipBlanksFrom fuel s = { s with cursor := s.cursor.skip n } := by
  have hskip : (s.cursor.skip n).rest = rest := by
    have hskip := Cursor.rest_skip_of_append hrest
    rwa [List.length_replicate] at hskip
  have hcomment : (s.cursor.skip n).skipComment = s.cursor.skip n :=
    if_neg fun hch => (h '#' (hskip ▸ hch)).2.2 rfl
  cases fuel with
  | nil =>
    obtain rfl : n = 0 := Nat.le_zero.mp hfuel
    rfl
  | cons f fuel =>
    simp only [skipBlanksFrom, skipSpaces_of_append hrest h, hcomment,
      Cursor.takeBreak?_of_noBreak (hskip.symm ▸ h.noBreak)]

theorem skipBlanks_eq (h : s.cursor.rest.head? ≠ some '\ufeff') :
    s.skipBlanks = skipBlanksFrom s.cursor.rest s := by
  rw [skipBlanks]
  simp [h]

theorem skipBlanks_spaces {n : Nat} (hrest : s.cursor.rest = List.replicate n ' ' ++ rest)
    (h : AtContent rest) : s.skipBlanks = { s with cursor := s.cursor.skip n } := by
  have hhead : s.cursor.rest.head? ≠ some '\ufeff' := by
    rw [hrest]
    cases n with
    | zero => exact fun heq => absurd (h _ heq).1 (by decide)
    | succ n => simp [List.replicate_succ]
  rw [skipBlanks_eq hhead]
  exact skipBlanksFrom_spaces (by simp [hrest]) hrest h

theorem skipBlanks_freshLine {n : Nat} (hrest : s.cursor.rest = '\n' :: List.replicate n ' ' ++ rest)
    (h : AtContent rest) : s.skipBlanks =
      { s with cursor := s.cursor.skip (n + 1), keyAllowed := s.keyAllowed || !s.inFlow } := by
  rw [skipBlanks_eq (by simp [hrest])]
  have hspaces : s.cursor.skipSpaces = s.cursor := by
    rw [Cursor.skipSpaces, Cursor.skipWhile, hrest]
    rfl
  have hcomment : s.cursor.skipComment = s.cursor := if_neg (by simp [hrest])
  have hnext : s.cursor.next.rest = List.replicate n ' ' ++ rest := by
    rw [Cursor.rest_next, hrest]
    rfl
  rw [hrest, List.cons_append]
  simp only [skipBlanksFrom, hspaces, hcomment, Cursor.takeBreak?_lineFeed hrest]
  exact skipBlanksFrom_spaces (by simp) hnext h

end

/-! ### States -/

def block (latest : List Token) (indent : Int) (outer : List Int) (allowed : Bool)
    (key : Option PossibleKey) (c : Cursor) : Scanner :=
  ⟨c, latest, latest.length, indent, outer, allowed, [key]⟩

/-- Where the next token is looked for, whatever levels end there. -/
def Settles (s t : Scanner) : Prop := s.skipBlanks.dropStaleKeys = .ok t

theorem Settles.fetch_eq {s' t' : Scanner} (h : s.Settles s') (h' : t.Settles t')
    (hunwind : s'.unwind s'.cursor.column = t'.unwind t'.cursor.column) : s.fetch = t.fetch := by
  unfold Settles at h h'
  simp only [fetch, h, h', Except.ok_bind, hunwind]

def Forgets (line : Nat) (key : Option PossibleKey) : Prop :=
  ∀ k, key = some k → k.required = false ∧ k.line < line

theorem forgets_none (line : Nat) : Forgets line none := nofun

section

variable {latest : List Token} {indent : Int} {outer : List Int} {allowed : Bool}
  {key : Option PossibleKey} {c : Cursor} {rest : List Char}

theorem dropStaleKeys_none : (block latest indent outer allowed none c).dropStaleKeys =
    .ok (block latest indent outer allowed none c) := by
  simp [dropStaleKeys, block]

theorem dropStaleKeys_of_forgets (h : Forgets c.line key) :
    (block latest indent outer allowed key c).dropStaleKeys =
      .ok (block latest indent outer allowed none c) := by
  cases key with
  | none => exact dropStaleKeys_none
  | some k =>
    obtain ⟨hrequired, hline⟩ := h k rfl
    simp [dropStaleKeys, block, isStale, hrequired, Nat.ne_of_lt hline]

theorem dropStaleKeys_live {k : PossibleKey} (hline : k.line = c.line)
    (hlength : c.index - k.index ≤ 1024) :
    (block latest indent outer allowed (some k) c).dropStaleKeys =
      .ok (block latest indent outer allowed (some k) c) := by
  simp [dropStaleKeys, block, isStale, hline, Nat.not_lt.mpr hlength]

theorem settles_spaces {n : Nat} (hrest : c.rest = List.replicate n ' ' ++ rest) (h : AtContent rest) :
    (block latest indent outer allowed none c).Settles
      (block latest indent outer allowed none (c.skip n)) := by
  unfold Settles
  rw [skipBlanks_spaces hrest h]
  exact dropStaleKeys_none

theorem settles_content (h : AtContent c.rest) (hkey : Forgets c.line key) :
    (block latest indent outer allowed key c).Settles (block latest indent outer allowed none c) := by
  unfold Settles
  rw [skipBlanks_spaces (n := 0) rfl h]
  exact dropStaleKeys_of_forgets hkey

theorem settles_live {k : PossibleKey} (h : AtContent c.rest) (hline : k.line = c.line)
    (hlength : c.index - k.index ≤ 1024) :
    (block latest indent outer allowed (some k) c).Settles
      (block latest indent outer allowed (some k) c) := by
  unfold Settles
  rw [skipBlanks_spaces (n := 0) rfl h]
  exact dropStaleKeys_live hline hlength

theorem settles_freshLine {n : Nat} (hrest : c.rest = '\n' :: List.replicate n ' ' ++ rest)
    (h : AtContent rest) (hkey : Forgets (c.line + 1) key) :
    (block latest indent outer allowed key c).Settles
      (block latest indent outer true none (c.skip (n + 1))) := by
  unfold Settles
  rw [skipBlanks_freshLine hrest h]
  have hallowed : (allowed || !(block latest indent outer allowed key c).inFlow) = true := by
    simp [block, inFlow, flow]
  have hline : (c.skip (n + 1)).line = c.line + 1 := by rw [Cursor.skip_freshLine hrest]
  show (block latest indent outer (allowed || _) key (c.skip (n + 1))).dropStaleKeys = _
  rw [hallowed]
  exact dropStaleKeys_of_forgets (hline ▸ hkey)

theorem leads_of_settles {d : Cursor}
    (h : s.Settles (block latest indent outer allowed none d)) (hd : AtContent d.rest)
    (hlength : d.rest.length ≤ s.cursor.rest.length) :
    s.Leads (block latest indent outer allowed none d) :=
  leads_of_fetch_eq (h.fetch_eq (settles_content hd (forgets_none _)) rfl) hlength

theorem leads_close {level : Int} (h : AtContent c.rest) (hcolumn : c.column < indent) :
    (block latest indent (level :: outer) allowed none c).Leads
      (block (.blockEnd :: latest) level outer allowed none c) := by
  refine leads_of_fetch_eq ((settles_content h (forgets_none _)).fetch_eq
    (settles_content h (forgets_none _)) ?_) (Nat.le_refl _)
  show unwindFrom _ (level :: outer) _ = unwindFrom _ outer _
  rw [unwindFrom]
  exact if_pos hcolumn

/-! ### Scalars -/

@[simp] theorem cursor_block : (block latest indent outer allowed key c).cursor = c := rfl

@[simp] theorem indent_block : (block latest indent outer allowed key c).indent = indent := rfl

@[simp] theorem keyAllowed_block :
    (block latest indent outer allowed key c).keyAllowed = allowed := rfl

@[simp] theorem keys_block : (block latest indent outer allowed key c).keys = [key] := rfl

@[simp] theorem inFlow_block : (block latest indent outer allowed key c).inFlow = false := rfl

theorem unwind_block (h : indent ≤ c.column) :
    (block latest indent outer allowed key c).unwind c.column =
      block latest indent outer allowed key c := by
  show unwindFrom c.column outer _ = _
  cases outer with
  | nil => rfl
  | cons level outer => exact if_neg (Int.not_lt.mpr h)

def hereKey (latest : List Token) (indent : Int) (c : Cursor) : PossibleKey :=
  ⟨latest.length, indent = c.column, c.index, c.line, c.column⟩

def savedKey (latest : List Token) (indent : Int) (allowed : Bool) (c : Cursor) : Option PossibleKey :=
  if allowed then some (hereKey latest indent c) else none

theorem saveKey_block : (block latest indent outer allowed none c).saveKey =
    .ok (block latest indent outer allowed (savedKey latest indent allowed c) c) := by
  cases allowed <;> rfl

variable {t : Text} {written : List Char}

theorem fetch_quoted (double : Bool)
    (hs : s.Settles (block latest indent outer allowed none c)) (hcolumn : indent ≤ c.column)
    (hrest : c.rest = (if double then '"' else '\'') :: (written ++ rest))
    (hread : ReadsQuoted double written t) (hbehind : rest.head? ≠ some '\'') :
    s.fetch = .ok (block (.scalar t false :: latest) indent outer false
      (savedKey latest indent allowed c) (c.skip (written.length + 1)), false) := by
  have hnext : c.next.rest = written ++ rest := by
    rw [Cursor.rest_next, hrest]
    rfl
  have hscan : scanQuoted double c = .ok (t, c.skip (written.length + 1)) :=
    hread c.next rest hnext hbehind c.rest (by simp only [hrest, List.length_cons, List.length_append]; omega)
  have hfetch : (block latest indent outer allowed none c).fetchQuoted double =
      .ok (block (.scalar t false :: latest) indent outer false (savedKey latest indent allowed c)
        (c.skip (written.length + 1))) := by
    rw [fetchQuoted, saveKey_block, Except.ok_bind]
    simp only [cursor_block, hscan]
    rfl
  unfold Settles at hs
  simp only [fetch, hs, Except.ok_bind]
  simp only [cursor_block, unwind_block hcolumn, hrest]
  cases double with
  | true => simp [atMark_cons_of_ne, hfetch, Except.map]
  | false => simp [atMark_cons_of_ne, hfetch, Except.map]

theorem fetch_plain {cs : List Char} (hs : s.Settles (block latest indent outer allowed none c))
    (hcolumn : indent ≤ c.column) (hplain : Style.canBePlain cs = true) (hne : cs ≠ [])
    {place : Scalar.Place} (hplace : place.HasRoom)
    (hindent : place.fold = true → indent + 1 ≤ place.indent) {column : Nat}
    (hrest : c.rest = Scalar.plain place column cs ++ rest) {d : Cursor} {ended : Bool}
    (hends : EndsPlain (indent + 1) (c.skip (Scalar.plain place column cs).length) d ended) :
    s.fetch = .ok (block (.scalar (.ofChars cs) true :: latest) indent outer ended
      (savedKey latest indent allowed c) d, false) := by
  have hscan : scanPlain false (indent + 1) c = (cs, d, ended) :=
    Scalar.scanPlain_plain hplain hne hplace hindent hrest (by omega) hends
  have hfetch : (block latest indent outer allowed none c).fetchPlain =
      .ok (block (.scalar (.ofChars cs) true :: latest) indent outer ended
        (savedKey latest indent allowed c) d) := by
    rw [fetchPlain, saveKey_block, Except.ok_bind]
    simp only [inFlow_block, indent_block, cursor_block, hscan]
    rfl
  have hbehind := hends.1
  rw [Cursor.rest_skip_of_append hrest] at hbehind
  obtain ⟨ch, more, hstart, hch, hspace, hindicator, hmark, hdashes, hpoints⟩ :=
    Scalar.exists_plain_start hplain hne place column hbehind
  rw [hstart] at hrest
  unfold Settles at hs
  simp only [fetch, hs, Except.ok_bind]
  simp only [cursor_block, unwind_block hcolumn, hrest]
  simp only [Style.indicators, List.mem_cons, not_or] at hindicator
  have hblank {mark : Char} (h : mark = '?' ∨ mark = ':' ∨ mark = '-') :
      ¬(ch = mark ∧ atBlank more = true) := by
    rintro ⟨rfl, hmore⟩
    rw [hmark h] at hmore
    cases hmore
  have hstarts : startsPlain false ch more = true := by
    by_cases hlead : ch = '?' ∨ ch = ':' ∨ ch = '-'
    · simp only [startsPlain, hmark hlead]
      rcases hlead with rfl | rfl | rfl <;> simp
    · rw [not_or, not_or] at hlead
      simp [startsPlain, hch.isSpaceOrTab, hch.isBreak, hspace, hindicator, hlead]
  simp [hdashes, hpoints, hfetch, hindicator, hstarts, hblank, Except.map]

/-- A text where a scanner has settled. A plain scalar is read up to the next token, if that is on
another line, and a quoted one up to its closing quote. -/
theorem fetch_text (hs : s.Settles (block latest indent outer allowed none c)) (hcolumn : indent ≤ c.column)
    {place : Scalar.Place} (hplace : place.HasRoom)
    (hindent : place.fold = true → indent + 1 ≤ place.indent)
    (hbreaks : '\n' ∈ t.toChars → 0 < place.indent) {column : Nat}
    (hrest : c.rest = Scalar.ofText place column t ++ rest) (hbehind : rest.head? ≠ some '\'')
    {d : Cursor} {ended : Bool}
    (hends : EndsPlain (indent + 1) (c.skip (Scalar.ofText place column t).length) d ended) :
    s.fetch = .ok (block (.ofText t :: latest) indent outer ended (savedKey latest indent allowed c) d,
      false) ∨
    s.fetch = .ok (block (.ofText t :: latest) indent outer false (savedKey latest indent allowed c)
      (c.skip (Scalar.ofText place column t).length), false) := by
  obtain ⟨style, hstyle, hform⟩ : ∃ style, Style.ofText t = style ∧ Scalar.HasStyle t style :=
    ⟨_, rfl, Scalar.hasStyle t⟩
  rw [Token.ofText, hstyle]
  cases hform with
  | @plain cs hplain hne =>
    rw [Scalar.ofText_of_plain place column hstyle, Text.toChars_ofChars] at hrest hends
    exact .inl (fetch_plain hs hcolumn hplain hne hplace hindent hrest hends)
  | @single cs hsingle =>
    rw [Scalar.ofText_of_single place column hstyle] at hrest ⊢
    rw [Text.toChars_ofChars] at hbreaks hrest ⊢
    obtain ⟨written, hwritten, hread⟩ := Scalar.exists_single hplace hsingle hbreaks column
    rw [hwritten] at hrest ⊢
    exact .inr (fetch_quoted false hs hcolumn hrest hread hbehind)
  | double =>
    rw [Scalar.ofText_of_double place column hstyle] at hrest ⊢
    obtain ⟨written, hwritten, hread⟩ := Scalar.exists_double hplace column t
    rw [hwritten] at hrest ⊢
    exact .inr (fetch_quoted true hs hcolumn hrest hread hbehind)

/-! ### Values -/

theorem forgets_savedKey {line : Nat} (hcolumn : indent < c.column) (hline : c.line < line) :
    Forgets line (savedKey latest indent allowed c) := by
  rintro k hk
  cases allowed with
  | false => cases hk
  | true =>
    cases hk
    exact ⟨decide_eq_false (Int.ne_of_lt hcolumn), hline⟩

theorem leads_text {place : Scalar.Place} (hplace : place.HasRoom) (hindent : indent + 1 ≤ place.indent)
    (hpositive : 0 < place.indent) {column n : Nat}
    (hrest : c.rest = ' ' :: (Scalar.ofText place column t ++ ('\n' :: List.replicate n ' ' ++ rest)))
    (hcontent : AtContent rest) (hcolumn : indent ≤ c.column) (hn : n ≤ indent) :
    (block latest indent outer allowed none c).Leads
      (block (.ofText t :: latest) indent outer true none
        (c.skip (1 + (Scalar.ofText place column t).length + (n + 1)))) := by
  have hspace : (c.skip 1) = ⟨_, c.index + 1, c.line, c.column + 1⟩ :=
    Cursor.next_inline hrest (by decide)
  have hskip : (c.skip 1).rest = _ := congrArg Cursor.rest hspace
  have hbehind := Cursor.rest_skip_of_append hskip
  have hline := Cursor.line_le_skip (Scalar.ofText place column t).length (c.skip 1)
  have hfresh := Cursor.skip_freshLine hbehind
  have hcolumn' : indent < (c.skip 1).column := by
    rw [hspace]
    show indent < ((c.column + 1 : Nat) : Int)
    omega
  have hsettles : (block latest indent outer allowed none c).Settles
      (block latest indent outer allowed none (c.skip 1)) :=
    settles_spaces (n := 1) hrest (Scalar.atContent_ofText place column t rfl)
  have htotal : c.skip (1 + (Scalar.ofText place column t).length + (n + 1)) =
      ((c.skip 1).skip (Scalar.ofText place column t).length).skip (n + 1) := by
    rw [Cursor.skip_skip, Cursor.skip_skip, Nat.add_assoc]
  have hend : (((c.skip 1).skip (Scalar.ofText place column t).length).skip (n + 1)).rest = rest := by
    rw [hfresh]
  have hlength : rest.length < c.rest.length := by
    rw [hrest]
    simp only [List.length_cons, List.length_append]
    omega
  rw [htotal]
  rcases fetch_text hsettles (Int.le_of_lt hcolumn') hplace (fun _ => hindent) (fun _ => hpositive) hskip
    (by simp) (endsPlain_freshLine hbehind hcontent (by omega)) with hfetch | hfetch
  · refine (leads_of_fetch hfetch ?_).trans (leads_of_settles (settles_content ?_ ?_) ?_ (Nat.le_refl _))
    · simpa [hend] using hlength
    · rwa [hend]
    · rw [hfresh]
      exact forgets_savedKey hcolumn' (Nat.lt_succ_of_le hline)
    · rwa [hend]
  · refine (leads_of_fetch hfetch ?_).trans
      (leads_of_settles (settles_freshLine hbehind hcontent ?_) ?_ ?_)
    · simp only [cursor_block, hbehind, hrest, List.length_cons, List.length_append]
      omega
    · exact forgets_savedKey hcolumn' (Nat.lt_succ_of_le hline)
    · rwa [hend]
    · simp only [hend, cursor_block, hbehind, List.length_cons, List.length_append]
      omega

/-! ### Keys -/

/-- What a mapping at a column does to tokens and levels where one of its keys starts: the first key
opens a level. -/
inductive Enters (column : Nat) :
    List Token → Int → List Int → List Token → List Int → Prop where
  | first {latest : List Token} {indent : Int} {outer : List Int} (h : indent < column) :
    Enters column latest indent outer (.blockMappingStart :: latest) (indent :: outer)
  | next (latest : List Token) (outer : List Int) : Enters column latest column outer latest outer

variable {latest' : List Token} {outer' : List Int}

theorem Enters.le {column : Nat} (h : Enters column latest indent outer latest' outer') :
    indent ≤ column := by
  cases h with
  | first h => exact Int.le_of_lt h
  | next => exact Int.le_refl _

theorem openBlock_block (h : Enters c.column latest indent outer latest' outer') :
    (block latest indent outer allowed key c).openBlock .blockMappingStart =
      block latest' c.column outer' allowed key c := by
  cases h with
  | first h => simp [openBlock, deepen, block, emit, h]
  | next => simp [openBlock, deepen, block]

@[simp] theorem dropKey_block : (block latest indent outer allowed none c).dropKey =
    .ok (block latest indent outer allowed none c) := rfl

theorem leads_keyMark {start : Nat} (h : Enters start latest indent outer latest' outer')
    (hcolumn : c.column = start) (hrest : c.rest = '?' :: rest) (hblank : atBlank rest = true) :
    (block latest indent outer true none c).Leads
      (block (.key :: latest') start outer' true none (c.skip 1)) := by
  subst hcolumn
  have hs : (block latest indent outer true none c).Settles (block latest indent outer true none c) :=
    settles_content (hrest ▸ .cons (by decide) (by decide) (by decide) rest) (forgets_none _)
  have hfetch : (block latest indent outer true none c).fetchKey =
      .ok (block (.key :: latest') c.column outer' true none (c.skip 1)) := by
    simp [fetchKey, openBlock_block h]
    rfl
  refine leads_of_fetch ?_ (by simp [Cursor.rest_skip, hrest])
  unfold Settles at hs
  simp only [fetch, hs, Except.ok_bind, cursor_block, unwind_block h.le, hrest]
  simp [atMark_cons_of_ne, hblank, hfetch, Except.map]

theorem leads_valueMark {start : Nat} (hcolumn : c.column = start) (hrest : c.rest = ':' :: rest)
    (hblank : atBlank rest = true) :
    (block latest start outer true none c).Leads
      (block (.value :: latest) start outer true none (c.skip 1)) := by
  subst hcolumn
  have hs : (block latest c.column outer true none c).Settles (block latest c.column outer true none c) :=
    settles_content (hrest ▸ .cons (by decide) (by decide) (by decide) rest) (forgets_none _)
  have hfetch : (block latest c.column outer true none c).fetchValue =
      .ok (block (.value :: latest) c.column outer true none (c.skip 1)) := by
    simp [fetchValue, openBlock_block (.next latest outer)]
    rfl
  refine leads_of_fetch ?_ (by simp [Cursor.rest_skip, hrest])
  unfold Settles at hs
  simp only [fetch, hs, Except.ok_bind, cursor_block, unwind_block (Int.le_refl _), hrest]
  simp [atMark_cons_of_ne, hblank, hfetch, Except.map]

theorem fetchSimpleValue_block {k d : Cursor}
    (h : Enters k.column latest indent outer latest' outer') :
    (block (.ofText t :: latest) indent outer allowed (some (hereKey latest indent k)) d).fetchSimpleValue
        (hereKey latest indent k) =
      block (.value :: .ofText t :: .key :: latest') k.column outer' false none (d.skip 1) := by
  have htwo : latest.length + 1 + 1 - latest.length = 2 := by omega
  cases h with
  | first h => simp [fetchSimpleValue, h, hereKey, insert, indicator, emit, block, inFlow, flow, htwo]
  | next => simp [fetchSimpleValue, hereKey, insert, indicator, emit, block, inFlow, flow]

theorem leads_colon {k d : Cursor} (h : Enters k.column latest indent outer latest' outer')
    (hline : k.line = d.line) (hcolumn : k.column ≤ d.column) (hlength : d.index - k.index ≤ 1024)
    (hrest : d.rest = ':' :: rest) (hblank : atBlank rest = true) :
    (block (.ofText t :: latest) indent outer false (some (hereKey latest indent k)) d).Leads
      (block (.value :: .ofText t :: .key :: latest') k.column outer' false none (d.skip 1)) := by
  have hs : (block (.ofText t :: latest) indent outer false (some (hereKey latest indent k)) d).Settles
      (block (.ofText t :: latest) indent outer false (some (hereKey latest indent k)) d) :=
    settles_live (hrest ▸ .cons (by decide) (by decide) (by decide) rest) hline hlength
  have hunwind := h.le
  refine leads_of_fetch ?_ (by simp [Cursor.rest_skip, hrest])
  unfold Settles at hs
  simp only [fetch, hs, Except.ok_bind, cursor_block, unwind_block (show indent ≤ d.column by omega), hrest]
  simp [atMark_cons_of_ne, hblank, fetchValue, fetchSimpleValue_block h, Except.map]

theorem leads_simpleKey {start : Nat} (h : Enters start latest indent outer latest' outer')
    (hcolumn : c.column = start) {place : Scalar.Place} {column : Nat} (hfold : place.fold = false)
    (hline : '\n' ∉ t.toChars) (hrest : c.rest = Scalar.ofText place column t ++ ':' :: rest)
    (hblank : atBlank rest = true) (hlength : (Scalar.ofText place column t).length ≤ 1024) :
    (block latest indent outer true none c).Leads
      (block (.value :: .ofText t :: .key :: latest') start outer' false none
        (c.skip ((Scalar.ofText place column t).length + 1))) := by
  subst hcolumn
  have hunfolded (P : Prop) (htrue : place.fold = true) : P := by
    rw [hfold] at htrue
    cases htrue
  have hinline : ∀ ch ∈ Scalar.ofText place column t, IsInline ch :=
    Scalar.forall_mem_ofText (fun _ h => h) (hunfolded _) (fun hmem => absurd hmem hline) column
  have hskip := Cursor.skip_inline hrest hinline
  have hbehind : (c.skip (Scalar.ofText place column t).length).rest = ':' :: rest := by rw [hskip]
  have hends := endsPlain_colon (indent + 1) hbehind hblank
  have hs : (block latest indent outer true none c).Settles (block latest indent outer true none c) :=
    settles_content (hrest ▸ Scalar.atContent_ofText place column t (plainLength_colon hblank)) (forgets_none _)
  have hkey : (block latest indent outer true none c).fetch = .ok (block (.ofText t :: latest) indent outer
      false (some (hereKey latest indent c)) (c.skip (Scalar.ofText place column t).length), false) :=
    or_self_iff.mp (fetch_text hs h.le (hunfolded _) (hunfolded _) (fun hmem => absurd hmem hline) hrest
      (by simp) hends)
  rw [← Cursor.skip_skip]
  refine (leads_of_fetch hkey ?_).trans (leads_colon h ?_ ?_ ?_ hbehind hblank)
  · have hpositive := List.length_pos_iff.mpr (Scalar.ofText_ne_nil place column t)
    simp only [cursor_block, hbehind, hrest, List.length_append]
    omega
  all_goals rw [hskip]
  · exact Nat.le_add_right _ _
  · simpa using hlength

/-! ### Empty mappings -/

def inBraces (latest : List Token) (indent : Int) (outer : List Int) (key : Option PossibleKey)
    (c : Cursor) : Scanner :=
  ⟨c, latest, latest.length, indent, outer, true, [none, key]⟩

theorem fetch_openBrace (hs : s.Settles (block latest indent outer allowed none c))
    (hcolumn : indent ≤ c.column) (hrest : c.rest = '\x7b' :: rest) :
    s.fetch = .ok (inBraces (.flowMappingStart :: latest) indent outer (savedKey latest indent allowed c)
      (c.skip 1), false) := by
  have hfetch : (block latest indent outer allowed none c).fetchFlowStart .flowMappingStart =
      .ok (inBraces (.flowMappingStart :: latest) indent outer (savedKey latest indent allowed c)
        (c.skip 1)) := by
    rw [fetchFlowStart, saveKey_block]
    rfl
  unfold Settles at hs
  simp only [fetch, hs, Except.ok_bind, cursor_block, unwind_block hcolumn, hrest]
  simp [atMark_cons_of_ne, hfetch, Except.map]

theorem fetch_closeBrace (hkey : ∀ k, key = some k → isStale c k = false)
    (hrest : c.rest = '\x7d' :: rest) :
    (inBraces latest indent outer key c).fetch =
      .ok (block (.flowMappingEnd :: latest) indent outer false key (c.skip 1), false) := by
  have hblanks : (inBraces latest indent outer key c).skipBlanks = inBraces latest indent outer key c :=
    skipBlanks_spaces (n := 0) hrest (.cons (by decide) (by decide) (by decide) rest)
  have hdrop : (inBraces latest indent outer key c).dropStaleKeys =
      .ok (inBraces latest indent outer key c) := by
    cases key with
    | none => simp [dropStaleKeys, inBraces]
    | some k => simp [dropStaleKeys, inBraces, hkey k rfl]
  have hfetch : (inBraces latest indent outer key c).fetchFlowEnd .flowMappingEnd =
      .ok (block (.flowMappingEnd :: latest) indent outer false key (c.skip 1)) := rfl
  have hunwind (column : Int) :
      (inBraces latest indent outer key c).unwind column = inBraces latest indent outer key c := rfl
  have hcursor : (inBraces latest indent outer key c).cursor = c := rfl
  simp only [fetch, hblanks, hdrop, Except.ok_bind, hunwind, hcursor, hrest]
  simp [atMark_cons_of_ne, hfetch, Except.map]

private theorem leads_flow (hrest : c.rest = ' ' :: '\x7b' :: '\x7d' :: rest)
    (hcolumn : indent < (c.skip 1).column) :
    (block latest indent outer allowed none c).Leads
      (block (.flowMappingEnd :: .flowMappingStart :: latest) indent outer false
        (savedKey latest indent allowed (c.skip 1)) (c.skip 3)) := by
  have hopenRest : (c.skip 1).rest = '\x7b' :: '\x7d' :: rest := by
    rw [Cursor.rest_skip, hrest]
    rfl
  have hcloseRest : (c.skip 2).rest = '\x7d' :: rest := by
    rw [Cursor.rest_skip, hrest]
    rfl
  have hbrace : c.skip 2 = ⟨_, (c.skip 1).index + 1, (c.skip 1).line, (c.skip 1).column + 1⟩ :=
    Cursor.next_inline hopenRest (by decide)
  have hs : (block latest indent outer allowed none c).Settles
      (block latest indent outer allowed none (c.skip 1)) :=
    settles_spaces (n := 1) hrest (.cons (by decide) (by decide) (by decide) _)
  have hlive : ∀ k, savedKey latest indent allowed (c.skip 1) = some k → isStale (c.skip 2) k = false := by
    rintro k hk
    cases allowed with
    | false => cases hk
    | true =>
      cases hk
      simp [isStale, hereKey, hbrace]
  refine (leads_of_fetch (fetch_openBrace hs (Int.le_of_lt hcolumn) hopenRest) ?_).trans
    (leads_of_fetch (fetch_closeBrace hlive hcloseRest) ?_)
  · show (c.skip 2).rest.length < c.rest.length
    rw [hcloseRest, hrest]
    simp
  · show (c.skip 3).rest.length < (c.skip 2).rest.length
    rw [Cursor.rest_skip, hrest, hcloseRest]
    simp

theorem leads_braces {n : Nat}
    (hrest : c.rest = ' ' :: '\x7b' :: '\x7d' :: ('\n' :: List.replicate n ' ' ++ rest))
    (hcontent : AtContent rest) (hcolumn : indent ≤ c.column) :
    (block latest indent outer allowed none c).Leads
      (block (.flowMappingEnd :: .flowMappingStart :: latest) indent outer true none
        (c.skip (3 + (n + 1)))) := by
  have hspace : c.skip 1 = ⟨_, c.index + 1, c.line, c.column + 1⟩ :=
    Cursor.next_inline hrest (by decide)
  have hbehind : indent < (c.skip 1).column := by
    rw [hspace]
    show indent < ((c.column + 1 : Nat) : Int)
    omega
  have hline : (c.skip 1).line ≤ (c.skip 3).line := Cursor.line_le_skip 2 (c.skip 1)
  have hendRest : (c.skip 3).rest = '\n' :: List.replicate n ' ' ++ rest := by
    rw [Cursor.rest_skip, hrest]
    rfl
  have hend : ((c.skip 3).skip (n + 1)).rest = rest := by rw [Cursor.skip_freshLine hendRest]
  rw [← Cursor.skip_skip]
  refine (leads_flow hrest hbehind).trans
    (leads_of_settles (settles_freshLine hendRest hcontent ?_) ?_ ?_)
  · exact forgets_savedKey hbehind (Nat.lt_succ_of_le hline)
  · rwa [hend]
  · show _ ≤ (c.skip 3).rest.length
    rw [hend, hendRest, List.length_append]
    exact Nat.le_add_left _ _

/-! ### Documents -/

theorem leads_documentStart (hcolumn : c.column = 0) (hindent : indent ≤ 0)
    (hrest : c.rest = '-' :: '-' :: '-' :: rest) (hblank : atBlank rest = true)
    (hunwind : (block latest indent outer true none c).unwind (-1) = block latest' (-1) [] true none c) :
    (block latest indent outer true none c).Leads
      (block (.documentStart :: latest') (-1) [] false none (c.skip 3)) := by
  have hs : (block latest indent outer true none c).Settles (block latest indent outer true none c) :=
    settles_content (hrest ▸ .cons (by decide) (by decide) (by decide) _) (forgets_none _)
  have hfetch : (block latest indent outer true none c).fetchDocumentMark .documentStart =
      .ok (block (.documentStart :: latest') (-1) [] false none (c.skip 3)) := by
    rw [fetchDocumentMark, hunwind]
    rfl
  refine leads_of_fetch ?_ (by simp [Cursor.rest_skip, hrest]; omega)
  unfold Settles at hs
  simp only [fetch, hs, Except.ok_bind, cursor_block, unwind_block (show indent ≤ c.column by omega), hrest]
  simp [hcolumn, atMark, hblank, hfetch, Except.map]

theorem finishes_end (hrest : c.rest = []) (hindent : indent ≤ 0)
    (hunwind : (block latest indent outer true none c).unwind (-1) = block latest' (-1) [] true none c) :
    (block latest indent outer true none c).Finishes (latest'.reverse ++ [.streamEnd]) := by
  have hs : (block latest indent outer true none c).Settles (block latest indent outer true none c) :=
    settles_content (hrest ▸ .nil) (forgets_none _)
  have hfetchEnd : (block latest indent outer true none c).fetchStreamEnd =
      .ok (block (.streamEnd :: latest') (-1) [] false none c) := by
    rw [fetchStreamEnd, hunwind]
    rfl
  have hfetch : (block latest indent outer true none c).fetch =
      .ok (block (.streamEnd :: latest') (-1) [] false none c, true) := by
    unfold Settles at hs
    simp only [fetch, hs, Except.ok_bind, cursor_block, unwind_block (show indent ≤ c.column by omega),
      hrest, hfetchEnd, Except.map]
  have hfinishes := finishes_of_fetch hfetch
  simpa [firstTokens, block] using hfinishes

end

end Scanner
end ClusterRegistrar.Yaml
