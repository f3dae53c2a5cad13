import ClusterRegistrar.Json.Printer
import ClusterRegistrar.Json.Reader
import ClusterRegistrar.Proofs.Text.Numeral

/-! Quoted text reads back. Every code point is read as it was escaped, with one exception that the
escapes force: a high half with a low half right behind it is the character that the two encode. A
text of characters has no halves and comes back unchanged. -/
namespace ClusterRegistrar

/-- A text in which two halves that make a pair are the character of the pair. -/
def Text.joined : Text → Text
  | .surrogate high :: .surrogate low :: rest =>
    if high.val < 0x400 ∧ 0x400 ≤ low.val then
      CodePoint.ofNat (0x10000 + high.val * 0x400 + (low.val - 0x400)) :: joined rest
    else .surrogate high :: joined (.surrogate low :: rest)
  | p :: rest => p :: joined rest
  | [] => []

@[simp] theorem Text.joined_ofChars (cs : List Char) :
    (Text.ofChars cs).joined = Text.ofChars cs := by
  induction cs with
  | nil => rfl
  | cons c rest ih =>
    show Text.joined (.char c :: Text.ofChars rest) = .char c :: Text.ofChars rest
    rw [Text.joined, ih]
    simp

namespace Json

/-! ### Units -/

private theorem digitValue?_digitChar :
    ∀ d < 16, Numeral.digitValue? (Nat.digitChar d) = some d := by
  decide

private theorem isHexDigit_digitChar : ∀ d < 16, Numeral.isHexDigit (Nat.digitChar d) = true := by
  decide

private theorem hexLower_four {n : Nat} (h : n < 0x10000) :
    Numeral.hexLower 4 n =
      [n / 16 / 16 / 16, n / 16 / 16 % 16, n / 16 % 16, n % 16].map Nat.digitChar := by
  have hlead : n / 16 / 16 / 16 < 16 := by omega
  rw [Numeral.hexLower_succ, Numeral.hexLower_succ, Numeral.hexLower_succ,
    Numeral.hexLower_one hlead]
  rfl

theorem readUnit?_hexLower {n : Nat} (h : n < 0x10000) (rest : List Char) :
    readUnit? (Numeral.hexLower 4 n ++ rest) = some (n, rest) := by
  rw [hexLower_four h]
  have hdigits : ∀ d ∈ [n / 16 / 16 / 16, n / 16 / 16 % 16, n / 16 % 16, n % 16], d < 16 := by
    intro d hd
    simp only [List.mem_cons, List.not_mem_nil, or_false] at hd
    omega
  simp only [List.forall_mem_cons] at hdigits
  obtain ⟨ha, hb, hc, hd, -⟩ := hdigits
  simp only [List.map_cons, List.map_nil, List.cons_append, List.nil_append, readUnit?]
  simp only [List.all_cons, List.all_nil, isHexDigit_digitChar _ ha, isHexDigit_digitChar _ hb,
    isHexDigit_digitChar _ hc, isHexDigit_digitChar _ hd, Bool.and_self, ↓reduceIte,
    Numeral.hexValue, List.foldl_cons, List.foldl_nil, digitValue?_digitChar _ ha,
    digitValue?_digitChar _ hb, digitValue?_digitChar _ hc, digitValue?_digitChar _ hd,
    Option.getD_some, Option.some.injEq, Prod.mk.injEq, and_true]
  omega

theorem readLow?_escapeUnit {n : Nat} (h : n < 0x10000) (rest : List Char) :
    readLow? (escapeUnit n ++ rest) =
      if 0xdc00 ≤ n ∧ n < 0xe000 then some (n, rest) else none := by
  simp only [escapeUnit, List.cons_append, readLow?, readUnit?_hexLower h, Option.filter_some,
    Bool.and_eq_true, decide_eq_true_eq]

theorem readUnicode?_single {n : Nat} (h : n < 0x10000) {rest : List Char}
    (hrest : 0xd800 ≤ n ∧ n < 0xdc00 → readLow? rest = none) :
    readUnicode? (Numeral.hexLower 4 n ++ rest) = some (.ofNat n, rest) := by
  by_cases hn : 0xd800 ≤ n ∧ n < 0xdc00
  · simp only [readUnicode?, readUnit?_hexLower h, Option.bind_eq_bind, Option.bind_some, hn,
      and_self, ↓reduceIte, hrest hn, Option.pure_def]
  · simp only [readUnicode?, readUnit?_hexLower h, Option.bind_eq_bind, Option.bind_some, hn,
      ↓reduceIte, Option.pure_def]

theorem readUnicode?_pair {high low : Nat} (hhigh : 0xd800 ≤ high ∧ high < 0xdc00)
    (hlow : 0xdc00 ≤ low ∧ low < 0xe000) (rest : List Char) :
    readUnicode? (Numeral.hexLower 4 high ++ (escapeUnit low ++ rest)) =
      some (.ofNat (0x10000 + (high - 0xd800) * 0x400 + (low - 0xdc00)), rest) := by
  simp only [readUnicode?, readUnit?_hexLower (show high < 0x10000 by omega),
    Option.bind_eq_bind, Option.bind_some, hhigh, and_self, ↓reduceIte,
    readLow?_escapeUnit (show low < 0x10000 by omega), hlow, Option.pure_def]

/-! ### Code points -/

private theorem exists_halves {c : Char} (h : ¬c.toNat < 0x10000) :
    ∃ high low, 0xd800 + (c.toNat - 0x10000) / 0x400 = high ∧
      0xdc00 + (c.toNat - 0x10000) % 0x400 = low ∧
      (0xd800 ≤ high ∧ high < 0xdc00) ∧ (0xdc00 ≤ low ∧ low < 0xe000) ∧
      0x10000 + (high - 0xd800) * 0x400 + (low - 0xdc00) = c.toNat := by
  have := CodePoint.toNat_range c
  refine ⟨_, _, rfl, rfl, ?_⟩
  omega

inductive Escaped (c : Char) : List Char → Prop where
  | plain (hquote : c ≠ '"') (hback : c ≠ '\\') (hprintable : ¬c < ' ') : Escaped c [c]
  | named (e : Char) (hu : e ≠ 'u') (hname : namedEscape? e = some c) : Escaped c ['\\', e]
  | unit (hsmall : c.toNat < 0x10000) : Escaped c (escapeUnit c.toNat)
  | halves (high low : Nat) (hhigh : 0xd800 ≤ high ∧ high < 0xdc00)
      (hlow : 0xdc00 ≤ low ∧ low < 0xe000)
      (hjoin : 0x10000 + (high - 0xd800) * 0x400 + (low - 0xdc00) = c.toNat) :
      Escaped c (escapeUnit high ++ escapeUnit low)

theorem escaped_escapeChar (c : Char) : Escaped c (escapeChar c) := by
  unfold escapeChar
  split
  · subst_vars; exact .named _ (by decide) (by decide)
  split
  · subst_vars; exact .named _ (by decide) (by decide)
  split
  · rename_i hquote hback hplain
    exact .plain hquote hback (Char.not_lt.mpr hplain.1)
  split
  · subst_vars; exact .named _ (by decide) (by decide)
  split
  · subst_vars; exact .named _ (by decide) (by decide)
  split
  · subst_vars; exact .named _ (by decide) (by decide)
  split
  · subst_vars; exact .named _ (by decide) (by decide)
  split
  · subst_vars; exact .named _ (by decide) (by decide)
  split
  · rename_i hsmall
    exact .unit hsmall
  · rename_i hlarge
    obtain ⟨high, low, hhigh, hlow, hranges⟩ := exists_halves hlarge
    simp only [hhigh, hlow]
    exact .halves high low hranges.1 hranges.2.1 hranges.2.2

theorem readLow?_escapeChar (c : Char) (rest : List Char) :
    readLow? (escapeChar c ++ rest) = none := by
  have hescaped := escaped_escapeChar c
  generalize escapeChar c = cs at hescaped ⊢
  cases hescaped with
  | plain hquote hback hprintable => simp [readLow?, hback]
  | named e hu hname => simp [readLow?, hu]
  | unit hsmall =>
    have := CodePoint.toNat_range c
    rw [readLow?_escapeUnit hsmall, if_neg (by omega)]
  | halves high low hhigh hlow hjoin =>
    rw [List.append_assoc, readLow?_escapeUnit (by omega), if_neg (by omega)]

theorem readString?_unicode {text rest : List Char} {p : CodePoint}
    (h : readUnicode? text = some (p, rest)) (fuel : Nat) :
    readString? (fuel + 1) ('\\' :: 'u' :: text) = do
      let (more, rest) ← readString? fuel rest
      return (p :: more, rest) := by
  simp only [readString?, h, Option.bind_eq_bind, Option.bind_some]

theorem readString?_escapeChar (c : Char) (fuel : Nat) (rest : List Char) :
    readString? (fuel + 1) (escapeChar c ++ rest) = do
      let (more, rest) ← readString? fuel rest
      return (.char c :: more, rest) := by
  have hescaped := escaped_escapeChar c
  generalize escapeChar c = cs at hescaped ⊢
  cases hescaped with
  | plain hquote hback hprintable =>
    have hread : ¬(c = '\\' ∨ c < ' ') := not_or.mpr ⟨hback, hprintable⟩
    rw [List.singleton_append, readString?.eq_def]
    grind
  | named e hu hname =>
    rw [List.cons_append, List.singleton_append, readString?.eq_def]
    split <;> simp_all
  | unit hsmall =>
    have := CodePoint.toNat_range c
    have hunit : readUnicode? (Numeral.hexLower 4 c.toNat ++ rest) = some (.char c, rest) := by
      rw [readUnicode?_single hsmall (by omega), CodePoint.ofNat_toNat]
    exact readString?_unicode hunit fuel
  | halves high low hhigh hlow hjoin =>
    have hpair := readUnicode?_pair hhigh hlow rest
    rw [hjoin, CodePoint.ofNat_toNat] at hpair
    rw [List.append_assoc]
    exact readString?_unicode hpair fuel

/-! ### Texts -/

private theorem readUnicode?_surrogate (n : Fin 0x800) {rest : List Char}
    (hrest : n.val < 0x400 → readLow? rest = none) :
    readUnicode? (Numeral.hexLower 4 (0xd800 + n.val) ++ rest) = some (.surrogate n, rest) := by
  have hhalf : 0xd800 ≤ 0xd800 + n.val ∧ 0xd800 + n.val < 0xe000 := by omega
  rw [readUnicode?_single (by omega) fun h => hrest (by omega)]
  simp [CodePoint.ofNat, hhalf]

private theorem readLow?_escaped {p : CodePoint} (rest : List Char)
    (h : ∀ low, p = .surrogate low → low.val < 0x400) :
    readLow? (escape p ++ rest) = none := by
  cases p with
  | char c => exact readLow?_escapeChar c rest
  | surrogate low =>
    have := h low rfl
    show readLow? (escapeUnit (0xd800 + low.val) ++ rest) = none
    rw [readLow?_escapeUnit (by omega), if_neg (by omega)]

private theorem readString?_cons {p : CodePoint} {text rest : List Char}
    (h : readUnicode? text = some (p, rest)) {fuel : Nat} {more : Text} {after : List Char}
    (hmore : readString? fuel rest = some (more, after)) :
    readString? (fuel + 1) ('\\' :: 'u' :: text) = some (p :: more, after) := by
  rw [readString?_unicode h, hmore]
  rfl

theorem readString?_escape (t : Text) {fuel : Nat} (hfuel : t.length < fuel) (rest : List Char) :
    readString? fuel (t.flatMap escape ++ '"' :: rest) = some (t.joined, rest) := by
  obtain ⟨fuel, rfl⟩ := Nat.exists_eq_succ_of_ne_zero (Nat.ne_zero_of_lt hfuel)
  fun_induction Text.joined t generalizing fuel with
  | case1 high low more hhalves ih =>
    simp only [List.length_cons] at hfuel
    obtain ⟨fuel, rfl⟩ := Nat.exists_eq_succ_of_ne_zero (show fuel ≠ 0 by omega)
    have hread := readUnicode?_pair
      (show 0xd800 ≤ 0xd800 + high.val ∧ 0xd800 + high.val < 0xdc00 by omega)
      (show 0xdc00 ≤ 0xd800 + low.val ∧ 0xd800 + low.val < 0xe000 by omega)
      (more.flatMap escape ++ '"' :: rest)
    rw [show 0xd800 + high.val - 0xd800 = high.val by omega,
      show 0xd800 + low.val - 0xdc00 = low.val - 0x400 by omega] at hread
    simp only [List.flatMap_cons, List.append_assoc]
    exact readString?_cons hread (ih fuel (by omega))
  | case2 high low more hhalves ih =>
    simp only [List.length_cons] at hfuel ih
    obtain ⟨fuel, rfl⟩ := Nat.exists_eq_succ_of_ne_zero (show fuel ≠ 0 by omega)
    have hnext := ih fuel (by omega)
    have hread : readUnicode? (Numeral.hexLower 4 (0xd800 + high.val) ++
        ((CodePoint.surrogate low :: more).flatMap escape ++ '"' :: rest)) = some (.surrogate high,
          (CodePoint.surrogate low :: more).flatMap escape ++ '"' :: rest) := by
      refine readUnicode?_surrogate high fun hhigh => ?_
      rw [List.flatMap_cons, List.append_assoc]
      exact readLow?_escaped _ fun other h => by cases h; omega
    rw [List.flatMap_cons, List.append_assoc]
    exact readString?_cons hread hnext
  | case3 p more hhalves ih =>
    simp only [List.length_cons] at hfuel
    obtain ⟨fuel, rfl⟩ := Nat.exists_eq_succ_of_ne_zero (show fuel ≠ 0 by omega)
    have hnext := ih fuel (by omega)
    rw [List.flatMap_cons, List.append_assoc]
    cases p with
    | char c =>
      rw [show escape (.char c) = escapeChar c from rfl, readString?_escapeChar, hnext]
      rfl
    | surrogate high =>
      have hread : readUnicode? (Numeral.hexLower 4 (0xd800 + high.val) ++
          (more.flatMap escape ++ '"' :: rest)) =
            some (.surrogate high, more.flatMap escape ++ '"' :: rest) := by
        refine readUnicode?_surrogate high fun _ => ?_
        cases more with
        | nil => rfl
        | cons q more =>
          rw [List.flatMap_cons, List.append_assoc]
          exact readLow?_escaped _ fun low h => (hhalves high low more rfl (by rw [h])).elim
      exact readString?_cons hread hnext
  | case4 => rfl

end Json
end ClusterRegistrar
