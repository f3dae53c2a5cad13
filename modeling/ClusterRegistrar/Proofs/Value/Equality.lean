import ClusterRegistrar.Proofs.Value
import Mathlib.Algebra.Order.Ring.Int
import Mathlib.Tactic.Ring
import Mathlib.Tactic.Positivity

/-! Equality of keys. Atoms that equal one key equal each other, so a key equals no two of several keys
that are pairwise different. This is plain but for numbers, where an integer and a double can be the
same key: a double stands for one integer at most, and an integer is written by one double only, up
to the sign of zero. -/
namespace ClusterRegistrar

namespace Binary64

theorem pow_fraction : Nat.pow 2 52 = 4503599627370496 := rfl

theorem pow_sign : Nat.pow 2 63 = 9223372036854775808 := rfl

structure Splits (x : Binary64) (negative : Bool) (significand exponent : Nat) : Prop where
  sign : negative = x.isNegative
  magnitude : x.magnitude = exponent * 4503599627370496 + significand
  bound : significand < 9007199254740992
  normal : exponent = 0 ∨ 4503599627370496 ≤ significand

def lowest : Nat := 1074

theorem exists_splits {x : Binary64} {negative : Bool} {m : Nat} {q : Int}
    (h : x.form = .finite negative m q) :
    ∃ exponent : Nat, q = exponent - lowest ∧ x.Splits negative m exponent := by
  have hfraction : x.magnitude % 4503599627370496 < 4503599627370496 := Nat.mod_lt _ (by decide)
  have hsplit := Nat.div_add_mod' x.magnitude 4503599627370496
  simp only [form, pow_fraction] at h
  split at h
  · split at h <;> cases h
  · split at h
    · rename_i hzero
      cases h
      exact ⟨0, rfl, rfl, by omega, by omega, .inl rfl⟩
    · rename_i hbiased
      cases h
      refine ⟨x.magnitude / 4503599627370496 - 1, ?_, rfl, by omega, by omega, by omega⟩
      unfold lowest
      omega

def signed (negative : Bool) (m : Nat) : Int := if negative then -(m : Int) else m

private theorem scaled_iff (s i : Int) (e n : Nat) :
    (if (e : Int) - n < 0 then (decide (s = i * Int.pow 2 (-((e : Int) - n)).toNat) : Bool)
      else decide (s * Int.pow 2 ((e : Int) - n).toNat = i)) = true ↔ s * 2 ^ e = i * 2 ^ n := by
  have hpos (k : Nat) : (2 : Int) ^ k ≠ 0 := pow_ne_zero k (by decide)
  by_cases h : e < n
  · obtain ⟨d, rfl⟩ := Nat.exists_eq_add_of_lt h
    rw [if_pos (by omega), decide_eq_true_iff]
    have hd : (-((e : Int) - (e + d + 1 : Nat))).toNat = d + 1 := by omega
    rw [hd]
    show s = i * 2 ^ (d + 1) ↔ _
    have hpow : i * 2 ^ (e + d + 1) = i * 2 ^ (d + 1) * 2 ^ e := by ring
    rw [hpow, mul_left_inj' (hpos e)]
  · obtain ⟨d, rfl⟩ := Nat.exists_eq_add_of_le (Nat.not_lt.mp h)
    rw [if_neg (by omega), decide_eq_true_iff]
    have hd : (((n + d : Nat) : Int) - n).toNat = d := by omega
    rw [hd]
    show s * 2 ^ d = i ↔ _
    have hpow : s * 2 ^ (n + d) = s * 2 ^ d * 2 ^ n := by ring
    rw [hpow, mul_left_inj' (hpos n)]

theorem isInt_iff {x : Binary64} {i : Int} :
    x.isInt i = true ↔ ∃ (negative : Bool) (m exponent : Nat),
      x.form = .finite negative m ((exponent : Int) - lowest) ∧ x.Splits negative m exponent ∧
        signed negative m * 2 ^ exponent = i * 2 ^ lowest := by
  unfold isInt
  cases hform : x.form with
  | nan => simp
  | infinity => simp
  | finite negative m q =>
    obtain ⟨exponent, rfl, hsplits⟩ := exists_splits hform
    refine (scaled_iff (signed negative m) i exponent lowest).trans ?_
    constructor
    · exact fun h => ⟨negative, m, exponent, rfl, hsplits, h⟩
    · rintro ⟨negative', m', exponent', hsame, -, h⟩
      obtain ⟨rfl, rfl, hexponent⟩ := Form.finite.inj hsame
      obtain rfl : exponent = exponent' := by omega
      exact h

/-- Two ways to scale a significand agree only if they are the same. -/
private theorem scaled_unique {m n e f : Nat} (hm : m < 9007199254740992)
    (hn : f = 0 ∨ 4503599627370496 ≤ n) (h : m * 2 ^ e = n * 2 ^ f) : f ≤ e := by
  by_contra hlt
  obtain ⟨d, rfl⟩ := Nat.exists_eq_add_of_lt (Nat.not_le.mp hlt)
  have hcancel : m = n * 2 ^ d * 2 := by
    have hpow : n * 2 ^ (e + d + 1) = n * 2 ^ d * 2 * 2 ^ e := by ring
    rw [hpow] at h
    exact Nat.eq_of_mul_eq_mul_right (Nat.two_pow_pos e) h
  have hgrow : n ≤ n * 2 ^ d := Nat.le_mul_of_pos_right n (Nat.two_pow_pos d)
  omega

theorem Splits.magnitude_eq {x y : Binary64} {p q : Bool} {m n e f : Nat} (hx : x.Splits p m e)
    (hy : y.Splits q n f) (h : m * 2 ^ e = n * 2 ^ f) : x.magnitude = y.magnitude := by
  obtain rfl : e = f := Nat.le_antisymm (scaled_unique hy.bound hx.normal h.symm)
    (scaled_unique hx.bound hy.normal h)
  have hsame : m = n := Nat.eq_of_mul_eq_mul_right (Nat.two_pow_pos e) h
  rw [hx.magnitude, hy.magnitude, hsame]

theorem bits_eq {x y : Binary64} (hsign : x.isNegative = y.isNegative)
    (hmagnitude : x.magnitude = y.magnitude) : x.bits = y.bits := by
  have hx := x.bits.toNat_lt
  have hy := y.bits.toNat_lt
  unfold isNegative at hsign
  unfold magnitude at hmagnitude
  rw [decide_eq_decide, pow_sign] at hsign
  rw [pow_sign] at hmagnitude
  apply UInt64.toNat_inj.mp
  omega


theorem isInt_unique {x : Binary64} {i j : Int} (hi : x.isInt i = true) (hj : x.isInt j = true) :
    i = j := by
  obtain ⟨p, m, e, hform, -, hscaled⟩ := isInt_iff.mp hi
  obtain ⟨q, n, f, hform', -, hscaled'⟩ := isInt_iff.mp hj
  rw [hform] at hform'
  obtain ⟨rfl, rfl, hexponent⟩ := Form.finite.inj hform'
  obtain rfl : e = f := by omega
  exact mul_right_cancel₀ (pow_ne_zero lowest (by decide)) (hscaled.symm.trans hscaled')

theorem natAbs_signed (negative : Bool) (m : Nat) : (signed negative m).natAbs = m := by
  cases negative <;> simp [signed]

theorem isNan_of_finite {x : Binary64} {negative : Bool} {m : Nat} {q : Int}
    (h : x.form = .finite negative m q) : x.isNan = false := by
  simp [isNan, h]

theorem isZero_iff {x : Binary64} : x.isZero = true ↔ x.magnitude = 0 := decide_eq_true_iff

private theorem sign_eq {p q : Bool} {m n e f : Nat} (hm : m ≠ 0) (hn : n ≠ 0)
    (h : signed p m * 2 ^ e = signed q n * 2 ^ f) : p = q := by
  have he : (0 : Int) < m * 2 ^ e := by positivity
  have hf : (0 : Int) < n * 2 ^ f := by positivity
  cases p <;> cases q <;> simp only [signed, if_true, if_false, Bool.false_eq_true, neg_mul] at h
  · rfl
  · omega
  · omega
  · rfl

theorem same_of_isInt {x y : Binary64} {i : Int} (hx : x.isInt i = true) (hy : y.isInt i = true) :
    x.same y = true := by
  obtain ⟨p, m, e, hform, hsplits, hscaled⟩ := isInt_iff.mp hx
  obtain ⟨q, n, f, hform', hsplits', hscaled'⟩ := isInt_iff.mp hy
  have hsame : signed p m * 2 ^ e = signed q n * 2 ^ f := hscaled.trans hscaled'.symm
  have habs : m * 2 ^ e = n * 2 ^ f := by
    have := congrArg Int.natAbs hsame
    rwa [Int.natAbs_mul, Int.natAbs_mul, natAbs_signed, natAbs_signed, Int.natAbs_pow,
      Int.natAbs_pow] at this
  have hmagnitude := hsplits.magnitude_eq hsplits' habs
  simp only [same, isNan_of_finite hform, isNan_of_finite hform', Bool.not_false, Bool.true_and,
    Bool.or_eq_true, Bool.and_eq_true, decide_eq_true_eq, isZero_iff]
  by_cases hzero : x.magnitude = 0
  · exact .inr ⟨hzero, hmagnitude ▸ hzero⟩
  · have hm : m ≠ 0 := by
      rintro rfl
      have := hsplits.magnitude
      have := hsplits.normal
      omega
    have hn : n ≠ 0 := by
      rintro rfl
      have := hsplits'.magnitude
      have := hsplits'.normal
      omega
    left
    apply bits_eq _ hmagnitude
    rw [← hsplits.sign, ← hsplits'.sign]
    exact sign_eq hm hn hsame

theorem isInt_zero {x : Binary64} (h : x.isZero = true) : x.isInt 0 = true := by
  have hmagnitude := isZero_iff.mp h
  have hform : x.form = .finite x.isNegative 0 ((0 : Nat) - lowest) := by
    simp [form, hmagnitude, lowest]
  obtain ⟨exponent, hexponent, hsplits⟩ := exists_splits hform
  obtain rfl : exponent = 0 := by omega
  refine isInt_iff.mpr ⟨_, 0, 0, hform, hsplits, ?_⟩
  simp [signed]

theorem eq_or_zero_of_same {x y : Binary64} (h : x.same y = true) :
    x = y ∨ x.isZero = true ∧ y.isZero = true := by
  simp only [same, Bool.and_eq_true, Bool.or_eq_true, decide_eq_true_eq] at h
  rcases h.2 with hbits | hzero
  · exact .inl (congrArg Binary64.mk hbits)
  · exact .inr hzero

theorem isInt_of_same {x y : Binary64} {i : Int} (h : y.same x = true) (hx : x.isInt i = true) :
    y.isInt i = true := by
  rcases eq_or_zero_of_same h with rfl | ⟨hy, hzero⟩
  · exact hx
  · obtain rfl := isInt_unique hx (isInt_zero hzero)
    exact isInt_zero hy

theorem isNan_of_same {x y : Binary64} (h : x.same y = true) :
    x.isNan = false ∧ y.isNan = false := by
  simp only [same, Bool.and_eq_true, Bool.not_eq_true'] at h
  exact h.1

theorem isNan_of_isInt {x : Binary64} {i : Int} (h : x.isInt i = true) : x.isNan = false := by
  obtain ⟨_, _, _, hform, -, -⟩ := isInt_iff.mp h
  exact isNan_of_finite hform

theorem same_of_same {x y z : Binary64} (hx : x.same z = true) (hy : y.same z = true) :
    x.same y = true := by
  simp only [same, isNan_of_same hx, isNan_of_same hy, Bool.not_false, Bool.true_and,
    Bool.or_eq_true, Bool.and_eq_true, decide_eq_true_eq]
  rcases eq_or_zero_of_same hx with rfl | ⟨hzero, hz⟩ <;>
    rcases eq_or_zero_of_same hy with rfl | ⟨hzero', hz'⟩
  · exact .inl rfl
  · exact .inr ⟨hz', hzero'⟩
  · exact .inr ⟨hzero, hz⟩
  · exact .inr ⟨hzero, hzero'⟩

end Binary64

namespace DateTime

/-- Whether a time has an offset, and its instant, on the local clock if it has none. -/
def instant (t : DateTime) : Bool × Int :=
  (t.offset.isSome, t.localMicroseconds - t.offset.getD 0 * 1000000)

theorem same_iff {t u : DateTime} : t.same u = true ↔ t.instant = u.instant := by
  unfold same instant
  cases t.offset <;> cases u.offset <;> simp

end DateTime

namespace Atom

def Counts (a : Atom) (i : Int) : Prop :=
  a.asInt? = some i ∨ ∃ x o, a = .float x o ∧ x.isInt i = true

theorem Counts.unique {a : Atom} {i j : Int} (hi : a.Counts i) (hj : a.Counts j) : i = j := by
  rcases hi with hi | ⟨x, o, rfl, hi⟩
  · rcases hj with hj | ⟨x, o, rfl, hj⟩
    · exact Option.some.inj (hi.symm.trans hj)
    · cases hi
  · rcases hj with hj | ⟨y, p, hsame, hj⟩
    · cases hj
    · obtain ⟨rfl, -⟩ := Atom.float.inj hsame
      exact Binary64.isInt_unique hi hj

theorem sameNumber_iff {a b : Atom} :
    a.sameNumber b = true ↔ (∃ i, a.Counts i ∧ b.Counts i) ∨
      ∃ x o y p, a = .float x o ∧ b = .float y p ∧
        (x.same y = true ∨ x.isNan = true ∧ y.isNan = true ∧ o = p) := by
  cases a <;> cases b <;> simp [sameNumber, asInt?, Counts]
  case bool.bool | bool.int | int.bool | int.int => exact eq_comm
  case float.float x o y p =>
    have hinteger (h : ∃ i, x.isInt i = true ∧ y.isInt i = true) : x.same y = true := by
      obtain ⟨i, hx, hy⟩ := h
      exact Binary64.same_of_isInt hx hy
    rw [and_assoc, iff_or_self]
    exact fun h => .inl (hinteger h)

private theorem counts_of_equal {x y : Binary64} {o p : Option Origin} {i : Int}
    (hy : (Atom.float y p).Counts i)
    (h : x.same y = true ∨ x.isNan = true ∧ y.isNan = true ∧ o = p) : (Atom.float x o).Counts i := by
  rcases hy with hy | ⟨_, _, hsame, hy⟩
  · cases hy
  · obtain ⟨rfl, -⟩ := Atom.float.inj hsame
    rcases h with h | ⟨-, hnan, -⟩
    · exact .inr ⟨x, o, rfl, Binary64.isInt_of_same h hy⟩
    · rw [Binary64.isNan_of_isInt hy] at hnan
      cases hnan

theorem sameNumber_of_sameNumber {a b k : Atom} (ha : a.sameNumber k = true)
    (hb : b.sameNumber k = true) : a.sameNumber b = true := by
  rw [sameNumber_iff] at ha hb ⊢
  rcases ha with ⟨i, ha, hk⟩ | ⟨x, o, z, r, rfl, rfl, hx⟩
  · rcases hb with ⟨j, hb, hk'⟩ | ⟨y, p, z, r, rfl, rfl, hy⟩
    · obtain rfl := hk.unique hk'
      exact .inl ⟨i, ha, hb⟩
    · exact .inl ⟨i, ha, counts_of_equal hk hy⟩
  · rcases hb with ⟨j, hb, hk⟩ | ⟨y, p, z', r', rfl, hsame, hy⟩
    · exact .inl ⟨j, counts_of_equal hk hx, hb⟩
    · obtain ⟨rfl, rfl⟩ := Atom.float.inj hsame
      refine .inr ⟨x, o, y, p, rfl, rfl, ?_⟩
      rcases hx with hx | ⟨hx, hz, rfl⟩ <;> rcases hy with hy | ⟨hy, hz', rfl⟩
      · exact .inl (Binary64.same_of_same hx hy)
      · rw [(Binary64.isNan_of_same hx).2] at hz'
        cases hz'
      · rw [(Binary64.isNan_of_same hy).2] at hz
        cases hz
      · exact .inr ⟨hx, hy, rfl⟩

theorem same_of_sameNumber {a b : Atom} (h : a.sameNumber b = true) : a.same b = true := by
  cases a <;> cases b <;> first | exact h | cases h

/-- Atoms that equal one key equal each other. -/
theorem same_of_same {a b k : Atom} (ha : a.same k = true) (hb : b.same k = true) :
    a.same b = true := by
  have hnumbers (ha : a.sameNumber k = true) (hb : b.sameNumber k = true) : a.same b = true :=
    same_of_sameNumber (sameNumber_of_sameNumber ha hb)
  cases k with
  | bool | int | float =>
    apply hnumbers
    · cases a <;> exact ha
    · cases b <;> exact hb
  | str t =>
    rw [same_str] at ha hb
    subst ha hb
    exact same_str.mpr rfl
  | _ => cases a <;> cases b <;> simp_all [same, sameNumber, asInt?, DateTime.same_iff]

end Atom
end ClusterRegistrar
