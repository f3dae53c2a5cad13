import ClusterRegistrar.Text.Basic
import Mathlib.Algebra.Group.Nat.Defs

/-! Code points and their numbers. A code point is known by its number, and a number by its digits to
the base sixteen in any width that holds it. -/
namespace ClusterRegistrar

namespace CodePoint

theorem toNat_range (c : Char) : c.toNat < 0xd800 ∨ 0xe000 ≤ c.toNat ∧ c.toNat < 0x110000 := by
  have h := c.valid
  simp only [UInt32.isValidChar, Nat.isValidChar] at h
  simp only [Char.toNat]
  omega

theorem ofNat_toNat (c : Char) : ofNat c.toNat = .char c := by
  have hvalid : ¬(0xd800 ≤ c.toNat ∧ c.toNat < 0xe000) := by
    have := toNat_range c
    omega
  simp [ofNat, hvalid]

theorem number_lt (p : CodePoint) : p.number < 0x110000 := by
  cases p with
  | char c =>
    have := toNat_range c
    simp only [number]
    omega
  | surrogate n =>
    simp only [number]
    omega

theorem ofNat_number (p : CodePoint) : ofNat p.number = p := by
  cases p with
  | char c => exact ofNat_toNat c
  | surrogate n =>
    have hhalf : 0xd800 ≤ 0xd800 + n.val ∧ 0xd800 + n.val < 0xe000 := by omega
    simp [ofNat, number, hhalf]

end CodePoint

namespace Numeral

theorem hexLower_succ (width n : Nat) :
    hexLower (width + 2) n = hexLower (width + 1) (n / 16) ++ [Nat.digitChar (n % 16)] := by
  unfold hexLower padZero
  by_cases h : n < 16
  · rw [Nat.toDigits_of_lt_base h, Nat.div_eq_of_lt h, Nat.mod_eq_of_lt h, Nat.toDigits_zero]
    simp only [List.length_singleton, List.replicate_succ', Nat.add_one_sub_one]
  · rw [Nat.toDigits_of_base_le (by decide) (Nat.le_of_not_lt h), ← List.append_assoc]
    simp only [List.length_append, List.length_singleton]
    rw [show width + 2 - ((Nat.toDigits 16 (n / 16)).length + 1) =
      width + 1 - (Nat.toDigits 16 (n / 16)).length by omega]

theorem hexLower_one {n : Nat} (h : n < 16) : hexLower 1 n = [Nat.digitChar n] := by
  simp only [hexLower, padZero, Nat.toDigits_of_lt_base h, List.length_singleton, Nat.sub_self,
    List.replicate_zero, List.nil_append]

theorem exists_hexDigits (width : Nat) {n : Nat} (h : n < 16 ^ (width + 1)) :
    ∃ digits : List Nat, digits.length = width + 1 ∧ (∀ d ∈ digits, d < 16) ∧
      digits.foldl (fun acc d => acc * 16 + d) 0 = n ∧
      hexLower (width + 1) n = digits.map Nat.digitChar := by
  induction width generalizing n with
  | zero =>
    have hn : n < 16 := by simpa using h
    exact ⟨[n], rfl, by simpa using hn, by simp, hexLower_one hn⟩
  | succ width ih =>
    have hlead : n / 16 < 16 ^ (width + 1) := Nat.div_lt_of_lt_mul (by rwa [← Nat.pow_succ'])
    obtain ⟨digits, hlength, hdigits, hvalue, hwritten⟩ := ih hlead
    have hlast : n % 16 < 16 := Nat.mod_lt n (by decide)
    refine ⟨digits ++ [n % 16], by simp [hlength], ?_, ?_, ?_⟩
    · intro d hd
      rcases List.mem_append.mp hd with hd | hd
      · exact hdigits d hd
      · rwa [List.mem_singleton.mp hd]
    · rw [List.foldl_append, hvalue]
      simp only [List.foldl_cons, List.foldl_nil]
      omega
    · rw [hexLower_succ, hwritten, List.map_append]
      rfl

end Numeral
end ClusterRegistrar
