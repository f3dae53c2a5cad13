import ClusterRegistrar.Proofs.Run
import ClusterRegistrar.Value.Encoded

/-! Base64 that is written is read back, whatever number of bytes the last group has. A byte is read from
two neighbouring digits, and what is left over of the second one starts the next byte. -/
namespace ClusterRegistrar.Base64

/-! ### Digits -/

theorem value?_digit {n : Nat} (h : n < 64) : value? (digit n) = some n :=
  (by decide : ∀ n < 64, value? (digit n) = some n) n h

theorem digit_toNat_lt {n : Nat} (h : n < 64) : (digit n).toNat < 128 :=
  (by decide : ∀ n < 64, (digit n).toNat < 128) n h

theorem digit_ne_pad {n : Nat} (h : n < 64) : digit n ≠ '=' := by
  intro hpad
  have hvalue := value?_digit h
  rw [hpad] at hvalue
  cases hvalue

theorem readFrom_digit (strict : Bool) (place left count : Nat) {n : Nat} (h : n < 64)
    (rest : List Char) :
    readFrom strict ⟨place, left, 0, false, count⟩ (digit n :: rest) = do
      let (next, byte?) := Progress.push ⟨place, left, 0, false, count⟩ n
      let bytes ← readFrom strict next rest
      return byte?.toList ++ bytes := by
  rw [readFrom, if_neg (digit_ne_pad h), value?_digit h]
  simp

/-! ### Bytes -/

private theorem ofNat_of_eq {n : Nat} {b : UInt8} (h : n = b.toNat) : UInt8.ofNat n = b := by
  rw [h, UInt8.ofNat_toNat]

variable (strict : Bool) (count : Nat)

theorem readFrom_first (a : UInt8) {left : Nat} (h : left < 16) (rest : List Char) :
    readFrom strict ⟨0, 0, 0, false, count⟩
        (digit (a.toNat / 4) :: digit (a.toNat % 4 * 16 + left) :: rest) =
      List.cons a <$> readFrom strict ⟨2, left, 0, false, count + 1⟩ rest := by
  have ha := a.toNat_lt
  rw [readFrom_digit strict 0 0 count (by omega)]
  simp only [Progress.push]
  rw [readFrom_digit strict 1 _ count (by omega)]
  have hbyte : UInt8.ofNat (a.toNat / 4 * 4 + (a.toNat % 4 * 16 + left) / 16) = a :=
    ofNat_of_eq (by omega)
  have hleft : (a.toNat % 4 * 16 + left) % 16 = left := by omega
  simp only [Progress.push, hbyte, hleft]
  cases readFrom strict ⟨2, left, 0, false, count + 1⟩ rest <;> rfl

theorem readFrom_second (b : UInt8) {left : Nat} (h : left < 4) (rest : List Char) :
    readFrom strict ⟨2, b.toNat / 16, 0, false, count⟩ (digit (b.toNat % 16 * 4 + left) :: rest) =
      List.cons b <$> readFrom strict ⟨3, left, 0, false, count + 1⟩ rest := by
  have hb := b.toNat_lt
  rw [readFrom_digit strict 2 _ count (by omega)]
  have hbyte : UInt8.ofNat (b.toNat / 16 * 16 + (b.toNat % 16 * 4 + left) / 4) = b :=
    ofNat_of_eq (by omega)
  have hleft : (b.toNat % 16 * 4 + left) % 4 = left := by omega
  simp only [Progress.push, hbyte, hleft]
  cases readFrom strict ⟨3, left, 0, false, count + 1⟩ rest <;> rfl

theorem readFrom_third (c : UInt8) (rest : List Char) :
    readFrom strict ⟨3, c.toNat / 64, 0, false, count⟩ (digit (c.toNat % 64) :: rest) =
      List.cons c <$> readFrom strict ⟨0, 0, 0, false, count + 1⟩ rest := by
  have hc := c.toNat_lt
  rw [readFrom_digit strict 3 _ count (by omega)]
  have hbyte : UInt8.ofNat (c.toNat / 64 * 64 + c.toNat % 64) = c := ofNat_of_eq (by omega)
  simp only [Progress.push, hbyte]
  cases readFrom strict ⟨0, 0, 0, false, count + 1⟩ rest <;> rfl

/-! ### Groups -/

theorem readFrom_encode (bytes : List UInt8) :
    readFrom strict ⟨0, 0, 0, false, count⟩ (encode bytes) = .ok bytes := by
  induction bytes using encode.induct generalizing count with
  | case1 => rfl
  | case2 a =>
    have hfirst := readFrom_first strict count a (show 0 < 16 by decide) ['=', '=']
    simp only [Nat.add_zero] at hfirst
    rw [encode, hfirst]
    cases strict <;> rfl
  | case3 a b =>
    have hb := b.toNat_lt
    rw [encode, readFrom_first strict count a (by omega)]
    have hsecond := readFrom_second strict (count + 1) b (show 0 < 4 by decide) ['=']
    simp only [Nat.add_zero] at hsecond
    rw [hsecond]
    cases strict <;> rfl
  | case4 a b c rest ih =>
    have hb := b.toNat_lt
    have hc := c.toNat_lt
    rw [encode, readFrom_first strict count a (by omega), readFrom_second strict _ b (by omega),
      readFrom_third, ih]
    rfl

theorem decode_eq_readFrom {cs : List Char} (h : cs.head? ≠ some '=') :
    decode cs = readFrom true start cs := by
  unfold decode
  split
  · exact absurd rfl h
  · rfl

theorem head?_encode_ne_pad (bytes : List UInt8) : (encode bytes).head? ≠ some '=' := by
  have hdigit (a : UInt8) : some (digit (a.toNat / 4)) ≠ some '=' := by
    have := a.toNat_lt
    exact fun h => digit_ne_pad (by omega) (Option.some.inj h)
  cases bytes using encode.fun_cases with
  | case1 => exact nofun
  | _ => exact hdigit _

theorem decode_encode (bytes : List UInt8) : decode (encode bytes) = .ok bytes := by
  rw [decode_eq_readFrom (head?_encode_ne_pad bytes)]
  exact readFrom_encode true 0 bytes

theorem mem_encode {bytes : List UInt8} {c : Char} (h : c ∈ encode bytes) :
    c = '=' ∨ ∃ n < 64, c = digit n := by
  induction bytes using encode.induct with
  | case1 => cases h
  | case2 a =>
    have := a.toNat_lt
    simp only [encode, List.mem_cons, List.not_mem_nil, or_false] at h
    rcases h with rfl | rfl | rfl | rfl
    · exact .inr ⟨_, by omega, rfl⟩
    · exact .inr ⟨_, by omega, rfl⟩
    · exact .inl rfl
    · exact .inl rfl
  | case3 a b =>
    have := a.toNat_lt
    have := b.toNat_lt
    simp only [encode, List.mem_cons, List.not_mem_nil, or_false] at h
    rcases h with rfl | rfl | rfl | rfl
    · exact .inr ⟨_, by omega, rfl⟩
    · exact .inr ⟨_, by omega, rfl⟩
    · exact .inr ⟨_, by omega, rfl⟩
    · exact .inl rfl
  | case4 a b c rest ih =>
    have := a.toNat_lt
    have := b.toNat_lt
    have := c.toNat_lt
    simp only [encode, List.mem_cons] at h
    rcases h with rfl | rfl | rfl | rfl | h
    · exact .inr ⟨_, by omega, rfl⟩
    · exact .inr ⟨_, by omega, rfl⟩
    · exact .inr ⟨_, by omega, rfl⟩
    · exact .inr ⟨_, by omega, rfl⟩
    · exact ih h

end ClusterRegistrar.Base64
