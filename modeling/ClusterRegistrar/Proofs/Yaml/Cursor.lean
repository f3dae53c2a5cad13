import ClusterRegistrar.Yaml.Cursor
import Mathlib.Data.List.Basic

/-! How a cursor moves over text that a writer makes: printable characters of ASCII, and line feeds
with an indentation behind them. -/
namespace ClusterRegistrar.Yaml

def IsInline (c : Char) : Prop := ' ' ≤ c ∧ c ≤ '~'

instance (c : Char) : Decidable (IsInline c) := inferInstanceAs (Decidable (_ ∧ _))

theorem isInline_iff {c : Char} : IsInline c ↔ 32 ≤ c.toNat ∧ c.toNat ≤ 126 := by
  simp only [IsInline, Char.le_def, UInt32.le_iff_toNat_le]
  rfl

namespace IsInline

variable {c : Char} (h : IsInline c)

include h

theorem ne_of_not {d : Char} (hd : ¬IsInline d) : c ≠ d := fun heq => hd (heq ▸ h)

theorem isBreak : isBreak c = false := by
  simp [Yaml.isBreak, h.ne_of_not (show ¬IsInline '\n' by decide),
    h.ne_of_not (show ¬IsInline '\r' by decide), h.ne_of_not (show ¬IsInline '\x85' by decide),
    h.ne_of_not (show ¬IsInline '\u2028' by decide), h.ne_of_not (show ¬IsInline '\u2029' by decide)]

theorem isSpaceOrTab : isSpaceOrTab c = decide (c = ' ') := by
  simp [Yaml.isSpaceOrTab, h.ne_of_not (show ¬IsInline '\t' by decide)]

theorem isPrintable : isPrintable c = true := by
  have hrange := isInline_iff.mp h
  simp [Yaml.isPrintable, hrange.1, hrange.2]

end IsInline

/-- Where a token starts or the text ends: no blank, no comment and no line end. -/
def AtContent (cs : List Char) : Prop := ∀ c, cs.head? = some c → IsInline c ∧ c ≠ ' ' ∧ c ≠ '#'

theorem AtContent.nil : AtContent [] := nofun

theorem AtContent.cons {c : Char} (h : IsInline c) (hspace : c ≠ ' ') (hcomment : c ≠ '#')
    (rest : List Char) : AtContent (c :: rest) := by
  rintro _ ⟨⟩
  exact ⟨h, hspace, hcomment⟩

def NoBreak (cs : List Char) : Prop := ∀ c, cs.head? = some c → isBreak c = false

theorem AtContent.noBreak {cs : List Char} (h : AtContent cs) : NoBreak cs :=
  fun c hc => (h c hc).1.isBreak

theorem atMark_cons_of_ne {mark c : Char} (h : c ≠ mark) (rest : List Char) :
    atMark mark (c :: rest) = false := by
  obtain _ | ⟨b, _ | ⟨d, rest⟩⟩ := rest <;> simp [atMark, h]

theorem atDocumentMark_cons {c : Char} (hdash : c ≠ '-') (hdot : c ≠ '.') (rest : List Char) :
    atDocumentMark (c :: rest) = false := by
  rw [atDocumentMark, atMark_cons_of_ne hdash, atMark_cons_of_ne hdot]
  rfl

theorem takeWhile_of_append {test : Char → Bool} {cs rest : List Char}
    (hcs : ∀ c ∈ cs, test c = true) (hrest : ∀ c, rest.head? = some c → test c = false) :
    (cs ++ rest).takeWhile test = cs := by
  rw [List.takeWhile_append_of_pos hcs]
  cases rest with
  | nil => simp
  | cons c rest => rw [List.takeWhile_cons_of_neg (by simp [hrest c rfl]), List.append_nil]

namespace Cursor

variable {c : Cursor}

/-! ### Any text -/

theorem rest_next (c : Cursor) : c.next.rest = c.rest.tail := by
  unfold next
  split
  · rename_i h
    rw [h]
    rfl
  · rename_i h
    rw [h]
    split
    · rfl
    · split <;> rfl

theorem line_le_next (c : Cursor) : c.line ≤ c.next.line := by
  unfold next
  split
  · exact Nat.le_refl _
  · split
    · exact Nat.le_succ _
    · split <;> exact Nat.le_refl _

theorem rest_skip (n : Nat) (c : Cursor) : (c.skip n).rest = c.rest.drop n := by
  induction n generalizing c with
  | zero => rfl
  | succ n ih => rw [skip, ih, rest_next, List.drop_tail]

theorem line_le_skip (n : Nat) (c : Cursor) : c.line ≤ (c.skip n).line := by
  induction n generalizing c with
  | zero => exact Nat.le_refl _
  | succ n ih => exact Nat.le_trans (line_le_next c) (ih c.next)

theorem skip_skip (m n : Nat) (c : Cursor) : (c.skip m).skip n = c.skip (m + n) := by
  induction m generalizing c with
  | zero => rw [Nat.zero_add]; rfl
  | succ m ih => rw [Nat.add_right_comm]; exact ih c.next

theorem rest_skip_of_append {cs rest : List Char} (h : c.rest = cs ++ rest) :
    (c.skip cs.length).rest = rest := by
  rw [rest_skip, h, List.drop_left]

/-! ### Within a line -/

theorem next_inline {ch : Char} {rest : List Char} (h : c.rest = ch :: rest) (hch : IsInline ch) :
    c.next = ⟨rest, c.index + 1, c.line, c.column + 1⟩ := by
  rw [next, h]
  simp [hch.isBreak, hch.ne_of_not (show ¬IsInline '\ufeff' by decide)]

theorem skip_inline {cs rest : List Char} (h : c.rest = cs ++ rest) (hcs : ∀ ch ∈ cs, IsInline ch) :
    c.skip cs.length = ⟨rest, c.index + cs.length, c.line, c.column + cs.length⟩ := by
  induction cs generalizing c with
  | nil =>
    rw [List.nil_append] at h
    rw [← h]
    rfl
  | cons ch cs ih =>
    obtain ⟨hch, hcs⟩ := List.forall_mem_cons.mp hcs
    have hnext := next_inline h hch
    have hrest : c.next.rest = cs ++ rest := by rw [hnext]; rfl
    rw [List.length_cons, skip, ih hrest hcs, hnext]
    simp only [Cursor.mk.injEq, true_and]
    omega

theorem takeBreak?_of_noBreak (h : NoBreak c.rest) : c.takeBreak? = none := by
  unfold takeBreak?
  split
  · rename_i hrest
    have hbreak := h '\r' (by rw [hrest]; rfl)
    simp [isBreak] at hbreak
  · rename_i ch rest _ hrest
    have hbreak := h ch (by rw [hrest]; rfl)
    have hseparator : ¬(ch = '\u2028' ∨ ch = '\u2029') := by
      rintro (rfl | rfl) <;> simp [isBreak] at hbreak
    rw [if_neg hseparator, hbreak]
    rfl
  · rfl

theorem skipWhile_of_append {test : Char → Bool} {cs rest : List Char} (h : c.rest = cs ++ rest)
    (hcs : ∀ ch ∈ cs, test ch = true) (hrest : ∀ ch, rest.head? = some ch → test ch = false) :
    c.skipWhile test = c.skip cs.length := by
  rw [skipWhile, h, takeWhile_of_append hcs hrest]

/-! ### Across lines -/

theorem next_lineFeed {rest : List Char} (h : c.rest = '\n' :: rest) :
    c.next = ⟨rest, c.index + 1, c.line + 1, 0⟩ := by
  rw [next, h]
  simp [isBreak]

theorem takeBreak?_lineFeed {rest : List Char} (h : c.rest = '\n' :: rest) :
    c.takeBreak? = some ('\n', c.next) := by
  rw [takeBreak?, h]
  simp [isBreak]

theorem skip_freshLine {n : Nat} {rest : List Char}
    (h : c.rest = '\n' :: List.replicate n ' ' ++ rest) :
    c.skip (n + 1) = ⟨rest, c.index + n + 1, c.line + 1, n⟩ := by
  have hnext := next_lineFeed h
  have hrest : c.next.rest = List.replicate n ' ' ++ rest := by rw [hnext]; rfl
  have hspaces : ∀ ch ∈ List.replicate n ' ', IsInline ch := by
    intro ch hch
    rw [List.eq_of_mem_replicate hch]
    decide
  have hskip := skip_inline hrest hspaces
  rw [List.length_replicate] at hskip
  rw [skip, hskip, hnext]
  simp only [Cursor.mk.injEq, true_and]
  omega

end Cursor
end ClusterRegistrar.Yaml
