import ClusterRegistrar.Text.Lines

/-! Text that is cut into lines. No line holds a line feed, and the lines between line feeds are the
text again. -/
namespace ClusterRegistrar

namespace Text

@[simp] theorem ofChars_append (cs ds : List Char) :
    ofChars (cs ++ ds) = ofChars cs ++ ofChars ds := List.map_append

theorem split_eq_splitOn (separator : CodePoint) (t : Text) :
    t.split separator = t.splitOn separator := by
  induction t with
  | nil => rfl
  | cons p rest ih =>
    rw [split, ih, List.splitOn_eq_splitOnP, List.splitOn_eq_splitOnP, List.splitOnP_cons_eq_if_modifyHead]
    simp only [beq_iff_eq]
    split
    · rfl
    · cases hrest : rest.splitOnP (· == separator) with
      | nil => exact absurd hrest (List.splitOnP_ne_nil _ _)
      | cons part parts => rfl

theorem separated_split (separator : CodePoint) (t : Text) :
    separated [separator] (t.split separator) = t := by
  rw [separated, split_eq_splitOn]
  exact List.intercalate_splitOn separator

theorem not_mem_of_mem_split {separator : CodePoint} {t part : Text}
    (h : part ∈ t.split separator) : separator ∉ part := by
  induction t generalizing part with
  | nil =>
    rw [List.mem_singleton.mp h]
    exact List.not_mem_nil
  | cons p rest ih =>
    rw [split] at h
    split at h
    · rcases List.mem_cons.mp h with rfl | h
      · exact List.not_mem_nil
      · exact ih h
    · rename_i hp
      split at h
      · rename_i hrest
        exact absurd hrest (split_ne_nil separator rest)
      · rename_i first parts hrest
        rw [hrest] at ih
        rcases List.mem_cons.mp h with rfl | h
        · exact fun hmem => (List.mem_cons.mp hmem).elim (fun heq => hp heq.symm)
            (ih List.mem_cons_self)
        · exact ih (List.mem_cons_of_mem first h)

end Text

namespace Lines

theorem join_eq_separated {lines : List Text} (h : lines ≠ []) :
    join lines = Text.separated [lineFeed] lines ++ [lineFeed] := by
  induction lines with
  | nil => exact absurd rfl h
  | cons line rest ih =>
    cases rest with
    | nil => simp [join, Text.separated]
    | cons next rest =>
      have hrest := ih (List.cons_ne_nil next rest)
      simp only [join, Text.separated, List.flatMap_cons, List.append_assoc] at hrest ⊢
      rw [hrest]
      simp [List.intercalate]

theorem join_split (t : Text) : join (split t) = t ++ [lineFeed] := by
  rw [split, join_eq_separated (Text.split_ne_nil _ t), Text.separated_split]

theorem dropFinalBreaks_append {t : Text} (h : t.getLast? ≠ some lineFeed) :
    dropFinalBreaks (t ++ [lineFeed]) = t := by
  rw [dropFinalBreaks, List.reverse_append, List.reverse_singleton, List.singleton_append,
    List.dropWhile_cons_of_pos (by simp)]
  cases hreverse : t.reverse with
  | nil => simpa using hreverse.symm
  | cons p rest =>
    have hp : p ≠ lineFeed := by
      intro heq
      rw [← List.head?_reverse, hreverse, heq] at h
      exact h rfl
    rw [List.dropWhile_cons_of_neg (by simpa using hp), ← hreverse, List.reverse_reverse]

end Lines
end ClusterRegistrar
