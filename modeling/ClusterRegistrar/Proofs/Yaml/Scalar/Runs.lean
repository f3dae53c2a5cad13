import ClusterRegistrar.Yaml.Writer.Scalar
import Mathlib.Data.List.SplitBy

/-! The runs that a text is written in. Where spaces and line feeds do not touch, words and gaps take
turns: every second run is a word, and the others are spaces alone or line feeds alone. -/
namespace ClusterRegistrar.Yaml.Scalar

/-- Runs of which every second one is a word; `wordFirst` says whether the first one is. -/
inductive Turns : (wordFirst : Bool) → List (List Char) → Prop where
  | nil (wordFirst : Bool) : Turns wordFirst []
  | word {run : List Char} {rest : List (List Char)} (hne : run ≠ [])
    (hrun : ∀ c ∈ run, c ≠ ' ' ∧ c ≠ '\n') (h : Turns false rest) : Turns true (run :: rest)
  | spaces (n : Nat) {rest : List (List Char)} (h : Turns true rest) :
    Turns false (List.replicate (n + 1) ' ' :: rest)
  | lineFeeds (n : Nat) {rest : List (List Char)} (h : Turns true rest) :
    Turns false (List.replicate (n + 1) '\n' :: rest)

theorem runKind_eq_zero {c : Char} : runKind c = 0 ↔ c = ' ' := by
  unfold runKind
  split
  · simpa
  · split <;> simpa

theorem runKind_lt (c : Char) : runKind c < 3 := by
  unfold runKind
  split
  · decide
  · split <;> decide

theorem runKind_eq_one {c : Char} : runKind c = 1 ↔ c = '\n' := by
  unfold runKind
  split
  · rename_i h
    simp [h]
  · split <;> simpa

theorem runKind_eq_two {c : Char} : runKind c = 2 ↔ c ≠ ' ' ∧ c ≠ '\n' := by
  unfold runKind
  split
  · rename_i h
    simp [h]
  · split <;> simp [*]

theorem flatten_runs (cs : List Char) : (runs cs).flatten = cs := List.flatten_splitBy _ cs

/-! ### Neighbours -/

open Style (mixesSpaceAndBreak)

theorem mixesSpaceAndBreak_of_cons {a : Char} {cs : List Char}
    (h : mixesSpaceAndBreak (a :: cs) = false) : mixesSpaceAndBreak cs = false := by
  cases cs with
  | nil => rfl
  | cons b rest =>
    rw [mixesSpaceAndBreak, Bool.or_eq_false_iff] at h
    exact h.2

theorem apart_of_not_mixes {before after : List Char} {a b : Char}
    (h : mixesSpaceAndBreak (before ++ a :: b :: after) = false) :
    ¬(a = ' ' ∧ b = '\n') ∧ ¬(a = '\n' ∧ b = ' ') := by
  induction before with
  | nil =>
    simp only [List.nil_append, mixesSpaceAndBreak, Bool.or_eq_false_iff, Bool.and_eq_false_iff,
      decide_eq_false_iff_not] at h
    refine ⟨fun hab => ?_, fun hab => ?_⟩
    · exact h.1.1.elim (· hab.1) (· hab.2)
    · exact h.1.2.elim (· hab.1) (· hab.2)
  | cons c before ih => exact ih (mixesSpaceAndBreak_of_cons h)

theorem mixesSpaceAndBreak_of_append {before after : List Char}
    (h : mixesSpaceAndBreak (before ++ after) = false) : mixesSpaceAndBreak after = false := by
  induction before with
  | nil => exact h
  | cons c before ih => exact ih (mixesSpaceAndBreak_of_cons h)

/-! ### Runs of one kind -/

private theorem kind_of_chain {c : Char} {run : List Char}
    (h : (c :: run).IsChain fun a b => decide (runKind a = runKind b) = true) :
    ∀ d ∈ c :: run, runKind d = runKind c := by
  induction run generalizing c with
  | nil => simp
  | cons d run ih =>
    rw [List.isChain_cons_cons] at h
    obtain ⟨hfirst, hrest⟩ := h
    refine List.forall_mem_cons.mpr ⟨rfl, fun e he => ?_⟩
    rw [ih hrest e he, of_decide_eq_true hfirst]

private theorem turns_cons {c : Char} {run : List Char} {rest : List (List Char)}
    (hkind : ∀ d ∈ c :: run, runKind d = runKind c) (hrest : Turns (decide (runKind c ≠ 2)) rest) :
    Turns (decide (runKind c = 2)) ((c :: run) :: rest) := by
  have hall (a : Char) (ha : runKind c = runKind a) (huniform : ∀ d, runKind d = runKind a → d = a) :
      c :: run = List.replicate (run.length + 1) a :=
    List.eq_replicate_iff.mpr ⟨rfl, fun d hd => huniform d ((hkind d hd).trans ha)⟩
  by_cases hword : runKind c = 2
  · rw [decide_eq_true hword]
    rw [decide_eq_false (not_not.mpr hword)] at hrest
    exact .word (List.cons_ne_nil _ _) (fun d hd => runKind_eq_two.mp ((hkind d hd).trans hword)) hrest
  · rw [decide_eq_false hword]
    rw [decide_eq_true hword] at hrest
    by_cases hspace : runKind c = 0
    · rw [hall ' ' hspace fun d => runKind_eq_zero.mp]
      exact .spaces run.length hrest
    · have hbreak : runKind c = 1 := by
        have := runKind_lt c
        omega
      rw [hall '\n' hbreak fun d => runKind_eq_one.mp]
      exact .lineFeeds run.length hrest

private theorem word_next_iff {c e : Char} {run after : List Char}
    (hkind : ∀ d ∈ c :: run, runKind d = runKind c)
    (hapart : decide (runKind ((c :: run).getLast (List.cons_ne_nil c run)) = runKind e) = false)
    (hmix : mixesSpaceAndBreak (c :: run ++ e :: after) = false) : runKind e = 2 ↔ runKind c ≠ 2 := by
  have hlast := hkind _ (List.getLast_mem (List.cons_ne_nil c run))
  have hsplit : (c :: run).dropLast ++ (c :: run).getLast (List.cons_ne_nil c run) :: e :: after =
      c :: run ++ e :: after := by
    rw [List.append_cons, List.dropLast_append_getLast]
  obtain ⟨hspace, hbreak⟩ := apart_of_not_mixes (hsplit ▸ hmix)
  rw [← runKind_eq_zero, ← runKind_eq_one, hlast] at hspace hbreak
  have hdiffer := of_decide_eq_false hapart
  rw [hlast] at hdiffer
  have := runKind_lt c
  have := runKind_lt e
  omega

private theorem turns_of_chain {l : List (List Char)} (hne : [] ∉ l)
    (hrun : ∀ run ∈ l, run.IsChain fun a b => decide (runKind a = runKind b) = true)
    (hapart : l.IsChain fun run next => ∃ ha hb,
      decide (runKind (run.getLast ha) = runKind (next.head hb)) = false)
    (hmix : mixesSpaceAndBreak l.flatten = false) :
    ∃ wordFirst, Turns wordFirst l ∧
      ∀ c, l.flatten.head? = some c → (wordFirst = true ↔ runKind c = 2) := by
  induction l with
  | nil => exact ⟨true, .nil true, nofun⟩
  | cons run rest ih =>
    rw [List.mem_cons, not_or] at hne
    obtain ⟨hrun, hruns⟩ := List.forall_mem_cons.mp hrun
    rw [List.isChain_cons] at hapart
    rw [List.flatten_cons] at hmix
    obtain ⟨c, run, rfl⟩ := List.exists_cons_of_ne_nil (Ne.symm hne.1)
    have hkind := kind_of_chain hrun
    obtain ⟨wordFirst, hturns, hhead⟩ :=
      ih hne.2 hruns hapart.2 (mixesSpaceAndBreak_of_append hmix)
    refine ⟨decide (runKind c = 2), turns_cons hkind ?_, fun d hd => by cases hd; simp⟩
    cases rest with
    | nil => exact .nil _
    | cons next more =>
      obtain ⟨e, next, rfl⟩ := List.exists_cons_of_ne_nil
        (fun heq => hne.2 (heq ▸ List.mem_cons_self))
      obtain ⟨_, _, hother⟩ := hapart.1 _ rfl
      have hword : runKind e = 2 ↔ runKind c ≠ 2 := word_next_iff hkind hother hmix
      have hsame : wordFirst = decide (runKind c ≠ 2) := by
        rw [Bool.eq_iff_iff, hhead e rfl, hword, decide_eq_true_iff]
      exact hsame ▸ hturns

theorem exists_turns {cs : List Char} (h : mixesSpaceAndBreak cs = false) :
    ∃ wordFirst, Turns wordFirst (runs cs) ∧
      ∀ c, cs.head? = some c → (wordFirst = true ↔ runKind c = 2) := by
  have hturns := turns_of_chain (List.nil_notMem_splitBy _ cs)
    (fun run hrun => List.isChain_of_mem_splitBy hrun)
    (List.isChain_getLast_head_splitBy (fun a b => decide (runKind a = runKind b)) cs)
    (by rwa [List.flatten_splitBy])
  rwa [List.flatten_splitBy] at hturns

end ClusterRegistrar.Yaml.Scalar
