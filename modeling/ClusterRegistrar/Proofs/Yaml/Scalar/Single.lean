import ClusterRegistrar.Proofs.Text.Lines
import ClusterRegistrar.Proofs.Yaml.Scalar.Double
import ClusterRegistrar.Proofs.Yaml.Scalar.Runs

/-! Text in single quotes reads back if spaces and line feeds do not touch in it. A line feed is written
twice, and a single space where a line is folded is read from the line end alone. -/
namespace ClusterRegistrar.Yaml

theorem isInline_of_isOrdinary {c : Char} (h : Style.isOrdinary c = true) (hbreak : c ≠ '\n') :
    IsInline c := by
  simpa [Style.isOrdinary, hbreak, IsInline] using h

namespace Scalar

variable {place : Place} {t : Text} {written : List Char}

theorem doubleQuotes_cons (c : Char) (run : List Char) :
    doubleQuotes (c :: run) = (if c = '\'' then ['\'', '\''] else [c]) ++ doubleQuotes run := rfl

theorem doubleQuotes_spaces (n : Nat) :
    doubleQuotes (List.replicate n ' ') = List.replicate n ' ' := by
  induction n with
  | zero => rfl
  | succ n ih =>
    rw [List.replicate_succ, doubleQuotes_cons, ih]
    rfl

theorem readsQuoted_doubleQuotes {run : List Char} (hrun : ∀ c ∈ run, IsInline c ∧ c ≠ ' ')
    (h : ReadsQuoted false written t) :
    ReadsQuoted false (doubleQuotes run ++ written) (.ofChars run ++ t) := by
  induction run with
  | nil => exact h
  | cons c run ih =>
    obtain ⟨⟨hc, hspace⟩, hmore⟩ := List.forall_mem_cons.mp hrun
    rw [doubleQuotes_cons, List.append_assoc]
    split
    · rename_i hquote
      subst hquote
      exact (ih hmore).quote
    · rename_i hquote
      exact (ih hmore).char hc hspace nofun fun _ => hquote

theorem startsDark_doubleQuotes {run : List Char} (hne : run ≠ [])
    (hrun : ∀ c ∈ run, IsInline c ∧ c ≠ ' ') : StartsDark (doubleQuotes run ++ written) := by
  obtain ⟨c, run, rfl⟩ := List.exists_cons_of_ne_nil hne
  obtain ⟨⟨hc, hspace⟩, -⟩ := List.forall_mem_cons.mp hrun
  rw [doubleQuotes_cons]
  split
  · exact ⟨'\'', _, rfl, by decide, by decide⟩
  · exact ⟨c, _, rfl, hc, hspace⟩

def singleTail (place : Place) (first : Bool) (column : Nat) (runs : List (List Char)) : List Char :=
  singleRuns place first column runs ++ ['\'']

section

variable (place : Place) (first : Bool) (column : Nat) (runs : List (List Char))

theorem singleTail_word {run : List Char} (hne : run ≠ []) (hrun : ∀ c ∈ run, c ≠ ' ' ∧ c ≠ '\n') :
    ∃ next, singleTail place first column (run :: runs) =
      doubleQuotes run ++ singleTail place false next runs := by
  obtain ⟨c, run, rfl⟩ := List.exists_cons_of_ne_nil hne
  obtain ⟨⟨hspace, hbreak⟩, -⟩ := List.forall_mem_cons.mp hrun
  refine ⟨column + (doubleQuotes (c :: run)).length, ?_⟩
  simp [singleTail, singleRuns, hspace, hbreak]

theorem singleTail_spaces (n : Nat) :
    (∃ next, singleTail place first column (List.replicate (n + 1) ' ' :: runs) =
      List.replicate (n + 1) ' ' ++ singleTail place false next runs) ∨
    place.fold = true ∧ n = 0 ∧ singleTail place first column (List.replicate (n + 1) ' ' :: runs) =
      place.freshLine ++ singleTail place false place.indent runs := by
  rw [singleTail, singleRuns]
  split
  · rename_i hfold
    simp only [Bool.and_eq_true, decide_eq_true_eq] at hfold
    have hn : n = 0 := by simpa using congrArg List.length hfold.1.1.1.2
    exact .inr ⟨hfold.1.1.1.1, hn, by rw [singleTail, List.append_assoc]⟩
  · refine .inl ⟨column + (List.replicate (n + 1) ' ').length, ?_⟩
    rw [if_neg (by simp [List.replicate_succ]), doubleQuotes_spaces, singleTail, List.append_assoc]

theorem singleTail_lineFeeds (n : Nat) :
    singleTail place first column (List.replicate (n + 1) '\n' :: runs) =
      '\n' :: (List.replicate (n + 1) '\n' ++ List.replicate place.indent ' ') ++
        singleTail place false place.indent runs := by
  rw [singleTail, singleRuns, if_neg (by simp [List.replicate_succ]),
    if_pos (by simp [List.replicate_succ]), singleTail]
  simp only [List.cons_append, List.append_assoc]

end

/-- Runs in single quotes are read up to the closing one. The induction is on the turns of words and
gaps: behind a gap there is a word or the closing quote, so that the gap ends there. -/
theorem readsQuoted_singleTail {wordFirst : Bool} {runs : List (List Char)} (h : Turns wordFirst runs)
    (hplace : place.HasRoom) (hordinary : ∀ c ∈ runs.flatten, Style.isOrdinary c = true)
    (hbreaks : '\n' ∈ runs.flatten → 0 < place.indent) (first : Bool) (column : Nat) :
    ReadsQuoted false (singleTail place first column runs) (.ofChars runs.flatten) ∧
      (wordFirst = true → StartsDark (singleTail place first column runs)) := by
  induction h generalizing first column with
  | nil => exact ⟨ReadsQuoted.close_single, fun _ => ⟨'\'', [], rfl, by decide, by decide⟩⟩
  | @word run rest hne hrun _ ih =>
    rw [List.flatten_cons] at hordinary hbreaks ⊢
    rw [List.forall_mem_append] at hordinary
    have hinline : ∀ c ∈ run, IsInline c ∧ c ≠ ' ' := fun c hc =>
      ⟨isInline_of_isOrdinary (hordinary.1 c hc) (hrun c hc).2, (hrun c hc).1⟩
    have hrest := ih hordinary.2 fun hmem => hbreaks (List.mem_append_right run hmem)
    obtain ⟨next, hwritten⟩ := singleTail_word place first column rest hne hrun
    rw [hwritten, Text.ofChars_append]
    exact ⟨readsQuoted_doubleQuotes hinline (hrest _ _).1,
      fun _ => startsDark_doubleQuotes hne hinline⟩
  | @spaces n rest _ ih =>
    rw [List.flatten_cons] at hordinary hbreaks ⊢
    rw [List.forall_mem_append] at hordinary
    have hrest := ih hordinary.2 fun hmem => hbreaks (List.mem_append_right _ hmem)
    rw [Text.ofChars_append]
    refine ⟨?_, nofun⟩
    rcases singleTail_spaces place first column rest n with
      ⟨next, hwritten⟩ | ⟨hfold, rfl, hwritten⟩
    · rw [hwritten]
      exact (hrest _ _).1.spaces ((hrest _ _).2 rfl) n
    · rw [hwritten]
      exact (hrest _ _).1.lineFeeds ((hrest _ _).2 rfl) 0 (hplace hfold).1
  | @lineFeeds n rest _ ih =>
    rw [List.flatten_cons] at hordinary hbreaks ⊢
    rw [List.forall_mem_append] at hordinary
    have hindent : 0 < place.indent := hbreaks (by simp [List.replicate_succ])
    have hrest := ih hordinary.2 fun _ => hindent
    rw [Text.ofChars_append, singleTail_lineFeeds]
    exact ⟨(hrest _ _).1.lineFeeds ((hrest _ _).2 rfl) (n + 1) hindent, nofun⟩

theorem exists_single {cs : List Char} (hplace : place.HasRoom) (hsingle : Style.canBeSingle cs = true)
    (hbreaks : '\n' ∈ cs → 0 < place.indent) (column : Nat) :
    ∃ written, single place column cs = '\'' :: written ∧ ReadsQuoted false written (.ofChars cs) := by
  rw [Style.canBeSingle, Bool.and_eq_true, List.all_eq_true, Bool.not_eq_true'] at hsingle
  obtain ⟨wordFirst, hturns, -⟩ := exists_turns hsingle.2
  refine ⟨_, rfl, ?_⟩
  have hread := (readsQuoted_singleTail hturns hplace (by rw [flatten_runs]; exact hsingle.1)
    (by rwa [flatten_runs]) true (column + 1)).1
  rwa [flatten_runs] at hread

end Scalar
end ClusterRegistrar.Yaml
