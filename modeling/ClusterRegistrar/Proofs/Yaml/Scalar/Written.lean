import ClusterRegistrar.Proofs.Text
import ClusterRegistrar.Proofs.Yaml.Scalar.Plain

/-! The written text of any text: which of the three styles it has, and which characters it is made of. -/
namespace ClusterRegistrar

theorem Text.toChars_ofChars (cs : List Char) : (ofChars cs).toChars = cs := by
  rw [toChars, ofChars, List.map_map]
  exact List.map_id _

namespace Yaml.Scalar

/-! ### Styles -/

inductive HasStyle : Text → Style → Prop where
  | plain {cs : List Char} (h : Style.canBePlain cs = true) (hne : cs ≠ [])
    (htag : Tag.ofForm (.ofChars cs) = .str) : HasStyle (.ofChars cs) .plain
  | single {cs : List Char} (h : Style.canBeSingle cs = true) : HasStyle (.ofChars cs) .single
  | double (t : Text) : HasStyle t .double

theorem hasStyle (t : Text) : HasStyle t (Style.ofText t) := by
  unfold Style.ofText
  split
  · exact .double t
  · rename_i cs hcs
    obtain rfl := Text.chars?_eq_some.mp hcs
    split
    · rename_i h
      rw [Bool.and_eq_true, decide_eq_true_eq] at h
      refine .plain h.2 ?_ ?_
      · rintro rfl
        exact absurd h.1 (by decide)
      · rw [Tag.ofForm, Text.chars?_ofChars]
        exact h.1
    · split
      · rename_i h
        exact .single h
      · exact .double _

section

variable {t : Text} (place : Place) (column : Nat)

theorem ofText_of_plain (h : Style.ofText t = .plain) :
    ofText place column t = plain place column t.toChars := by
  rw [ofText, h]

theorem ofText_of_single (h : Style.ofText t = .single) :
    ofText place column t = single place column t.toChars := by
  rw [ofText, h]

theorem ofText_of_double (h : Style.ofText t = .double) :
    ofText place column t = double place column t := by
  rw [ofText, h]

end

/-! ### Characters -/

section

variable {P : Char → Prop} {place : Place} {runs : List (List Char)}

theorem forall_mem_freshLine (hspace : P ' ') (hbreak : P '\n') : ∀ c ∈ place.freshLine, P c := by
  rw [Place.freshLine, List.forall_mem_cons]
  refine ⟨hbreak, fun c hc => ?_⟩
  rwa [List.eq_of_mem_replicate hc]

theorem forall_mem_plainRuns (hspace : P ' ') (hbreak : place.fold = true → P '\n')
    (hruns : ∀ c ∈ runs.flatten, P c) (column : Nat) : ∀ c ∈ plainRuns place column runs, P c := by
  induction runs generalizing column with
  | nil => exact nofun
  | cons run rest ih =>
    rw [List.flatten_cons, List.forall_mem_append] at hruns
    rw [plainRuns]
    split
    · rename_i hfold
      simp only [Bool.and_eq_true] at hfold
      exact List.forall_mem_append.mpr
        ⟨forall_mem_freshLine hspace (hbreak hfold.1.1), ih hruns.2 _⟩
    · exact List.forall_mem_append.mpr ⟨hruns.1, ih hruns.2 _⟩

theorem forall_mem_doubleQuotes {run : List Char} (hrun : ∀ c ∈ run, P c) :
    ∀ c ∈ doubleQuotes run, P c := by
  induction run with
  | nil => exact nofun
  | cons c run ih =>
    obtain ⟨hc, hrun⟩ := List.forall_mem_cons.mp hrun
    rw [doubleQuotes_cons, List.forall_mem_append]
    refine ⟨?_, ih hrun⟩
    split
    · rename_i hquote
      simpa [hquote] using hc
    · simpa using hc

theorem forall_mem_singleRuns (hspace : P ' ') (hbreak : place.fold = true → P '\n')
    (hruns : ∀ c ∈ runs.flatten, P c) (first : Bool) (column : Nat) :
    ∀ c ∈ singleRuns place first column runs, P c := by
  induction runs generalizing first column with
  | nil => exact nofun
  | cons run rest ih =>
    rw [List.flatten_cons, List.forall_mem_append] at hruns
    rw [singleRuns]
    split
    · rename_i hfold
      simp only [Bool.and_eq_true] at hfold
      exact List.forall_mem_append.mpr
        ⟨forall_mem_freshLine hspace (hbreak hfold.1.1.1.1), ih hruns.2 _ _⟩
    · split
      · rename_i hhead
        have hfirst : P '\n' := hruns.1 '\n' (List.mem_of_mem_head? hhead)
        simp only [List.forall_mem_append, List.forall_mem_cons]
        refine ⟨⟨⟨hfirst, hruns.1⟩, fun c hc => ?_⟩, ih hruns.2 _ _⟩
        rwa [List.eq_of_mem_replicate hc]
      · exact List.forall_mem_append.mpr ⟨forall_mem_doubleQuotes hruns.1, ih hruns.2 _ _⟩

end

theorem forall_mem_doubleTail {P : Char → Prop} (hinline : ∀ c, IsInline c → P c) {place : Place}
    (hbreak : place.fold = true → P '\n') (t : Text) (first afterEscape : Bool) (column : Nat) :
    ∀ c ∈ doubleTail place first afterEscape column t, P c := by
  have hspace : P ' ' := hinline ' ' (by decide)
  have hfolded (h : place.fold = true) (beforeSpace : Bool) :
      ∀ c ∈ foldDouble place beforeSpace, P c := by
    have hback : P '\\' := hinline '\\' (by decide)
    rw [foldDouble, List.forall_mem_append, List.forall_mem_cons]
    refine ⟨⟨hback, forall_mem_freshLine hspace (hbreak h)⟩, ?_⟩
    split
    · simpa using hback
    · exact nofun
  induction t generalizing first afterEscape column with
  | nil => simpa [doubleTail, doubleInner] using hinline '"' (by decide)
  | cons p t ih =>
    cases hescape : escape? p with
    | some e =>
      have he : ∀ c ∈ e, P c := fun c hc => hinline c (isInline_of_escape? hescape c hc)
      rw [doubleTail_escaped hescape]
      split
      · rename_i hfold
        simp only [Bool.and_eq_true] at hfold
        simp only [List.forall_mem_append]
        exact ⟨he, hfolded hfold.1.1.1 _, ih _ _ _⟩
      · exact List.forall_mem_append.mpr ⟨he, ih _ _ _⟩
    | none =>
      obtain ⟨ch, rfl, hch, -, -⟩ := exists_of_escape?_none hescape
      rw [doubleTail_plain hescape]
      split
      · rename_i hfold
        simp only [Bool.and_eq_true] at hfold
        simp only [List.forall_mem_append, List.forall_mem_cons]
        exact ⟨hfolded hfold.1.1.1.1 _, hinline ch hch, ih _ _ _⟩
      · exact List.forall_mem_cons.mpr ⟨hinline ch hch, ih _ _ _⟩

theorem forall_mem_ofText {P : Char → Prop} (hinline : ∀ c, IsInline c → P c) {place : Place}
    (hfold : place.fold = true → P '\n') {t : Text} (hbreak : '\n' ∈ t.toChars → P '\n') (column : Nat) :
    ∀ c ∈ ofText place column t, P c := by
  have hspace : P ' ' := hinline ' ' (by decide)
  obtain ⟨style, hstyle, hform⟩ : ∃ style, Style.ofText t = style ∧ HasStyle t style :=
    ⟨_, rfl, hasStyle t⟩
  cases hform with
  | @plain cs h =>
    have hinlineCs := (keepsGoing_of_canBePlain h).inline
    rw [ofText_of_plain place column hstyle, Text.toChars_ofChars]
    refine forall_mem_plainRuns hspace hfold (fun c hc => ?_) column
    rw [flatten_runs] at hc
    exact hinline c (hinlineCs c hc)
  | @single cs h =>
    rw [Style.canBeSingle, Bool.and_eq_true, List.all_eq_true] at h
    rw [Text.toChars_ofChars] at hbreak
    have hcs : ∀ c ∈ cs, P c := by
      intro c hc
      by_cases hline : c = '\n'
      · exact hline ▸ hbreak (hline ▸ hc)
      · exact hinline c (isInline_of_isOrdinary (h.1 c hc) hline)
    have hquote : P '\'' := hinline '\'' (by decide)
    have hinner := forall_mem_singleRuns hspace hfold (by rwa [flatten_runs]) true (column + 1)
    rw [ofText_of_single place column hstyle, Text.toChars_ofChars, single, List.forall_mem_append,
      List.forall_mem_cons]
    exact ⟨⟨hquote, hinner⟩, by simpa using hquote⟩
  | double =>
    rw [ofText_of_double place column hstyle]
    exact List.forall_mem_cons.mpr
      ⟨hinline '"' (by decide), forall_mem_doubleTail hinline hfold t true false (column + 1)⟩

/-! ### Ends -/

/-- A written text that does not end with a line. -/
def EndsDark (written : List Char) : Prop := ∃ c, written.getLast? = some c ∧ c ≠ '\n'

theorem EndsDark.append {written : List Char} (h : EndsDark written) (before : List Char) :
    EndsDark (before ++ written) := by
  obtain ⟨c, hlast, hc⟩ := h
  refine ⟨c, ?_, hc⟩
  rw [List.getLast?_append, hlast]
  rfl

theorem endsDark_plainRuns {place : Place} {runs : List (List Char)} (hne : runs ≠ [])
    (hruns : [] ∉ runs) (hlast : ∀ c, runs.flatten.getLast? = some c → c ≠ ' ' ∧ c ≠ '\n') (column : Nat) :
    EndsDark (plainRuns place column runs) := by
  induction runs generalizing column with
  | nil => exact absurd rfl hne
  | cons run rest ih =>
    rw [List.mem_cons, not_or] at hruns
    rw [List.flatten_cons] at hlast
    cases rest with
    | nil =>
      rw [List.flatten_nil, List.append_nil] at hlast
      obtain ⟨c, hc⟩ := List.getLast?_isSome.mpr (Ne.symm hruns.1) |> Option.isSome_iff_exists.mp
      rw [plainRuns, if_neg]
      · exact ⟨c, by rwa [plainRuns, List.append_nil], (hlast c hc).2⟩
      · intro hfold
        simp only [Bool.and_eq_true, decide_eq_true_eq] at hfold
        rw [hfold.1.2] at hlast
        exact (hlast ' ' rfl).1 rfl
    | cons next rest =>
      have hnext : (next :: rest).flatten ≠ [] := by
        intro heq
        rw [List.flatten_cons, List.append_eq_nil_iff] at heq
        exact hruns.2 (heq.1 ▸ List.mem_cons_self)
      have hrest := ih (List.cons_ne_nil _ _) hruns.2 fun c hc =>
        hlast c (by rw [List.getLast?_append_of_ne_nil _ hnext, hc])
      rw [plainRuns]
      split
      · exact (hrest _).append _
      · exact (hrest _).append _

theorem endsDark_ofText (place : Place) (column : Nat) (t : Text) : EndsDark (ofText place column t) := by
  obtain ⟨style, hstyle, hform⟩ : ∃ style, Style.ofText t = style ∧ HasStyle t style :=
    ⟨_, rfl, hasStyle t⟩
  cases hform with
  | @plain cs h hne =>
    rw [ofText_of_plain place column hstyle, Text.toChars_ofChars]
    have hgoing := keepsGoing_of_canBePlain h
    refine endsDark_plainRuns (runs_ne_nil hne) (List.nil_notMem_splitBy _ cs) (fun c hc => ?_) column
    rw [flatten_runs] at hc
    refine ⟨fun heq => hgoing.last (heq ▸ hc), ?_⟩
    exact (hgoing.inline c (List.mem_of_getLast? hc)).ne_of_not (by decide)
  | single =>
    rw [ofText_of_single place column hstyle]
    exact ⟨'\'', List.getLast?_concat, by decide⟩
  | double =>
    rw [ofText_of_double place column hstyle]
    exact ⟨'"', List.getLast?_concat, by decide⟩

theorem ofText_ne_nil (place : Place) (column : Nat) (t : Text) : ofText place column t ≠ [] := by
  obtain ⟨c, hc, -⟩ := endsDark_ofText place column t
  intro heq
  rw [heq] at hc
  cases hc

/-! ### Starts -/

theorem atContent_ofText (place : Place) (column : Nat) (t : Text) {rest : List Char}
    (hrest : plainLength false rest = 0) : AtContent (ofText place column t ++ rest) := by
  obtain ⟨style, hstyle, hform⟩ : ∃ style, Style.ofText t = style ∧ HasStyle t style :=
    ⟨_, rfl, hasStyle t⟩
  cases hform with
  | @plain cs h hne =>
    rw [ofText_of_plain place column hstyle, Text.toChars_ofChars]
    obtain ⟨ch, more, hwritten, hch, hspace, hindicator, -⟩ := exists_plain_start h hne place column hrest
    rw [hwritten]
    refine .cons hch hspace ?_ more
    rintro rfl
    exact hindicator (by decide)
  | single =>
    rw [ofText_of_single place column hstyle]
    exact .cons (by decide) (by decide) (by decide) _
  | double =>
    rw [ofText_of_double place column hstyle]
    exact .cons (by decide) (by decide) (by decide) _

/-! ### Keys -/

section

variable {indent : Nat} (column column' : Nat)

theorem plainRuns_unfolded (runs : List (List Char)) :
    plainRuns ⟨false, indent⟩ column runs = runs.flatten := by
  induction runs generalizing column with
  | nil => rfl
  | cons run rest ih => simp [plainRuns, ih]

theorem singleRuns_unfolded (first : Bool) (runs : List (List Char)) :
    singleRuns ⟨false, indent⟩ first column runs = singleRuns ⟨false, indent⟩ first column' runs := by
  induction runs generalizing first column column' with
  | nil => rfl
  | cons run rest ih =>
    simp only [singleRuns, Bool.false_and, Bool.false_eq_true, if_false]
    split
    · rfl
    · rw [ih]

theorem doubleTail_unfolded (first afterEscape : Bool) (t : Text) :
    doubleTail ⟨false, indent⟩ first afterEscape column t =
      doubleTail ⟨false, indent⟩ first afterEscape column' t := by
  induction t generalizing first afterEscape column column' with
  | nil => rfl
  | cons p t ih =>
    cases hescape : escape? p with
    | some e =>
      simp only [doubleTail_escaped hescape, Bool.false_and, Bool.false_eq_true, if_false]
      rw [ih]
    | none =>
      obtain ⟨ch, rfl, -⟩ := exists_of_escape?_none hescape
      simp only [doubleTail_plain hescape, Bool.false_and, Bool.false_eq_true, if_false]
      rw [ih]

theorem ofText_unfolded (t : Text) :
    ofText ⟨false, indent⟩ column t = ofText ⟨false, indent⟩ column' t := by
  unfold ofText
  split
  · rw [plain, plain, plainRuns_unfolded, plainRuns_unfolded]
  · rw [single, single, singleRuns_unfolded]
  · exact congrArg _ (doubleTail_unfolded _ _ true false t)

end

end Yaml.Scalar
end ClusterRegistrar
