import ClusterRegistrar.Proofs.Run
import ClusterRegistrar.Proofs.Text
import ClusterRegistrar.Proofs.Value
import ClusterRegistrar.TakeAlong

/-! What is taken along from metadata whose keys are texts. Collecting never fails there, and its
outcome depends on two things alone: the targets that the requests name, in order, and what the
metadata has under each of them. -/
namespace ClusterRegistrar.TakeAlong

/-- The targets that keys ask for, in order; a request without a target asks for the empty one. -/
def asked (name : Text) (keys : List Text) : List Text :=
  keys.filterMap (Affix.dropStart? (requestLead name))

structure Requested (name : Text) (entries : Entries) (target : Text) : Prop where
  named : target ≠ []
  request : (entries.field? (requestLead name ++ target)).isSome
  present : (entries.field? target).isSome

def Outcome.take (name : Text) (entries : Entries) (resource : Option Text) (o : Outcome)
    (target : Text) : Outcome :=
  match entries.field? target with
  | none => { o with problems := o.problems ++ [.missingTarget name target resource] }
  | some value =>
    { o with
      entries := (o.entries.put (.str target) value).put (.str (markerLead name ++ target))
        (.str []) }

def outcome (name : Text) (entries : Entries) (resource : Option Text) : Outcome :=
  if [] ∈ asked name entries.texts then ⟨[], [.malformedKey name (requestLead name)]⟩
  else (asked name entries.texts).foldl (Outcome.take name entries resource) ⟨[], []⟩

theorem mem_asked {name : Text} {entries : Entries} {target : Text} :
    target ∈ asked name entries.texts ↔ (entries.field? (requestLead name ++ target)).isSome := by
  simp [asked, Entries.field?_isSome_iff]

theorem asked_filter (name : Text) (keys : List Text) :
    asked name (keys.filter (Affix.startsWith (requestLead name))) = asked name keys := by
  unfold asked
  rw [List.filterMap_filter]
  congr 1
  funext key
  unfold Affix.startsWith
  cases Affix.dropStart? (requestLead name) key <;> rfl

/-- What is wrong with the requests of a mapping: one of them names no target, which discards all of
them, or the target of one is missing. -/
inductive Faulty (name : Text) (entries : Entries) (resource : Option Text) : Problem → Prop where
  | bare (h : (entries.field? (requestLead name)).isSome) :
    Faulty name entries resource (.malformedKey name (requestLead name))
  | missing {target : Text} (hbare : entries.field? (requestLead name) = none)
    (hrequest : (entries.field? (requestLead name ++ target)).isSome)
    (hmissing : entries.field? target = none) :
    Faulty name entries resource (.missingTarget name target resource)

/-! ### Collecting is the outcome -/

theorem targets_texts (name : Text) (keys : List Text) :
    targets name (keys.map .str) =
      .ok (if [] ∈ asked name keys then .error (.malformedKey name (requestLead name))
        else .ok (asked name keys)) := by
  induction keys with
  | nil => rfl
  | cons key rest ih =>
    simp only [List.map_cons, targets, Value.text, Except.ok_bind, target?]
    cases hkey : Affix.dropStart? (requestLead name) key with
    | none =>
      have hasked : asked name (key :: rest) = asked name rest := List.filterMap_cons_none hkey
      simp only [hasked, ih, Except.ok_bind]
      split <;> rfl
    | some target =>
      have hasked : asked name (key :: rest) = target :: asked name rest :=
        List.filterMap_cons_some hkey
      cases target with
      | nil =>
        obtain rfl : key = requestLead name := by simpa using Affix.dropStart?_eq_some.mp hkey
        rw [hasked, if_pos List.mem_cons_self]
        rfl
      | cons p target =>
        simp only [hasked, ih, Except.ok_bind, List.mem_cons, List.nil_eq, reduceCtorEq, false_or]
        split <;> rfl

theorem add_eq_take {metadata : Value} {entries : Entries} (h : metadata.entries? = some entries)
    (name : Text) (resource : Option Text) (o : Outcome) (target : Text) :
    Outcome.add name metadata resource o target =
      .ok (Outcome.take name entries resource o target) := by
  simp only [Outcome.add, lookup, h, Except.ok_bind, Outcome.take]
  cases entries.field? target <;> rfl

theorem foldlM_add {metadata : Value} {entries : Entries} (h : metadata.entries? = some entries)
    (name : Text) (resource : Option Text) (found : List Text) (o : Outcome) :
    found.foldlM (Outcome.add name metadata resource) o =
      .ok (found.foldl (Outcome.take name entries resource) o) := by
  induction found generalizing o with
  | nil => rfl
  | cons target rest ih => rw [List.foldlM_cons, add_eq_take h, Except.ok_bind, ih, List.foldl_cons]

theorem result_collect {metadata : Value} {entries : Entries}
    (h : metadata.entries? = some entries) (hkeys : ∀ entry ∈ entries, ∃ t, entry.1 = .str t)
    (kind : MetadataKind) (resource : Option Text) :
    (collect kind metadata resource).result = .ok (outcome kind.name entries resource) := by
  simp only [collect, Value.elements_of_textKeys h hkeys, targets_texts, Run.result_bind,
    Run.result_ofFault, Fault.lift_ok, Except.ok_bind, outcome]
  split
  · rename_i problem hproblem
    split at hproblem
    · cases hproblem
      rw [if_pos ‹_›]
      rfl
    · cases hproblem
  · rename_i found hfound
    split at hfound
    · cases hfound
    · cases hfound
      rw [if_neg ‹_›, foldlM_add h]
      rfl

theorem logs_collect (kind : MetadataKind) (metadata : Value) (resource : Option Text) :
    (collect kind metadata resource).Logs Record.IsDetail := by
  refine Run.logs_bind (Run.logs_ofExcept _) fun keys => ?_
  refine Run.logs_bind (Run.logs_ofExcept _) fun found => ?_
  cases found with
  | error problem =>
    exact Run.logs_bind (Run.logs_record ⟨rfl, nofun⟩) fun _ => Run.logs_pure _
  | ok targets => exact Run.logs_ofExcept _

/-! ### The outcome -/

private theorem mem_foldl_take {name : Text} {entries : Entries} {resource : Option Text}
    {P : Atom × Value → Prop} {found : List Text}
    (hfound : ∀ target ∈ found, ∀ value, entries.field? target = some value →
      P (.str target, value) ∧ P (.str (markerLead name ++ target), .str []))
    {o : Outcome} (ho : ∀ entry ∈ o.entries, P entry) :
    ∀ entry ∈ (found.foldl (Outcome.take name entries resource) o).entries, P entry := by
  induction found generalizing o with
  | nil => exact ho
  | cons target rest ih =>
    -- `P` is the invariant of the fold, so the start may be any outcome that has it.
    refine ih (fun t ht => hfound t (List.mem_cons_of_mem _ ht)) ?_
    unfold Outcome.take
    split
    · exact ho
    · rename_i value hvalue
      obtain ⟨htarget, hmarker⟩ := hfound target List.mem_cons_self value hvalue
      intro entry hentry
      rcases Keyed.mem_put hentry with hcopied | rfl
      · rcases Keyed.mem_put hcopied with hold | rfl
        · exact ho entry hold
        · exact htarget
      · exact hmarker

/-- Everything that is taken along is a target that was asked for with the value that it has, or the
marker of such a target. -/
theorem mem_outcome {name : Text} {entries : Entries} {resource : Option Text}
    {entry : Atom × Value} (h : entry ∈ (outcome name entries resource).entries) :
    ∃ target, Requested name entries target ∧
      ((entry.1 = .str target ∧ entries.field? target = some entry.2) ∨
        entry = (.str (markerLead name ++ target), .str [])) := by
  unfold outcome at h
  split at h
  · cases h
  · rename_i hbare
    refine mem_foldl_take (P := fun entry => ∃ target, Requested name entries target ∧
      ((entry.1 = .str target ∧ entries.field? target = some entry.2) ∨
        entry = (.str (markerLead name ++ target), .str []))) ?_ (by simp) entry h
    intro target htarget value hvalue
    have hrequested : Requested name entries target :=
      ⟨fun hnil => hbare (hnil ▸ htarget), mem_asked.mp htarget, by rw [hvalue]; rfl⟩
    exact ⟨⟨target, hrequested, .inl ⟨rfl, hvalue⟩⟩, ⟨target, hrequested, .inr rfl⟩⟩

theorem bare_mem_asked {name : Text} {entries : Entries} :
    [] ∈ asked name entries.texts ↔ (entries.field? (requestLead name)).isSome := by
  rw [mem_asked, List.append_nil]

/-! ### What is found in an outcome -/

inductive Sets (name : Text) (entries : Entries) (target : Text) : Text → Value → Prop where
  | copy {value : Value} (h : entries.field? target = some value) : Sets name entries target target value
  | marker {value : Value} (h : entries.field? target = some value) :
    Sets name entries target (markerLead name ++ target) (.str [])

section

variable {name : Text} {entries : Entries} {resource : Option Text} {key : Text} {P : Value → Prop}

theorem exists_field?_take {o : Outcome} {target : Text}
    (hsets : ∀ value, Sets name entries target key value → P value)
    (h : (∃ value, Sets name entries target key value) ∨
      ∃ value, o.entries.field? key = some value ∧ P value) :
    ∃ value, (Outcome.take name entries resource o target).entries.field? key = some value ∧
      P value := by
  unfold Outcome.take Entries.field? at *
  cases hfield : Keyed.get? entries (.str target) with
  | none =>
    refine h.resolve_left ?_
    rintro ⟨value, hcopy | hmarker⟩
    · exact absurd (hfield.symm.trans hcopy) nofun
    · exact absurd (hfield.symm.trans hmarker) nofun
  | some copied =>
    by_cases hmarker : markerLead name ++ target = key
    · subst hmarker
      exact ⟨.str [], Keyed.get?_put_same .., hsets _ (.marker hfield)⟩
    · simp only [Keyed.get?_put_other _ _ hmarker]
      by_cases hcopy : target = key
      · subst hcopy
        exact ⟨copied, Keyed.get?_put_same .., hsets _ (.copy hfield)⟩
      · simp only [Keyed.get?_put_other _ _ hcopy]
        refine h.resolve_left ?_
        rintro ⟨value, - | -⟩
        · exact hcopy rfl
        · exact hmarker rfl

theorem exists_field?_foldl_take {found : List Text}
    (hsets : ∀ target ∈ found, ∀ value, Sets name entries target key value → P value) {o : Outcome}
    (h : (∃ target ∈ found, ∃ value, Sets name entries target key value) ∨
      ∃ value, o.entries.field? key = some value ∧ P value) :
    ∃ value, (found.foldl (Outcome.take name entries resource) o).entries.field? key = some value ∧
      P value := by
  induction found generalizing o with
  | nil => exact h.resolve_left nofun
  | cons target rest ih =>
    have hrest := fun t ht => hsets t (List.mem_cons_of_mem _ ht)
    rcases h with ⟨t, ht, hset⟩ | hold
    · rcases List.mem_cons.mp ht with rfl | ht
      · exact ih hrest (.inr (exists_field?_take (hsets t List.mem_cons_self) (.inl hset)))
      · exact ih hrest (.inl ⟨t, ht, hset⟩)
    · exact ih hrest (.inr (exists_field?_take (hsets target List.mem_cons_self) (.inr hold)))

/-- What a request sets is found in the outcome, up to what other requests set there. -/
theorem exists_field?_outcome (hbare : entries.field? (requestLead name) = none)
    (hsets : ∀ target value, Requested name entries target → Sets name entries target key value →
      P value)
    {target : Text} {value : Value} (h : Requested name entries target)
    (hset : Sets name entries target key value) :
    ∃ found, (outcome name entries resource).entries.field? key = some found ∧ P found := by
  have hnone : [] ∉ asked name entries.texts := by
    rw [bare_mem_asked, hbare]
    exact nofun
  rw [outcome, if_neg hnone]
  refine exists_field?_foldl_take (fun t ht v hv => hsets t v ⟨?_, mem_asked.mp ht, ?_⟩ hv)
    (.inl ⟨target, mem_asked.mpr h.request, value, hset⟩)
  · rintro rfl
    exact hnone ht
  · cases hv with
    | copy hfield | marker hfield => rw [hfield]; rfl

end

/-! ### Problems -/

theorem problems_foldl_take (name : Text) (entries : Entries) (resource : Option Text)
    (found : List Text) (o : Outcome) :
    (found.foldl (Outcome.take name entries resource) o).problems =
      o.problems ++ (found.filter fun target => (entries.field? target).isNone).map
        fun target => .missingTarget name target resource := by
  induction found generalizing o with
  | nil => simp
  | cons target rest ih =>
    rw [List.foldl_cons, ih]
    cases hfield : entries.field? target <;> simp [Outcome.take, hfield]

theorem mem_problems_outcome {name : Text} {entries : Entries} {resource : Option Text}
    {problem : Problem} :
    problem ∈ (outcome name entries resource).problems ↔ Faulty name entries resource problem := by
  by_cases hbare : [] ∈ asked name entries.texts
  · rw [outcome, if_pos hbare, List.mem_singleton]
    rw [bare_mem_asked] at hbare
    constructor
    · rintro rfl
      exact .bare hbare
    · rintro (_ | ⟨hnone, -, -⟩)
      · rfl
      · rw [hnone] at hbare
        cases hbare
  · rw [outcome, if_neg hbare, problems_foldl_take, List.nil_append, List.mem_map]
    rw [bare_mem_asked, Option.not_isSome_iff_eq_none] at hbare
    simp only [List.mem_filter, mem_asked, Option.isNone_iff_eq_none]
    constructor
    · rintro ⟨target, ⟨hrequest, hmissing⟩, rfl⟩
      exact .missing hbare hrequest hmissing
    · rintro (⟨hsome⟩ | ⟨-, hrequest, hmissing⟩)
      · rw [hbare] at hsome
        cases hsome
      · exact ⟨_, ⟨hrequest, hmissing⟩, rfl⟩

theorem outcome_congr {name : Text} {left right : Entries} (resource : Option Text)
    (hasked : asked name left.texts = asked name right.texts)
    (hfield : ∀ target ∈ asked name left.texts, target ≠ [] →
      left.field? target = right.field? target) :
    outcome name left resource = outcome name right resource := by
  unfold outcome
  rw [← hasked]
  split
  · rfl
  · rename_i hbare
    refine List.foldl_ext _ _ _ fun o target htarget => ?_
    have htaken := hfield target htarget fun hnil => hbare (hnil ▸ htarget)
    simp only [Outcome.take, htaken]

end ClusterRegistrar.TakeAlong
