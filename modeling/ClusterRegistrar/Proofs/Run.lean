import ClusterRegistrar.Run
import Mathlib.Data.List.Forall2

/-! How results and records pass through steps that follow each other. A step that returns hands its
value on, and a pass over a list returns exactly if every step of it does. -/
namespace ClusterRegistrar

theorem Except.bind_eq_ok {x : Except ε α} {f : α → Except ε β} {b : β} :
    x >>= f = .ok b ↔ ∃ a, x = .ok a ∧ f a = .ok b := by
  cases x with
  | error e => simp [bind, Except.bind]
  | ok a => simp [bind, Except.bind]

theorem Except.bind_eq_error {x : Except ε α} {f : α → Except ε β} {e : ε} :
    x >>= f = .error e ↔ x = .error e ∨ ∃ a, x = .ok a ∧ f a = .error e := by
  cases x with
  | error e' => simp [bind, Except.bind]
  | ok a => simp [bind, Except.bind]

@[simp] theorem Except.ok_bind (a : α) (f : α → Except ε β) :
    (.ok a : Except ε α) >>= f = f a := rfl

@[simp] theorem Except.error_bind (e : ε) (f : α → Except ε β) :
    (.error e : Except ε α) >>= f = .error e := rfl

theorem Except.mapM_eq_ok {f : α → Except ε β} {items : List α} {results : List β} :
    items.mapM f = .ok results ↔ List.Forall₂ (fun a b => f a = .ok b) items results := by
  induction items generalizing results with
  | nil =>
    rw [List.forall₂_nil_left_iff]
    exact ⟨fun h => (Except.ok.inj h).symm, fun h => h ▸ rfl⟩
  | cons a rest ih =>
    simp only [List.mapM_cons, Except.bind_eq_ok, List.forall₂_cons_left_iff, ← ih]
    constructor
    · rintro ⟨b, hb, bs, hbs, h⟩
      exact ⟨b, bs, hb, hbs, (Except.ok.inj h).symm⟩
    · rintro ⟨b, bs, hb, hbs, rfl⟩
      exact ⟨b, hb, bs, hbs, rfl⟩

theorem Option.mapM_eq_some {f : α → Option β} {items : List α} {results : List β} :
    items.mapM f = some results ↔ List.Forall₂ (fun a b => f a = some b) items results := by
  induction items generalizing results with
  | nil =>
    rw [List.forall₂_nil_left_iff]
    exact ⟨fun h => (Option.some.inj h).symm, fun h => h ▸ rfl⟩
  | cons a rest ih =>
    simp only [List.mapM_cons, Option.bind_eq_bind, Option.bind_eq_some_iff,
      List.forall₂_cons_left_iff, ← ih]
    constructor
    · rintro ⟨b, hb, bs, hbs, h⟩
      exact ⟨b, bs, hb, hbs, (Option.some.inj h).symm⟩
    · rintro ⟨b, bs, hb, hbs, rfl⟩
      exact ⟨b, hb, bs, hbs, rfl⟩

theorem Except.exists_mapM_eq_ok {f : α → Except ε β} {items : List α} :
    (∃ results, items.mapM f = .ok results) ↔ ∀ a ∈ items, ∃ b, f a = .ok b := by
  simp only [Except.mapM_eq_ok]
  induction items with
  | nil =>
    constructor
    · intro _ a ha
      cases ha
    · exact fun _ => ⟨[], .nil⟩
  | cons a rest ih =>
    rw [List.forall_mem_cons, ← ih]
    constructor
    · rintro ⟨_, hb | ⟨hb, hrest⟩⟩
      exact ⟨⟨_, hb⟩, ⟨_, hrest⟩⟩
    · rintro ⟨⟨b, hb⟩, ⟨bs, hrest⟩⟩
      exact ⟨b :: bs, .cons hb hrest⟩

theorem Except.exists_of_mapM_error {f : α → Except ε β} {items : List α} {e : ε}
    (h : items.mapM f = .error e) : ∃ a ∈ items, f a = .error e := by
  induction items with
  | nil => cases h
  | cons a rest ih =>
    rw [List.mapM_cons] at h
    rcases Except.bind_eq_error.mp h with ha | ⟨_, -, h⟩
    · exact ⟨a, List.mem_cons_self, ha⟩
    · rcases Except.bind_eq_error.mp h with hrest | ⟨_, -, h⟩
      · obtain ⟨b, hb, hfail⟩ := ih hrest
        exact ⟨b, List.mem_cons_of_mem a hb, hfail⟩
      · cases h

theorem Except.forM_eq_ok {f : α → Except ε Unit} {items : List α} :
    items.forM f = .ok () ↔ ∀ a ∈ items, f a = .ok () := by
  induction items with
  | nil => simp [pure, Except.pure]
  | cons a rest ih =>
    show f a >>= (fun _ => rest.forM f) = .ok () ↔ _
    rw [Except.bind_eq_ok, List.forall_mem_cons, ← ih]
    exact ⟨fun ⟨_, ha, hrest⟩ => ⟨ha, hrest⟩, fun ⟨ha, hrest⟩ => ⟨(), ha, hrest⟩⟩

theorem Except.forM_of_error {f : α → Except ε Unit} {before after : List α} {a : α} {e : ε}
    (hbefore : ∀ b ∈ before, f b = .ok ()) (h : f a = .error e) :
    (before ++ a :: after).forM f = .error e := by
  induction before with
  | nil =>
    show f a >>= (fun _ => after.forM f) = .error e
    rw [h, Except.error_bind]
  | cons b rest ih =>
    obtain ⟨hb, hrest⟩ := List.forall_mem_cons.mp hbefore
    show f b >>= (fun _ => (rest ++ a :: after).forM f) = .error e
    rw [hb, Except.ok_bind, ih hrest]

theorem Except.toOption_eq_some {x : Except ε α} {a : α} : x.toOption = some a ↔ x = .ok a := by
  cases x <;> simp [Except.toOption]

theorem Except.exists_of_any {x : Except ε α} {test : α → Bool} (h : x.toOption.any test = true) :
    ∃ a, x = .ok a ∧ test a = true := by
  cases x with
  | error e => cases h
  | ok a => exact ⟨a, rfl, h⟩

theorem forall_left_of_forall₂ {R : α → β → Prop} {p : α → Prop} {as : List α} {bs : List β}
    (h : List.Forall₂ R as bs) (hp : ∀ a b, R a b → p a) : ∀ a ∈ as, p a :=
  ((List.forall₂_and_left _ _).mp (h.imp fun a b hab => ⟨hp a b hab, hab⟩)).1

theorem forall_right_of_forall₂ {R : α → β → Prop} {p : β → Prop} {as : List α} {bs : List β}
    (h : List.Forall₂ R as bs) (hp : ∀ a b, R a b → p b) : ∀ b ∈ bs, p b :=
  forall_left_of_forall₂ h.flip fun b a hab => hp a b hab

theorem exists_forall₂ {R : α → β → Prop} {bs : List β} (h : ∀ b ∈ bs, ∃ a, R a b) :
    ∃ as, List.Forall₂ R as bs := by
  induction bs with
  | nil => exact ⟨[], .nil⟩
  | cons b bs ih =>
    obtain ⟨⟨a, ha⟩, hrest⟩ := List.forall_mem_cons.mp h
    obtain ⟨as, has⟩ := ih hrest
    exact ⟨a :: as, .cons ha has⟩

theorem isEmpty_eq_of_forall₂ {R : α → β → Prop} {as : List α} {bs : List β}
    (h : List.Forall₂ R as bs) : as.isEmpty = bs.isEmpty := by
  cases h <;> rfl

theorem any_eq_of_forall₂ {R : α → β → Prop} {p : α → Bool} {q : β → Bool} {as : List α}
    {bs : List β} (h : List.Forall₂ R as bs) (hpq : ∀ a b, R a b → p a = q b) :
    as.any p = bs.any q := by
  induction h with
  | nil => rfl
  | cons hab _ ih => rw [List.any_cons, List.any_cons, hpq _ _ hab, ih]

theorem map_eq_of_forall₂ {R : α → β → Prop} {f : α → γ} {g : β → γ} {as : List α} {bs : List β}
    (h : List.Forall₂ R as bs) (hfg : ∀ a b, R a b → f a = g b) : as.map f = bs.map g := by
  induction h with
  | nil => rfl
  | cons hab _ ih => rw [List.map_cons, List.map_cons, hfg _ _ hab, ih]

theorem mapM_eq_of_forall₂ {m : Type → Type} [Monad m] [LawfulMonad m] {R : α → β → Prop}
    {f : α → m γ} {g : β → m γ} {as : List α} {bs : List β} (h : List.Forall₂ R as bs)
    (hfg : ∀ a b, R a b → f a = g b) : as.mapM f = bs.mapM g := by
  induction h with
  | nil => rfl
  | cons hab _ ih => rw [List.mapM_cons, List.mapM_cons, hfg _ _ hab, ih]

inductive Except.Agree (R : α → β → Prop) : Except ε α → Except ε β → Prop where
  | error (e : ε) : Agree R (.error e) (.error e)
  | ok {a : α} {b : β} (h : R a b) : Agree R (.ok a) (.ok b)

namespace Except.Agree

theorem of_forall {R : α → α → Prop} (h : ∀ a, R a a) (x : Except ε α) : Agree R x x := by
  cases x with
  | error e => exact .error e
  | ok a => exact .ok (h a)

theorem exists_ok {R : α → β → Prop} {x : Except ε α} {y : Except ε β} (h : Agree R x y) {a : α}
    (hx : x = .ok a) : ∃ b, y = .ok b ∧ R a b := by
  subst hx
  cases h with
  | ok h => exact ⟨_, rfl, h⟩

theorem toOption {R : α → β → Prop} {x : Except ε α} {y : Except ε β} (h : Agree R x y) :
    Option.Rel R x.toOption y.toOption := by
  cases h with
  | ok h => exact .some h
  | error => exact .none

theorem imp {R S : α → β → Prop} {x : Except ε α} {y : Except ε β} (h : Agree R x y)
    (hRS : ∀ a b, R a b → S a b) : Agree S x y := by
  cases h with
  | error e => exact .error e
  | ok h => exact .ok (hRS _ _ h)

theorem bind {R : α → β → Prop} {S : γ → δ → Prop} {x : Except ε α} {y : Except ε β}
    {f : α → Except ε γ} {g : β → Except ε δ} (h : Agree R x y)
    (hfg : ∀ a b, R a b → Agree S (f a) (g b)) : Agree S (x >>= f) (y >>= g) := by
  cases h with
  | error e => exact .error e
  | ok h => exact hfg _ _ h

theorem bind_same {S : γ → δ → Prop} (x : Except ε α) {f : α → Except ε γ} {g : α → Except ε δ}
    (h : ∀ a, Agree S (f a) (g a)) : Agree S (x >>= f) (x >>= g) :=
  (of_forall (fun _ => rfl) x).bind fun a _ hab => hab ▸ h a

theorem when {S : γ → δ → Prop} {c c' : Prop} [Decidable c] [Decidable c'] (hc : c ↔ c')
    {step step' : Except ε Unit} (hstep : step = step') {x : Except ε γ} {y : Except ε δ}
    (h : Agree S x y) :
    Agree S (if c then step >>= fun _ => x else x) (if c' then step' >>= fun _ => y else y) := by
  subst hstep
  by_cases hcond : c
  · rw [if_pos hcond, if_pos (hc.mp hcond)]
    exact bind_same step fun _ => h
  · rw [if_neg hcond, if_neg (hcond ∘ hc.mpr)]
    exact h

theorem bind_eq {R : α → β → Prop} {x : Except ε α} {y : Except ε β} {f : α → Except ε γ}
    {g : β → Except ε γ} (h : Agree R x y) (hfg : ∀ a b, R a b → f a = g b) :
    x >>= f = y >>= g := by
  cases h with
  | error e => rfl
  | ok h => exact hfg _ _ h

theorem mapM {R : γ → δ → Prop} {f : α → Except ε γ} {g : β → Except ε δ} {as : List α}
    {bs : List β} (h : List.Forall₂ (fun a b => Agree R (f a) (g b)) as bs) :
    Agree (List.Forall₂ R) (as.mapM f) (bs.mapM g) := by
  induction h with
  | nil => exact .ok .nil
  | cons hab _ ih =>
    rw [List.mapM_cons, List.mapM_cons]
    exact hab.bind fun _ _ hfirst => ih.bind fun _ _ hrest => .ok (.cons hfirst hrest)

theorem foldlM {R : α → β → Prop} {S : γ → δ → Prop} {f : γ → α → Except ε γ}
    {g : δ → β → Except ε δ} {as : List α} {bs : List β} (h : List.Forall₂ R as bs)
    (hfg : ∀ c d a b, S c d → R a b → Agree S (f c a) (g d b)) {c : γ} {d : δ} (hcd : S c d) :
    Agree S (as.foldlM f c) (bs.foldlM g d) := by
  induction h generalizing c d with
  | nil => exact .ok hcd
  | cons hab _ ih => exact (hfg _ _ _ _ hcd hab).bind fun _ _ hnext => ih hnext

theorem lift {R : α → β → Prop} {x : Except Fault α} {y : Except Fault β} (h : Agree R x y) :
    Agree R (Fault.lift x) (Fault.lift y) := by
  cases h with
  | error f => exact Agree.error (Failure.fault f)
  | ok h => exact .ok h

end Except.Agree

@[simp] theorem Fault.lift_ok (a : α) : Fault.lift (.ok a) = .ok a := rfl

@[simp] theorem Fault.lift_error (f : Fault) :
    Fault.lift (.error f : Except Fault α) = .error (.fault f) := rfl

@[simp] theorem Fault.lift_eq_ok {x : Except Fault α} {a : α} :
    Fault.lift x = .ok a ↔ x = .ok a := by
  cases x <;> simp

theorem Fault.lift_eq_error {x : Except Fault α} {e : Failure} :
    Fault.lift x = .error e ↔ ∃ f, x = .error f ∧ e = .fault f := by
  cases x <;> simp [eq_comm]

theorem Fault.lift_bind (x : Except Fault α) (f : α → Except Fault β) :
    Fault.lift (x >>= f) = Fault.lift x >>= fun a => Fault.lift (f a) := by
  cases x <;> rfl

@[simp] theorem Failure.rejectWith_ok (reason : Text → Rejection) (t : Text) :
    Failure.rejectWith (α := α) reason (.ok t) = .error (.rejected (reason t)) := rfl

@[simp] theorem Failure.rejectWith_error (reason : Text → Rejection) (f : Fault) :
    Failure.rejectWith (α := α) reason (.error f) = .error (.fault f) := rfl

@[simp] theorem Failure.rejectWith_ne_ok (reason : Text → Rejection) (text : Except Fault Text)
    (a : α) : Failure.rejectWith reason text ≠ .ok a := by
  cases text <;> simp

theorem Failure.unless_eq_ok {c : Bool} {reason : Text → Rejection} {text : Except Fault Text}
    {next : Except Failure α} {a : α} :
    (if c then Failure.rejectWith (α := Unit) reason text >>= fun _ => next else next) = .ok a ↔
      c = false ∧ next = .ok a := by
  cases c with
  | true => cases text <;> simp
  | false => simp

/-! ### Giving up -/

/-- A computation ends in a fault: it gives up without a reason for the user. -/
def Except.GivesUp (x : Except Failure α) : Prop := ∃ f, x = .error (.fault f)

namespace Except.GivesUp

@[simp] theorem not_ok (a : α) : ¬GivesUp (.ok a : Except Failure α) := nofun

@[simp] theorem not_rejected (reason : Rejection) :
    ¬GivesUp (.error (.rejected reason) : Except Failure α) := nofun

@[simp] theorem fault (f : Fault) : GivesUp (.error (.fault f) : Except Failure α) := ⟨f, rfl⟩

theorem lift_iff {x : Except Fault α} : GivesUp (Fault.lift x) ↔ ∃ f, x = .error f := by
  cases x <;> simp

theorem rejectWith_iff {reason : Text → Rejection} {text : Except Fault Text} :
    GivesUp (Failure.rejectWith (α := α) reason text) ↔ ∃ f, text = .error f := by
  cases text <;> simp

theorem bind_iff {x : Except Failure α} {next : α → Except Failure β} :
    GivesUp (x >>= next) ↔ GivesUp x ∨ ∃ a, x = .ok a ∧ GivesUp (next a) := by
  cases x with
  | ok a => simp
  | error e => cases e <;> simp

theorem map_iff {x : Except Failure α} {f : α → β} : GivesUp (f <$> x) ↔ GivesUp x := by
  rw [map_eq_pure_bind, bind_iff]
  exact or_iff_left fun ⟨_, _, h⟩ => not_ok _ h

theorem unless_iff {c : Bool} {reason : Text → Rejection} {text : Except Fault Text}
    {next : Except Failure α} :
    GivesUp (if c then Failure.rejectWith (α := Unit) reason text >>= fun _ => next else next) ↔
      (c = true ∧ ∃ f, text = .error f) ∨ (c = false ∧ GivesUp next) := by
  cases c with
  | true => cases text <;> simp
  | false => simp

theorem mapM_iff {f : α → Except Failure β} {items : List α} :
    GivesUp (items.mapM f) ↔ ∃ before a after, items = before ++ a :: after ∧
      (∀ b ∈ before, ∃ r, f b = .ok r) ∧ GivesUp (f a) := by
  induction items with
  | nil => simp [pure, Except.pure]
  | cons a rest ih =>
    rw [List.mapM_cons, bind_iff]
    constructor
    · rintro (h | ⟨r, hr, h⟩)
      · exact ⟨[], a, rest, rfl, by simp, h⟩
      · rcases bind_iff.mp h with h | ⟨_, -, h⟩
        · obtain ⟨before, b, after, rfl, hbefore, hb⟩ := ih.mp h
          exact ⟨a :: before, b, after, rfl, List.forall_mem_cons.mpr ⟨⟨r, hr⟩, hbefore⟩, hb⟩
        · exact absurd h (not_ok _)
    · rintro ⟨before, b, after, hsplit, hbefore, hb⟩
      cases before with
      | nil =>
        cases hsplit
        exact .inl hb
      | cons _ before =>
        cases hsplit
        obtain ⟨⟨r, hr⟩, hbefore⟩ := List.forall_mem_cons.mp hbefore
        exact .inr ⟨r, hr, bind_iff.mpr (.inl (ih.mpr ⟨before, b, after, rfl, hbefore, hb⟩))⟩

end Except.GivesUp

def Record.IsDetail (r : Record) : Prop := r.level = .debug ∧ r.source ≠ .conversion

namespace Run

@[simp] theorem result_pure (a : α) : (pure a : Run α).result = .ok a := rfl

@[simp] theorem log_pure (a : α) : (pure a : Run α).log = [] := rfl

@[simp] theorem result_bind (r : Run α) (f : α → Run β) :
    (r >>= f).result = r.result >>= fun a => (f a).result := by
  show (r.bind f).result = _
  cases h : r.result with
  | error e => simp [h]
  | ok a => simp [h]

theorem result_bind_eq_ok {r : Run α} {f : α → Run β} {b : β} :
    (r >>= f).result = .ok b ↔ ∃ a, r.result = .ok a ∧ (f a).result = .ok b := by
  rw [result_bind, Except.bind_eq_ok]

@[simp] theorem result_map (f : α → β) (r : Run α) : (f <$> r).result = f <$> r.result := by
  show (r.bind (Run.pure ∘ f)).result = _
  cases h : r.result with
  | error e => simp only [bind_of_error h]; rfl
  | ok a => simp only [bind_of_ok h]; rfl

@[simp] theorem log_map (f : α → β) (r : Run α) : (f <$> r).log = r.log := by
  show (r.bind (Run.pure ∘ f)).log = _
  cases h : r.result with
  | error e => simp only [bind_of_error h]
  | ok a => simp [bind_of_ok h, Run.pure]

theorem log_bind_of_result {r : Run α} {a : α} (h : r.result = .ok a) (f : α → Run β) :
    (r >>= f).log = r.log ++ (f a).log := by
  show (r.bind f).log = _
  rw [bind_of_ok h]

theorem log_bind_of_failure {r : Run α} {e : Failure} (h : r.result = .error e) (f : α → Run β) :
    (r >>= f).log = r.log := by
  show (r.bind f).log = _
  rw [bind_of_error h]

theorem log_bind_congr (r : Run α) {f : α → Run β} {g : α → Run γ}
    (h : ∀ a, (f a).log = (g a).log) : (r >>= f).log = (r >>= g).log := by
  cases hr : r.result with
  | error e => rw [log_bind_of_failure hr, log_bind_of_failure hr]
  | ok a => rw [log_bind_of_result hr, log_bind_of_result hr, h]

theorem bind_congr_of_result {r : Run α} {f g : α → Run β} (h : ∀ a, r.result = .ok a → f a = g a) :
    r >>= f = r >>= g := by
  show r.bind f = r.bind g
  cases hr : r.result with
  | error e => rw [bind_of_error hr, bind_of_error hr]
  | ok a => rw [bind_of_ok hr, bind_of_ok hr, h a hr]

@[simp] theorem result_ofExcept (x : Except Failure α) : (ofExcept x).result = x := rfl

@[simp] theorem log_ofExcept (x : Except Failure α) : (ofExcept x).log = [] := rfl

@[simp] theorem result_ofFault (x : Except Fault α) : (ofFault x).result = Fault.lift x := rfl

@[simp] theorem log_ofFault (x : Except Fault α) : (ofFault x).log = [] := rfl

@[simp] theorem result_record (level : Level) (source : Source) (text : Except Fault Text) :
    (record level source text).result = .ok () := rfl

@[simp] theorem log_record (level : Level) (source : Source) (text : Except Fault Text) :
    (record level source text).log = [⟨level, source, text⟩] := rfl

@[simp] theorem result_forM_record (items : List α) (level : Level) (source : Source)
    (text : α → Except Fault Text) :
    (items.forM fun item => record level source (text item)).result = .ok () := by
  induction items with
  | nil => rfl
  | cons item rest ih =>
    show ((record level source (text item) >>= fun _ => rest.forM _) : Run Unit).result = _
    rw [result_bind, result_record, Except.ok_bind, ih]

@[simp] theorem log_forM_record (items : List α) (level : Level) (source : Source)
    (text : α → Except Fault Text) :
    (items.forM fun item => record level source (text item)).log =
      items.map fun item => ⟨level, source, text item⟩ := by
  induction items with
  | nil => rfl
  | cons item rest ih =>
    show ((record level source (text item) >>= fun _ => rest.forM _) : Run Unit).log = _
    rw [log_bind_of_result (result_record ..), ih]
    rfl

theorem result_attempt (r : Run α) :
    r.attempt.result = match r.result with
      | .ok a => .ok (.ok a)
      | .error (.rejected reason) => .ok (.error reason)
      | .error (.fault f) => .error (.fault f) := by
  unfold attempt
  cases r.result with
  | ok a => rfl
  | error e => cases e <;> rfl

theorem result_attempt_eq_ok {r : Run α} {a : α} :
    r.attempt.result = .ok (.ok a) ↔ r.result = .ok a := by
  rw [result_attempt]
  cases r.result with
  | ok b => simp
  | error e => cases e <;> simp

@[simp] theorem log_attempt (r : Run α) : r.attempt.log = r.log := by
  unfold attempt
  split <;> rfl

theorem result_mapM (f : α → Run β) (items : List α) :
    (items.mapM f).result = items.mapM fun a => (f a).result := by
  induction items with
  | nil => rfl
  | cons a rest ih => simp only [List.mapM_cons, result_bind, result_pure, ih]; rfl

theorem log_mapM {f : α → Run β} {items : List α}
    (h : ∀ a ∈ items, ∃ b, (f a).result = .ok b) :
    (items.mapM f).log = items.flatMap fun a => (f a).log := by
  induction items with
  | nil => rfl
  | cons a rest ih =>
    obtain ⟨b, hb⟩ := h a (by simp)
    have hrest := ih fun a ha => h a (by simp [ha])
    rw [List.mapM_cons, log_bind_of_result hb, List.flatMap_cons, ← hrest]
    simp

/-- A run that is one run and then another, with both lists joined. A failure of the first leaves nothing
of the second. -/
structure Joins (first second both : Run (List α)) : Prop where
  of_error : ∀ e, first.result = .error e → both.result = .error e ∧ both.log = first.log
  of_ok : ∀ as, first.result = .ok as →
    (∀ e, second.result = .error e → both.result = .error e) ∧
    (∀ bs, second.result = .ok bs → both.result = .ok (as ++ bs)) ∧
    both.log = first.log ++ second.log

theorem joins_of_eq {first second both : Run (List α)}
    (h : both = do
      let as ← first
      return as ++ (← second)) : Joins first second both := by
  subst h
  constructor
  · intro e he
    rw [log_bind_of_failure he, result_bind, he, Except.error_bind]
    exact ⟨rfl, rfl⟩
  · intro as has
    refine ⟨?_, ?_, ?_⟩
    · intro e he
      rw [result_bind, has, Except.ok_bind, result_bind, he, Except.error_bind]
    · intro bs hbs
      rw [result_bind, has, Except.ok_bind, result_bind, hbs, Except.ok_bind, result_pure]
    · rw [log_bind_of_result has]
      congr 1
      exact log_map _ _

/-! ### What is logged -/

def Logs (P : Record → Prop) (r : Run α) : Prop := ∀ record ∈ r.log, P record

variable {P Q : Record → Prop}

theorem Logs.imp {r : Run α} (hr : r.Logs P) (h : ∀ record, P record → Q record) : r.Logs Q := by
  intro record hrecord
  exact h record (hr record hrecord)

theorem logs_pure (a : α) : (pure a : Run α).Logs P := by
  intro record h
  cases h

theorem logs_ofExcept (x : Except Failure α) : (ofExcept x).Logs P := by
  intro record h
  cases h

theorem logs_record {level : Level} {source : Source} {text : Except Fault Text}
    (h : P ⟨level, source, text⟩) : (record level source text).Logs P := by
  intro entry hentry
  rw [log_record, List.mem_singleton] at hentry
  rw [hentry]
  exact h

theorem logs_forM_record {items : List α} {level : Level} {source : Source}
    {text : α → Except Fault Text} (h : ∀ item, P ⟨level, source, text item⟩) :
    (items.forM fun item => record level source (text item)).Logs P := by
  intro entry hentry
  rw [log_forM_record] at hentry
  obtain ⟨item, -, rfl⟩ := List.mem_map.mp hentry
  exact h item

theorem logs_bind {r : Run α} {f : α → Run β} (hr : r.Logs P) (hf : ∀ a, (f a).Logs P) :
    (r >>= f).Logs P := by
  intro record hrecord
  cases hresult : r.result with
  | error e =>
    rw [log_bind_of_failure hresult] at hrecord
    exact hr record hrecord
  | ok a =>
    rw [log_bind_of_result hresult, List.mem_append] at hrecord
    exact hrecord.elim (hr record) (hf a record)

theorem logs_mapM {f : α → Run β} {items : List α} (hf : ∀ a, (f a).Logs P) :
    (items.mapM f).Logs P := by
  induction items with
  | nil => exact logs_pure _
  | cons a rest ih =>
    rw [List.mapM_cons]
    exact logs_bind (hf a) fun _ => logs_bind ih fun _ => logs_pure _

theorem logs_when {c : Prop} [Decidable c] {step : Run Unit} {next : Run α} (hstep : step.Logs P)
    (hnext : next.Logs P) : (if c then step >>= fun _ => next else next).Logs P := by
  split
  · exact logs_bind hstep fun _ => hnext
  · exact hnext

theorem Logs.filter_eq_nil {r : Run α} (hr : r.Logs P) {p : Record → Bool}
    (h : ∀ record, P record → p record = false) : r.log.filter p = [] := by
  apply List.filter_eq_nil_iff.mpr
  intro record hrecord
  simp [h record (hr record hrecord)]

/-! ### Runs that agree -/

/-- Two runs that log the same and fail alike, or return related values. -/
structure Agree (R : α → β → Prop) (r : Run α) (s : Run β) : Prop where
  log : r.log = s.log
  result : Except.Agree R r.result s.result

namespace Agree

variable {R : α → β → Prop} {S : γ → δ → Prop}

theorem pure {a : α} {b : β} (h : R a b) : Agree R (Pure.pure a) (Pure.pure b) := ⟨rfl, .ok h⟩

theorem ofExcept {x : Except Failure α} {y : Except Failure β} (h : Except.Agree R x y) :
    Agree R (Run.ofExcept x) (Run.ofExcept y) := ⟨rfl, h⟩

theorem ofFault {x : Except Fault α} {y : Except Fault β} (h : Except.Agree R x y) :
    Agree R (Run.ofFault x) (Run.ofFault y) := ⟨rfl, h.lift⟩

theorem of_eq {r s : Run α} (h : r = s) : Agree (· = ·) r s :=
  h ▸ ⟨rfl, .of_forall (fun _ => rfl) _⟩

theorem bind {r : Run α} {s : Run β} {f : α → Run γ} {g : β → Run δ} (h : Agree R r s)
    (hfg : ∀ a b, R a b → Agree S (f a) (g b)) : Agree S (r >>= f) (s >>= g) := by
  obtain ⟨hlog, hresult⟩ := h
  generalize hr : r.result = x, hs : s.result = y at hresult
  cases hresult with
  | error e =>
    refine ⟨?_, ?_⟩
    · rw [log_bind_of_failure hr, log_bind_of_failure hs, hlog]
    · rw [result_bind, result_bind, hr, hs]
      exact .error e
  | ok hab =>
    refine ⟨?_, ?_⟩
    · rw [log_bind_of_result hr, log_bind_of_result hs, hlog, (hfg _ _ hab).log]
    · rw [result_bind, result_bind, hr, hs]
      exact (hfg _ _ hab).result

theorem bind_same (r : Run α) {f : α → Run γ} {g : α → Run δ} (h : ∀ a, Agree S (f a) (g a)) :
    Agree S (r >>= f) (r >>= g) :=
  (of_eq rfl).bind fun a _ hab => hab ▸ h a

theorem when {c c' : Prop} [Decidable c] [Decidable c'] (hc : c ↔ c') {step step' : Run Unit}
    (hstep : step = step') {r : Run γ} {s : Run δ} (h : Agree S r s) :
    Agree S (if c then step >>= fun _ => r else r) (if c' then step' >>= fun _ => s else s) := by
  subst hstep
  by_cases hcond : c
  · rw [if_pos hcond, if_pos (hc.mp hcond)]
    exact bind_same step fun _ => h
  · rw [if_neg hcond, if_neg (hcond ∘ hc.mpr)]
    exact h

theorem attempt {r : Run α} {s : Run β} (h : Agree R r s) :
    Agree (Except.Agree R) r.attempt s.attempt := by
  obtain ⟨hlog, hresult⟩ := h
  refine ⟨by rw [log_attempt, log_attempt, hlog], ?_⟩
  rw [result_attempt, result_attempt]
  generalize r.result = x, s.result = y at hresult
  cases hresult with
  | error e =>
    cases e with
    | rejected reason => exact .ok (.error reason)
    | fault f => exact .error _
  | ok hab => exact .ok (.ok hab)

theorem mapM {f : α → Run γ} {g : β → Run δ} {as : List α} {bs : List β}
    (h : List.Forall₂ (fun a b => Agree S (f a) (g b)) as bs) :
    Agree (List.Forall₂ S) (as.mapM f) (bs.mapM g) := by
  induction h with
  | nil => exact .pure .nil
  | cons hab _ ih =>
    rw [List.mapM_cons, List.mapM_cons]
    exact hab.bind fun _ _ hfirst => ih.bind fun _ _ hrest => .pure (.cons hfirst hrest)

end Agree
end Run
end ClusterRegistrar
