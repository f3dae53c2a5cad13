import ClusterRegistrar.Proofs.TakeAlong.Scan
import Mathlib.Data.List.Induction
import Mathlib.Data.List.Perm.Subperm

/-! The order of metadata. Requests are gone through in the order of their keys, which a mapping does
not promise to keep. What is reported and which keys are taken along never depends on it, and what is
under them only where the marker of one target has the key of another one that is taken along too: both
write there, and they agree if the value that is copied is as empty as a marker. -/
namespace ClusterRegistrar

theorem nodup_eraseDups [BEq α] [LawfulBEq α] (items : List α) : items.eraseDups.Nodup := by
  induction items using List.reverseRecOn with
  | nil => exact List.nodup_nil
  | append_singleton items a ih =>
    rw [eraseDups_concat]
    split
    · exact ih
    · rename_i hnew
      exact ih.append (List.nodup_singleton a) (List.disjoint_singleton.mpr hnew)

private theorem exists_perm_pair {a b : α} {items : List α} (ha : a ∈ items) (hb : b ∈ items)
    (hne : a ≠ b) : ∃ rest, (a :: b :: rest).Perm items := by
  obtain ⟨before, after, rfl⟩ := List.append_of_mem ha
  have hother : b ∈ before ++ after := by simpa [hne.symm] using hb
  obtain ⟨left, right, hsplit⟩ := List.append_of_mem hother
  have hright : (b :: (left ++ right)).Perm (before ++ after) := by
    rw [hsplit]
    exact List.perm_middle.symm
  exact ⟨left ++ right, (hright.cons a).trans List.perm_middle.symm⟩

namespace TakeAlong

variable {name : Text} {entries moved : Entries} {resource : Option Text}

theorem outcome_of_bare (h : (entries.field? (requestLead name)).isSome) :
    outcome name entries resource = ⟨[], [.malformedKey name (requestLead name)]⟩ :=
  if_pos (bare_mem_asked.mpr h)

/-! ### What does not depend on the order -/

section

variable (h : moved.Perm entries) (hdistinct : moved.texts.Nodup)

include h

theorem asked_perm : (asked name moved.texts).Perm (asked name entries.texts) :=
  (Entries.texts_perm h).filterMap _

theorem named_perm : (named name moved.texts).Perm (named name entries.texts) :=
  (asked_perm h).filter _

include hdistinct

theorem requested_perm {t : Text} : Requested name moved t ↔ Requested name entries t := by
  have hfield := Entries.field?_perm h hdistinct
  constructor
  · rintro ⟨hnamed, hrequest, hpresent⟩
    exact ⟨hnamed, hfield _ ▸ hrequest, hfield _ ▸ hpresent⟩
  · rintro ⟨hnamed, hrequest, hpresent⟩
    exact ⟨hnamed, hfield _ ▸ hrequest, hfield _ ▸ hpresent⟩

theorem sets_perm {t key : Text} {value : Value} :
    Sets name moved t key value ↔ Sets name entries t key value := by
  rw [sets_iff, sets_iff, Entries.field?_perm h hdistinct]

theorem problems_outcome_perm :
    (outcome name moved resource).problems.Perm (outcome name entries resource).problems := by
  have hfield := Entries.field?_perm h hdistinct
  cases hbare : entries.field? (requestLead name) with
  | none =>
    rw [problems_outcome ((hfield _).trans hbare), problems_outcome hbare]
    simp only [hfield]
    exact ((named_perm h).filter _).map _
  | some bare =>
    have hentries := Option.isSome_of_eq_some hbare
    rw [outcome_of_bare (hfield _ ▸ hentries), outcome_of_bare hentries]

theorem map_fst_outcome_perm :
    ((outcome name moved resource).entries.map Prod.fst).Perm
      ((outcome name entries resource).entries.map Prod.fst) := by
  have hfield := Entries.field?_perm h hdistinct
  cases hbare : entries.field? (requestLead name) with
  | none =>
    have hkeys : keysOf name moved = keysOf name entries := by
      funext t
      rw [keysOf, keysOf, hfield]
    rw [map_fst_outcome ((hfield _).trans hbare), map_fst_outcome hbare, hkeys]
    refine List.Perm.map _ ?_
    rw [List.perm_ext_iff_of_nodup (nodup_eraseDups _) (nodup_eraseDups _)]
    intro key
    rw [List.mem_eraseDups, List.mem_eraseDups, ((named_perm h).flatMap_right _).mem_iff]
  | some bare =>
    have hentries := Option.isSome_of_eq_some hbare
    rw [outcome_of_bare (hfield _ ▸ hentries), outcome_of_bare hentries]

end

/-! ### What depends on it -/

/-- A target that is taken along has the key of the marker of another one, and a value of its own. -/
def Clashes (name : Text) (entries : Entries) (t u : Text) : Prop :=
  Requested name entries t ∧ Requested name entries u ∧ t = markerLead name ++ u ∧
    entries.field? t ≠ some (.str [])

theorem clashes_perm (h : moved.Perm entries) (hdistinct : moved.texts.Nodup) {t u : Text} :
    Clashes name moved t u ↔ Clashes name entries t u := by
  rw [Clashes, Clashes, requested_perm h hdistinct, requested_perm h hdistinct,
    Entries.field?_perm h hdistinct]

theorem Sets.unique (hclash : ¬∃ t u, Clashes name entries t u) {t u key : Text} {v w : Value}
    (ht : Requested name entries t) (hu : Requested name entries u)
    (hv : Sets name entries t key v) (hw : Sets name entries u key w) : v = w := by
  have hempty {t u : Text} {v : Value} (ht : Requested name entries t)
      (hu : Requested name entries u) (hkey : t = markerLead name ++ u)
      (hv : entries.field? t = some v) : v = .str [] := by
    by_contra hvalue
    refine hclash ⟨t, u, ht, hu, hkey, fun hnone => hvalue ?_⟩
    exact Option.some.inj (hv.symm.trans hnone)
  obtain ⟨-, ⟨rfl, hcopy⟩ | ⟨hkey, rfl⟩⟩ := sets_iff.mp hv
  · obtain ⟨-, ⟨rfl, hother⟩ | ⟨hmarker, rfl⟩⟩ := sets_iff.mp hw
    · exact Option.some.inj (hcopy.symm.trans hother)
    · exact hempty ht hu hmarker hcopy
  · obtain ⟨-, ⟨rfl, hother⟩ | ⟨-, rfl⟩⟩ := sets_iff.mp hw
    · exact (hempty hu ht hkey hother).symm
    · rfl

theorem exists_sets_of_mem {entry : Atom × Value}
    (h : entry ∈ (outcome name entries resource).entries) :
    ∃ t key value, entry = (.str key, value) ∧ Requested name entries t ∧
      Sets name entries t key value := by
  obtain ⟨t, ht, ⟨hkey, hvalue⟩ | rfl⟩ := mem_outcome h
  · exact ⟨t, t, entry.2, Prod.ext hkey rfl, ht, .copy hvalue⟩
  · exact ⟨t, _, _, rfl, ht, sets_iff.mpr ⟨ht.present, .inr ⟨rfl, rfl⟩⟩⟩

theorem mem_outcome_of_sets (hbare : entries.field? (requestLead name) = none)
    (hclash : ¬∃ t u, Clashes name entries t u) {t key : Text} {value : Value}
    (ht : Requested name entries t) (hset : Sets name entries t key value) :
    (.str key, value) ∈ (outcome name entries resource).entries := by
  obtain ⟨found, hfound, rfl⟩ : ∃ found,
      (outcome name entries resource).entries.field? key = some found ∧ found = value :=
    exists_field?_outcome hbare (fun u w hu hw => Sets.unique hclash hu ht hw hset) ht hset
  exact Keyed.mem_of_get? hfound

theorem nodup_keys_outcome (name : Text) (entries : Entries) (resource : Option Text) :
    ((outcome name entries resource).entries.map Prod.fst).Nodup := by
  cases hbare : entries.field? (requestLead name) with
  | none =>
    rw [map_fst_outcome hbare]
    exact (nodup_eraseDups _).map fun _ _ h => Atom.str.inj h
  | some bare =>
    rw [outcome_of_bare (Option.isSome_of_eq_some hbare)]
    exact List.nodup_nil

/-- Without a clash, the same is taken along in every order. -/
theorem outcome_perm_of_noClash (hdistinct : entries.texts.Nodup)
    (hbare : entries.field? (requestLead name) = none)
    (hclash : ¬∃ t u, Clashes name entries t u) (h : moved.Perm entries) :
    (outcome name moved resource).entries.Perm (outcome name entries resource).entries := by
  have hmoved := (Entries.texts_perm h).symm.nodup hdistinct
  -- Keys are as many in both, so it is enough that nothing new comes with the other order.
  refine (List.subperm_of_subset (.of_map _ (nodup_keys_outcome ..)) ?_).perm_of_length_le ?_
  · intro entry hentry
    obtain ⟨t, key, value, rfl, ht, hset⟩ := exists_sets_of_mem hentry
    exact mem_outcome_of_sets hbare hclash ((requested_perm h hmoved).mp ht)
      ((sets_perm h hmoved).mp hset)
  · have hkeys : ((outcome name moved resource).entries.map Prod.fst).Perm
        ((outcome name entries resource).entries.map Prod.fst) := map_fst_outcome_perm h hmoved
    have hlength := hkeys.length_eq
    rw [List.length_map, List.length_map] at hlength
    exact Nat.le_of_eq hlength.symm

/-! ### Both orders of two requests -/

theorem exists_precedes {t u : Text} (ht : Requested name entries t) (hu : Requested name entries u)
    (hne : t ≠ u) : ∃ moved, moved.Perm entries ∧ Precedes name moved t u := by
  obtain ⟨v, hv⟩ := Option.isSome_iff_exists.mp ht.request
  obtain ⟨w, hw⟩ := Option.isSome_iff_exists.mp hu.request
  have hkeys : (Atom.str (requestLead name ++ t), v) ≠ (Atom.str (requestLead name ++ u), w) := by
    intro heq
    exact hne (List.append_cancel_left (Atom.str.inj (Prod.mk.inj heq).1))
  obtain ⟨rest, hperm⟩ := exists_perm_pair (Keyed.mem_of_get? hv) (Keyed.mem_of_get? hw) hkeys
  refine ⟨_, hperm, ?_⟩
  have hasked (target : Text) (value : Value) (rest : Entries) :
      asked name (Entries.texts ((.str (requestLead name ++ target), value) :: rest)) =
        target :: asked name (Entries.texts rest) :=
    List.filterMap_cons_some (Affix.dropStart?_append ..)
  have hnamed : named name (Entries.texts ((.str (requestLead name ++ t), v) ::
      (.str (requestLead name ++ u), w) :: rest)) = t :: u :: named name (Entries.texts rest) := by
    have ht := decide_eq_true ht.named
    have hu := decide_eq_true hu.named
    rw [named, hasked, hasked, List.filter_cons, if_pos ht, List.filter_cons, if_pos hu]
    rfl
  rw [Precedes, hnamed]
  exact ((List.nil_sublist _).cons_cons u).cons_cons t

section

variable {t u : Text} (hdistinct : entries.texts.Nodup)
  (hbare : entries.field? (requestLead name) = none) (h : Clashes name entries t u)

include hdistinct hbare h

theorem field?_outcome_of_precedes (hprecedes : Precedes name entries t u) :
    (outcome name entries resource).entries.field? t = some (.str []) := by
  obtain ⟨-, hu, rfl, -⟩ := h
  refine field?_marked hdistinct hbare hu (fun hcopied => ?_) resource
  exact not_sublist_swapped ((asked_nodup hdistinct).filter _) hprecedes hcopied.2

theorem field?_outcome_of_precedes_swapped (hprecedes : Precedes name entries u t) :
    (outcome name entries resource).entries.field? t = entries.field? t := by
  obtain ⟨ht, -, rfl, -⟩ := h
  refine field?_copied hdistinct hbare ht (fun hmarked => ?_) resource
  obtain ⟨v, -, hkey, hlater⟩ := hmarked
  cases List.append_cancel_left hkey
  exact not_sublist_swapped ((asked_nodup hdistinct).filter _) hprecedes hlater

end

/-- What is taken along is the same in every order exactly if nothing is, because of a request that names
no target, or no two targets clash. -/
theorem outcome_perm_iff (hdistinct : entries.texts.Nodup) :
    (∀ moved : Entries, moved.Perm entries →
        (outcome name moved resource).entries.Perm (outcome name entries resource).entries) ↔
      (entries.field? (requestLead name)).isSome ∨ ¬∃ t u, Clashes name entries t u := by
  constructor
  · intro hall
    rw [or_iff_not_imp_left, Option.not_isSome_iff_eq_none]
    rintro hbare ⟨t, u, hclash⟩
    have hne : t ≠ u := by
      rw [hclash.2.2.1]
      exact markerLead_append_ne name u
    -- Whichever of the two requests comes first, `t` is found as it is in the given order.
    have hfound {moved : Entries} (h : moved.Perm entries) :
        (outcome name moved resource).entries.field? t =
          (outcome name entries resource).entries.field? t :=
      Entries.field?_perm (hall moved h) (Entries.texts_nodup (nodup_keys_outcome ..)) t
    obtain ⟨marked, hmarked, hlast⟩ := exists_precedes hclash.1 hclash.2.1 hne
    obtain ⟨copied, hcopied, hfirst⟩ := exists_precedes hclash.2.1 hclash.1 hne.symm
    have hmoved {moved : Entries} (h : moved.Perm entries) : moved.texts.Nodup :=
      (Entries.texts_perm h).symm.nodup hdistinct
    have hnone {moved : Entries} (h : moved.Perm entries) :
        moved.field? (requestLead name) = none :=
      (Entries.field?_perm h (hmoved h) _).trans hbare
    have hmarker : (outcome name _ resource).entries.field? t = some (.str []) :=
      field?_outcome_of_precedes (hmoved hmarked) (hnone hmarked)
        ((clashes_perm hmarked (hmoved hmarked)).mpr hclash) hlast
    have hcopy : (outcome name _ resource).entries.field? t = _ :=
      field?_outcome_of_precedes_swapped (hmoved hcopied) (hnone hcopied)
        ((clashes_perm hcopied (hmoved hcopied)).mpr hclash) hfirst
    rw [hfound hmarked] at hmarker
    rw [hfound hcopied, hmarker, Entries.field?_perm hcopied (hmoved hcopied)] at hcopy
    exact hclash.2.2.2 hcopy.symm
  · intro hcases moved h
    cases hbare : entries.field? (requestLead name) with
    | none =>
      rw [hbare] at hcases
      exact outcome_perm_of_noClash hdistinct hbare (hcases.resolve_left nofun) h
    | some bare =>
      have hentries := Option.isSome_of_eq_some hbare
      have hmoved := (Entries.texts_perm h).symm.nodup hdistinct
      rw [outcome_of_bare (Entries.field?_perm h hmoved _ ▸ hentries), outcome_of_bare hentries]

/-! ### Scans -/

def Reorders (other metadata : Value) : Prop :=
  ∃ moved entries, other.entries? = some moved ∧ metadata.entries? = some entries ∧
    moved.Perm entries

structure Outcome.Alike (o o' : Outcome) : Prop where
  entries : o.entries.Perm o'.entries
  problems : o.problems.Perm o'.problems

/-- Scans of the same metadata in different orders report the same problems and take the same keys
along. They have the same outcome in every order exactly if a request names no target, which discards
everything, or no target that is taken along has the key of the marker of another one and a value that is
not empty. -/
theorem alike_in_every_order_iff {metadata : Value} {entries : Entries}
    (h : metadata.entries? = some entries) (hkeys : ∀ entry ∈ entries, ∃ t, entry.1 = .str t)
    (hdistinct : entries.texts.Nodup) (kind : MetadataKind) (resource : Option Text) :
    ∃ o, (collect kind metadata resource).result = .ok o ∧ (o.entries.map Prod.fst).Nodup ∧
      (∀ other, Reorders other metadata → ∃ o', (collect kind other resource).result = .ok o' ∧
        o'.problems.Perm o.problems ∧ (o'.entries.map Prod.fst).Perm (o.entries.map Prod.fst)) ∧
      ((∀ other o', Reorders other metadata → (collect kind other resource).result = .ok o' →
          o'.Alike o) ↔
        (entries.field? (requestLead kind.name)).isSome ∨
          ¬∃ t u, Clashes kind.name entries t u) := by
  have hcollect {other : Value} {moved : Entries} (hother : other.entries? = some moved)
      (hperm : moved.Perm entries) :
      (collect kind other resource).result = .ok (outcome kind.name moved resource) :=
    result_collect hother (fun entry hentry => hkeys entry (hperm.mem_iff.mp hentry)) kind resource
  have hmoved {moved : Entries} (hperm : moved.Perm entries) : moved.texts.Nodup :=
    (Entries.texts_perm hperm).symm.nodup hdistinct
  refine ⟨_, hcollect h (.refl _), nodup_keys_outcome .., ?_, ?_⟩
  · rintro other ⟨moved, _, hother, hentries, hperm⟩
    cases h.symm.trans hentries
    exact ⟨_, hcollect hother hperm, problems_outcome_perm hperm (hmoved hperm),
      map_fst_outcome_perm hperm (hmoved hperm)⟩
  · have horders : (∀ moved : Entries, moved.Perm entries →
        (outcome kind.name moved resource).entries.Perm (outcome kind.name entries resource).entries) ↔
          _ := outcome_perm_iff hdistinct
    rw [← horders]
    constructor
    · intro hall moved hperm
      have hother : (Value.map moved).entries? = some moved := rfl
      exact (hall _ _ ⟨moved, entries, hother, h, hperm⟩ (hcollect hother hperm)).entries
    · rintro hall other o' ⟨moved, _, hother, hentries, hperm⟩ ho'
      cases h.symm.trans hentries
      cases (hcollect hother hperm).symm.trans ho'
      exact ⟨hall moved hperm, problems_outcome_perm hperm (hmoved hperm)⟩

def agreeing : Entries := [
  (.str "take-along-label.capi-to-argocd.env", ""), (.str "env", "prod"),
  (.str ("take-along-label.capi-to-argocd." ++ markerLead "label" ++ "env"), ""),
  (.str (markerLead "label" ++ "env"), "")]

theorem overlapping_unlike_agreeing :
    (∃ o other o', (collect .labels (.map overlapping) none).result = .ok o ∧
      Reorders other (.map overlapping) ∧ (collect .labels other none).result = .ok o' ∧
      ¬o'.Alike o) ∧
    ∃ o, (collect .labels (.map agreeing) none).result = .ok o ∧
      ∀ other o', Reorders other (.map agreeing) → (collect .labels other none).result = .ok o' →
        o'.Alike o := by
  constructor
  · obtain ⟨o, ho, -, -, hiff⟩ := alike_in_every_order_iff
      (show (Value.map overlapping).entries? = _ from rfl) (by simp [overlapping])
      (by decide +kernel) .labels none
    by_contra hnone
    have henv : Requested "label" overlapping "env" := ⟨by decide, by decide, by decide⟩
    have hmarker : Requested "label" overlapping (markerLead "label" ++ "env") :=
      ⟨by decide, by decide, by decide⟩
    rcases hiff.mp fun other o' hother ho' => by_contra fun hnot =>
      hnone ⟨o, other, o', ho, hother, ho', hnot⟩ with hbare | hclash
    · exact absurd hbare (by decide)
    · refine hclash ⟨_, _, hmarker, henv, rfl, fun hempty => ?_⟩
      exact absurd (congrArg (Option.any (Value.isText · "x")) hempty) (by decide)
  · obtain ⟨o, ho, -, -, hiff⟩ := alike_in_every_order_iff
      (show (Value.map agreeing).entries? = _ from rfl) (by simp [agreeing])
      (by decide +kernel) .labels none
    refine ⟨o, ho, hiff.mpr (.inr ?_)⟩
    rintro ⟨t, u, ht, -, hkey, hvalue⟩
    have hvalues : ∀ t ∈ agreeing.texts, t = "env" ∨ agreeing.field? t = some (.str []) := by
      refine List.forall_mem_cons.mpr ⟨.inr rfl, List.forall_mem_cons.mpr ⟨.inl rfl, ?_⟩⟩
      exact List.forall_mem_cons.mpr ⟨.inr rfl, List.forall_mem_singleton.mpr (.inr rfl)⟩
    cases (hvalues t (Entries.field?_isSome_iff.mp ht.present)).resolve_right hvalue
    cases congrArg List.head? hkey

end TakeAlong
end ClusterRegistrar
