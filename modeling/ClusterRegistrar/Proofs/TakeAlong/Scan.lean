import ClusterRegistrar.Proofs.TakeAlong
import Mathlib.Data.List.Nodup

/-! The outcome of a scan, to the last entry. The requests of a mapping are gone through once, and each
one sets a copy and a marker or reports that its target is missing. Copies and markers share one
mapping, where a key keeps the place of its first insertion and has what was set there last: a target
that has the key of a marker is the one case in which two requests set the same key. -/
namespace ClusterRegistrar

namespace Keyed

variable {entries : Keyed α} {keys : List Text}

theorem map_fst_put (h : entries.map Prod.fst = keys.map Atom.str) (t : Text) (a : α) :
    (put entries (.str t) a).map Prod.fst =
      (if t ∈ keys then keys else keys ++ [t]).map Atom.str := by
  induction entries generalizing keys with
  | nil =>
    obtain rfl : keys = [] := by simpa using h.symm
    rfl
  | cons first rest ih =>
    cases keys with
    | nil => cases h
    | cons u keys =>
      obtain ⟨hfirst, hrest⟩ := List.cons.inj h
      by_cases hsame : t = u
      · have hkey : first.1.same (.str t) = true := by rw [hfirst, hsame, Atom.same_str]
        rw [put, if_pos hkey, if_pos (by simp [hsame])]
        exact h
      · have hkey : ¬first.1.same (.str t) = true := by
          rw [hfirst, Atom.same_str, Atom.str.injEq]
          exact Ne.symm hsame
        rw [put, if_neg hkey, List.map_cons, ih hrest, hfirst]
        simp only [List.mem_cons, hsame, false_or]
        split <;> rfl

end Keyed

theorem eraseDups_concat [BEq α] [LawfulBEq α] (items : List α) (a : α) :
    (items ++ [a]).eraseDups =
      if a ∈ items.eraseDups then items.eraseDups else items.eraseDups ++ [a] := by
  rw [List.eraseDups_append]
  by_cases h : a ∈ items
  · simp [List.removeAll, h]
  · simp [List.removeAll, h, List.eraseDups_cons]

namespace TakeAlong

def named (name : Text) (keys : List Text) : List Text := (asked name keys).filter (· ≠ [])

variable {name : Text} {entries : Entries} {resource : Option Text}

theorem named_of_not_bare (h : entries.field? (requestLead name) = none) :
    named name entries.texts = asked name entries.texts := by
  refine List.filter_eq_self.mpr fun t ht => decide_eq_true ?_
  rintro rfl
  rw [bare_mem_asked, h] at ht
  cases ht

theorem mem_named {t : Text} (h : (entries.field? t).isSome) :
    t ∈ named name entries.texts ↔ Requested name entries t := by
  rw [named, List.mem_filter, mem_asked, decide_eq_true_eq]
  exact ⟨fun ⟨hrequest, hne⟩ => ⟨hne, hrequest, h⟩, fun ht => ⟨ht.request, ht.named⟩⟩

theorem asked_nodup {keys : List Text} (h : keys.Nodup) : (asked name keys).Nodup := by
  refine List.Nodup.filterMap (fun key other target hkey hother => ?_) h
  rw [Option.mem_def, Affix.dropStart?_eq_some] at hkey hother
  rw [hkey, hother]

/-! ### Keys -/

def keysOf (name : Text) (entries : Entries) (target : Text) : List Text :=
  if (entries.field? target).isSome then [target, markerLead name ++ target] else []

theorem map_fst_take {o : Outcome} {keys : List Text}
    (h : o.entries.map Prod.fst = keys.eraseDups.map Atom.str) (target : Text) :
    (Outcome.take name entries resource o target).entries.map Prod.fst =
      (keys ++ keysOf name entries target).eraseDups.map Atom.str := by
  unfold Outcome.take keysOf
  cases hfield : entries.field? target with
  | none => simpa using h
  | some value =>
    have hcopied := Keyed.map_fst_put h target value
    rw [← eraseDups_concat] at hcopied
    have hmarked := Keyed.map_fst_put hcopied (markerLead name ++ target) (.str [])
    rw [← eraseDups_concat, List.append_assoc] at hmarked
    exact hmarked

theorem map_fst_foldl_take {o : Outcome} {keys : List Text}
    (h : o.entries.map Prod.fst = keys.eraseDups.map Atom.str) (found : List Text) :
    (found.foldl (Outcome.take name entries resource) o).entries.map Prod.fst =
      (keys ++ found.flatMap (keysOf name entries)).eraseDups.map Atom.str := by
  induction found generalizing o keys with
  | nil => simpa using h
  | cons target rest ih =>
    rw [List.foldl_cons, ih (map_fst_take h target), List.flatMap_cons, List.append_assoc]

/-- The keys that are taken along, in the order in which they are first set. -/
theorem map_fst_outcome (h : entries.field? (requestLead name) = none) :
    (outcome name entries resource).entries.map Prod.fst =
      ((named name entries.texts).flatMap (keysOf name entries)).eraseDups.map Atom.str := by
  have hnone : [] ∉ asked name entries.texts := by
    rw [bare_mem_asked, h]
    exact nofun
  rw [outcome, if_neg hnone, named_of_not_bare h]
  have hstart : (⟨[], []⟩ : Outcome).entries.map Prod.fst = ([] : List Text).eraseDups.map Atom.str :=
    rfl
  exact map_fst_foldl_take hstart _

theorem problems_outcome (h : entries.field? (requestLead name) = none) :
    (outcome name entries resource).problems =
      ((named name entries.texts).filter fun target => (entries.field? target).isNone).map
        fun target => .missingTarget name target resource := by
  have hnone : [] ∉ asked name entries.texts := by
    rw [bare_mem_asked, h]
    exact nofun
  rw [outcome, if_neg hnone, named_of_not_bare h, problems_foldl_take, List.nil_append]

/-- A scan of metadata whose keys are texts returns. A request of nothing discards everything, wherever
it stands; else each target that is named is either missing and reported or there and copied with its
marker, once and in order. -/
theorem collected_exactly {metadata : Value} (h : metadata.entries? = some entries)
    (hkeys : ∀ entry ∈ entries, ∃ t, entry.1 = .str t) (hdistinct : entries.texts.Nodup)
    (kind : MetadataKind) (resource : Option Text) :
    ∃ o, (collect kind metadata resource).result = .ok o ∧
      ((entries.field? (requestLead kind.name)).isSome →
        o.entries = [] ∧ o.problems = [.malformedKey kind.name (requestLead kind.name)]) ∧
      (entries.field? (requestLead kind.name) = none →
        (named kind.name entries.texts).Nodup ∧
        o.problems = ((named kind.name entries.texts).filter fun t => (entries.field? t).isNone).map
          (fun t => .missingTarget kind.name t resource) ∧
        (∀ key, key ∈ o.entries.map Prod.fst ↔ ∃ t ∈ named kind.name entries.texts,
          (entries.field? t).isSome ∧ (key = .str t ∨ key = .str (markerLead kind.name ++ t))) ∧
        o.entries.map Prod.fst =
          (((named kind.name entries.texts).filter fun t => (entries.field? t).isSome).flatMap
            fun t => [t, markerLead kind.name ++ t]).eraseDups.map Atom.str) := by
  refine ⟨_, result_collect h hkeys kind resource, fun hbare => ?_, fun hbare => ?_⟩
  · rw [outcome, if_pos (bare_mem_asked.mpr hbare)]
    exact ⟨rfl, rfl⟩
  · refine ⟨(asked_nodup hdistinct).filter _, problems_outcome hbare, fun key => ?_, ?_⟩
    · rw [map_fst_outcome hbare]
      simp only [List.mem_map, List.mem_eraseDups, List.mem_flatMap, keysOf]
      constructor
      · rintro ⟨u, ⟨t, ht, hu⟩, rfl⟩
        split at hu
        · rename_i hsome
          refine ⟨t, ht, hsome, ?_⟩
          simpa using hu
        · cases hu
      · rintro ⟨t, ht, hsome, rfl | rfl⟩
        · exact ⟨t, ⟨t, ht, by simp [hsome]⟩, rfl⟩
        · exact ⟨_, ⟨t, ht, by simp [hsome]⟩, rfl⟩
    · rw [map_fst_outcome hbare]
      congr 2
      generalize named kind.name entries.texts = found
      induction found with
      | nil => rfl
      | cons t rest ih =>
        rw [List.flatMap_cons, ih, List.filter_cons, keysOf]
        split <;> rfl

def overlapping : Entries := [
  (.str "take-along-label.capi-to-argocd.env", ""), (.str "env", "prod"),
  (.str "take-along-label.capi-to-argocd.team", ""),
  (.str ("take-along-label.capi-to-argocd." ++ markerLead "label" ++ "env"), ""),
  (.str (markerLead "label" ++ "env"), "x")]

theorem overlapping_collected :
    (∃ o, (collect .labels (.map overlapping) (some "c")).result = .ok o ∧
      o.problems = [.missingTarget "label" "team" (some "c")] ∧
      o.entries.map Prod.fst = [.str "env", .str (markerLead "label" ++ "env"),
        .str (markerLead "label" ++ (markerLead "label" ++ "env"))]) ∧
      ∃ o, (collect .labels (.map (overlapping ++ [(.str (requestLead "label"), .null)])) none).result =
        .ok o ∧ o.entries = [] ∧ o.problems = [.malformedKey "label" (requestLead "label")] := by
  obtain ⟨o, ho, -, hdone⟩ := collected_exactly (show (Value.map overlapping).entries? = _ from rfl)
    (by simp [overlapping]) (by decide) .labels (some "c")
  obtain ⟨-, hproblems, -, hkeys⟩ := hdone (by decide)
  obtain ⟨b, hb, hbare, -⟩ :=
    collected_exactly (show (Value.map (overlapping ++ [(.str (requestLead "label"), .null)])).entries? =
      _ from rfl)
      (by simp [overlapping]) (by decide) .labels none
  exact ⟨⟨o, ho, hproblems, hkeys⟩, b, hb, hbare (by decide)⟩

/-! ### Requests that set one key -/

/-- The last target that sets a key decides what is there. -/
theorem field?_foldl_take_of_last {before after : List Text} {target key : Text} {value : Value}
    (hset : Sets name entries target key value)
    (hunique : ∀ v, Sets name entries target key v → v = value)
    (hafter : ∀ u ∈ after, ∀ v, ¬Sets name entries u key v) (o : Outcome) :
    ((before ++ target :: after).foldl (Outcome.take name entries resource) o).entries.field? key =
      some value := by
  rw [List.foldl_append, List.foldl_cons]
  generalize before.foldl (Outcome.take name entries resource) o = o
  obtain ⟨found, hfound, rfl⟩ : ∃ found, (after.foldl (Outcome.take name entries resource)
      (o.take name entries resource target)).entries.field? key = some found ∧ found = value :=
    exists_field?_foldl_take (fun u hu v hv => absurd hv (hafter u hu v))
      (.inr (exists_field?_take hunique (.inl ⟨value, hset⟩)))
  exact hfound

def Precedes (name : Text) (entries : Entries) (t u : Text) : Prop :=
  [t, u].Sublist (named name entries.texts)

/-- A target has the key of the marker of another one, whose request stands behind. -/
def MarkedLater (name : Text) (entries : Entries) (t : Text) : Prop :=
  ∃ u, Requested name entries u ∧ t = markerLead name ++ u ∧ Precedes name entries t u

/-- The marker of a target has the key of another target, whose request stands behind. -/
def CopiedLater (name : Text) (entries : Entries) (t : Text) : Prop :=
  Requested name entries (markerLead name ++ t) ∧ Precedes name entries t (markerLead name ++ t)

theorem not_sublist_swapped {a b : α} {items : List α} (hdistinct : items.Nodup)
    (h : [a, b].Sublist items) : ¬[b, a].Sublist items := by
  induction items with
  | nil => cases h
  | cons first rest ih =>
    obtain ⟨hfirst, hrest⟩ := List.nodup_cons.mp hdistinct
    intro hswapped
    cases h with
    | cons _ h =>
      cases hswapped with
      | cons _ hswapped => exact ih hrest h hswapped
      | cons_cons _ hswapped => exact hfirst (h.subset (by simp))
    | cons_cons _ h =>
      cases hswapped with
      | cons _ hswapped => exact hfirst (hswapped.subset (by simp))
      | cons_cons _ hswapped => exact hfirst (h.subset (by simp))

theorem markerLead_append_ne (name t : Text) : markerLead name ++ t ≠ t := by
  intro h
  have hlength := congrArg List.length h
  have hlead : (markerLead name).length = 19 + name.length + 16 := by
    simp only [markerLead, List.length_append]
    rfl
  rw [List.length_append] at hlength
  omega

theorem sets_iff {target key : Text} {value : Value} :
    Sets name entries target key value ↔ (entries.field? target).isSome ∧
      ((key = target ∧ entries.field? target = some value) ∨
        (key = markerLead name ++ target ∧ value = .str [])) := by
  constructor
  · rintro (hfield | hfield)
    · exact ⟨by rw [hfield]; rfl, .inl ⟨rfl, hfield⟩⟩
    · exact ⟨by rw [hfield]; rfl, .inr ⟨rfl, rfl⟩⟩
  · rintro ⟨hsome, ⟨rfl, hfield⟩ | ⟨rfl, rfl⟩⟩
    · exact .copy hfield
    · obtain ⟨v, hv⟩ := Option.isSome_iff_exists.mp hsome
      exact .marker hv

section

variable (hdistinct : entries.texts.Nodup)
  (hbare : entries.field? (requestLead name) = none)

include hdistinct hbare

theorem field?_outcome_of_last {t : Text} (ht : Requested name entries t) {key : Text}
    {value : Value} (hset : Sets name entries t key value)
    (hunique : ∀ v, Sets name entries t key v → v = value)
    (hafter : ∀ u, u ≠ t → Requested name entries u → Precedes name entries t u →
      ∀ v, ¬Sets name entries u key v) (resource : Option Text) :
    (outcome name entries resource).entries.field? key = some value := by
  have hnone : [] ∉ asked name entries.texts := by
    rw [bare_mem_asked, hbare]
    exact nofun
  have hnodup : (named name entries.texts).Nodup := (asked_nodup hdistinct).filter _
  obtain ⟨before, after, hsplit⟩ := List.append_of_mem ((mem_named ht.present).mpr ht)
  rw [hsplit] at hnodup
  rw [outcome, if_neg hnone, ← named_of_not_bare hbare, hsplit]
  refine field?_foldl_take_of_last hset hunique (fun u hu v hv => ?_) _
  have hne : u ≠ t := by
    rintro rfl
    exact (List.nodup_cons.mp (List.nodup_append.mp hnodup).2.1).1 hu
  have hrequested : Requested name entries u :=
    (mem_named (sets_iff.mp hv).1).mp (by simp [hsplit, hu])
  refine hafter u hne hrequested ?_ v hv
  rw [Precedes, hsplit]
  exact List.sublist_append_of_sublist_right ((List.singleton_sublist.mpr hu).cons_cons t)

theorem field?_copied {t : Text} (ht : Requested name entries t)
    (hmarked : ¬MarkedLater name entries t) (resource : Option Text) :
    (outcome name entries resource).entries.field? t = entries.field? t := by
  obtain ⟨value, hvalue⟩ := Option.isSome_iff_exists.mp ht.present
  rw [hvalue]
  refine field?_outcome_of_last hdistinct hbare ht (.copy hvalue) (fun v hv => ?_)
    (fun u hne hu hprecedes v hv => ?_) resource
  · obtain ⟨-, ⟨-, hcopy⟩ | ⟨hkey, -⟩⟩ := sets_iff.mp hv
    · exact Option.some.inj (hcopy.symm.trans hvalue)
    · exact absurd hkey.symm (markerLead_append_ne _ _)
  · obtain ⟨-, ⟨hkey, -⟩ | ⟨hkey, -⟩⟩ := sets_iff.mp hv
    · exact hne hkey.symm
    · exact hmarked ⟨u, hu, hkey, hprecedes⟩

theorem field?_marked {t : Text} (ht : Requested name entries t)
    (hcopied : ¬CopiedLater name entries t) (resource : Option Text) :
    (outcome name entries resource).entries.field? (markerLead name ++ t) = some (.str []) := by
  obtain ⟨value, hvalue⟩ := Option.isSome_iff_exists.mp ht.present
  refine field?_outcome_of_last hdistinct hbare ht (.marker hvalue) (fun v hv => ?_)
    (fun u hne hu hprecedes v hv => ?_) resource
  · obtain ⟨-, ⟨hkey, -⟩ | ⟨-, hempty⟩⟩ := sets_iff.mp hv
    · exact absurd hkey (markerLead_append_ne _ _)
    · exact hempty
  · obtain ⟨-, ⟨rfl, -⟩ | ⟨hkey, -⟩⟩ := sets_iff.mp hv
    · exact hcopied ⟨hu, hprecedes⟩
    · exact hne (List.append_cancel_left hkey).symm

end

/-- A target that is asked for and there is copied with its value and gets an empty marker. Where the
marker of one target has the key of another one, the later of the two requests decides. -/
theorem later_request_decides {metadata : Value} (h : metadata.entries? = some entries)
    (hkeys : ∀ entry ∈ entries, ∃ t, entry.1 = .str t) (hdistinct : entries.texts.Nodup)
    (kind : MetadataKind) (hbare : entries.field? (requestLead kind.name) = none)
    (resource : Option Text) :
    ∃ o, (collect kind metadata resource).result = .ok o ∧
      ∀ t, Requested kind.name entries t →
        (¬MarkedLater kind.name entries t → o.entries.field? t = entries.field? t) ∧
        (MarkedLater kind.name entries t → o.entries.field? t = some (.str [])) ∧
        (¬CopiedLater kind.name entries t →
          o.entries.field? (markerLead kind.name ++ t) = some (.str [])) ∧
        (CopiedLater kind.name entries t →
          o.entries.field? (markerLead kind.name ++ t) =
            entries.field? (markerLead kind.name ++ t)) := by
  have hnodup : (named kind.name entries.texts).Nodup := (asked_nodup hdistinct).filter _
  refine ⟨_, result_collect h hkeys kind resource, fun t ht => ⟨?_, ?_, ?_, ?_⟩⟩
  · exact fun hmarked => field?_copied hdistinct hbare ht hmarked resource
  · rintro ⟨u, hu, rfl, hprecedes⟩
    exact field?_marked hdistinct hbare hu
      (fun hcopied => not_sublist_swapped hnodup hprecedes hcopied.2) resource
  · exact fun hcopied => field?_marked hdistinct hbare ht hcopied resource
  · rintro ⟨hmarker, hprecedes⟩
    refine field?_copied hdistinct hbare hmarker (fun hmarked => ?_) resource
    obtain ⟨u, -, hkey, hlater⟩ := hmarked
    cases List.append_cancel_left hkey
    exact not_sublist_swapped hnodup hprecedes hlater

theorem overlapping_later_decides :
    ∃ o, (collect .labels (.map overlapping) none).result = .ok o ∧
      o.entries.field? "env" = some "prod" ∧ o.entries.field? (markerLead "label" ++ "env") = some "x" ∧
      o.entries.field? (markerLead "label" ++ (markerLead "label" ++ "env")) = some (.str []) := by
  obtain ⟨o, ho, hdecides⟩ := later_request_decides (show (Value.map overlapping).entries? = _ from rfl)
    (by simp [overlapping]) (by decide) .labels (by decide) none
  have henv : Requested "label" overlapping "env" := ⟨by decide, by decide, by decide⟩
  have hmarker : Requested "label" overlapping (markerLead "label" ++ "env") :=
    ⟨by decide, by decide, by decide⟩
  refine ⟨o, ho, (hdecides _ henv).1 ?_, (hdecides _ henv).2.2.2 ⟨hmarker, ?_⟩,
    (hdecides _ hmarker).2.2.1 fun hcopied => ?_⟩
  · rintro ⟨u, -, hu, -⟩
    have hfirst := congrArg List.head? hu
    cases hfirst
  · unfold Precedes
    decide
  · exact absurd hcopied.1.present (by decide)

theorem copy_replaces_marker :
    Requested "label" overlapping "env" ∧ overlapping.field? (requestLead "label") = none ∧
      ∃ o, (collect .labels (.map overlapping) none).result = .ok o ∧
        o.entries.field? (markerLead "label" ++ "env") ≠ some (.str []) := by
  obtain ⟨o, ho, htest⟩ : ∃ o, (collect .labels (.map overlapping) none).result = .ok o ∧
      (o.entries.field (markerLead "label" ++ "env")).isText "x" = true :=
    Except.exists_of_any (by decide +kernel)
  refine ⟨⟨by decide, by decide, by decide⟩, by decide, o, ho, fun hempty => ?_⟩
  rw [Entries.field_of_field? hempty] at htest
  cases htest

end TakeAlong
end ClusterRegistrar
