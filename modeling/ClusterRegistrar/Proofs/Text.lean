import ClusterRegistrar.Text.Affix
import Mathlib.Data.List.Basic

/-! Laws of texts: a start or an end is taken off exactly where it stands, and the texts that have
bytes in UTF-8 are those of characters only. -/
namespace ClusterRegistrar

namespace Affix

@[simp] theorem dropStart?_eq_some {start t rest : Text} :
    dropStart? start t = some rest ↔ t = start ++ rest := by
  rw [dropStart?, List.isPrefixOf?_eq_some_iff_append_eq, eq_comm]

@[simp] theorem dropStart?_append (start rest : Text) :
    dropStart? start (start ++ rest) = some rest := by
  simp

@[simp] theorem dropEnd?_eq_some {ending t base : Text} :
    dropEnd? ending t = some base ↔ t = base ++ ending := by
  have h : (dropStart? ending.reverse t.reverse).map List.reverse = some base ↔
      t = base ++ ending := by
    simp only [Option.map_eq_some_iff, dropStart?_eq_some]
    constructor
    · rintro ⟨back, hback, rfl⟩
      simpa using congrArg List.reverse hback
    · rintro rfl
      exact ⟨base.reverse, by simp⟩
  exact h

theorem endsWith_iff {ending t : Text} : endsWith ending t = true ↔ ∃ base, t = base ++ ending := by
  simp [endsWith, Option.isSome_iff_exists]

@[simp] theorem removeEnd_append (base ending : Text) :
    removeEnd ending (base ++ ending) = base := by
  have h : dropEnd? ending (base ++ ending) = some base := by simp
  simp [removeEnd, h]

end Affix

namespace Text

def IsScalar (t : Text) : Prop := ∃ cs : List Char, t = ofChars cs

theorem chars?_eq_some {t : Text} {cs : List Char} : t.chars? = some cs ↔ t = ofChars cs := by
  constructor
  · intro h
    induction t generalizing cs with
    | nil => cases h; rfl
    | cons p rest ih =>
      simp only [chars?, List.mapM_cons, Option.pure_def, Option.bind_eq_bind,
        Option.bind_eq_some_iff] at h
      obtain ⟨c, hc, more, hmore, hcs⟩ := h
      cases hcs
      cases p with
      | char d => cases hc; rw [ih hmore]; rfl
      | surrogate n => cases hc
  · rintro rfl
    exact chars?_ofChars cs

theorem utf8?_eq_some {t : Text} {bytes : ByteArray} :
    t.utf8? = some bytes ↔ ∃ cs, t = ofChars cs ∧ (String.ofList cs).toUTF8 = bytes := by
  simp only [utf8?, Option.map_eq_some_iff, chars?_eq_some]

theorem fromUTF8?_toUTF8 (s : String) : String.fromUTF8? s.toUTF8 = some s := by
  simp only [String.fromUTF8?, Option.dite_none_right_eq_some]
  exact ⟨s.isValidUTF8, rfl⟩

theorem isScalar_iff_utf8? {t : Text} : t.IsScalar ↔ ∃ bytes, t.utf8? = some bytes := by
  simp only [utf8?_eq_some]
  exact ⟨fun ⟨cs, h⟩ => ⟨_, cs, h, rfl⟩, fun ⟨_, cs, h, _⟩ => ⟨cs, h⟩⟩

theorem isScalar_iff_forall {t : Text} : t.IsScalar ↔ ∀ p ∈ t, ∃ c, p = CodePoint.char c := by
  constructor
  · rintro ⟨cs, rfl⟩ p hp
    obtain ⟨c, -, rfl⟩ := List.mem_map.mp hp
    exact ⟨c, rfl⟩
  · intro h
    induction t with
    | nil => exact ⟨[], rfl⟩
    | cons p rest ih =>
      obtain ⟨⟨c, rfl⟩, hrest⟩ := List.forall_mem_cons.mp h
      obtain ⟨cs, rfl⟩ := ih hrest
      exact ⟨c :: cs, rfl⟩

theorem mem_of_mem_split {separator p : CodePoint} {t part : Text}
    (hpart : part ∈ t.split separator) (hp : p ∈ part) : p ∈ t := by
  induction t generalizing part with
  | nil =>
    cases List.mem_singleton.mp hpart
    cases hp
  | cons q rest ih =>
    rw [split] at hpart
    split at hpart
    · rcases List.mem_cons.mp hpart with rfl | hpart
      · cases hp
      · exact List.mem_cons_of_mem q (ih hpart hp)
    · split at hpart
      · rename_i hrest
        exact absurd hrest (split_ne_nil separator rest)
      · rename_i first parts hrest
        rw [hrest] at ih
        rcases List.mem_cons.mp hpart with rfl | hpart
        · rcases List.mem_cons.mp hp with rfl | hp
          · exact List.mem_cons_self
          · exact List.mem_cons_of_mem q (ih List.mem_cons_self hp)
        · exact List.mem_cons_of_mem q (ih (List.mem_cons_of_mem first hpart) hp)

theorem IsScalar.of_mem_split {separator : CodePoint} {t part : Text} (h : t.IsScalar)
    (hpart : part ∈ t.split separator) : part.IsScalar :=
  isScalar_iff_forall.mpr fun p hp => isScalar_iff_forall.mp h p (mem_of_mem_split hpart hp)

end Text
end ClusterRegistrar
