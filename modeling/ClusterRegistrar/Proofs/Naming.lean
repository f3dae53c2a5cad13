import ClusterRegistrar.Naming
import ClusterRegistrar.Proofs.Run
import ClusterRegistrar.Proofs.Text

/-! Names of text are built without a fault. The namespace is joined to the name by a character that
both may hold, so the joined text does not always tell the two apart. -/
namespace ClusterRegistrar.Naming

def qualified (settings : Settings) (space name : Text) : Text :=
  if settings.namespacedNames then space ++ "-" ++ name else name

/-- One namespace goes on where the other one ends, and the name in the other one starts with what
the first namespace has more. -/
def Overlaps (space name space' name' : Text) : Prop :=
  ∃ rest : Text, space = space' ++ "-" ++ rest ∧ name' = rest ++ "-" ++ name

theorem clusterName_str (settings : Settings) (space name : Text) :
    clusterName settings (.str name) (.str space) = .ok (.str (qualified settings space name)) := by
  unfold clusterName qualified
  split <;> rfl

theorem baseName_str (base : Text) :
    baseName (.str (base ++ kubeconfigEnding)) = .ok (.str base) := by
  show Except.ok (Value.str (Affix.removeEnd kubeconfigEnding (base ++ kubeconfigEnding))) = _
  rw [Affix.removeEnd_append]

theorem generatedName_str (settings : Settings) (space base : Text) :
    generatedName settings (.str (base ++ kubeconfigEnding)) (.str space) =
      .ok ⟨settings.argoNamespace, .str (generatedStart ++ qualified settings space base)⟩ := by
  rw [generatedName, baseName_str, Except.ok_bind, clusterName_str, Except.ok_bind]
  rfl

theorem of_generatedName {settings : Settings} {secretName space : Value}
    {identity : NamespacedName} (h : generatedName settings secretName space = .ok identity) :
    identity.space = settings.argoNamespace ∧ ∃ t, identity.name = .str t := by
  obtain ⟨base, -, h⟩ := Except.bind_eq_ok.mp h
  obtain ⟨name, -, h⟩ := Except.bind_eq_ok.mp h
  obtain ⟨shown, -, h⟩ := Except.bind_eq_ok.mp h
  cases h
  exact ⟨rfl, _, rfl⟩

theorem base_unique {base base' : Text}
    (h : Value.str (base ++ kubeconfigEnding) = .str (base' ++ kubeconfigEnding)) : base = base' :=
  List.append_cancel_right (Atom.str.inj (Value.atom.inj h))

private theorem overlaps_of_longer {space name space' name' more : Text}
    (hspace : space' = space ++ more)
    (hname : CodePoint.char '-' :: name = more ++ CodePoint.char '-' :: name') :
    (space = space' ∧ name = name') ∨ Overlaps space' name' space name := by
  cases more with
  | nil =>
    rw [List.append_nil] at hspace
    exact .inl ⟨hspace.symm, (List.cons.inj hname).2⟩
  | cons dash rest =>
    -- What the longer namespace goes on with starts with the character that joins the other two.
    obtain ⟨rfl, hrest⟩ := List.cons.inj hname
    refine .inr ⟨rest, ?_, ?_⟩
    · rw [hspace, List.append_assoc]
      rfl
    · rw [hrest, List.append_assoc]
      rfl

theorem joined_eq_iff {space name space' name' : Text} :
    space ++ "-" ++ name = space' ++ "-" ++ name' ↔
      (space = space' ∧ name = name') ∨ Overlaps space name space' name' ∨
        Overlaps space' name' space name := by
  constructor
  · intro h
    rw [List.append_assoc, List.append_assoc] at h
    rcases List.append_eq_append_iff.mp h with ⟨more, hspace, hname⟩ | ⟨more, hspace, hname⟩
    · exact (overlaps_of_longer hspace hname).imp_right .inr
    · rcases overlaps_of_longer hspace hname with ⟨rfl, rfl⟩ | hoverlap
      · exact .inl ⟨rfl, rfl⟩
      · exact .inr (.inl hoverlap)
  · rintro (⟨rfl, rfl⟩ | ⟨rest, rfl, rfl⟩ | ⟨rest, rfl, rfl⟩)
    · rfl
    · simp only [List.append_assoc]
    · simp only [List.append_assoc]

/-- Behind namespaces, generated names are equal exactly if their parts are, or overlap. -/
theorem generatedName_eq_iff {settings : Settings} (hnamespaced : settings.namespacedNames = true)
    {space base space' base' : Text} :
    (generatedName settings (.str (base ++ kubeconfigEnding)) (.str space) =
        generatedName settings (.str (base' ++ kubeconfigEnding)) (.str space')) ↔
      (space = space' ∧ base = base') ∨ Overlaps space base space' base' ∨
        Overlaps space' base' space base := by
  rw [generatedName_str, generatedName_str, ← joined_eq_iff]
  simp [qualified, hnamespaced]

/-! ### The source of a generated name -/

/-- The name of the source of a generated name, if the namespace of the source is known: without the
starts that were put in front of it, and with the ending that was taken off. -/
def sourceName? (settings : Settings) (space generated : Text) : Option Text := do
  let qualified ← Affix.dropStart? generatedStart generated
  let base ← if settings.namespacedNames then Affix.dropStart? (space ++ "-") qualified
    else some qualified
  return base ++ kubeconfigEnding

theorem sourceName?_generated (settings : Settings) (space base : Text) :
    sourceName? settings space (generatedStart ++ qualified settings space base) =
      some (base ++ kubeconfigEnding) := by
  unfold sourceName? qualified
  rw [Affix.dropStart?_append]
  cases settings.namespacedNames with
  | false => rfl
  | true =>
    simp only [if_true, Option.bind_eq_bind, Option.bind_some, Affix.dropStart?_append]
    rfl

end ClusterRegistrar.Naming
