import ClusterRegistrar.Proofs.Conversion

/-! Whether generated secrets get in each other's way. With namespaces in their names they are named
apart, but for sources whose namespaces and names overlap: the two are joined by a character that
both may hold. Sources of one namespace are named apart in either case, and their names can be told
from the generated ones. -/
namespace ClusterRegistrar.Conversion

/-- Two secrets whose namespaces and names overlap. -/
def Collide (s t : SourceSecret) : Prop :=
  ∃ space base space' base' : Text,
    s.space = .str space ∧ s.name = .str (base ++ Naming.kubeconfigEnding) ∧
      t.space = .str space' ∧ t.name = .str (base' ++ Naming.kubeconfigEnding) ∧
      (Naming.Overlaps space base space' base' ∨ Naming.Overlaps space' base' space base)

theorem identity_eq_iff_collide {settings : Settings}
    (hnamespaced : settings.namespacedNames = true) {index : ClusterIndex} {s t : SourceSecret}
    {g h : GeneratedSecret} (hg : Generates settings index s g) (hh : Generates settings index t h)
    (hs : ∃ space, s.space = .str space) (ht : ∃ space, t.space = .str space)
    (hne : s.identity ≠ t.identity) : g.identity = h.identity ↔ Collide s t := by
  obtain ⟨space, hspace⟩ := hs
  obtain ⟨space', hspace'⟩ := ht
  have hgname := (names_of_generates hg).1
  have hhname := (names_of_generates hh).1
  obtain ⟨w, hw, -⟩ := hg
  obtain ⟨v, hv, -⟩ := hh
  obtain ⟨base, -, -, ⟨hname, -⟩⟩ := WorkloadCluster.exists_parts hw
  obtain ⟨base', -, -, ⟨hname', -⟩⟩ := WorkloadCluster.exists_parts hv
  rw [hname, hspace] at hgname
  rw [hname', hspace'] at hhname
  have hequal :
      Naming.generatedName settings (.str (base ++ Naming.kubeconfigEnding)) (.str space) =
        Naming.generatedName settings (.str (base' ++ Naming.kubeconfigEnding)) (.str space') ↔ _ :=
    Naming.generatedName_eq_iff hnamespaced
  rw [hgname, hhname, Except.ok.injEq] at hequal
  rw [hequal]
  constructor
  · rintro (⟨rfl, rfl⟩ | hoverlaps)
    · refine absurd ?_ hne
      rw [SourceSecret.identity, SourceSecret.identity, hspace, hspace', hname, hname']
    · exact ⟨space, base, space', base', hspace, hname, hspace', hname', hoverlaps⟩
  · rintro ⟨_, _, _, _, hspace₁, hname₁, hspace₂, hname₂, hoverlaps⟩
    cases hspace.symm.trans hspace₁
    cases hspace'.symm.trans hspace₂
    cases Naming.base_unique (hname.symm.trans hname₁)
    cases Naming.base_unique (hname'.symm.trans hname₂)
    exact .inr hoverlaps

private theorem forall_mem_iff_of_forall₂ {R : α → β → Prop} {p : α → Prop} {q : β → Prop}
    {as : List α} {bs : List β} (h : List.Forall₂ R as bs)
    (hpq : ∀ a ∈ as, ∀ b, R a b → (p a ↔ q b)) : (∀ a ∈ as, p a) ↔ ∀ b ∈ bs, q b := by
  induction h with
  | nil => simp
  | @cons a b as bs hab _ ih =>
    rw [List.forall_mem_cons, List.forall_mem_cons, hpq a List.mem_cons_self b hab,
      ih fun a' ha' => hpq a' (List.mem_cons_of_mem _ ha')]

private theorem pairwise_iff_of_forall₂ {R : α → β → Prop} {D P : α → α → Prop} {Q : β → β → Prop}
    {as : List α} {bs : List β} (h : List.Forall₂ R as bs) (hD : as.Pairwise D)
    (hPQ : ∀ a b a' b', R a b → R a' b' → D a a' → (P a a' ↔ Q b b')) :
    as.Pairwise P ↔ bs.Pairwise Q := by
  induction h with
  | nil => simp
  | @cons a b as bs hab hrest ih =>
    obtain ⟨hfirst, hmore⟩ := List.pairwise_cons.mp hD
    rw [List.pairwise_cons, List.pairwise_cons, ih hmore, forall_mem_iff_of_forall₂ hrest]
    exact fun a' ha' b' hab' => hPQ a b a' b' hab hab' (hfirst a' ha')

/-- With namespaces in the names, the generated secrets of different sources are named apart exactly
if no two of the sources that are converted collide. -/
theorem named_apart_iff_none_collide {settings : Settings}
    (hnamespaced : settings.namespacedNames = true) {secrets : List SourceSecret}
    (hspaces : ∀ s ∈ secrets, ∃ space, s.space = .str space)
    (hdistinct : secrets.Pairwise fun s t => s.identity ≠ t.identity)
    {clusters : List SourceCluster} {gs : List GeneratedSecret}
    (h : (convert settings secrets clusters).result = .ok gs) :
    (gs.Pairwise fun g h => g.identity ≠ h.identity) ↔
      (secrets.filter isConvertible).Pairwise fun s t => ¬Collide s t := by
  obtain ⟨index, -, hall⟩ := convert_eq_ok.mp h
  have hgenerates := forall₂_generates hall
  have hsources : (secrets.filter isConvertible).Pairwise fun s t =>
      (∃ space, s.space = .str space) ∧ (∃ space, t.space = .str space) ∧
        s.identity ≠ t.identity := by
    refine (hdistinct.filter _).imp_of_mem fun {s t} hs ht hne => ?_
    exact ⟨hspaces s (List.mem_of_mem_filter hs), hspaces t (List.mem_of_mem_filter ht), hne⟩
  refine (pairwise_iff_of_forall₂ hgenerates hsources ?_).symm
  rintro s g t h hg hh ⟨hs, ht, hne⟩
  exact not_congr (identity_eq_iff_collide hnamespaced hg hh hs ht hne).symm

def sourceNamed (space name : String) : SourceSecret :=
  .ofContent space name SourceSecret.plainContent

def adjacent : List SourceSecret :=
  [sourceNamed "a-b" "c-kubeconfig", sourceNamed "a" "d-c-kubeconfig"]

theorem adjacent_named_apart :
    (∀ s ∈ adjacent, ∃ space, s.space = .str space) ∧
      (adjacent.Pairwise fun s t => s.identity ≠ t.identity) ∧
      ∃ gs, (convert { namespacedNames := true } adjacent []).result = .ok gs ∧ gs.length = 2 ∧
        gs.Pairwise fun g h => g.identity ≠ h.identity := by
  have hspaces : ∀ s ∈ adjacent, ∃ space, s.space = .str space := by
    simp only [adjacent, List.forall_mem_cons]
    exact ⟨⟨_, rfl⟩, ⟨_, rfl⟩, by simp⟩
  have hdistinct : adjacent.Pairwise fun s t => s.identity ≠ t.identity := by
    have hne : ("a-b" : Text) ≠ "a" := by decide
    refine List.pairwise_pair.mpr fun h => hne ?_
    exact Atom.str.inj (Value.atom.inj (congrArg NamespacedName.space h))
  have hcollide : adjacent.Pairwise fun s t => ¬Collide s t := by
    refine List.pairwise_pair.mpr ?_
    rintro ⟨_, base, _, base', hspace, hname, hspace', hname', hoverlaps⟩
    cases hspace
    cases hspace'
    have hbase : ("c" : Text) = base := Naming.base_unique hname
    have hbase' : ("d-c" : Text) = base' := Naming.base_unique hname'
    subst hbase hbase'
    rcases hoverlaps with ⟨rest, hrest, hfit⟩ | ⟨rest, hrest, -⟩
    · have hsame : ("a" : Text) ++ "-" ++ "b" = "a" ++ "-" ++ rest := hrest
      cases List.append_cancel_left hsame
      revert hfit
      decide
    · have hlength := congrArg List.length hrest
      have hshort : ("a" : Text).length = 1 := by decide
      have hlong : ("a-b" : Text).length = 3 := by decide
      rw [List.length_append, List.length_append, hshort, hlong] at hlength
      omega
  obtain ⟨gs, hgs, hlength⟩ : ∃ gs, (convert { namespacedNames := true } adjacent []).result =
      .ok gs ∧ decide (gs.length = 2) = true := Except.exists_of_any (by decide +kernel)
  refine ⟨hspaces, hdistinct, gs, hgs, of_decide_eq_true hlength, ?_⟩
  exact (named_apart_iff_none_collide rfl hspaces hdistinct hgs).mpr (hcollide.filter _)

def overlapping : List SourceSecret :=
  [sourceNamed "a-b" "c-kubeconfig", sourceNamed "a" "b-c-kubeconfig"]

/-- Different secrets of two namespaces whose generated secrets have one name. -/
theorem overlapping_share_name :
    (overlapping.Pairwise fun s t => s.identity ≠ t.identity) ∧
      ∃ gs, (convert { namespacedNames := true } overlapping []).result = .ok gs ∧
        ¬gs.Pairwise fun g h => g.identity ≠ h.identity := by
  have hne : ("a-b" : Text) ≠ "a" := by decide
  obtain ⟨gs, hgs, htest⟩ : ∃ gs, (convert { namespacedNames := true } overlapping []).result =
      .ok gs ∧ (decide (gs.length = 2) && gs.all fun g =>
        g.space.isText "argocd" && g.name.isText "cluster-a-b-c") = true :=
    Except.exists_of_any (by decide +kernel)
  refine ⟨?_, gs, hgs, ?_⟩
  · refine List.pairwise_pair.mpr fun h => hne ?_
    exact Atom.str.inj (Value.atom.inj (congrArg NamespacedName.space h))
  · intro hapart
    simp only [Bool.and_eq_true, List.all_eq_true, Value.isText_iff, decide_eq_true_eq] at htest
    obtain ⟨hlength, hnamed⟩ := htest
    obtain ⟨g, h, rfl⟩ := List.length_eq_two.mp hlength
    obtain ⟨hspace, hname⟩ := hnamed g (by simp)
    obtain ⟨hspace', hname'⟩ := hnamed h (by simp)
    refine List.pairwise_pair.mp hapart ?_
    rw [GeneratedSecret.identity, GeneratedSecret.identity, hspace, hspace', hname, hname']

/-! ### Within one namespace -/

def TellsSource (settings : Settings) (space : Text) (s : SourceSecret) (g : GeneratedSecret) : Prop :=
  ∃ generated source : Text, g.name = .str generated ∧ s.name = .str source ∧
    Naming.sourceName? settings space generated = some source

theorem tellsSource_of_generates {settings : Settings} {index : ClusterIndex} {s : SourceSecret}
    {g : GeneratedSecret} (h : Generates settings index s g) {space : Text}
    (hspace : s.space = .str space) :
    g.space = settings.argoNamespace ∧ TellsSource settings space s g := by
  have hidentity := (names_of_generates h).1
  obtain ⟨w, hw, -⟩ := h
  obtain ⟨base, -, -, ⟨hname, -⟩⟩ := WorkloadCluster.exists_parts hw
  rw [hname, hspace, Naming.generatedName_str, Except.ok.injEq] at hidentity
  constructor
  · exact (congrArg NamespacedName.space hidentity).symm
  · refine ⟨_, _, (congrArg NamespacedName.name hidentity).symm, hname, ?_⟩
    exact Naming.sourceName?_generated settings space base

theorem TellsSource.name_eq {settings : Settings} {space : Text} {s t : SourceSecret}
    {g h : GeneratedSecret} (hg : TellsSource settings space s g) (hh : TellsSource settings space t h)
    (heq : g.name = h.name) : s.name = t.name := by
  obtain ⟨generated, source, hgname, hsname, hsource⟩ := hg
  obtain ⟨_, _, hhname, htname, hother⟩ := hh
  rw [hgname, hhname] at heq
  cases heq
  rw [hsname, htname, Option.some.inj (hsource.symm.trans hother)]

/-- Secrets of one namespace whose names differ are never registered under one name. All generated
secrets lie in the namespace of the settings, and the name of each one gives back that of its source. -/
theorem sources_told_within_namespace (settings : Settings) {space : Text} {secrets : List SourceSecret}
    (hspace : ∀ s ∈ secrets, s.space = .str space)
    (hdistinct : secrets.Pairwise fun s t => s.name ≠ t.name) {clusters : List SourceCluster}
    {gs : List GeneratedSecret} (h : (convert settings secrets clusters).result = .ok gs) :
    (gs.Pairwise fun g h => g.name ≠ h.name) ∧ (∀ g ∈ gs, g.space = settings.argoNamespace) ∧
      ∃ index, ClusterIndex.ofList clusters = .ok index ∧
        List.Forall₂ (fun s g => Generates settings index s g ∧ TellsSource settings space s g)
          (secrets.filter isConvertible) gs := by
  obtain ⟨index, hindex, hall⟩ := convert_eq_ok.mp h
  have hsources : ∀ s ∈ secrets.filter isConvertible, s.space = .str space := fun s hs =>
    hspace s (List.mem_of_mem_filter hs)
  have htells : List.Forall₂ (fun s g => g.space = settings.argoNamespace ∧
      Generates settings index s g ∧ TellsSource settings space s g)
      (secrets.filter isConvertible) gs := by
    apply ((List.forall₂_and_left _ _).mpr ⟨hsources, forall₂_generates hall⟩).imp
    rintro s g ⟨hs, hg⟩
    obtain ⟨hgspace, hsource⟩ := tellsSource_of_generates hg hs
    exact ⟨hgspace, hg, hsource⟩
  refine ⟨?_, forall_right_of_forall₂ htells fun s g hsg => hsg.1, index, hindex,
    htells.imp fun s g hsg => hsg.2⟩
  have hnames := hdistinct.filter isConvertible
  apply (pairwise_iff_of_forall₂ htells hnames ?_).mp hnames
  rintro s g t h ⟨-, -, hg⟩ ⟨-, -, hh⟩ hne
  exact iff_of_true hne fun heq => hne (hg.name_eq hh heq)

def repeated : List SourceSecret :=
  [sourceNamed "ns" "p-kubeconfig", sourceNamed "ns" "p-kubeconfig-kubeconfig", sourceNamed "ns" "p"]

theorem repeated_told_apart :
    (∀ s ∈ repeated, s.space = .str "ns") ∧ (repeated.Pairwise fun s t => s.name ≠ t.name) ∧
      ∃ g h, (convert { namespacedNames := true } repeated []).result = .ok [g, h] ∧
        g.name ≠ h.name ∧ g.space = "argocd" ∧ h.space = "argocd" ∧
        TellsSource { namespacedNames := true } "ns" (sourceNamed "ns" "p-kubeconfig") g ∧
        TellsSource { namespacedNames := true } "ns" (sourceNamed "ns" "p-kubeconfig-kubeconfig") h := by
  have hspace : ∀ s ∈ repeated, s.space = .str "ns" := by
    simp only [repeated, List.forall_mem_cons]
    exact ⟨rfl, rfl, rfl, by simp⟩
  have hdistinct : repeated.Pairwise fun s t => s.name ≠ t.name := by
    have hnames : [("p-kubeconfig" : Text), "p-kubeconfig-kubeconfig", "p"].Pairwise (· ≠ ·) := by decide
    have hvalues : List.Pairwise (fun v w : Value => v ≠ w)
        [.str "p-kubeconfig", .str "p-kubeconfig-kubeconfig", .str "p"] :=
      hnames.map _ fun t u hne heq => hne (Atom.str.inj (Value.atom.inj heq))
    exact List.pairwise_map.mp hvalues
  have hsources : repeated.filter isConvertible =
      [sourceNamed "ns" "p-kubeconfig", sourceNamed "ns" "p-kubeconfig-kubeconfig"] := by
    have hfirst : isConvertible (sourceNamed "ns" "p-kubeconfig") = true := by decide +kernel
    have hsecond : isConvertible (sourceNamed "ns" "p-kubeconfig-kubeconfig") = true := by decide +kernel
    have hthird : isConvertible (sourceNamed "ns" "p") = false := by decide +kernel
    simp [repeated, hfirst, hsecond, hthird]
  obtain ⟨gs, hgs, hlength⟩ : ∃ gs, (convert { namespacedNames := true } repeated []).result =
      .ok gs ∧ decide (gs.length = 2) = true := Except.exists_of_any (by decide +kernel)
  obtain ⟨g, h, rfl⟩ := List.length_eq_two.mp (of_decide_eq_true hlength)
  obtain ⟨hapart, hargo, index, -, htells⟩ :=
    sources_told_within_namespace { namespacedNames := true } hspace hdistinct hgs
  rw [hsources, List.forall₂_cons, List.forall₂_cons] at htells
  obtain ⟨⟨-, hg⟩, ⟨-, hh⟩, -⟩ := htells
  have hne : g.name ≠ h.name := List.rel_of_pairwise_cons hapart List.mem_cons_self
  exact ⟨hspace, hdistinct, g, h, hgs, hne, hargo g (by simp), hargo h (by simp), hg, hh⟩

end ClusterRegistrar.Conversion
