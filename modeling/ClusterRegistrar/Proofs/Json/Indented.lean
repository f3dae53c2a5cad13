import ClusterRegistrar.Proofs.Credentials.Decoding
import ClusterRegistrar.Proofs.TextTree

/-! Indented JSON of documents of mappings and texts. It reads back as compact JSON does, whatever the
width of a level, and nothing is lost but the border between two halves of a character. -/
namespace ClusterRegistrar

/-- A text in which no high half of a character has a low half right behind it. -/
def Text.IsUnpaired (t : Text) : Prop :=
  ∀ before after high low, t = before ++ .surrogate high :: .surrogate low :: after →
    ¬(high.val < 0x400 ∧ 0x400 ≤ low.val)

theorem Text.IsUnpaired.of_cons {p : CodePoint} {t : Text} (h : IsUnpaired (p :: t)) :
    t.IsUnpaired := by
  rintro before after high low rfl
  exact h (p :: before) after high low rfl

theorem Text.IsUnpaired.joined_eq {t : Text} (h : t.IsUnpaired) : t.joined = t := by
  fun_induction Text.joined t with
  | case1 high low more hhalves ih => exact absurd hhalves (h [] more high low rfl)
  | case2 high low more hhalves ih => rw [ih h.of_cons]
  | case3 p more hhalves ih => rw [ih h.of_cons]
  | case4 => rfl

theorem Text.IsScalar.isUnpaired {t : Text} (h : t.IsScalar) : t.IsUnpaired := by
  rintro before after high low rfl
  obtain ⟨c, hc⟩ := isScalar_iff_forall.mp h (.surrogate high) (by simp)
  cases hc

namespace Json

/-! ### Indented text -/

theorem isBlank_of_mem_freshLine {width level : Nat} {c : Char} (h : c ∈ freshLine width level) :
    isBlank c = true := by
  rcases List.mem_cons.mp h with rfl | h
  · rfl
  · rw [List.eq_of_mem_replicate h]
    rfl

private theorem reads_indentedAll {width level : Nat} {items : List Json}
    (h : ∀ j ∈ items, Reads (indented width level j) j.joined) :
    List.Forall₂ Reads (indentedAll width level items) (joinedAll items) := by
  induction items with
  | nil => exact .nil
  | cons j rest ih =>
    exact .cons (h j List.mem_cons_self) (ih fun k hk => h k (List.mem_cons_of_mem j hk))

private theorem reads_indentedFields {width level : Nat} {fields : List (Text × Json)}
    (h : ∀ field ∈ fields, Reads (indented width level field.2) field.2.joined) :
    List.Forall₂ ReadsField (indentedFields width level fields) (joinedFields fields) := by
  induction fields with
  | nil => exact .nil
  | cons field rest ih =>
    have hblank : ∀ c ∈ [' '], isBlank c = true := List.forall_mem_singleton.mpr rfl
    refine .cons ?_ (ih fun f hf => h f (List.mem_cons_of_mem field hf))
    exact readsField_quote field.1 hblank (h field List.mem_cons_self)

theorem reads_indented (width : Nat) {j : Json} (h : j.IsTextual) (level : Nat) :
    Reads (indented width level j) j.joined := by
  have hblank (deep : Nat) : ∀ c ∈ freshLine width deep, isBlank c = true :=
    fun c => isBlank_of_mem_freshLine
  induction h generalizing level with
  | str t => exact reads_quote t
  | @arr items _ ih =>
    cases items with
    | nil => exact reads_emptyArray
    | cons j rest =>
      have hitems := reads_indentedAll fun k hk => ih k hk (level + 1)
      have hread := reads_array (hblank (level + 1)) (hblank (level + 1)) (hblank level) hitems
        (List.cons_ne_nil _ _)
      simpa [indented, indentedAll, bracketed, joined] using hread
  | @obj fields _ ih =>
    cases fields with
    | nil => exact reads_emptyObject
    | cons field rest =>
      have hfields := reads_indentedFields fun f hf => ih f hf (level + 1)
      have hread := reads_object (hblank (level + 1)) (hblank (level + 1)) (hblank level) hfields
        (List.cons_ne_nil _ _)
      simpa [indented, indentedFields, bracketed, joined] using hread

theorem read?_of_reads_line {text : List Char} {j : Json} (h : Reads text j) :
    read? (text ++ ['\n']) = some j := by
  have hblanks : skipBlanks ([] ++ (text ++ ['\n'])) = text ++ ['\n'] :=
    h.skipBlanks_append (by simp) ['\n']
  rw [List.nil_append] at hblanks
  have hread := h.read (2 * (text ++ ['\n']).length + 2) ['\n']
    (by rw [List.length_append]; omega)
  simp only [read?, hblanks, hread, Option.bind_eq_bind, Option.bind_some]
  rfl

end Json

/-! ### Documents of mappings and texts -/

namespace TextTree

mutual

def json : TextTree → Json
  | .text t => .str t
  | .map entries => .obj (jsonFields entries)

def jsonFields : List (Text × TextTree) → List (Text × Json)
  | [] => []
  | (key, tree) :: rest => (key, json tree) :: jsonFields rest

end

theorem jsonFields_eq_map (entries : List (Text × TextTree)) :
    jsonFields entries = entries.map fun entry => (entry.1, entry.2.json) := by
  induction entries with
  | nil => rfl
  | cons entry rest ih =>
    rw [List.map_cons, ← ih]
    rfl

theorem forming_value (tree : TextTree) : Json.forming.value tree.value = .ok tree.json := by
  induction tree with
  | text t => rfl
  | map entries ih =>
    rw [value_map, json, jsonFields_eq_map]
    refine Json.forming_map ?_
    rw [List.forall₂_map_left_iff, List.forall₂_map_right_iff, List.forall₂_same]
    exact fun entry hentry => ⟨rfl, ih entry hentry⟩

theorem Fits.depth_le {room : Nat} {tree : TextTree} (h : Fits room tree) :
    tree.value.depth ≤ room := by
  induction h with
  | text t => exact Nat.zero_le _
  | map distinct inner ih =>
    rw [value_map]
    refine Value.depth_map_le fun entry hentry => ?_
    obtain ⟨part, hpart, rfl⟩ := List.mem_map.mp hentry
    exact ih part hpart

theorem isTextual_json (tree : TextTree) : tree.json.IsTextual := by
  induction tree with
  | text t => exact .str t
  | map entries ih =>
    rw [json, jsonFields_eq_map]
    refine .obj fun field hfield => ?_
    obtain ⟨entry, hentry, rfl⟩ := List.mem_map.mp hfield
    exact ih entry hentry

theorem Fits.toValue_json {room : Nat} {tree : TextTree} (h : Fits room tree) :
    tree.json.toValue = tree.value := by
  induction h with
  | text t => rfl
  | @map room entries distinct inner ih =>
    have hnames : ((entries.map fun entry => (entry.1, entry.2.json)).map Prod.fst).Nodup := by
      rwa [List.map_map]
    rw [json, jsonFields_eq_map, Json.toValue_obj hnames, Json.toEntries_eq_map, value_map,
      List.map_map]
    congr 1
    exact List.map_congr_left fun entry hentry => congrArg (Prod.mk _) (ih entry hentry)

theorem Everywhere.joined_json {tree : TextTree}
    (h : Everywhere Text.IsUnpaired Text.IsUnpaired tree) : tree.json.joined = tree.json := by
  induction h with
  | text ht => exact congrArg Json.str ht.joined_eq
  | @map entries keys inner ih =>
    rw [json, Json.joined, Json.joinedFields_eq_map, jsonFields_eq_map, List.map_map]
    congr 1
    refine List.map_congr_left fun entry hentry => ?_
    exact Prod.ext (keys entry hentry).joined_eq (ih entry hentry)

/-! ### Lists of documents -/

theorem ofValue_list {trees : List TextTree} {room : Nat} (h : ∀ tree ∈ trees, Fits room tree)
    (hroom : room < Json.maxDepth) :
    Json.ofValue (.list (trees.map value)) = .ok (.arr (trees.map json)) := by
  have hdepth : (Value.list (trees.map value)).depth ≤ room + 1 := by
    have hinner : (Value.list (trees.map value)).depth =
        ((trees.map value).map Value.depth).foldl max 0 + 1 := by
      unfold Value.depth
      rw [Folder.value, Folder.values_eq_map]
      rfl
    rw [hinner]
    refine Nat.succ_le_succ (Value.foldl_max_le fun n hn => ?_)
    obtain ⟨v, hv, rfl⟩ := List.mem_map.mp hn
    obtain ⟨tree, htree, rfl⟩ := List.mem_map.mp hv
    exact (h tree htree).depth_le
  have hform : ((trees.map value).map Json.forming.value).mapM id =
      (.ok (trees.map json) : Except Json.Refusal _) := by
    rw [Except.mapM_eq_ok, List.map_map, List.forall₂_map_left_iff, List.forall₂_map_right_iff,
      List.forall₂_same]
    exact fun tree _ => tree.forming_value
  rw [Json.ofValue, if_neg (by omega), Folder.value, Folder.values_eq_map]
  show (_ >>= fun items => Except.ok (Json.arr items)) = _
  rw [hform]
  rfl

private theorem joinedAll_eq_map (items : List Json) :
    Json.joinedAll items = items.map Json.joined := by
  induction items with
  | nil => rfl
  | cons j rest ih =>
    rw [List.map_cons, ← ih]
    rfl

private theorem toValues_eq_map (items : List Json) :
    Json.toValues items = items.map Json.toValue := by
  induction items with
  | nil => rfl
  | cons j rest ih =>
    rw [List.map_cons, ← ih]
    rfl

theorem joined_list {trees : List TextTree}
    (h : ∀ tree ∈ trees, Everywhere Text.IsUnpaired Text.IsUnpaired tree) :
    (Json.arr (trees.map json)).joined = .arr (trees.map json) := by
  rw [Json.joined, joinedAll_eq_map, List.map_map]
  exact congrArg Json.arr (List.map_congr_left fun tree htree => (h tree htree).joined_json)

theorem toValue_list {trees : List TextTree} {room : Nat} (h : ∀ tree ∈ trees, Fits room tree) :
    (Json.arr (trees.map json)).toValue = .list (trees.map value) := by
  rw [Json.toValue, toValues_eq_map, List.map_map]
  exact congrArg Value.list (List.map_congr_left fun tree htree => (h tree htree).toValue_json)

end TextTree
end ClusterRegistrar
