import ClusterRegistrar.CommandLine.Directory
import ClusterRegistrar.Proofs.Run

/-! Directories in which a file is written. Whether a path leads somewhere, and whether it can be opened
for writing, depends on what kind of thing is where and not on what the files hold, so it stays the
same if the file was there before. -/
namespace ClusterRegistrar.CommandLine.Directory

/-! ### Files -/

private def replaced (place : Place) (content : ByteArray) (entry : Place × ByteArray) :
    Place × ByteArray :=
  if entry.1 = place then (place, content) else entry

private theorem replaced_fst (place : Place) (content : ByteArray) (entry : Place × ByteArray) :
    (replaced place content entry).1 = entry.1 := by
  unfold replaced
  split
  · rename_i h
    exact h.symm
  · rfl

private theorem files_put_of_any {d : Directory} {place : Place}
    (h : (d.files.any fun entry => entry.1 = place) = true) (content : ByteArray) :
    (d.put place content).files = d.files.map (replaced place content) := by
  rw [put, if_pos h]
  rfl

private theorem files_put_of_not_any {d : Directory} {place : Place}
    (h : ¬(d.files.any fun entry => entry.1 = place) = true) (content : ByteArray) :
    (d.put place content).files = d.files ++ [(place, content)] := by
  rw [put, if_neg h]

private theorem find?_replaced (files : List (Place × ByteArray)) (place : Place)
    (content : ByteArray) (q : Place) :
    (files.map (replaced place content)).find? (fun entry => entry.1 = q) =
      (files.find? fun entry => entry.1 = q).map (replaced place content) := by
  rw [List.find?_map]
  simp only [Function.comp_def, replaced_fst]

theorem file?_put_same (d : Directory) (place : Place) (content : ByteArray) :
    (d.put place content).file? place = some content := by
  unfold file?
  by_cases h : (d.files.any fun entry => entry.1 = place) = true
  · rw [files_put_of_any h, find?_replaced]
    obtain ⟨entry, hentry⟩ :=
      Option.isSome_iff_exists.mp (List.find?_isSome.mpr (List.any_eq_true.mp h))
    have hplace := List.find?_some hentry
    rw [hentry]
    simp only [decide_eq_true_eq] at hplace
    simp [replaced, hplace]
  · have hnone : (d.files.find? fun entry => entry.1 = place) = none :=
      List.find?_eq_none.mpr fun entry hentry hplace => h (List.any_eq_true.mpr ⟨entry, hentry, hplace⟩)
    rw [files_put_of_not_any h, List.find?_append, hnone]
    simp

theorem file?_put_other {place q : Place} (h : q ≠ place) (d : Directory) (content : ByteArray) :
    (d.put place content).file? q = d.file? q := by
  unfold file?
  by_cases hany : (d.files.any fun entry => entry.1 = place) = true
  · rw [files_put_of_any hany, find?_replaced]
    cases hfound : d.files.find? fun entry => entry.1 = q with
    | none => rfl
    | some entry =>
      have hq := List.find?_some hfound
      simp only [decide_eq_true_eq] at hq
      simp [replaced, hq, h]
  · rw [files_put_of_not_any hany, List.find?_append]
    simp [h.symm]

/-! ### Replaced files -/

variable {d : Directory} {place : Place} {old : ByteArray}

theorem places_put (h : d.file? place = some old) (content : ByteArray) :
    (d.put place content).files.map Prod.fst = d.files.map Prod.fst := by
  obtain ⟨entry, hentry, -⟩ := Option.map_eq_some_iff.mp h
  have hplace := List.find?_some hentry
  have hany : (d.files.any fun entry => entry.1 = place) = true :=
    List.any_eq_true.mpr ⟨entry, List.mem_of_find?_eq_some hentry, hplace⟩
  rw [files_put_of_any hany, List.map_map]
  exact List.map_congr_left fun entry _ => replaced_fst place content entry

theorem isDirectory_put (h : d.file? place = some old) (content : ByteArray) (q : Place) :
    (d.put place content).isDirectory q = d.isDirectory q := by
  have hbelow : ((d.put place content).files.any fun entry => entry.1.isBelow q) =
      d.files.any fun entry => entry.1.isBelow q := by
    have hplaces := congrArg (List.any · fun p => p.isBelow q) (places_put h content)
    simpa only [List.any_map, Function.comp_def] using hplaces
  rw [isDirectory, isDirectory, hbelow]

theorem occupant_put_same (d : Directory) (place : Place) (content : ByteArray) :
    (d.put place content).occupant place = .file content := by
  rw [occupant, file?_put_same]

theorem occupant_of_file (h : d.file? place = some old) : d.occupant place = .file old := by
  rw [occupant, h]

theorem occupant_put_other (h : d.file? place = some old) {q : Place} (hq : q ≠ place)
    (content : ByteArray) : (d.put place content).occupant q = d.occupant q := by
  rw [occupant, occupant, file?_put_other hq, isDirectory_put h]

theorem enter_put (h : d.file? place = some old) (content : ByteArray) (q : Place) (name : Text) :
    (d.put place content).enter q name = d.enter q name := by
  unfold enter
  by_cases hq : q = place
  · rw [hq, occupant_put_same, occupant_of_file h]
  · rw [occupant_put_other h hq]

theorem locate_put (h : d.file? place = some old) (content : ByteArray) (path : Text) :
    (d.put place content).locate path = d.locate path := by
  have henter : (d.put place content).enter = d.enter := by
    funext q name
    exact enter_put h content q name
  rw [locate, locate, henter]

theorem target_put (h : d.file? place = some old) (content : ByteArray) (path : Text) :
    (d.put place content).target path = d.target path := by
  unfold target
  rw [locate_put h]
  refine bind_congr fun q => ?_
  by_cases hq : q = place
  · rw [hq, occupant_put_same, occupant_of_file h]
  · rw [occupant_put_other h hq]

theorem read_of_locate (h : d.file? place = some old) {path : Text}
    (hpath : d.locate path = .ok place) : d.read path = .ok old := by
  rw [read, hpath, Except.ok_bind, occupant_of_file h]

end ClusterRegistrar.CommandLine.Directory
