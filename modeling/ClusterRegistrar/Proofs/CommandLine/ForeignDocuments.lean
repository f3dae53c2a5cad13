import ClusterRegistrar.Proofs.CommandLine.DocumentOrder
import ClusterRegistrar.Proofs.Manifest.Foreign

/-! Input files with foreign resources. A session prints the same for an input file and for another one
that leaves some of them out. Only the debug records of what is passed over are left out with them. -/
namespace ClusterRegistrar.CommandLine

open Manifest (Thinned)

theorem Invocation.proceed_agree_of_copies {i : Invocation} (hi : i.HasOptionNamespace)
    {origins : Origin → Origin → Prop} {ms ms' : List Manifest}
    (hsecrets : List.Forall₂ (SourceSecret.IsCopy origins) (ms.filterMap Manifest.secret?)
      (ms'.filterMap Manifest.secret?))
    (hclusters : List.Forall₂ (SourceCluster.IsCopy origins) (ms.filterMap Manifest.cluster?)
      (ms'.filterMap Manifest.cluster?)) :
    (i.proceed ms).Agree (List.Forall₂ GeneratedSecret.Alike) (i.proceed ms') := by
  unfold Invocation.proceed
  dsimp only
  rw [hsecrets.length_eq, hclusters.length_eq]
  refine .bind_same _ fun _ => Conversion.convert_agree (fun _ => hi.matches_self) hsecrets hclusters

/-! ### Two outcomes -/

/-- Two outcomes that print the same, of sessions whose directories differ in what is at one place, and
that show the same errors unless debug records are logged. -/
structure PrintedAlike (place : Place) (content content' : ByteArray) (least : Option Level)
    (o o' : Outcome) : Prop where
  ending : o.ending = o'.ending
  stdout : o.stdout = o'.stdout
  stderr : least ≠ some .debug → o.stderr = o'.stderr
  elsewhere : ∀ q, q ≠ place → o.directory.file? q = o'.directory.file? q
  input : o.directory.file? place = o'.directory.file? place ∨
    o.directory.file? place = some content ∧ o'.directory.file? place = some content'

theorem ErrorsAlike.of_eq {least : Option Level} {e e' : String} (h : e = e') :
    ErrorsAlike least e e' where
  reordered := by
    subst h
    exact ⟨[], [], e, .nil, (String.empty_append ..).symm, (String.empty_append ..).symm⟩
  same _ := h

theorem Invocation.run_withLevel (i : Invocation) (d : Directory) (least : Option Level) :
    (i.run d).ending = ({ i with logLevel := least }.run d).ending ∧
      (i.run d).stdout = ({ i with logLevel := least }.run d).stdout ∧
      (i.run d).directory = ({ i with logLevel := least }.run d).directory := by
  have hconvert (input : Except Fault ByteArray) :
      { i with logLevel := least }.convert input = i.convert input := rfl
  have houtput : { i with logLevel := least }.output d = i.output d := rfl
  unfold Invocation.run
  dsimp only
  rw [hconvert, houtput]
  cases (i.convert (d.read i.path)).result with
  | error e => cases e <;> exact ⟨rfl, rfl, rfl⟩
  | ok secrets =>
    cases i.output d with
    | error f => exact ⟨rfl, rfl, rfl⟩
    | ok output =>
      dsimp only [printTo]
      cases output.2 with
      | device dev => cases dev <;> exact ⟨rfl, rfl, rfl⟩
      | file place => exact ⟨rfl, rfl, rfl⟩

/-! ### Two sessions -/

theorem PrintedAlike.run {i : Invocation} {d : Directory} {place : Place}
    {content content' : ByteArray} (hpath : d.locate i.path = .ok place)
    (hplace : d.file? place = some content)
    (hlogs : ∀ least : Option Level, least ≠ some .debug →
      logText least (i.convert (.ok content)).log = logText least (i.convert (.ok content')).log)
    (hresult : Except.Agree (List.Forall₂ GeneratedSecret.Alike)
      (i.convert (.ok content)).result (i.convert (.ok content')).result) :
    PrintedAlike place content content' i.logLevel (i.run d) (i.run (d.put place content')) := by
  have halike (least : Option Level) (hleast : least ≠ some .debug) :
      Alike place content content' least ({ i with logLevel := least }.run d)
        ({ i with logLevel := least }.run (d.put place content')) :=
    Alike.run (i := { i with logLevel := least }) hpath hplace (.of_eq (hlogs least hleast)) hresult
  have hquiet := halike none nofun
  obtain ⟨hending, hstdout, hdirectory⟩ := i.run_withLevel d none
  obtain ⟨hending', hstdout', hdirectory'⟩ := i.run_withLevel (d.put place content') none
  refine ⟨?_, ?_, fun hleast => (halike i.logLevel hleast).stderr.same hleast, ?_, ?_⟩
  · rw [hending, hending', hquiet.ending]
  · rw [hstdout, hstdout', hquiet.stdout]
  · rw [hdirectory, hdirectory']
    exact hquiet.elsewhere
  · rw [hdirectory, hdirectory']
    exact hquiet.input

/-- An input file without some of its foreign resources is accepted too, and the session prints the
same. -/
theorem foreign_resources_unseen {arguments : List Text} {i : Invocation}
    (hi : Request.read arguments = .ok (.convert i)) {d : Directory} {place : Place}
    (hpath : d.locate i.path = .ok place) {content content' : ByteArray}
    (hplace : d.file? place = some content) {docs docs' : List Value}
    (hdocs : Manifest.documents i.path content = .ok docs)
    (hdocs' : Manifest.documents i.path content' = .ok docs') (hthinned : Thinned docs docs')
    {manifests : List Manifest} (haccepted : (Manifest.ofFile i.path content).result = .ok manifests) :
    (∃ manifests', (Manifest.ofFile i.path content').result = .ok manifests') ∧
      PrintedAlike place content content' i.logLevel (session arguments d)
        (session arguments (d.put place content')) := by
  have hfile := Manifest.ofFile_of_documents hdocs
  have hfile' := Manifest.ofFile_of_documents hdocs'
  rw [hfile] at haccepted
  obtain ⟨manifests', haccepted', origins, hsecrets, hclusters⟩ :=
    hthinned.exists_manifests haccepted
  have hagree := Invocation.proceed_agree_of_copies (.of_read hi) hsecrets hclusters
  have hconvert : i.convert (.ok content) = Manifest.ofDocuments i.path docs >>= i.proceed :=
    (i.convert_eq content).trans (by rw [hfile])
  have hconvert' : i.convert (.ok content') = Manifest.ofDocuments i.path docs' >>= i.proceed :=
    (i.convert_eq content').trans (by rw [hfile'])
  have hdebug (docs : List Value) :
      ∀ r ∈ (Manifest.ofDocuments i.path docs).log, r.level = .debug :=
    fun r hr => (Manifest.logs_ofDocuments i.path docs r hr).1
  refine ⟨⟨manifests', hfile' ▸ haccepted'⟩, ?_⟩
  rw [session_of_read hi, session_of_read hi]
  refine PrintedAlike.run hpath hplace (fun least hleast => ?_) ?_
  · rw [hconvert, hconvert', Run.log_bind_of_result haccepted, Run.log_bind_of_result haccepted',
      logText_append_of_debug hleast (hdebug docs), logText_append_of_debug hleast (hdebug docs'),
      hagree.log]
  · rw [hconvert, hconvert', Run.result_bind, Run.result_bind, haccepted, haccepted']
    exact hagree.result

def strangerLines (version : String) : List String :=
  ["kind: Cluster", "apiVersion: " ++ version, "metadata:", "  name: c", "  namespace: ns",
    "  labels:", "    space: other", "    take-along-label.capi-to-argocd.space: x"]

def ownLines : List String := gatheredLines "&it ns" "*it"

def crowdedLines (version : String) : List String := ownLines ++ itemLines (strangerLines version)

/-- A cluster of another group is unseen, unless its group starts like that of Cluster API. -/
theorem stranger_unseen_look_alike_seen :
    PrintedAlike inputPlace (contentOf (crowdedLines "infrastructure.cluster.x-k8s.io/v1"))
        (contentOf ownLines) none
        (session ["convert", "in.yaml"]
          (inputIn (crowdedLines "infrastructure.cluster.x-k8s.io/v1")))
        (session ["convert", "in.yaml"]
          ((inputIn (crowdedLines "infrastructure.cluster.x-k8s.io/v1")).put inputPlace
            (contentOf ownLines))) ∧
      ∃ docs docs' kept last copies,
        Manifest.documents "in.yaml" (contentOf (crowdedLines "cluster.x-k8s.iox/v1")) = .ok docs ∧
        Manifest.documents "in.yaml" (contentOf ownLines) = .ok docs' ∧
        Manifest.items? docs = some (kept ++ [last]) ∧ Manifest.items? docs' = some copies ∧
        Manifest.isLookAlike last = true ∧
        List.Forall₂ (Manifest.IsCopy fun o p => (o, p) ∈ []) kept copies ∧
        (session ["convert", "in.yaml"] (inputIn (crowdedLines "cluster.x-k8s.iox/v1"))).stdout ≠
          (session ["convert", "in.yaml"] (inputIn ownLines)).stdout := by
  constructor
  · have htest : testDocuments (crowdedLines "infrastructure.cluster.x-k8s.io/v1") ownLines
        (fun docs docs' => hasOneCluster docs && Manifest.lastLeftOut
          (fun item => !Manifest.isHeeded item) [(2, 2), (5, 4), (6, 5)] [(3, 3), (7, 6), (9, 7)]
          docs docs') = true := by
      decide +kernel
    obtain ⟨docs, docs', hdocs, hdocs', htest⟩ := exists_documents_of_test htest "in.yaml"
    obtain ⟨hone, hleftOut⟩ := Bool.and_eq_true_iff.mp htest
    obtain ⟨manifests, haccepted, -⟩ := exists_manifests_of_hasOneCluster hone hdocs
    exact (foreign_resources_unseen (i := { path := "in.yaml" }) rfl (locate_inputIn _)
      (file?_inputIn _) hdocs hdocs' (Manifest.thinned_of_lastLeftOut hleftOut) haccepted).2
  · have htest : testDocuments (crowdedLines "cluster.x-k8s.iox/v1") ownLines
        (fun docs docs' => Manifest.lastLeftOut Manifest.isLookAlike
          [(2, 2), (5, 4), (6, 5)] [(3, 3), (7, 6), (9, 7)] docs docs' &&
          printedApart { path := "in.yaml" } docs docs') = true := by
      decide +kernel
    obtain ⟨docs, docs', hdocs, hdocs', htest⟩ := exists_documents_of_test htest "in.yaml"
    obtain ⟨hleftOut, happart⟩ := Bool.and_eq_true_iff.mp htest
    obtain ⟨kept, last, copies, hitems, hcopies, hlast, hcopy⟩ :=
      Manifest.exists_items_of_lastLeftOut hleftOut
    exact ⟨docs, docs', kept, last, copies, hdocs, hdocs', hitems, hcopies, hlast, hcopy,
      (sessions_apart hdocs hdocs' happart).2.2⟩

end ClusterRegistrar.CommandLine
