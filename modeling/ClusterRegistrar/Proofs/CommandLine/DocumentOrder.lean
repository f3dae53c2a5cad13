import ClusterRegistrar.CommandLine.Session
import ClusterRegistrar.Proofs.CommandLine.Directory
import ClusterRegistrar.Proofs.Conversion.ClusterOrder
import ClusterRegistrar.Proofs.Listing.Matching
import ClusterRegistrar.Proofs.Manifest.Rearrangement

/-! The order of the documents. A session shows the same for an input file and for another one that
holds the same resources in another order, as long as the secrets keep theirs and no two clusters share
a name. Only records of what is passed over change places, and they are debug records. -/
namespace ClusterRegistrar.CommandLine

open Manifest (Rearranged)

/-! ### The namespace that the user gives -/

def Invocation.HasOptionNamespace (i : Invocation) : Prop :=
  ∃ value : Option Text, i.settings.argoNamespace = value.elim (.list []) .str

namespace Invocation.HasOptionNamespace

variable {i : Invocation}

theorem set (h : i.HasOptionNamespace) (name : String) (value : Option Text) :
    (i.set name value).HasOptionNamespace := by
  unfold Invocation.set
  split
  · exact ⟨value, rfl⟩
  all_goals exact h

theorem setProgram (h : i.HasOptionNamespace) (name : String) (value : Option Text) :
    (i.setProgram name value).HasOptionNamespace := by
  unfold Invocation.setProgram
  split <;> exact h

theorem setAll {setOne : Invocation → String → Option Text → Invocation}
    (hset : ∀ (i : Invocation) name value, i.HasOptionNamespace →
      (setOne i name value).HasOptionNamespace) (given : List (NamedOption × Option Text)) :
    ∀ {i : Invocation}, i.HasOptionNamespace → (i.setAll setOne given).HasOptionNamespace := by
  unfold Invocation.setAll
  induction given with
  | nil => exact fun h => h
  | cons option rest ih => exact fun h => ih (hset _ _ _ h)

theorem of_read {arguments : List Text} (h : Request.read arguments = .ok (.convert i)) :
    i.HasOptionNamespace := by
  obtain ⟨outer, -, h⟩ := Except.bind_eq_ok.mp h
  split at h
  · cases h
  · obtain ⟨inner, -, h⟩ := Except.bind_eq_ok.mp h
    split at h
    · cases h
    · split at h
      · cases h
        refine setAll (fun _ name value h => h.set name value) _ (setAll ?_ _ ?_)
        · exact fun _ name value h => h.setProgram name value
        · exact ⟨some "argocd", rfl⟩
      · cases h

theorem matches_self {M : Correspondence} (h : i.HasOptionNamespace) :
    i.settings.argoNamespace.Matches M i.settings.argoNamespace := by
  obtain ⟨value, hvalue⟩ := h
  rw [hvalue]
  cases value with
  | none => exact .list .nil
  | some t => exact .str t

end Invocation.HasOptionNamespace

/-! ### Two conversions -/

def Invocation.proceed (i : Invocation) (manifests : List Manifest) : Run (List GeneratedSecret) := do
  let secrets := manifests.filterMap Manifest.secret?
  let clusters := manifests.filterMap Manifest.cluster?
  Run.record .debug .conversion
    (.ok s!"Found {secrets.length} secrets and {clusters.length} clusters")
  Conversion.convert i.settings secrets clusters

theorem Invocation.convert_eq (i : Invocation) (content : ByteArray) :
    i.convert (.ok content) = Manifest.ofFile i.path content >>= i.proceed := rfl

theorem Invocation.proceed_agree {i : Invocation} (hi : i.HasOptionNamespace)
    {origins : Origin → Origin → Prop} {ms ms' : List Manifest} {moved : List SourceCluster}
    (hsecrets : List.Forall₂ (SourceSecret.IsCopy origins) (ms.filterMap Manifest.secret?)
      (ms'.filterMap Manifest.secret?))
    (hperm : moved.Perm (ms.filterMap Manifest.cluster?))
    (hclusters : List.Forall₂ (SourceCluster.IsCopy origins) moved
      (ms'.filterMap Manifest.cluster?))
    (hapart : (ms.filterMap Manifest.cluster?).Pairwise fun c d => ¬c.sharesName d = true) :
    (i.proceed ms).Agree (List.Forall₂ GeneratedSecret.Alike) (i.proceed ms') := by
  unfold Invocation.proceed
  dsimp only
  rw [hsecrets.length_eq, ← hclusters.length_eq, ← hperm.length_eq,
    Conversion.convert_perm hperm.symm hapart]
  refine .bind_same _ fun _ => Conversion.convert_agree (fun _ => hi.matches_self) hsecrets hclusters

/-! ### Two error streams -/

/-- Two texts on the error stream: the same records in some order, and the same text behind them. They
are equal unless debug records are logged. -/
structure ErrorsAlike (least : Option Level) (e e' : String) : Prop where
  reordered : ∃ log log' shown, log.Perm log' ∧ e = logText least log ++ shown ∧
    e' = logText least log' ++ shown
  same : least ≠ some .debug → e = e'

theorem ErrorsAlike.append {least : Option Level} {e e' : String} (h : ErrorsAlike least e e')
    (more : String) : ErrorsAlike least (e ++ more) (e' ++ more) where
  reordered := by
    obtain ⟨log, log', shown, hperm, rfl, rfl⟩ := h.reordered
    exact ⟨log, log', shown ++ more, hperm, String.append_assoc .., String.append_assoc ..⟩
  same hleast := by rw [h.same hleast]

theorem logLine?_of_debug {least : Option Level} (hleast : least ≠ some .debug) {r : Record}
    (h : r.level = .debug) : logLine? least r = none := by
  unfold logLine?
  rw [h]
  cases r.text with
  | error f => rfl
  | ok text =>
    cases least with
    | none => rfl
    | some level =>
      cases level with
      | debug => exact absurd rfl hleast
      | _ => rfl

theorem logText_append_of_debug {least : Option Level} (hleast : least ≠ some .debug)
    {first : List Record} (hdebug : ∀ r ∈ first, r.level = .debug) (rest : List Record) :
    logText least (first ++ rest) = logText least rest := by
  have hnone : first.filterMap (logLine? least) = [] :=
    List.filterMap_eq_nil_iff.mpr fun r hr => logLine?_of_debug hleast (hdebug r hr)
  rw [logText, logText, List.filterMap_append, hnone, List.nil_append]

theorem errorsAlike_logText {first first' : List Record} (hperm : first.Perm first')
    (hdebug : ∀ r ∈ first, r.level = .debug) (rest : List Record) (least : Option Level) :
    ErrorsAlike least (logText least (first ++ rest)) (logText least (first' ++ rest)) where
  reordered := by
    refine ⟨_, _, "", hperm.append_right rest, ?_, ?_⟩
    · exact (String.append_empty ..).symm
    · exact (String.append_empty ..).symm
  same hleast := by
    have hdebug' : ∀ r ∈ first', r.level = .debug := fun r hr => hdebug r (hperm.mem_iff.mpr hr)
    rw [logText_append_of_debug hleast hdebug, logText_append_of_debug hleast hdebug']

/-! ### Two outcomes -/

/-- Two outcomes that show the same, of sessions whose directories differ in what is at one place. It
still differs there unless both have written to it. -/
structure Alike (place : Place) (content content' : ByteArray) (least : Option Level)
    (o o' : Outcome) : Prop where
  ending : o.ending = o'.ending
  stdout : o.stdout = o'.stdout
  stderr : ErrorsAlike least o.stderr o'.stderr
  elsewhere : ∀ q, q ≠ place → o.directory.file? q = o'.directory.file? q
  input : o.directory.file? place = o'.directory.file? place ∨
    o.directory.file? place = some content ∧ o'.directory.file? place = some content'

namespace Alike

variable {d : Directory} {place : Place} {content : ByteArray} {least : Option Level} {e e' : String}

theorem unwritten (hplace : d.file? place = some content) (content' : ByteArray)
    (h : ErrorsAlike least e e') (ending : Except Fault Nat) (stdout : String) :
    Alike place content content' least ⟨ending, stdout, e, d⟩
      ⟨ending, stdout, e', d.put place content'⟩ where
  ending := rfl
  stdout := rfl
  stderr := h
  elsewhere _ hq := (Directory.file?_put_other hq d content').symm
  input := .inr ⟨hplace, Directory.file?_put_same d place content'⟩

theorem printTo (hplace : d.file? place = some content) (content' : ByteArray)
    (h : ErrorsAlike least e e') (printout : Table.Printout) (target : Directory.Target) :
    Alike place content content' least (CommandLine.printTo d e printout target)
      (CommandLine.printTo (d.put place content') e' printout target) := by
  unfold CommandLine.printTo
  generalize encodeLines printout.fault printout.lines = encoded
  obtain ⟨text, fault?⟩ := encoded
  cases target with
  | device dev =>
    cases dev with
    | standardError => exact unwritten hplace content' (h.append _) _ _
    | _ => exact unwritten hplace content' h _ _
  | file q =>
    refine ⟨rfl, rfl, h, fun p hp => ?_, ?_⟩
    · by_cases hq : p = q
      · rw [hq, Directory.file?_put_same, Directory.file?_put_same]
      · rw [Directory.file?_put_other hq, Directory.file?_put_other hq, Directory.file?_put_other hp]
    · by_cases hq : place = q
      · left
        rw [hq, Directory.file?_put_same, Directory.file?_put_same]
      · right
        rw [Directory.file?_put_other hq, Directory.file?_put_other hq]
        exact ⟨hplace, Directory.file?_put_same d place content'⟩

end Alike

/-! ### Two sessions -/

theorem session_of_read {arguments : List Text} {i : Invocation}
    (hi : Request.read arguments = .ok (.convert i)) (d : Directory) :
    session arguments d = i.run d := by
  rw [session, hi]

theorem Alike.run {i : Invocation} {d : Directory} {place : Place} {content content' : ByteArray}
    (hpath : d.locate i.path = .ok place) (hplace : d.file? place = some content)
    (herrors : ErrorsAlike i.logLevel (logText i.logLevel (i.convert (.ok content)).log)
      (logText i.logLevel (i.convert (.ok content')).log))
    (hresult : Except.Agree (List.Forall₂ GeneratedSecret.Alike)
      (i.convert (.ok content)).result (i.convert (.ok content')).result) :
    Alike place content content' i.logLevel (i.run d) (i.run (d.put place content')) := by
  have hread := Directory.read_of_locate hplace hpath
  have hread' : (d.put place content').read i.path = .ok content' :=
    Directory.read_of_locate (Directory.file?_put_same d place content')
      (Directory.locate_put hplace content' i.path ▸ hpath)
  have houtput : i.output (d.put place content') = i.output d := by
    unfold Invocation.output
    simp only [Directory.target_put hplace]
  unfold Invocation.run
  rw [hread, hread', houtput]
  dsimp only
  generalize (i.convert (.ok content)).result = left, (i.convert (.ok content')).result = right
    at hresult ⊢
  cases hresult with
  | error e =>
    cases e with
    | rejected reason => exact unwritten hplace content' (herrors.append _) _ _
    | fault f => exact unwritten hplace content' herrors _ _
  | ok hsecrets =>
    cases i.output d with
    | error f => exact unwritten hplace content' herrors _ _
    | ok output =>
      dsimp only
      rw [Listing.print_eq output.1 hsecrets]
      exact printTo hplace content' herrors _ _

/-- An input file with rearranged documents is accepted too, and the session shows the same. -/
theorem rearranged_documents_shown_alike {arguments : List Text} {i : Invocation}
    (hi : Request.read arguments = .ok (.convert i)) {d : Directory} {place : Place}
    (hpath : d.locate i.path = .ok place) {content content' : ByteArray}
    (hplace : d.file? place = some content) {docs docs' : List Value}
    (hdocs : Manifest.documents i.path content = .ok docs)
    (hdocs' : Manifest.documents i.path content' = .ok docs')
    (hrearranged : Rearranged docs docs') {manifests : List Manifest}
    (haccepted : (Manifest.ofFile i.path content).result = .ok manifests)
    (hapart : (manifests.filterMap Manifest.cluster?).Pairwise fun c d => ¬c.sharesName d = true) :
    (∃ manifests', (Manifest.ofFile i.path content').result = .ok manifests') ∧
      Alike place content content' i.logLevel (session arguments d)
        (session arguments (d.put place content')) := by
  have hfile := Manifest.ofFile_of_documents hdocs
  have hfile' := Manifest.ofFile_of_documents hdocs'
  rw [hfile] at haccepted
  obtain ⟨manifests', haccepted', hlog, origins, hsecrets, moved, hperm, hclusters⟩ :=
    hrearranged.exists_manifests haccepted
  have hagree := Invocation.proceed_agree (.of_read hi) hsecrets hperm hclusters hapart
  have hconvert : i.convert (.ok content) = Manifest.ofDocuments i.path docs >>= i.proceed :=
    (i.convert_eq content).trans (by rw [hfile])
  have hconvert' : i.convert (.ok content') = Manifest.ofDocuments i.path docs' >>= i.proceed :=
    (i.convert_eq content').trans (by rw [hfile'])
  refine ⟨⟨manifests', hfile' ▸ haccepted'⟩, ?_⟩
  have hrun (d : Directory) : session arguments d = i.run d := by rw [session, hi]
  have herrors : ErrorsAlike i.logLevel (logText i.logLevel (i.convert (.ok content)).log)
      (logText i.logLevel (i.convert (.ok content')).log) := by
    rw [hconvert, hconvert', Run.log_bind_of_result haccepted, Run.log_bind_of_result haccepted',
      ← hagree.log]
    exact errorsAlike_logText hlog (fun r hr => (Manifest.logs_ofDocuments i.path docs r hr).1) _ _
  have hresult : Except.Agree (List.Forall₂ GeneratedSecret.Alike)
      (i.convert (.ok content)).result (i.convert (.ok content')).result := by
    rw [hconvert, hconvert', Run.result_bind, Run.result_bind, haccepted, haccepted']
    exact hagree.result
  rw [hrun, hrun]
  exact Alike.run hpath hplace herrors hresult

/-! ### Files -/

def sourceLines (space : String) : List String :=
  ["kind: Secret", "apiVersion: v1", "metadata:", "  name: c-kubeconfig", "  namespace: " ++ space,
    "type: " ++ SourceSecret.capiType, "data:", "  value: " ++ SourceSecret.plainContent]

def clusterLines (space : String) : List String :=
  ["kind: Cluster", "apiVersion: cluster.x-k8s.io/v1", "metadata:", "  name: c",
    "  namespace: " ++ space, "  labels:", "    space: *it",
    "    take-along-label.capi-to-argocd.space: x"]

def itemLines : List String → List String
  | [] => []
  | first :: rest => ("- " ++ first) :: rest.map ("  " ++ ·)

def gatheredLines (space clusterSpace : String) : List String :=
  ["kind: List", "items:"] ++ itemLines (sourceLines space) ++ itemLines (clusterLines clusterSpace)

def scatteredLines : List String :=
  clusterLines "&it 2020-01-01" ++ ["---"] ++ sourceLines "2020-01-01"

def charsOf (lines : List String) : List Char := lines.flatMap fun line => line.toList ++ ['\n']

def contentOf (lines : List String) : ByteArray := (String.ofList (charsOf lines)).toUTF8

theorem documents_contentOf {lines : List String} {docs : List Value}
    (h : Yaml.readAll (Manifest.unifyLineEnds (charsOf lines)) = .ok docs) (path : Text) :
    Manifest.documents path (contentOf lines) = .ok docs := by
  unfold Manifest.documents
  rw [contentOf, Text.fromUTF8?_toUTF8]
  dsimp only
  rw [String.toList_ofList, h]
  rfl

def testDocuments (lines others : List String) (test : List Value → List Value → Bool) : Bool :=
  (Yaml.readAll (Manifest.unifyLineEnds (charsOf lines))).toOption.any fun docs =>
    (Yaml.readAll (Manifest.unifyLineEnds (charsOf others))).toOption.any fun docs' =>
      test docs docs'

theorem exists_documents_of_test {lines others : List String} {test : List Value → List Value → Bool}
    (h : testDocuments lines others test = true) (path : Text) :
    ∃ docs docs', Manifest.documents path (contentOf lines) = .ok docs ∧
      Manifest.documents path (contentOf others) = .ok docs' ∧ test docs docs' = true := by
  obtain ⟨docs, hdocs, h⟩ := Except.exists_of_any h
  obtain ⟨docs', hdocs', h⟩ := Except.exists_of_any h
  exact ⟨docs, docs', documents_contentOf hdocs path, documents_contentOf hdocs' path, h⟩

def hasOneCluster (docs : List Value) : Bool :=
  (Manifest.ofDocuments "in.yaml" docs).result.toOption.any fun manifests =>
    (manifests.filterMap Manifest.cluster?).length = 1

theorem exists_manifests_of_hasOneCluster {docs : List Value} (h : hasOneCluster docs = true)
    {content : ByteArray} (hdocs : Manifest.documents "in.yaml" content = .ok docs) :
    ∃ manifests, (Manifest.ofFile "in.yaml" content).result = .ok manifests ∧
      (manifests.filterMap Manifest.cluster?).Pairwise fun c d => ¬c.sharesName d = true := by
  obtain ⟨manifests, haccepted, hone⟩ := Except.exists_of_any h
  obtain ⟨c, hc⟩ := List.length_eq_one_iff.mp (of_decide_eq_true hone)
  rw [Manifest.ofFile_of_documents hdocs]
  exact ⟨manifests, haccepted, hc ▸ List.pairwise_singleton ..⟩

def inputPlace : Place := .below ["in.yaml"]

def inputIn (lines : List String) : Directory := ⟨[(inputPlace, contentOf lines)]⟩

theorem file?_inputIn (lines : List String) :
    (inputIn lines).file? inputPlace = some (contentOf lines) := rfl

theorem locate_inputIn (lines : List String) :
    (inputIn lines).locate "in.yaml" = .ok inputPlace := rfl

theorem scattered_shown_alike :
    (∃ manifests, (Manifest.ofFile "in.yaml" (contentOf scatteredLines)).result = .ok manifests) ∧
      Alike inputPlace (contentOf (gatheredLines "2020-01-01" "&it 2020-01-01"))
        (contentOf scatteredLines) none
        (session ["convert", "in.yaml"] (inputIn (gatheredLines "2020-01-01" "&it 2020-01-01")))
        (session ["convert", "in.yaml"]
          ((inputIn (gatheredLines "2020-01-01" "&it 2020-01-01")).put inputPlace
            (contentOf scatteredLines))) := by
  have htest : testDocuments (gatheredLines "2020-01-01" "&it 2020-01-01") scatteredLines
      (fun docs docs' => hasOneCluster docs && Manifest.exchanged
        [(⟨0, 15⟩, ⟨1, 10⟩), (⟨0, 32⟩, ⟨0, 10⟩)] [(⟨0, 15⟩, ⟨1, 10⟩), (⟨0, 32⟩, ⟨0, 10⟩)]
        [(2, 0), (4, 1), (5, 2)] [(3, 0), (6, 1), (7, 2)] docs docs') = true := by
    decide +kernel
  obtain ⟨docs, docs', hdocs, hdocs', htest⟩ := exists_documents_of_test htest "in.yaml"
  obtain ⟨hone, hexchanged⟩ := Bool.and_eq_true_iff.mp htest
  obtain ⟨manifests, haccepted, hapart⟩ := exists_manifests_of_hasOneCluster hone hdocs
  exact rearranged_documents_shown_alike (i := { path := "in.yaml" }) rfl (locate_inputIn _)
    (file?_inputIn _) hdocs hdocs' (Manifest.rearranged_of_exchanged hexchanged) haccepted hapart

/-! ### Printed texts -/

def Invocation.printed? (i : Invocation) (docs : List Value) : Option (List Char) := do
  let secrets ← (Manifest.ofDocuments i.path docs >>= i.proceed).result.toOption
  let printout := (← i.listing).print secrets
  match encodeLines printout.fault printout.lines with
  | (text, none) => some text
  | (_, some _) => none

theorem Invocation.run_of_printed? {i : Invocation} {docs : List Value} {text : List Char}
    (h : i.printed? docs = some text) {d : Directory} {content : ByteArray}
    (hread : d.read i.path = .ok content) (hdocs : Manifest.documents i.path content = .ok docs)
    {outputFile : Text} (hfile : i.outputFile = some outputFile)
    (htarget : d.target outputFile = .ok (.device .standardOutput)) :
    (i.run d).ending = .ok 0 ∧ (i.run d).stdout = String.ofList text := by
  simp only [printed?, Option.bind_eq_bind, Option.bind_eq_some_iff, Except.toOption_eq_some] at h
  obtain ⟨secrets, hsecrets, listing, hlisting, htext⟩ := h
  have hconvert : (i.convert (.ok content)).result = .ok secrets := by
    rw [i.convert_eq content, Manifest.ofFile_of_documents hdocs, hsecrets]
  have houtput : i.output d = .ok (listing, .device .standardOutput) := by
    rw [output, hlisting, hfile]
    dsimp only
    rw [htarget]
    rfl
  unfold run
  rw [hread]
  dsimp only
  rw [hconvert, houtput]
  dsimp only [printTo]
  split at htext
  · rename_i hencoded
    cases htext
    rw [hencoded]
    exact ⟨rfl, rfl⟩
  · cases htext

theorem session_of_printed? {lines : List String} {docs : List Value} {text : List Char}
    (hdocs : Manifest.documents "in.yaml" (contentOf lines) = .ok docs)
    (h : Invocation.printed? { path := "in.yaml" } docs = some text) :
    (session ["convert", "in.yaml"] (inputIn lines)).ending = .ok 0 ∧
      (session ["convert", "in.yaml"] (inputIn lines)).stdout = String.ofList text := by
  have hsession : session ["convert", "in.yaml"] (inputIn lines) =
      Invocation.run { path := "in.yaml" } (inputIn lines) := rfl
  have htarget : (inputIn lines).target "/dev/stdout" = .ok (.device .standardOutput) := rfl
  rw [hsession]
  exact Invocation.run_of_printed? h
    (Directory.read_of_locate (file?_inputIn lines) (locate_inputIn lines)) hdocs rfl htarget

def printedApart (i : Invocation) (docs others : List Value) : Bool :=
  match i.printed? docs, i.printed? others with
  | some text, some text' => text.length ≠ text'.length
  | _, _ => false

theorem sessions_apart {lines others : List String} {docs docs' : List Value}
    (hdocs : Manifest.documents "in.yaml" (contentOf lines) = .ok docs)
    (hdocs' : Manifest.documents "in.yaml" (contentOf others) = .ok docs')
    (h : printedApart { path := "in.yaml" } docs docs' = true) :
    (session ["convert", "in.yaml"] (inputIn lines)).ending = .ok 0 ∧
      (session ["convert", "in.yaml"] (inputIn others)).ending = .ok 0 ∧
      (session ["convert", "in.yaml"] (inputIn lines)).stdout ≠
        (session ["convert", "in.yaml"] (inputIn others)).stdout := by
  unfold printedApart at h
  split at h
  · rename_i text text' htext htext'
    obtain ⟨hending, hstdout⟩ := session_of_printed? hdocs htext
    obtain ⟨hending', hstdout'⟩ := session_of_printed? hdocs' htext'
    refine ⟨hending, hending', fun hsame => of_decide_eq_true h ?_⟩
    rw [String.ofList_inj.mp (hstdout.symm.trans (hsame.trans hstdout'))]
  · cases h

/-- The list's items share the date, so that it is printed with an anchor. -/
theorem shared_date_printed_apart :
    ∃ docs docs' secret cluster secret' cluster' origins origins' manifests,
      Manifest.documents "in.yaml" (contentOf (gatheredLines "&it 2020-01-01" "*it")) = .ok docs ∧
      Manifest.documents "in.yaml" (contentOf scatteredLines) = .ok docs' ∧
      Manifest.items? docs = some [secret, cluster] ∧
      Manifest.items? docs' = some [cluster', secret'] ∧
      Manifest.IsCopy origins secret secret' ∧ Manifest.IsCopy origins' cluster cluster' ∧
      (Manifest.ofFile "in.yaml" (contentOf (gatheredLines "&it 2020-01-01" "*it"))).result =
        .ok manifests ∧
      ((manifests.filterMap Manifest.cluster?).Pairwise fun c d => ¬c.sharesName d = true) ∧
      (session ["convert", "in.yaml"] (inputIn (gatheredLines "&it 2020-01-01" "*it"))).ending =
        .ok 0 ∧
      (session ["convert", "in.yaml"] (inputIn scatteredLines)).ending = .ok 0 ∧
      (session ["convert", "in.yaml"] (inputIn (gatheredLines "&it 2020-01-01" "*it"))).stdout ≠
        (session ["convert", "in.yaml"] (inputIn scatteredLines)).stdout := by
  have htest : testDocuments (gatheredLines "&it 2020-01-01" "*it") scatteredLines
      (fun docs docs' => hasOneCluster docs && (Manifest.exchanged
        [(⟨0, 15⟩, ⟨1, 10⟩)] [(⟨0, 15⟩, ⟨0, 10⟩)]
        [(2, 0), (4, 1), (5, 2)] [(3, 0), (6, 1), (7, 2)] docs docs' &&
        printedApart { path := "in.yaml" } docs docs')) = true := by
    decide +kernel
  obtain ⟨docs, docs', hdocs, hdocs', htest⟩ := exists_documents_of_test htest "in.yaml"
  obtain ⟨hone, htest⟩ := Bool.and_eq_true_iff.mp htest
  obtain ⟨hexchanged, happart⟩ := Bool.and_eq_true_iff.mp htest
  obtain ⟨manifests, haccepted, hapart⟩ := exists_manifests_of_hasOneCluster hone hdocs
  obtain ⟨a, b, a', b', hitems, hitems', -, -, hsecret, hcluster⟩ :=
    Manifest.exists_items_of_exchanged hexchanged
  exact ⟨docs, docs', a, b, a', b', _, _, manifests, hdocs, hdocs', hitems, hitems', hsecret,
    hcluster, haccepted, hapart, sessions_apart hdocs hdocs' happart⟩

end ClusterRegistrar.CommandLine
