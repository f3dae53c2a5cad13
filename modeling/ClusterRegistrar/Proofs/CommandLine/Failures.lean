import ClusterRegistrar.Proofs.CommandLine.DocumentOrder
import ClusterRegistrar.Proofs.Manifest.Faults

/-! Sessions that fail. A rejection of the input is told to the user, while an input that trips its
reader ends the session in a fault. Either leaves the working directory alone, and so does every failure
but one: a listing that cannot be laid out has its output file opened before. -/
namespace ClusterRegistrar.CommandLine

variable {arguments : List Text} {i : Invocation} {d : Directory}

theorem Invocation.run_of_rejected {reason : Rejection}
    (h : (i.convert (d.read i.path)).result = .error (.rejected reason)) :
    i.run d = {
      ending := .ok 1
      stderr := logText i.logLevel (i.convert (d.read i.path)).log ++
        errorText [rejectionLine reason]
      directory := d } := by
  unfold run
  dsimp only
  rw [h]

theorem Invocation.run_of_fault {f : Fault}
    (h : (i.convert (d.read i.path)).result = .error (.fault f)) :
    i.run d = {
      ending := .error f
      stderr := logText i.logLevel (i.convert (d.read i.path)).log
      directory := d } := by
  unfold run
  dsimp only
  rw [h]

/-! ### The input -/

theorem Invocation.convert_of_failed {content : ByteArray} {e : Failure}
    (h : (Manifest.ofFile i.path content).result = .error e) :
    (i.convert (.ok content)).result = .error e := by
  rw [i.convert_eq, Run.result_bind, h, Except.error_bind]

/-- A file is read, or rejected with a reason, exactly if it does not trip its reader. A session on a
rejected one tells the user the reason, while one on a file that trips ends in a fault. -/
theorem input_rejected_iff_not_trips (path : Text) (content : ByteArray) :
    ((∃ ms, (Manifest.ofFile path content).result = .ok ms) ∨
        (∃ reason, (Manifest.ofFile path content).result = .error (.rejected reason)) ↔
      ¬Manifest.FileTrips content) ∧
    ∀ (arguments : List Text) (i : Invocation) (d : Directory),
      Request.read arguments = .ok (.convert i) → i.path = path → d.read path = .ok content →
      (∀ reason, (Manifest.ofFile path content).result = .error (.rejected reason) →
        (session arguments d).ending = .ok 1 ∧ (session arguments d).directory = d ∧
          ∃ log, (session arguments d).stderr = log ++ errorText [rejectionLine reason]) ∧
      (Manifest.FileTrips content →
        ∃ f, (session arguments d).ending = .error f ∧ (session arguments d).directory = d) := by
  constructor
  · rw [← Manifest.givesUp_ofFile_iff path]
    cases (Manifest.ofFile path content).result with
    | ok ms => simp
    | error e => cases e <;> simp
  · rintro arguments i d hi rfl hread
    rw [session_of_read hi]
    constructor
    · intro reason hreason
      have hconvert := Invocation.convert_of_failed hreason
      rw [← hread] at hconvert
      rw [Invocation.run_of_rejected hconvert]
      exact ⟨rfl, rfl, _, rfl⟩
    · intro htrips
      obtain ⟨f, hf⟩ := (Manifest.givesUp_ofFile_iff i.path).mpr htrips
      have hconvert := Invocation.convert_of_failed hf
      rw [← hread] at hconvert
      rw [Invocation.run_of_fault hconvert]
      exact ⟨f, rfl, rfl⟩

def testFile (lines : List String) (test : List Value → Bool) : Bool :=
  (Yaml.readAll (Manifest.unifyLineEnds (charsOf lines))).toOption.any test

theorem exists_documents_of_testFile {lines : List String} {test : List Value → Bool}
    (h : testFile lines test = true) :
    ∃ docs, Manifest.documents "in.yaml" (contentOf lines) = .ok docs ∧ test docs = true := by
  obtain ⟨docs, hdocs, htest⟩ := Except.exists_of_any h
  exact ⟨docs, documents_contentOf hdocs "in.yaml", htest⟩

def isRejected (docs : List Value) : Bool :=
  match (Manifest.ofDocuments "in.yaml" docs).result with
  | .error (.rejected _) => true
  | _ => false

theorem exists_rejection {lines : List String} (h : testFile lines isRejected = true) :
    ∃ reason, (Manifest.ofFile "in.yaml" (contentOf lines)).result = .error (.rejected reason) := by
  obtain ⟨docs, hdocs, htest⟩ := exists_documents_of_testFile h
  rw [Manifest.ofFile_of_documents hdocs]
  unfold isRejected at htest
  split at htest
  · rename_i reason hreason
    exact ⟨reason, hreason⟩
  · cases htest

def isFaulty (docs : List Value) : Bool :=
  match (Manifest.ofDocuments "in.yaml" docs).result with
  | .error (.fault _) => true
  | _ => false

theorem trips_of_isFaulty {lines : List String} (h : testFile lines isFaulty = true) :
    Manifest.FileTrips (contentOf lines) := by
  obtain ⟨docs, hdocs, htest⟩ := exists_documents_of_testFile h
  rw [← Manifest.givesUp_ofFile_iff "in.yaml", Manifest.ofFile_of_documents hdocs]
  unfold isFaulty at htest
  split at htest
  · rename_i f hf
    exact ⟨f, hf⟩
  · cases htest

theorem read_inputIn (lines : List String) :
    (inputIn lines).read "in.yaml" = .ok (contentOf lines) :=
  Directory.read_of_locate (file?_inputIn lines) (locate_inputIn lines)

theorem number_trips_word_rejected :
    (session ["convert", "in.yaml"] (inputIn ["Cluster"])).ending = .ok 1 ∧
      (¬∃ reason, (Manifest.ofFile "in.yaml" (contentOf ["kind: Cluster", "apiVersion: 1"])).result =
        .error (.rejected reason)) ∧
      ∃ f, (session ["convert", "in.yaml"] (inputIn ["kind: Cluster", "apiVersion: 1"])).ending =
        .error f := by
  have hrejected : testFile ["Cluster"] isRejected = true := by decide +kernel
  have htrips : testFile ["kind: Cluster", "apiVersion: 1"] isFaulty = true := by decide +kernel
  obtain ⟨reason, hreason⟩ := exists_rejection hrejected
  have htrips := trips_of_isFaulty htrips
  obtain ⟨hnone, hsession⟩ := input_rejected_iff_not_trips "in.yaml"
    (contentOf ["kind: Cluster", "apiVersion: 1"])
  refine ⟨?_, fun h => hnone.mp (.inr h) htrips, ?_⟩
  · exact (((input_rejected_iff_not_trips "in.yaml" (contentOf ["Cluster"])).2
      ["convert", "in.yaml"] { path := "in.yaml" } _ rfl rfl (read_inputIn _)).1 reason hreason).1
  · obtain ⟨f, hf, -⟩ :=
      (hsession ["convert", "in.yaml"] { path := "in.yaml" } _ rfl rfl (read_inputIn _)).2 htrips
    exact ⟨f, hf⟩

/-! ### The output -/

theorem encodeLines_of_scalar {lines : List Text} (h : ∀ line ∈ lines, line.IsScalar)
    (fault : Option Fault) : (encodeLines fault lines).2 = fault := by
  induction lines with
  | nil => rfl
  | cons line rest ih =>
    obtain ⟨⟨cs, hcs⟩, hrest⟩ := List.forall_mem_cons.mp h
    rw [encodeLines, Text.chars?_eq_some.mpr hcs]
    exact ih hrest

theorem isScalar_dropFinalBreaks (cs : List Char) :
    (Lines.dropFinalBreaks (Text.ofChars cs)).IsScalar := by
  rw [Text.isScalar_iff_forall]
  intro p hp
  have hmem := (List.dropWhile_suffix _).mem (List.mem_reverse.mp hp)
  obtain ⟨c, -, rfl⟩ := List.mem_map.mp (List.mem_reverse.mp hmem)
  exact ⟨c, rfl⟩

theorem ofLines_or_table (listing : Listing) (secrets : List GeneratedSecret) :
    listing = .table ∨ ∃ lines?, listing.print secrets = .ofLines lines? ∧
      ∀ lines, lines? = .ok lines → ∀ line ∈ lines, line.IsScalar := by
  cases listing with
  | table => exact .inl rfl
  | yaml =>
    refine .inr ⟨_, rfl, fun lines h line hline => ?_⟩
    unfold Listing.yamlLines at h
    split at h
    · cases h
      cases hline
    · obtain ⟨text, -, h⟩ := Except.bind_eq_ok.mp h
      cases h
      exact (isScalar_dropFinalBreaks text).of_mem_split hline
  | json =>
    refine .inr ⟨_, rfl, fun lines h line hline => ?_⟩
    obtain ⟨text, -, h⟩ := Except.bind_eq_ok.mp h
    cases h
    exact Text.IsScalar.of_mem_split ⟨text, rfl⟩ hline

theorem written_eq_nil {listing : Listing} (hlisting : listing ≠ .table)
    {secrets : List GeneratedSecret} {written : List Char} {f : Fault}
    (h : encodeLines (listing.print secrets).fault (listing.print secrets).lines =
      (written, some f)) : written = [] := by
  obtain ⟨lines?, hprint, hscalar⟩ := (ofLines_or_table listing secrets).resolve_left hlisting
  rw [hprint] at h
  cases lines? with
  | error e => exact (congrArg Prod.fst h).symm
  | ok lines =>
    have hfault := encodeLines_of_scalar (hscalar lines rfl) none
    cases hfault.symm.trans (congrArg Prod.snd h)

/-- The listing of a conversion breaks off: some text of it has been written to a file when a fault
ends it. -/
structure Invocation.BreaksOff (i : Invocation) (d : Directory) (listing : Listing) (place : Place)
    (written : List Char) (f : Fault) : Prop where
  output : i.output d = .ok (listing, .file place)
  listed : ∃ secrets, (i.convert (d.read i.path)).result = .ok secrets ∧
    encodeLines (listing.print secrets).fault (listing.print secrets).lines = (written, some f)

theorem Invocation.BreaksOff.run {listing : Listing} {place : Place} {written : List Char} {f : Fault}
    (h : i.BreaksOff d listing place written f) :
    i.run d = {
      ending := .error f
      stderr := logText i.logLevel (i.convert (d.read i.path)).log
      directory := d.put place (String.ofList written).toUTF8 } := by
  obtain ⟨houtput, secrets, hconvert, hencoded⟩ := h
  unfold Invocation.run
  dsimp only
  rw [hconvert]
  dsimp only
  rw [houtput]
  dsimp only [printTo]
  rw [hencoded]
  rfl

theorem Invocation.directory_run_or_breaksOff (hfailed : (i.run d).ending ≠ .ok 0) :
    (i.run d).directory = d ∨
      ∃ listing place written f, i.BreaksOff d listing place written f := by
  unfold run at hfailed ⊢
  dsimp only at hfailed ⊢
  cases hconvert : (i.convert (d.read i.path)).result with
  | error e => cases e <;> exact .inl rfl
  | ok secrets =>
    rw [hconvert] at hfailed
    dsimp only at hfailed ⊢
    cases houtput : i.output d with
    | error f => exact .inl rfl
    | ok output =>
      obtain ⟨listing, target⟩ := output
      rw [houtput] at hfailed
      dsimp only at hfailed ⊢
      -- Devices are no part of the directory. A listing that is complete ends in success.
      cases target with
      | device dev => cases dev <;> exact .inl rfl
      | file place =>
        cases hencoded : encodeLines (listing.print secrets).fault (listing.print secrets).lines with
        | mk written fault? =>
          cases fault? with
          | none =>
            refine absurd ?_ hfailed
            dsimp only [printTo]
            rw [hencoded]
            rfl
          | some f => exact .inr ⟨listing, place, written, f, houtput, secrets, hconvert, hencoded⟩

theorem directory_or_breaksOff (hfailed : (session arguments d).ending ≠ .ok 0) :
    (session arguments d).directory = d ∨ ∃ i listing place written f,
      Request.read arguments = .ok (.convert i) ∧ i.BreaksOff d listing place written f := by
  unfold session at hfailed ⊢
  cases hread : Request.read arguments with
  | error e => exact .inl rfl
  | ok request =>
    rw [hread] at hfailed
    cases request with
    | help => exact .inl rfl
    | convert i =>
      rcases i.directory_run_or_breaksOff hfailed with hsame | ⟨listing, place, written, f, h⟩
      · exact .inl hsame
      · exact .inr ⟨i, listing, place, written, f, rfl, h⟩

/-- A session that fails leaves all files alone, unless its listing breaks off: then the output file
holds the lines before, of which a stream or an array has none. With an exit code, it leaves them alone
in any case. -/
theorem failed_session_keeps_files (arguments : List Text) (d : Directory) :
    ((session arguments d).ending ≠ .ok 0 →
      (∀ i listing place written f, Request.read arguments = .ok (.convert i) →
        ¬i.BreaksOff d listing place written f) →
      (session arguments d).directory = d) ∧
    (∀ n, n ≠ 0 → (session arguments d).ending = .ok n → (session arguments d).directory = d) ∧
    ∀ i listing place written f, Request.read arguments = .ok (.convert i) →
      i.BreaksOff d listing place written f →
      (session arguments d).ending = .error f ∧
        (session arguments d).directory = d.put place (String.ofList written).toUTF8 ∧
        (listing ≠ .table → written = []) := by
  refine ⟨fun hfailed hwhole => ?_, fun n hn hending => ?_, fun i listing place written f hi h => ?_⟩
  · rcases directory_or_breaksOff hfailed with hsame | ⟨i, listing, place, written, f, hi, h⟩
    · exact hsame
    · exact absurd h (hwhole i listing place written f hi)
  · have hfailed : (session arguments d).ending ≠ .ok 0 := by
      rw [hending]
      exact fun h => hn (Except.ok.inj h)
    rcases directory_or_breaksOff hfailed with hsame | ⟨i, listing, place, written, f, hi, h⟩
    · exact hsame
    · rw [session_of_read hi, h.run] at hending
      cases hending
  · rw [session_of_read hi, h.run]
    obtain ⟨-, secrets, -, hencoded⟩ := h
    exact ⟨rfl, rfl, fun hlisting => written_eq_nil hlisting hencoded⟩

/-! ### An array that breaks off -/

def outputPlace : Place := .below ["out.json"]

def keptBeside (lines : List String) : Directory :=
  ⟨[(inputPlace, contentOf lines), (outputPlace, contentOf ["kept"])]⟩

def jsonInvocation : Invocation where
  path := "in.yaml"
  listing := some .json
  outputFile := some "out.json"

def jsonArguments : List Text := ["convert", "in.yaml", "-o", "json", "--output-file", "out.json"]

theorem read_jsonArguments : Request.read jsonArguments = .ok (.convert jsonInvocation) := rfl

theorem read_keptBeside (lines : List String) :
    (keptBeside lines).read "in.yaml" = .ok (contentOf lines) := rfl

def lacksJsonForm (docs : List Value) : Bool :=
  (Manifest.ofDocuments "in.yaml" docs >>= jsonInvocation.proceed).result.toOption.any fun secrets =>
    encodeLines (Listing.json.print secrets).fault (Listing.json.print secrets).lines =
      ([], some .noJsonForm)

theorem breaksOff_of_lacksJsonForm {lines : List String} (h : testFile lines lacksJsonForm = true) :
    jsonInvocation.BreaksOff (keptBeside lines) .json outputPlace [] .noJsonForm := by
  obtain ⟨docs, hdocs, htest⟩ := exists_documents_of_testFile h
  obtain ⟨secrets, hsecrets, hencoded⟩ := Except.exists_of_any htest
  refine ⟨rfl, secrets, ?_, of_decide_eq_true hencoded⟩
  have hread : (keptBeside lines).read jsonInvocation.path = .ok (contentOf lines) :=
    read_keptBeside lines
  rw [hread, Invocation.convert_eq, show jsonInvocation.path = "in.yaml" from rfl,
    Manifest.ofFile_of_documents hdocs]
  exact hsecrets

def datedLines : List String := gatheredLines "&it 2020-01-01" "*it"

theorem breaksOff_datedLines :
    jsonInvocation.BreaksOff (keptBeside datedLines) .json outputPlace [] .noJsonForm := by
  have htest : testFile datedLines lacksJsonForm = true := by decide +kernel
  exact breaksOff_of_lacksJsonForm htest

theorem run_of_rejected_file {lines : List String} (h : testFile lines isRejected = true) :
    (session jsonArguments (keptBeside lines)).ending = .ok 1 := by
  obtain ⟨reason, hreason⟩ := exists_rejection h
  have hconvert : (jsonInvocation.convert ((keptBeside lines).read jsonInvocation.path)).result =
      .error (.rejected reason) := Invocation.convert_of_failed hreason
  rw [session_of_read read_jsonArguments, Invocation.run_of_rejected hconvert]

theorem rejected_keeps_dated_empties :
    (session jsonArguments (keptBeside ["Cluster"])).directory = keptBeside ["Cluster"] ∧
      (session jsonArguments (keptBeside datedLines)).ending = .error .noJsonForm ∧
      (session jsonArguments (keptBeside datedLines)).directory =
        (keptBeside datedLines).put outputPlace ByteArray.empty := by
  have hrejected : testFile ["Cluster"] isRejected = true := by decide +kernel
  constructor
  · exact (failed_session_keeps_files jsonArguments _).2.1 1 (by decide)
      (run_of_rejected_file hrejected)
  · obtain ⟨hending, hdirectory, -⟩ := (failed_session_keeps_files jsonArguments _).2.2
      jsonInvocation .json outputPlace [] .noJsonForm read_jsonArguments breaksOff_datedLines
    exact ⟨hending, hdirectory⟩

theorem dated_label_empties_output :
    (session jsonArguments (keptBeside datedLines)).ending = .error .noJsonForm ∧
      (session jsonArguments (keptBeside datedLines)).directory.file? outputPlace ≠
        (keptBeside datedLines).file? outputPlace := by
  have hkept : (keptBeside datedLines).file? outputPlace = some (contentOf ["kept"]) := rfl
  rw [session_of_read read_jsonArguments, breaksOff_datedLines.run]
  refine ⟨rfl, ?_⟩
  dsimp only
  rw [Directory.file?_put_same, hkept]
  exact fun h => absurd (congrArg ByteArray.size (Option.some.inj h)) (by decide +kernel)

end ClusterRegistrar.CommandLine
