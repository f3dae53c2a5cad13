import ClusterRegistrar.CommandLine.Directory
import ClusterRegistrar.CommandLine.Invocation
import ClusterRegistrar.Conversion
import ClusterRegistrar.Manifest.Document

/-! Sessions: one run of the program, from its arguments and the working directory to what it
prints, its exit code, and the directory behind it. The output file is opened, and thereby emptied,
when the conversion has succeeded, and before its result is laid out. Tracebacks are left out of the
error stream: the one that stands before the line of a rejection when debug records are logged, and
the one of a fault that ends the session. -/
namespace ClusterRegistrar.CommandLine

def Invocation.convert (i : Invocation) (input : Except Fault ByteArray) :
    Run (List GeneratedSecret) := do
  let content ← Run.ofFault input
  let manifests ← Manifest.ofFile i.path content
  let secrets := manifests.filterMap Manifest.secret?
  let clusters := manifests.filterMap Manifest.cluster?
  Run.record .debug .conversion
    (.ok s!"Found {secrets.length} secrets and {clusters.length} clusters")
  Conversion.convert i.settings secrets clusters

/-- The line of a record, if its level is logged and it has a text. Without a level that the user
gave, warnings and worse are logged without their origin. -/
def logLine? (least : Option Level) (r : Record) : Option Text := do
  let text ← r.text.toOption
  match least with
  | some level =>
    if level.rank ≤ r.level.rank then some (s!"{r.level.name}:{r.source.name}:" ++ text) else none
  | none => if Level.warning.rank ≤ r.level.rank then some text else none

def errorText (lines : List Text) : String := String.ofList (Lines.join lines).escaped

def logText (least : Option Level) (log : List Record) : String :=
  errorText (log.filterMap (logLine? least))

def rejectionLine (reason : Rejection) : Text := "capi2argo error:  " ++ reason.message

structure Outcome where
  ending : Except Fault Nat
  stdout : String := ""
  stderr : String := ""
  directory : Directory

/-- The lines of a printout as a file holds them, up to the first that UTF-8 cannot hold, and the
fault that ends them. -/
def encodeLines (fault : Option Fault) : List Text → List Char × Option Fault
  | [] => ([], fault)
  | line :: rest =>
    match line.chars? with
    | none => ([], some .notEncodable)
    | some cs =>
      let (text, fault?) := encodeLines fault rest
      (cs ++ '\n' :: text, fault?)

def endingOf : Option Fault → Except Fault Nat
  | none => .ok 0
  | some f => .error f

def printTo (d : Directory) (log : String) (printout : Table.Printout)
    (target : Directory.Target) : Outcome :=
  let (text, fault?) := encodeLines printout.fault printout.lines
  let printed := String.ofList text
  match target with
  | .device .standardOutput =>
    { ending := endingOf fault?, stdout := printed, stderr := log, directory := d }
  | .device .standardError =>
    { ending := endingOf fault?, stderr := log ++ printed, directory := d }
  | .device .full =>
    let fault? := if text.isEmpty then fault? else some .noRoom
    { ending := endingOf fault?, stderr := log, directory := d }
  | .device _ => { ending := endingOf fault?, stderr := log, directory := d }
  | .file place =>
    { ending := endingOf fault?, stderr := log, directory := d.put place printed.toUTF8 }

/-- The target and the listing of an invocation; the format is looked up before the file is
opened. -/
def Invocation.output (i : Invocation) (d : Directory) :
    Except Fault (Listing × Directory.Target) :=
  match i.listing, i.outputFile with
  | some listing, some path => return (listing, ← d.target path)
  | _, _ => .error .listForOption

/-- One conversion, without its tracebacks: at level `DEBUG` a rejection has one in front of its line,
and a fault has one at every level. -/
def Invocation.run (i : Invocation) (d : Directory) : Outcome :=
  let r := i.convert (d.read i.path)
  let log := logText i.logLevel r.log
  match r.result with
  | .error (.rejected reason) =>
    { ending := .ok 1, stderr := log ++ errorText [rejectionLine reason], directory := d }
  | .error (.fault f) => { ending := .error f, stderr := log, directory := d }
  | .ok secrets =>
    match i.output d with
    | .error f => { ending := .error f, stderr := log, directory := d }
    | .ok (listing, target) => printTo d log (listing.print secrets) target

/-- A session of the program with its arguments in a working directory. Of a usage error, only the
last line is kept. -/
def session (arguments : List Text) (d : Directory) : Outcome :=
  match Request.read arguments with
  | .error e => { ending := .ok 2, stderr := errorText [Lines.last e.message], directory := d }
  | .ok .help => { ending := .ok 0, directory := d }
  | .ok (.convert i) => i.run d

end ClusterRegistrar.CommandLine
