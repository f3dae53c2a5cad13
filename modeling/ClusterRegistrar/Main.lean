import ClusterRegistrar.CommandLine.Session

/-! The program: reads its arguments and the input file, and prints what the session says. -/
open ClusterRegistrar ClusterRegistrar.CommandLine

def systemText (t : Text) : String := String.ofList t.toChars

def readInput (path : Text) : IO (Except Fault ByteArray) := do
  try return .ok (← IO.FS.readBinFile (systemText path))
  catch _ => return .error .fileNotFound

def writeOutput (i : Invocation) (secrets : List GeneratedSecret) : IO UInt32 := do
  match i.listing, i.outputFile with
  | some listing, some path => do
    let printout := listing.print secrets
    let (text, fault?) := encodeLines printout.fault printout.lines
    let file ← IO.FS.Handle.mk (systemText path) .write
    file.putStr (String.ofList text)
    return if fault?.isNone then 0 else 1
  | _, _ => return 1

def runInvocation (i : Invocation) : IO UInt32 := do
  let r := i.convert (← readInput i.path)
  IO.eprint (logText i.logLevel r.log)
  match r.result with
  | .ok secrets => writeOutput i secrets
  | .error (.rejected reason) => do
    IO.eprint (errorText [rejectionLine reason])
    return 1
  | .error (.fault _) => return 1

def main (arguments : List String) : IO UInt32 := do
  match Request.read (arguments.map Text.ofString) with
  | .error e => do
    IO.eprint (errorText [e.message])
    return 2
  | .ok .help => return 0
  | .ok (.convert i) => runInvocation i
