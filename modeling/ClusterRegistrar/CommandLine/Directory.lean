import ClusterRegistrar.CommandLine.Path

/-! The files that a run can reach: those of its working directory, and those that it writes
elsewhere. A directory exists if a file is below it; so do the directories above the working
directory and a few below the root, among them that of the devices. -/
namespace ClusterRegistrar.CommandLine

inductive Base where
  | root
  /-- The working directory, or the directory so many levels above it. -/
  | working (levels : Nat)
deriving DecidableEq, Repr

structure Place where
  base : Base
  names : List Text
deriving DecidableEq, Repr

namespace Place

def below (names : List Text) : Place := ⟨.working 0, names⟩

def parent (p : Place) : Place :=
  match p.base, p.names with
  | .root, names => ⟨.root, names.dropLast⟩
  | .working levels, [] => ⟨.working (levels + 1), []⟩
  | .working levels, names => ⟨.working levels, names.dropLast⟩

def isBelow (p above : Place) : Bool :=
  p.base = above.base && above.names.isPrefixOf p.names && p.names ≠ above.names

end Place

inductive Device where
  | standardInput
  | standardOutput
  | standardError
  | null
  | full
deriving DecidableEq, Repr

def Device.name : Device → String
  | standardInput => "stdin"
  | standardOutput => "stdout"
  | standardError => "stderr"
  | null => "null"
  | full => "full"

def Device.all : List Device := [standardInput, standardOutput, standardError, null, full]

def Device.place (d : Device) : Place := ⟨.root, ["dev", d.name]⟩

structure Directory where
  files : List (Place × ByteArray)

inductive Occupant where
  | directory
  | file (content : ByteArray)
  | device (d : Device)
  | nothing

namespace Directory

def standardDirectories : List String := [
  "bin", "boot", "dev", "etc", "home", "lib", "media", "mnt", "opt", "proc", "root", "run", "sbin",
  "srv", "sys", "tmp", "usr", "var"]

def file? (d : Directory) (place : Place) : Option ByteArray :=
  (d.files.find? (·.1 = place)).map (·.2)

def isDirectory (d : Directory) (place : Place) : Bool :=
  place.names.isEmpty || d.files.any (·.1.isBelow place) ||
    standardDirectories.any fun (name : String) => place = ⟨.root, [name]⟩

def occupant (d : Directory) (place : Place) : Occupant :=
  match d.file? place, Device.all.find? (·.place = place) with
  | some content, _ => .file content
  | none, some device => .device device
  | none, none => if d.isDirectory place then .directory else .nothing

def enter (d : Directory) (place : Place) (name : Text) : Except Fault Place :=
  match d.occupant place with
  | .nothing => .error .fileNotFound
  | .directory =>
    if Path.maxNameSize < Path.size name then .error .longPath
    else if name = Path.here then .ok place
    else if name = Path.above then .ok place.parent
    else .ok ⟨place.base, place.names ++ [name]⟩
  | _ => .error .notADirectory

def locate (d : Directory) (path : Text) : Except Fault Place := do
  Path.check path
  let start : Place := ⟨if Path.isAbsolute path then .root else .working 0, []⟩
  if path.isEmpty then .error .fileNotFound
  else (Path.names path).foldlM d.enter start

def read (d : Directory) (path : Text) : Except Fault ByteArray := do
  match d.occupant (← d.locate path) with
  | .nothing => .error .fileNotFound
  | .directory => .error .isDirectory
  | .file content => .ok content
  | .device _ => .ok ByteArray.empty

def put (d : Directory) (place : Place) (content : ByteArray) : Directory :=
  if d.files.any (·.1 = place) then
    ⟨d.files.map fun entry => if entry.1 = place then (place, content) else entry⟩
  else ⟨d.files ++ [(place, content)]⟩

inductive Target where
  | device (d : Device)
  | file (place : Place)
deriving DecidableEq, Repr

def target (d : Directory) (path : Text) : Except Fault Target := do
  let place ← d.locate path
  if Path.endsInSlash path then .error .isDirectory
  else
    match d.occupant place with
    | .directory => .error .isDirectory
    | .device device => .ok (.device device)
    | .file _ | .nothing => .ok (.file place)

end Directory
end ClusterRegistrar.CommandLine
