import ClusterRegistrar.Rejection

/-! Runs: what a step of the program logs, and what it returns or why it does not. A step that fails
keeps what it has logged, and nothing behind it runs. -/
namespace ClusterRegistrar

inductive Level where
  | debug
  | info
  | warning
  | error
  | critical
deriving DecidableEq, Repr

namespace Level

def name : Level → String
  | debug => "DEBUG"
  | info => "INFO"
  | warning => "WARNING"
  | error => "ERROR"
  | critical => "CRITICAL"

def rank : Level → Nat
  | debug => 0
  | info => 1
  | warning => 2
  | error => 3
  | critical => 4

def all : List Level := [debug, info, warning, error, critical]

def ofName? (t : Text) : Option Level := all.find? fun level => t = level.name

end Level

inductive Source where
  | manifest
  | kubeconfig
  | takeAlong
  | registration
  | conversion
deriving DecidableEq, Repr

def Source.name : Source → String
  | .manifest => "capi2argo.manifest"
  | .kubeconfig => "capi2argo.kubeconfig"
  | .takeAlong => "capi2argo.take_along"
  | .registration => "capi2argo.argo_cluster"
  | .conversion => "capi2argo.tool.convert"

/-- A record has no text if a value that it names has none; that shows when the record is
written. -/
structure Record where
  level : Level
  source : Source
  text : Except Fault Text

structure Run (α : Type) where
  log : List Record
  result : Except Failure α

namespace Run

protected def pure (a : α) : Run α := ⟨[], .ok a⟩

protected def bind (r : Run α) (f : α → Run β) : Run β :=
  match r.result with
  | .error e => ⟨r.log, .error e⟩
  | .ok a => ⟨r.log ++ (f a).log, (f a).result⟩

instance : Monad Run where
  pure := Run.pure
  bind := Run.bind

def ofExcept (result : Except Failure α) : Run α := ⟨[], result⟩

def ofFault (result : Except Fault α) : Run α := ofExcept (Fault.lift result)

def reject (reason : Rejection) : Run α := ofExcept (Failure.reject reason)

def record (level : Level) (source : Source) (text : Except Fault Text) : Run Unit :=
  ⟨[⟨level, source, text⟩], .ok ()⟩

/-- The texts of records up to the first that has none. -/
def writtenTexts : List Record → List (Level × Text) × Option Fault
  | [] => ([], none)
  | r :: rest =>
    match r.text with
    | .error f => ([], some f)
    | .ok text =>
      let (texts, fault?) := writtenTexts rest
      ((r.level, text) :: texts, fault?)

/-- A run of which every record is written at once: one without a text ends it. -/
def written (r : Run α) : List (Level × Text) × Except Failure α :=
  match writtenTexts r.log with
  | (texts, some f) => (texts, .error (.fault f))
  | (texts, none) => (texts, r.result)

/-- The result, or the rejection that prevented it; faults pass through. -/
def attempt (r : Run α) : Run (Except Rejection α) :=
  match r.result with
  | .ok a => ⟨r.log, .ok (.ok a)⟩
  | .error (.rejected reason) => ⟨r.log, .ok (.error reason)⟩
  | .error (.fault f) => ⟨r.log, .error (.fault f)⟩

@[simp] theorem bind_of_ok {r : Run α} {a : α} (h : r.result = .ok a) (f : α → Run β) :
    r.bind f = ⟨r.log ++ (f a).log, (f a).result⟩ := by
  simp [Run.bind, h]

@[simp] theorem bind_of_error {r : Run α} {e : Failure} (h : r.result = .error e) (f : α → Run β) :
    r.bind f = ⟨r.log, .error e⟩ := by
  simp [Run.bind, h]

instance : LawfulMonad Run := LawfulMonad.mk' Run
  (fun r => by
    show Run.bind r _ = r
    cases h : r.result with
    | error e => simp [h]; cases r; simp_all
    | ok a => simp [h, Run.pure]; cases r; simp_all)
  (fun a f => by
    show Run.bind (Run.pure a) f = f a
    simp [Run.bind, Run.pure])
  (fun r f g => by
    show Run.bind (Run.bind r f) g = Run.bind r fun a => Run.bind (f a) g
    cases h : r.result with
    | error e => simp [Run.bind, h]
    | ok a =>
      cases h' : (f a).result with
      | error e => simp [Run.bind, h, h']
      | ok b => simp [Run.bind, h, h', List.append_assoc])

end Run
end ClusterRegistrar
