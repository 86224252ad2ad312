import TileWorld.Compile

/-!
# The command line

Reads a sheet from a file and writes its program to another file or to the output. The
settings come from a settings file, if one is named, and the options override it. The steps
run in this order, and the first one that fails ends the work: settings file, settings, sheet,
program, output. Nothing is written unless the whole program is there.

The work starts from a request, whatever the arguments looked like that it was read from. How
the text of a settings file is read is a parameter. Files are reached through `Files`, so that
the same steps run on a disk and on a folder in memory.
-/

namespace TileWorld.CommandLine

structure Request where
  input : String
  output : Option String
  agents : Option String
  view : Option String
  probabilistic : Option String
  probabilities : Option String
  oneWays : Bool
  dialect : Option Dialect
  config : Option String

inductive FileFault
  | missing
  | directory
  | notDirectory
  | nameTooLong
  | other (reason : String)
  deriving DecidableEq, Repr

def FileFault.message : FileFault → String
  | .missing => "No such file or directory (os error 2)"
  | .directory => "Is a directory (os error 21)"
  | .notDirectory => "Not a directory (os error 20)"
  | .nameTooLong => "File name too long (os error 36)"
  | .other reason => reason

structure Files (m : Type → Type) where
  read : String → m (Except FileFault String)
  write : String → String → m (Except FileFault Unit)

inductive Failure
  | configFile (name : String) (f : FileFault)
  | config (name : String)
  | settings (f : SettingsFault)
  | sheetFile (name : String) (f : FileFault)
  | sheet (name : String) (f : Fault)
  | output (name : String) (f : FileFault)

def Failure.headline : Failure → String
  | .configFile name _ => "Failed to read config file " ++ name
  | .config name => "Invalid config file " ++ name
  | .settings f => f.message
  | .sheetFile name _ => "Failed to read grid file " ++ name
  | .sheet name _ => "Failed to translate " ++ name
  | .output name _ => "Failed to write model to " ++ name

def Failure.cause? : Failure → Option String
  | .configFile _ f | .sheetFile _ f | .output _ f => some f.message
  | .sheet _ f => some f.message
  | .config _ | .settings _ => none

/-- Whether the work broke off, rather than being given up. -/
def Failure.aborts : Failure → Bool
  | .sheet _ f => f.aborts
  | _ => false

def Failure.report (f : Failure) : String :=
  "Error: " ++ f.headline ++ "\n" ++
    match f.cause? with
    | none => ""
    | some cause => "\nCaused by:\n    " ++ cause ++ "\n"

def override (r : Request) (s : Settings) : Except SettingsFault Settings := do
  let probabilities ← match r.probabilities with
    | none => .ok s.probabilities
    | some text => readProbabilities text
  return {
    considered := (r.agents.map readNames).getD s.considered
    viewers := (r.view.map readNames).getD s.viewers
    probabilistic := (r.probabilistic.map readNames).getD s.probabilistic
    probabilities
    oneWays := r.oneWays || s.oneWays
    dialect := r.dialect.getD s.dialect }

def checked (r : Request) (s : Settings) : Except SettingsFault Settings := do
  let s ← override r s
  s.check
  return s

section
variable {m : Type → Type} [Monad m] (reader : String → Option Settings) (files : Files m)
  (r : Request)

def fileSettings : ExceptT Failure m Settings :=
  match r.config with
  | none => pure {}
  | some name => do
    match ← files.read name with
    | .error f => throw (.configFile name f)
    | .ok text =>
      match reader text with
      | none => throw (.config name)
      | some s => return s

def settings : ExceptT Failure m Settings := do
  let s ← fileSettings reader files r
  match checked r s with
  | .error f => throw (.settings f)
  | .ok s => return s

def programText : ExceptT Failure m String := do
  let s ← settings reader files r
  match ← files.read r.input with
  | .error f => throw (.sheetFile r.input f)
  | .ok text =>
    match compile text s with
    | .error f => throw (.sheet r.input f)
    | .ok p => return p.render

/-- What is left for the output: the program, or nothing if it went to a file. -/
def perform : ExceptT Failure m String := do
  let text ← programText reader files r
  match r.output with
  | none => return text
  | some name =>
    match ← files.write name text with
    | .error f => throw (.output name f)
    | .ok () => return ""

end

inductive Outcome
  | failed (f : Failure)
  | succeeded (output : String)

def Outcome.exitCode : Outcome → Nat
  | .succeeded _ => 0
  | .failed f => if f.aborts then 101 else 1

def Outcome.output : Outcome → String
  | .succeeded output => output
  | .failed _ => ""

def run {m : Type → Type} [Monad m] (reader : String → Option Settings) (files : Files m)
    (r : Request) : m Outcome := do
  match ← (perform reader files r).run with
  | .error f => return .failed f
  | .ok output => return .succeeded output

end TileWorld.CommandLine
