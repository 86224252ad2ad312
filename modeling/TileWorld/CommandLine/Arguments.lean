import TileWorld.CommandLine

/-!
# Arguments of the command line

Options have a short and a long form. A value follows its option as the next argument, after
an equals sign, or right after the short letter; short letters may be joined. Two hyphens
end the options. There are no other arguments, and no option may be given twice. Arguments are
taken in order, and the first that cannot be taken, or that asks for something else than work,
ends the reading.
-/

namespace TileWorld.CommandLine

inductive Stop
  | usage
  | help
  | version
  deriving DecidableEq, Repr

inductive Key
  | input
  | output
  | agents
  | view
  | probabilistic
  | probabilities
  | dialect
  | config
  deriving DecidableEq, Repr

inductive Given
  | value (k : Key) (v : String)
  | oneWays
  | stop (s : Stop)
  deriving DecidableEq, Repr

inductive Name
  | valued (k : Key)
  | plain (g : Given)
  deriving DecidableEq, Repr

def Name.ofLetter? : Char → Option Name
  | 'i' => some (.valued .input)
  | 'o' => some (.valued .output)
  | 'a' => some (.valued .agents)
  | 'v' => some (.valued .view)
  | 'p' => some (.valued .probabilistic)
  | 'q' => some (.valued .probabilities)
  | 'm' => some (.valued .dialect)
  | 'c' => some (.valued .config)
  | 'f' => some (.plain .oneWays)
  | 'h' => some (.plain (.stop .help))
  | 'V' => some (.plain (.stop .version))
  | _ => none

def Name.ofWord? : String → Option Name
  | "input-file" => some (.valued .input)
  | "output-file" => some (.valued .output)
  | "agents" => some (.valued .agents)
  | "view" => some (.valued .view)
  | "prob-beh" => some (.valued .probabilistic)
  | "probs" => some (.valued .probabilities)
  | "model-type" => some (.valued .dialect)
  | "config" => some (.valued .config)
  | "force-oneways" => some (.plain .oneWays)
  | "help" => some (.plain (.stop .help))
  | "version" => some (.plain (.stop .version))
  | _ => none

/-- What an argument gives, and the option whose value is still to come. -/
structure Reading where
  given : List Given
  awaiting : Option Key

def Reading.refused : Reading := ⟨[.stop .usage], none⟩

def readLetters : List Char → Reading
  | [] => ⟨[], none⟩
  | c :: cs =>
    match Name.ofLetter? c with
    | none => .refused
    | some (.plain g) =>
      let r := readLetters cs
      { r with given := g :: r.given }
    | some (.valued k) =>
      match cs with
      | [] => ⟨[], some k⟩
      | '=' :: v => ⟨[.value k (String.ofList v)], none⟩
      | v => ⟨[.value k (String.ofList v)], none⟩

def readWord (cs : List Char) : Reading :=
  match Name.ofWord? (String.ofList (cs.takeWhile (· ≠ '='))), cs.dropWhile (· ≠ '=') with
  | some (.valued k), [] => ⟨[], some k⟩
  | some (.valued k), _ :: v => ⟨[.value k (String.ofList v)], none⟩
  | some (.plain g), [] => ⟨[g], none⟩
  | _, _ => .refused

/-- A single hyphen is no option. -/
def readArgument : List Char → Reading
  | '-' :: '-' :: cs => readWord cs
  | '-' :: c :: cs => readLetters (c :: cs)
  | _ => .refused

/-- An argument with a hyphen in front of something is never taken for a value. -/
def isOption : List Char → Bool
  | '-' :: _ :: _ => true
  | _ => false

def readArguments : List String → List Given
  | [] => []
  | arg :: rest =>
    if arg = "--" then if rest.isEmpty then [] else [.stop .usage]
    else
      match readArgument arg.toList with
      | ⟨given, none⟩ => given ++ readArguments rest
      | ⟨given, some k⟩ =>
        match rest with
        | [] => given ++ [.stop .usage]
        | v :: rest =>
          if isOption v.toList then given ++ [.stop .usage]
          else given ++ .value k v :: readArguments rest

/-- The values that an option takes: files have names, and of dialects there are two. -/
def Key.accepts : Key → String → Bool
  | .input, v | .output, v | .config, v => v ≠ ""
  | .dialect, v => (Dialect.ofWord? v).isSome
  | _, _ => true

def valueOf (given : List Given) (k : Key) : Option String :=
  given.findSome? fun
    | .value j v => if j = k then some v else none
    | _ => none

def take (given : List Given) : Given → Except Stop (List Given)
  | .stop s => .error s
  | .oneWays => if given.contains .oneWays then .error .usage else .ok (given ++ [.oneWays])
  | .value k v =>
    if (valueOf given k).isSome || !k.accepts v then .error .usage
    else .ok (given ++ [.value k v])

def request (args : List String) : Except Stop Request := do
  let given ← (readArguments args).foldlM take []
  match valueOf given .input with
  | none => .error .usage
  | some input => .ok {
      input
      output := valueOf given .output
      agents := valueOf given .agents
      view := valueOf given .view
      probabilistic := valueOf given .probabilistic
      probabilities := valueOf given .probabilities
      oneWays := given.contains .oneWays
      dialect := (valueOf given .dialect).bind Dialect.ofWord?
      config := valueOf given .config }

end TileWorld.CommandLine
