import LiquidCatalog.Extraction

/-!
The command line.

Arguments are read from left to right, and the first one that is wrong ends the reading, as does
one that asks for help or for the version. What the command line leaves open may be set in the
environment. The wording of the help and of usage errors is left out.
-/

namespace LiquidCatalog.Cli

inductive Setting where
  | input
  | output
  | basePath
  | project
  | language
  deriving DecidableEq, Repr

namespace Setting

def environmentName : Setting → String
  | input => "LIQUID_XGETTEXT_INPUT"
  | output => "LIQUID_XGETTEXT_OUTPUT"
  | basePath => "LIQUID_XGETTEXT_BASE_PATH"
  | project => "LIQUID_XGETTEXT_PROJECT"
  | language => "LIQUID_XGETTEXT_LANGUAGE"

def ofLongName? : String → Option Setting
  | "output" => some output
  | "base-path" => some basePath
  | "project" => some project
  | "language" => some language
  | _ => none

/-- The value must be a path, which cannot be empty. -/
def isPath : Setting → Bool
  | input => true
  | output => true
  | _ => false

end Setting

inductive UsageError where
  | unknown (argument : String)
  | extra (argument : String)
  | unexpectedValue (argument : String)
  | missingValue (s : Setting)
  | emptyPath (s : Setting)
  | repeated (s : Setting)
  | repeatedNoHeader
  | missingInput
  deriving DecidableEq, Repr

inductive Argument where
  /-- Two hyphens: all that follows is positional. -/
  | separator
  | positional (value : String)
  /-- An option, with its value if that is part of the argument. -/
  | option (s : Setting) (value : Option String)
  | noHeader
  | help
  | version

/-- Parts a text at its first equals sign. -/
def splitValue (s : List Char) : List Char × Option String :=
  match s.dropWhile (· ≠ '=') with
  | [] => (s, none)
  | _ :: value => (s.takeWhile (· ≠ '='), some (String.ofList value))

def Argument.ofLong (argument : String) (s : List Char) : Except UsageError Argument :=
  let (name, value) := splitValue s
  match String.ofList name, value with
  | "help", none => .ok .help
  | "version", none => .ok .version
  | "no-header", none => .ok .noHeader
  | "help", some _ => .error (.unexpectedValue argument)
  | "version", some _ => .error (.unexpectedValue argument)
  | "no-header", some _ => .error (.unexpectedValue argument)
  | name, value =>
    match Setting.ofLongName? name with
    | some s => .ok (.option s value)
    | none => .error (.unknown argument)

def Argument.read (argument : String) : Except UsageError Argument :=
  match argument.toList with
  | ['-', '-'] => .ok .separator
  | '-' :: '-' :: s => Argument.ofLong argument s
  | '-' :: 'h' :: _ => .ok .help
  | '-' :: 'V' :: _ => .ok .version
  | ['-', 'o'] => .ok (.option .output none)
  | '-' :: 'o' :: '=' :: value => .ok (.option .output (some (String.ofList value)))
  | '-' :: 'o' :: value => .ok (.option .output (some (String.ofList value)))
  | '-' :: _ :: _ => .error (.unknown argument)
  | _ => .ok (.positional argument)

structure Given where
  values : List (Setting × String) := []
  noHeader : Bool := false

namespace Given

def put (s : Setting) (value : String) (g : Given) : Except UsageError Given :=
  if (g.values.lookup s).isSome then .error (.repeated s)
  else if s.isPath && value.isEmpty then .error (.emptyPath s)
  else .ok { g with values := (s, value) :: g.values }

def putPositional (g : Given) (value : String) : Except UsageError Given :=
  if (g.values.lookup .input).isSome then .error (.extra value) else g.put .input value

def putNoHeader (g : Given) : Except UsageError Given :=
  if g.noHeader then .error .repeatedNoHeader else .ok { g with noHeader := true }

/-- The value of a setting, from the arguments or else from the environment. -/
def value? (g : Given) (environment : String → Option String) (s : Setting) :
    Except UsageError (Option String) :=
  match g.values.lookup s with
  | some value => .ok (some value)
  | none =>
    match environment s.environmentName with
    | none => .ok none
    | some value =>
      if s.isPath && value.isEmpty then .error (.emptyPath s) else .ok (some value)

def job (g : Given) (environment : String → Option String) : Except UsageError Job := do
  let some input ← g.value? environment .input | throw .missingInput
  let job : Job := { input, hasHeader := !g.noHeader }
  return { job with
    output := (← g.value? environment .output).getD job.output
    basePath := ← g.value? environment .basePath
    project := ← g.value? environment .project
    language := (← g.value? environment .language).getD job.language }

end Given

inductive Reading where
  | help
  | version
  | given (g : Given)

/-- Such an argument cannot be the value of the option before it. -/
def looksLikeOption (argument : String) : Bool :=
  match argument.toList with
  | '-' :: _ :: _ => true
  | _ => false

def readArguments : Given → List String → Except UsageError Reading
  | g, [] => .ok (.given g)
  | g, argument :: rest => do
    match ← Argument.read argument with
    | .help => return .help
    | .version => return .version
    | .separator => return .given (← rest.foldlM Given.putPositional g)
    | .positional value => readArguments (← g.putPositional value) rest
    | .noHeader => readArguments (← g.putNoHeader) rest
    | .option s (some value) => readArguments (← g.put s value) rest
    | .option s none =>
      match rest with
      | [] => throw (.missingValue s)
      | value :: rest =>
        if looksLikeOption value then throw (.missingValue s)
        else readArguments (← g.put s value) rest

end LiquidCatalog.Cli
