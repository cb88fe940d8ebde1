import LiquidCatalog.Cli.Arguments

/-!
One run of the program.
-/

namespace LiquidCatalog.Cli

inductive Outcome where
  | done
  | help
  | version
  | failed (f : Failure)
  | misused (e : UsageError)
  deriving DecidableEq, Repr

namespace Outcome

def exitCode : Outcome → UInt32
  | failed _ => 1
  | misused _ => 2
  | _ => 0

/-- What is printed on standard output, the help aside. -/
def output : Outcome → String
  | version => "po-extractor 0.1.0\n"
  | _ => ""

/-- What is printed on standard error, usage errors aside. -/
def errors : Outcome → String
  | failed f => "Error: " ++ f.report ++ "\n"
  | _ => ""

end Outcome

variable {m : Type → Type} [Monad m] {α : Type} [FileSystem m α]

def runJob (j : Job) (creationDate : String) : m Outcome := do
  match ← (j.run creationDate : ExceptT Failure m Unit).run with
  | .ok () => return .done
  | .error f => return .failed f

def run (arguments : List String) (environment : String → Option String)
    (creationDate : String) : m Outcome :=
  match readArguments {} arguments with
  | .error e => return .misused e
  | .ok .help => return .help
  | .ok .version => return .version
  | .ok (.given g) =>
    match g.job environment with
    | .error e => return .misused e
    | .ok j => runJob j creationDate

end LiquidCatalog.Cli
