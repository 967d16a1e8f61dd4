import ODataQuery.Command.Arguments

/-!
# Running the program

The program as a function of its arguments, its input and the files that it reads.

## Main definitions

- `CommandResult` — the exit code and what is written
- `CommandResult.recordsText` — the text of the records, from the arguments or the input
- `CommandResult.run` — runs the program

## Design notes

Records in memory are read from the input only if the backend is named `memory` exactly and no
records are among the arguments. The input is read behind the schema file and in front of
everything else, also for a check of the syntax only; if it cannot be read the run ends there.

Arguments that are misused end the run with the code 2. What the argument parser then writes about
the usage is its own text, and is left out: such a result has no text on standard error.
-/

namespace ODataQuery

/-- The outcome of a run. -/
structure CommandResult where
  code : Nat
  stdout : String
  stderr : String
deriving DecidableEq

namespace CommandResult

/-- A check that is finished. -/
def ofOutcome (pretty : Bool) : Except CheckError CheckOutcome → CommandResult
  | .ok .valid => ⟨0, "Syntax is valid\n", ""⟩
  | .ok (.output j) => ⟨0, (if pretty then j.pretty else j.compact) ++ "\n", ""⟩
  | .error e => ⟨1, "", e.message ++ "\n"⟩

/-- Whether a check reads its records from the input. -/
def readsInput (a : CheckArguments) : Bool := a.input.isNone && a.backend == some "memory"

/-- The text of the records: the one among the arguments, or else the input if the check reads it.
The input is absent if it is a terminal, and its text is an error if it cannot be read. -/
def recordsText (a : CheckArguments) :
    Option (Except String String) → Except String (Option String)
  | some text => if readsInput a then text.map some else .ok a.input
  | none => .ok a.input

/-- The check that the arguments ask for, given the texts of the schema file and of the records. -/
def request? (a : CheckArguments) (schema : String) (input : Option String) :
    Option CheckRequest :=
  match a.expressions with
  | [option] =>
    some {
      option, schema, input
      backend := a.backend.getD "sqlite"
      allow := a.allow
      json := ⟨a.ieee754Compatible⟩
      syntaxOnly := a.syntaxOnly }
  | _ => none

/-- Runs a check, given the schema file and the input, or the reasons why they cannot be read. -/
def runCheck (now : Instant) (a : CheckArguments) (schema : Except String String)
    (stdin : Option (Except String String)) : CommandResult :=
  match schema with
  | .error reason => ofOutcome false (.error (.unreadable reason))
  | .ok schema =>
    match recordsText a stdin with
    | .error reason => ofOutcome false (.error (.unreadable reason))
    | .ok input =>
      match request? a schema input with
      | some request => ofOutcome a.pretty (request.run now)
      | none => ⟨2, "", ""⟩

/-- Runs the program, given how files are read and the input unless it is a terminal. -/
def run (now : Instant) (readFile : String → Except String String)
    (stdin : Option (Except String String)) (arguments : List String) : CommandResult :=
  match Invocation.ofArguments arguments with
  | .check a => runCheck now a (readFile (a.schema.getD "")) stdin
  | .print text => ⟨0, text, ""⟩
  | .misused => ⟨2, "", ""⟩

end CommandResult

end ODataQuery
