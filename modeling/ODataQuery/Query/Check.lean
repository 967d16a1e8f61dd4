import ODataQuery.Query.Option
import ODataQuery.Schema.Basic
import ODataQuery.Schema.Records

/-!
# Checking options against a schema

## Main definitions

- `QueryOption` — the text of a filter, a search or compute items
- `CheckRequest` — an option with the schema and everything else that a check needs
- `CheckError` — why a check fails
- `CheckRequest.run` — the outcome of a check

## Design notes

The program adds to `Invalid JSON` what its JSON library found wrong and where. That reason is the
library's own text and is left out: all texts that are not JSON, and all schemas that do not have
their form, have the one message.
-/

namespace ODataQuery

/-- The text of an option. -/
inductive QueryOption where
  | filter (text : String)
  | search (text : String)
  | compute (text : String)
deriving DecidableEq

/-- What a check needs. -/
structure CheckRequest where
  option : QueryOption
  /-- The text of the schema file. -/
  schema : String
  /-- The name of the backend. -/
  backend : String
  /-- The paths that the option may refer to; every path if there are none given. -/
  allow : Option (List String)
  /-- The text of the records for a run in memory. -/
  input : Option String
  json : JsonOptions
  /-- Read the option only, without compiling it. -/
  syntaxOnly : Bool

/-- Why a check fails. -/
inductive CheckError where
  | query (e : QueryError)
  /-- A text is not JSON, or a schema does not have its form. -/
  | json
  /-- The schema file or the input cannot be read, for a reason that the system gives. -/
  | unreadable (reason : String)
  | schema (fault : SchemaFault)
  | record (fault : RecordFault)
  | unknownBackend (name : String)
  | noInput

namespace CheckError

/-- The error in words. -/
def message : CheckError → String
  | query e => e.message
  | json => "Invalid JSON"
  | unreadable reason => "IO error: " ++ reason
  | schema fault => "Invalid schema: " ++ fault.message
  | record fault => "Invalid record: " ++ fault.message
  | unknownBackend name =>
    "Unknown backend '" ++ name ++ "'. Expected sqlite, postgres, document or memory."
  | noInput => "No input provided. Use --input or pipe JSON to stdin."

end CheckError

/-- The outcome of a check. -/
inductive CheckOutcome where
  /-- The option was read only, and is valid. -/
  | valid
  | output (j : Json)

/-- Reads a schema file. -/
def Schema.ofText (text : String) : Except CheckError Schema :=
  match SchemaDefinition.ofText? text with
  | none => .error .json
  | some d => (Schema.ofDefinition d).mapError .schema

/-- Reads the text of records. -/
def Record.listOfText (entity : EntityType) (text : String) : Except CheckError (List Record) :=
  match Json.ofText? text with
  | none => .error .json
  | some j => (Record.listOfJson entity j).mapError .record

namespace CheckRequest

/-- The paths that the option may refer to. -/
def allowed (r : CheckRequest) (entity : EntityType) : AllowList :=
  match r.allow with
  | some paths => .ofList (paths.map fun p => String.ofList (Text.trim p.toList))
  | none => .all entity

/-- Reads the option. -/
def validate (r : CheckRequest) (entity : EntityType) : Except CheckError Unit :=
  let allowed := r.allowed entity
  let outcome : Except ParseError Unit := match r.option with
    | .filter text => (Query.readFilter text entity allowed).map fun _ => ()
    | .search text => (Query.readSearch text entity allowed).map fun _ => ()
    | .compute text => (Query.readCompute text entity allowed).map fun _ => ()
  outcome.mapError fun e => .query (.parse e)

/-- Compiles a predicate and shows it. -/
def runPredicate (r : CheckRequest) (now : Instant) (entity : EntityType) (backend : Backend)
    (records : List Record) (e : Except ParseError Expr) : Except QueryError Json := do
  let e ← QueryError.ofParse e
  let compiled ← QueryError.ofCompile (CompiledFilter.ofExpr now e entity backend)
  return compiled.toJson r.json now records

/-- Compiles the option and shows what it compiles to. -/
def compile (r : CheckRequest) (now : Instant) (entity : EntityType) (backend : Backend)
    (records : List Record) : Except QueryError Json :=
  let allowed := r.allowed entity
  match r.option with
  | .filter text =>
    r.runPredicate now entity backend records (Query.readFilter text entity allowed)
  | .search text =>
    r.runPredicate now entity backend records (Query.readSearch text entity allowed)
  | .compute text => do
    let items ← QueryError.ofParse (Query.readCompute text entity allowed)
    let compiled ← QueryError.ofCompile (CompiledCompute.ofItems now items entity backend)
    return compiled.toJson r.json now records

/-- The records that a backend needs. -/
def records (r : CheckRequest) (entity : EntityType) : Backend → Except CheckError (List Record)
  | .memory =>
    match r.input with
    | some text => Record.listOfText entity text
    | none => .error .noInput
  | _ => .ok []

/-- The outcome of a check, given the present instant. -/
def run (r : CheckRequest) (now : Instant) : Except CheckError CheckOutcome := do
  let schema ← Schema.ofText r.schema
  if r.syntaxOnly then
    r.validate schema.root
    return .valid
  else
    match Backend.ofName? r.backend with
    | none => .error (.unknownBackend r.backend)
    | some backend => do
      let records ← r.records schema.root backend
      let output ← (r.compile now schema.root backend records).mapError .query
      return .output output

end CheckRequest

end ODataQuery
