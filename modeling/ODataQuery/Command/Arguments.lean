import ODataQuery.Query.Check

/-!
# Arguments of the command line

## Main definitions

- `CheckArguments` — the options of the `check` command
- `Invocation` — what the arguments ask for
- `Invocation.ofArguments` — reads the arguments

## Design notes

An option with a value takes it from behind an equals sign or from the next argument, which
must not look like an option itself; a single letter also takes it from the rest of its own
argument. Options stand at most once, except `--allow`, whose values add up.
-/

namespace ODataQuery

/-- The options of the `check` command as far as they are given. -/
structure CheckArguments where
  filter : Option String := none
  search : Option String := none
  compute : Option String := none
  schema : Option String := none
  backend : Option String := none
  /-- The allowed paths, none if the option is not given. -/
  allow : Option (List String) := none
  input : Option String := none
  pretty : Bool := false
  ieee754Compatible : Bool := false
  syntaxOnly : Bool := false
deriving DecidableEq

/-- The options that take a value. -/
inductive ValueOption where
  | filter
  | search
  | compute
  | schema
  | backend
  | allow
  | input
deriving DecidableEq

/-- The options that take none. -/
inductive SwitchOption where
  | pretty
  | ieee754Compatible
  | syntaxOnly
  | help
deriving DecidableEq

/-- What an option of a name or letter is. -/
inductive OptionKind where
  | value (o : ValueOption)
  | switch (o : SwitchOption)
deriving DecidableEq

namespace OptionKind

/-- The option of a long name. -/
def ofName? (name : String) : Option OptionKind :=
  match name with
  | "filter" => some (value .filter)
  | "search" => some (value .search)
  | "compute" => some (value .compute)
  | "schema" => some (value .schema)
  | "backend" => some (value .backend)
  | "allow" => some (value .allow)
  | "input" => some (value .input)
  | "pretty" => some (switch .pretty)
  | "ieee754-compatible" => some (switch .ieee754Compatible)
  | "syntax-only" => some (switch .syntaxOnly)
  | "help" => some (switch .help)
  | _ => none

/-- The option of a letter. -/
def ofLetter? (letter : Char) : Option OptionKind :=
  match letter with
  | 's' => some (value .schema)
  | 'b' => some (value .backend)
  | 'a' => some (value .allow)
  | 'i' => some (value .input)
  | 'p' => some (switch .pretty)
  | 'h' => some (switch .help)
  | _ => none

end OptionKind

/-- What the arguments ask for. -/
inductive Invocation where
  | check (arguments : CheckArguments)
  /-- The text of a help page or the version. -/
  | print (text : String)
  /-- The arguments are not understood. -/
  | misused
deriving DecidableEq

namespace CheckArguments

/-- A value for an option that stands at most once. -/
def once? {α : Type} (present : Option α) (v : α) : Option (Option α) :=
  match present with
  | some _ => none
  | none => some (some v)

/-- The parts of a list of paths between its commas. -/
def pathsOf (text : String) : List String := (Text.splitOn ',' text.toList).map String.ofList

/-- Gives an option its value. -/
def set? (a : CheckArguments) (o : ValueOption) (v : String) : Option CheckArguments :=
  match o with
  | .filter => (once? a.filter v).map fun filter => { a with filter }
  | .search => (once? a.search v).map fun search => { a with search }
  | .compute => (once? a.compute v).map fun compute => { a with compute }
  | .schema => (once? a.schema v).map fun schema => { a with schema }
  | .backend => (once? a.backend v).map fun backend => { a with backend }
  | .allow => some { a with allow := some (a.allow.getD [] ++ pathsOf v) }
  | .input => (once? a.input v).map fun input => { a with input }

/-- Switches an option on. -/
def switch? (a : CheckArguments) (o : SwitchOption) : Option CheckArguments :=
  match o with
  | .pretty => if a.pretty then none else some { a with pretty := true }
  | .ieee754Compatible =>
    if a.ieee754Compatible then none else some { a with ieee754Compatible := true }
  | .syntaxOnly => if a.syntaxOnly then none else some { a with syntaxOnly := true }
  | .help => none

/-- The texts of the options of which one has to be given. -/
def expressions (a : CheckArguments) : List QueryOption :=
  (a.filter.map QueryOption.filter).toList ++ (a.search.map QueryOption.search).toList ++
    (a.compute.map QueryOption.compute).toList

end CheckArguments

namespace Invocation

/-- A page with these lines. -/
def page (lines : List String) : String := String.join (lines.map (· ++ "\n"))

/-- The help page of the program. -/
def programHelp : String :=
  page [
    "odata-expr - Compile OData $filter, $search and $compute expressions",
    "",
    "Usage: odata-expr <COMMAND>",
    "",
    "Commands:",
    "  check  Check an expression against a schema and print what it compiles to",
    "  help   Print this message or the help of the given subcommand(s)",
    "",
    "Options:",
    "  -h, --help     Print help",
    "  -V, --version  Print version"]

/-- The help page of the command that checks an option. -/
def checkHelp : String :=
  page [
    "Check an expression against a schema and print what it compiles to",
    "",
    "Usage: odata-expr check [OPTIONS] --schema <SCHEMA> " ++
      "<--filter <FILTER>|--search <SEARCH>|--compute <COMPUTE>>",
    "",
    "Options:",
    "      --filter <FILTER>      A $filter expression",
    "      --search <SEARCH>      A $search expression",
    "      --compute <COMPUTE>    A $compute expression",
    "  -s, --schema <SCHEMA>      Path of the JSON schema file",
    "  -b, --backend <BACKEND>    Target backend: sqlite, postgres, document or memory " ++
      "[default: sqlite]",
    "  -a, --allow <ALLOW>        Comma-separated allow-listed properties (all when omitted)",
    "  -i, --input <INPUT>        JSON records for the memory backend (reads from stdin if not " ++
      "provided)",
    "  -p, --pretty               Pretty-print the output",
    "      --ieee754-compatible   Render Int64 and Decimal values as strings",
    "      --syntax-only          Only parse and type-check, don't compile",
    "  -h, --help                 Print help"]

/-- The help page of the command that prints help pages. -/
def helpHelp : String :=
  page [
    "Print this message or the help of the given subcommand(s)",
    "",
    "Usage: odata-expr help [COMMAND]...",
    "",
    "Arguments:",
    "  [COMMAND]...  Print help for the subcommand(s)"]

/-- The version of the program. -/
def version : String := "odata-expr 0.1.0\n"

/-- Whether an argument looks like an option and is therefore no value. -/
def looksLikeOption (arg : List Char) : Bool :=
  match arg with
  | '-' :: _ :: _ => true
  | _ => false

/-- What is known after an argument: the options so far, perhaps with one that takes its value
from the next argument, or the outcome. -/
inductive Progress where
  | options (a : CheckArguments)
  | awaiting (o : ValueOption) (a : CheckArguments)
  | done (outcome : Invocation)

namespace Progress

/-- The options so far; without them the arguments are not understood. -/
def ofOptions : Option CheckArguments → Progress
  | some a => options a
  | none => done .misused

end Progress

/-- Takes an argument of letters, each of them an option. The first one with a value takes the
rest. -/
def takeLetters (a : CheckArguments) : List Char → Progress
  | [] => .options a
  | letter :: rest =>
    match OptionKind.ofLetter? letter with
    | none => .done .misused
    | some (.switch .help) => .done (.print checkHelp)
    | some (.switch o) =>
      match a.switch? o with
      | some a => takeLetters a rest
      | none => .done .misused
    | some (.value o) =>
      match rest with
      | [] => .awaiting o a
      | '=' :: v => .ofOptions (a.set? o (String.ofList v))
      | v => .ofOptions (a.set? o (String.ofList v))

/-- Takes an argument with a long name, and the value behind an equals sign. -/
def takeName (a : CheckArguments) (arg : List Char) : Progress :=
  let name := String.ofList (arg.takeWhile (· != '='))
  match OptionKind.ofName? name, arg.dropWhile (· != '=') with
  | some (.value o), _ :: v => .ofOptions (a.set? o (String.ofList v))
  | some (.value o), [] => .awaiting o a
  | some (.switch .help), [] => .done (.print checkHelp)
  | some (.switch o), [] => .ofOptions (a.switch? o)
  | some (.switch _), _ :: _ => .done .misused
  | none, _ => .done .misused

/-- Takes an argument. There are no arguments but options; two hyphens end the options. -/
def take (a : CheckArguments) (arg : List Char) : Progress :=
  match arg with
  | '-' :: '-' :: name => takeName a name
  | '-' :: letter :: letters => takeLetters a (letter :: letters)
  | _ => .done .misused

/-- The outcome when all arguments are taken: exactly one of the three options with an expression
and a schema have to be given. -/
def complete (a : CheckArguments) : Invocation :=
  if a.expressions.length = 1 ∧ a.schema.isSome then check a else misused

/-- Reads the arguments of the `check` command. -/
def ofCheckArguments (a : CheckArguments) : (awaiting : Option ValueOption) → List String →
    Invocation
  | none, [] => complete a
  | some _, [] => misused
  | some o, v :: rest =>
    if looksLikeOption v.toList then misused
    else match a.set? o v with
      | some a => ofCheckArguments a none rest
      | none => misused
  | none, arg :: rest =>
    if arg = "--" then if rest.isEmpty then complete a else misused
    else match take a arg.toList with
      | .options a => ofCheckArguments a none rest
      | .awaiting o a => ofCheckArguments a (some o) rest
      | .done outcome => outcome

/-- Reads the names of the commands whose help page is asked for. -/
def ofHelpArguments : List String → Invocation
  | [] => print programHelp
  | ["check"] => print checkHelp
  | ["help"] => print helpHelp
  | _ => misused

/-- Reads an argument in front of any command. Of several letters the first one counts. -/
def ofProgramOption (arg : List Char) : Invocation :=
  match arg with
  | '-' :: 'h' :: _ => print programHelp
  | '-' :: 'V' :: _ => print version
  | _ =>
    if arg = "--help".toList then print programHelp
    else if arg = "--version".toList then print version
    else misused

/-- Reads the arguments. -/
def ofArguments : List String → Invocation
  | [] => misused
  | arg :: rest =>
    match arg with
    | "check" => ofCheckArguments {} none rest
    | "help" => ofHelpArguments rest
    | _ => ofProgramOption arg.toList

end Invocation

end ODataQuery
