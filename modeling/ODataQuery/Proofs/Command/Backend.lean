import ODataQuery.Command.Run
import ODataQuery.Proofs.Result

/-!
# Names of backends in any letter case

Arguments that differ in the name of the backend only ask for the same apart from that name. A check
finds the same backend whatever the letter case of its name, but the program reads its input only
for the name `memory` itself. So records in the input are lost for any other spelling, as is the
failure to read them, and that is the only difference.

## Main definitions

- `CheckArguments.named`, `Invocation.named` — the same with another name for the backend
- `Invocation.Progress.Alike` — what is known after an argument, for two names
- `Backend.names` — the names of the backends
- `CheckArguments.OverlooksInput` — what the input holds matters, but it is not read

## Main statements

- `Invocation.expressions_of_ofArguments` — a check has exactly one expression
- `Invocation.ofArguments_backend` — arguments that differ in the name of the backend
- `CheckRequest.run_respelled` — a check with another spelling of its backend
- `CommandResult.run_lowered` — a run with the name of its backend in lower case
- `CommandResult.run_backend` — the same for arguments with the option `--backend`
-/

namespace ODataQuery

-- ════════════════════════════════════════════════════════════════════════
-- Arguments
-- ════════════════════════════════════════════════════════════════════════

namespace CheckArguments

/-- The options with another name for the backend. -/
def named (name : String) (a : CheckArguments) : CheckArguments := { a with backend := some name }

variable {a : CheckArguments}

/-- Options with a name for the backend take a value, or do not, whatever that name is. -/
theorem set?_named (h : a.backend.isSome = true) (name : String) (o : ValueOption) (v : String) :
    (a.set? o v = none ∧ (a.named name).set? o v = none) ∨
      ∃ a', a.set? o v = some a' ∧ (a.named name).set? o v = some (a'.named name) ∧
        a'.backend.isSome = true := by
  obtain ⟨filter, search, compute, schema, backend, allow, input, _, _, _⟩ := a
  cases o with
  | backend =>
    obtain ⟨_, rfl⟩ := Option.isSome_iff_exists.mp h
    exact .inl ⟨rfl, rfl⟩
  | allow => exact .inr ⟨_, rfl, rfl, h⟩
  | filter => cases filter <;> first | exact .inr ⟨_, rfl, rfl, h⟩ | exact .inl ⟨rfl, rfl⟩
  | search => cases search <;> first | exact .inr ⟨_, rfl, rfl, h⟩ | exact .inl ⟨rfl, rfl⟩
  | compute => cases compute <;> first | exact .inr ⟨_, rfl, rfl, h⟩ | exact .inl ⟨rfl, rfl⟩
  | schema => cases schema <;> first | exact .inr ⟨_, rfl, rfl, h⟩ | exact .inl ⟨rfl, rfl⟩
  | input => cases input <;> first | exact .inr ⟨_, rfl, rfl, h⟩ | exact .inl ⟨rfl, rfl⟩

theorem switch?_named (h : a.backend.isSome = true) (name : String) (o : SwitchOption) :
    (a.switch? o = none ∧ (a.named name).switch? o = none) ∨
      ∃ a', a.switch? o = some a' ∧ (a.named name).switch? o = some (a'.named name) ∧
        a'.backend.isSome = true := by
  obtain ⟨_, _, _, _, _, _, _, pretty, ieee754Compatible, syntaxOnly⟩ := a
  cases o with
  | pretty => cases pretty <;> first | exact .inr ⟨_, rfl, rfl, h⟩ | exact .inl ⟨rfl, rfl⟩
  | ieee754Compatible =>
    cases ieee754Compatible <;> first | exact .inr ⟨_, rfl, rfl, h⟩ | exact .inl ⟨rfl, rfl⟩
  | syntaxOnly => cases syntaxOnly <;> first | exact .inr ⟨_, rfl, rfl, h⟩ | exact .inl ⟨rfl, rfl⟩
  | help => exact .inl ⟨rfl, rfl⟩

end CheckArguments

namespace Invocation

/-- The same with another name for the backend. -/
def named (name : String) : Invocation → Invocation
  | check a => check (a.named name)
  | print text => print text
  | misused => misused

/-- What is known after an argument behind a name for the backend, and behind another name. -/
inductive Progress.Alike (name : String) : Progress → Progress → Prop
  | options {a : CheckArguments} (h : a.backend.isSome = true) :
      Alike name (.options a) (.options (a.named name))
  | awaiting (o : ValueOption) {a : CheckArguments} (h : a.backend.isSome = true) :
      Alike name (.awaiting o a) (.awaiting o (a.named name))
  | done {outcome : Invocation} (h : outcome.named name = outcome) :
      Alike name (.done outcome) (.done outcome)

open Progress (Alike)

variable {a : CheckArguments}

theorem alike_of_set? (h : a.backend.isSome = true) (name : String) (o : ValueOption) (v : String) :
    Alike name (.ofOptions (a.set? o v)) (.ofOptions ((a.named name).set? o v)) := by
  obtain ⟨hnone, hnone'⟩ | ⟨a', hsome, hsome', h'⟩ := CheckArguments.set?_named h name o v
  · rw [hnone, hnone']
    exact .done rfl
  · rw [hsome, hsome']
    exact .options h'

theorem alike_of_switch? (h : a.backend.isSome = true) (name : String) (o : SwitchOption) :
    Alike name (.ofOptions (a.switch? o)) (.ofOptions ((a.named name).switch? o)) := by
  obtain ⟨hnone, hnone'⟩ | ⟨a', hsome, hsome', h'⟩ := CheckArguments.switch?_named h name o
  · rw [hnone, hnone']
    exact .done rfl
  · rw [hsome, hsome']
    exact .options h'

theorem alike_takeLetters (h : a.backend.isSome = true) (name : String) (letters : List Char) :
    Alike name (takeLetters a letters) (takeLetters (a.named name) letters) := by
  induction letters generalizing a with
  | nil => exact .options h
  | cons letter rest ih =>
    rw [takeLetters, takeLetters]
    split
    · exact .done rfl
    · exact .done rfl
    · next o _ _ =>
      obtain ⟨hnone, hnone'⟩ | ⟨a', hsome, hsome', h'⟩ := CheckArguments.switch?_named h name o
      · rw [hnone, hnone']
        exact .done rfl
      · rw [hsome, hsome']
        exact ih h'
    · split
      · exact .awaiting _ h
      · exact alike_of_set? h name _ _
      · exact alike_of_set? h name _ _

theorem alike_takeName (h : a.backend.isSome = true) (name : String) (arg : List Char) :
    Alike name (takeName a arg) (takeName (a.named name) arg) := by
  unfold takeName
  dsimp only
  split
  · exact alike_of_set? h name _ _
  · exact .awaiting _ h
  · exact .done rfl
  · exact alike_of_switch? h name _
  · exact .done rfl
  · exact .done rfl

theorem alike_take (h : a.backend.isSome = true) (name : String) (arg : List Char) :
    Alike name (take a arg) (take (a.named name) arg) := by
  unfold take
  split
  · exact alike_takeName h name _
  · exact alike_takeLetters h name _
  · exact .done rfl

/-- An argument that decides the outcome asks for no check. -/
theorem outcome_of_take {arg : List Char} {outcome : Invocation} (h : take a arg = .done outcome) :
    (∃ text, outcome = print text) ∨ outcome = misused := by
  have hoptions {a : Option CheckArguments} (h : Progress.ofOptions a = .done outcome) :
      outcome = misused := by
    cases a <;> cases h
    rfl
  have hletters (letters : List Char) (a : CheckArguments)
      (h : takeLetters a letters = .done outcome) :
      (∃ text, outcome = print text) ∨ outcome = misused := by
    induction letters generalizing a with
    | nil => cases h
    | cons letter rest ih =>
      rw [takeLetters] at h
      split at h
      · cases h
        exact .inr rfl
      · cases h
        exact .inl ⟨_, rfl⟩
      · split at h
        · exact ih _ h
        · cases h
          exact .inr rfl
      · split at h
        · cases h
        · exact .inr (hoptions h)
        · exact .inr (hoptions h)
  unfold take at h
  split at h
  · unfold takeName at h
    dsimp only at h
    split at h
    · exact .inr (hoptions h)
    · cases h
    · cases h
      exact .inl ⟨_, rfl⟩
    · exact .inr (hoptions h)
    · cases h
      exact .inr rfl
    · cases h
      exact .inr rfl
  · exact hletters _ a h
  · cases h
    exact .inr rfl

theorem named_of_take {arg : List Char} {outcome : Invocation} (h : take a arg = .done outcome)
    (name : String) : outcome.named name = outcome := by
  obtain ⟨text, rfl⟩ | rfl := outcome_of_take h
  · rfl
  · rfl

theorem expressions_of_complete {a' : CheckArguments} (h : complete a = check a') :
    a'.expressions.length = 1 := by
  unfold complete at h
  split at h
  · next hcomplete =>
    cases h
    exact hcomplete.1
  · cases h

/-- A check has exactly one expression. -/
theorem expressions_of_ofCheckArguments {a' : CheckArguments} {o : Option ValueOption}
    {arguments : List String} (h : ofCheckArguments a o arguments = check a') :
    a'.expressions.length = 1 := by
  induction arguments generalizing a o with
  | nil =>
    cases o with
    | none => exact expressions_of_complete h
    | some o => cases h
  | cons arg rest ih =>
    cases o with
    | some o =>
      rw [ofCheckArguments] at h
      split at h
      · cases h
      · split at h
        · exact ih h
        · cases h
    | none =>
      rw [ofCheckArguments] at h
      split at h
      · split at h
        · exact expressions_of_complete h
        · cases h
      · split at h
        · exact ih h
        · exact ih h
        · next htake =>
          subst h
          obtain ⟨_, h⟩ | h := outcome_of_take htake <;> cases h

theorem expressions_of_ofArguments {arguments : List String} (h : ofArguments arguments = check a) :
    a.expressions.length = 1 := by
  unfold ofArguments at h
  split at h
  · cases h
  · split at h
    · exact expressions_of_ofCheckArguments h
    · unfold ofHelpArguments at h
      split at h <;> cases h
    · unfold ofProgramOption at h
      split at h
      · cases h
      · cases h
      · split at h
        · cases h
        · split at h <;> cases h

theorem complete_named (name : String) (a : CheckArguments) :
    complete (a.named name) = (complete a).named name := by
  rw [complete, complete, apply_ite (named name)]
  rfl

/-- Behind a name for the backend, the outcome depends on that name only in the name itself. -/
theorem ofCheckArguments_named (h : a.backend.isSome = true) (name : String)
    (o : Option ValueOption) (arguments : List String) :
    ofCheckArguments (a.named name) o arguments = (ofCheckArguments a o arguments).named name := by
  induction arguments generalizing a o with
  | nil =>
    cases o with
    | none => exact complete_named name a
    | some o => rfl
  | cons arg rest ih =>
    cases o with
    | some o =>
      rw [ofCheckArguments, ofCheckArguments]
      split
      · rfl
      · obtain ⟨hnone, hnone'⟩ | ⟨a', hsome, hsome', h'⟩ := CheckArguments.set?_named h name o arg
        · rw [hnone, hnone']
          rfl
        · rw [hsome, hsome']
          exact ih h' none
    | none =>
      rw [ofCheckArguments, ofCheckArguments]
      split
      · split
        · exact complete_named name a
        · rfl
      · have halike := alike_take h name arg.toList
        generalize take a arg.toList = p, take (a.named name) arg.toList = p' at halike ⊢
        cases halike with
        | options h' => exact ih h' none
        | awaiting o h' => exact ih h' (some o)
        | done houtcome => exact houtcome.symm

variable {name name' : String}

/-- The name of a backend in front of more arguments. -/
theorem ofCheckArguments_backend (hname : looksLikeOption name.toList = false)
    (hname' : looksLikeOption name'.toList = false) (a : CheckArguments) (o : Option ValueOption)
    (before after : List String) :
    ofCheckArguments a o (before ++ "--backend" :: name' :: after) =
      (ofCheckArguments a o (before ++ "--backend" :: name :: after)).named name' := by
  induction before generalizing a o with
  | nil =>
    cases o with
    | some o => rfl
    | none =>
      have hstep {name : String} (hname : looksLikeOption name.toList = false) :
          ofCheckArguments a none ("--backend" :: name :: after) =
            (a.set? .backend name).elim misused fun a => ofCheckArguments a none after := by
        have htake : take a "--backend".toList = .awaiting .backend a := rfl
        rw [ofCheckArguments, if_neg (by decide), htake]
        dsimp only
        rw [ofCheckArguments, hname]
        cases a.set? .backend name <;> rfl
      rw [List.nil_append, List.nil_append, hstep hname, hstep hname']
      obtain ⟨filter, search, compute, schema, backend, allow, input, _, _, _⟩ := a
      cases backend with
      | some old => rfl
      | none =>
        exact ofCheckArguments_named (a := ⟨_, _, _, _, some name, _, _, _, _, _⟩) rfl name' none
          after
  | cons arg rest ih =>
    rw [List.cons_append, List.cons_append]
    cases o with
    | some o =>
      rw [ofCheckArguments, ofCheckArguments]
      split
      · rfl
      · split
        · exact ih _ none
        · rfl
    | none =>
      rw [ofCheckArguments, ofCheckArguments]
      split
      · have hne (name : String) : (rest ++ "--backend" :: name :: after).isEmpty = false := by
          simp
        rw [hne, hne]
        rfl
      · split
        · exact ih _ none
        · exact ih _ (some _)
        · next htake => exact (named_of_take htake name').symm

/-- Arguments with another name for the backend ask for the same, apart from that name. -/
theorem ofArguments_backend (hname : looksLikeOption name.toList = false)
    (hname' : looksLikeOption name'.toList = false) (before after : List String) :
    ofArguments ("check" :: (before ++ "--backend" :: name' :: after)) =
      (ofArguments ("check" :: (before ++ "--backend" :: name :: after))).named name' :=
  ofCheckArguments_backend hname hname' {} none before after

end Invocation

-- ════════════════════════════════════════════════════════════════════════
-- Names
-- ════════════════════════════════════════════════════════════════════════

namespace Backend

/-- The names of the backends in lower case. -/
def names : List String := ["sqlite", "postgres", "postgresql", "document", "mongodb", "memory"]

variable {name : String}

theorem ofName?_isSome_iff :
    (ofName? name).isSome = true ↔ Text.toAsciiLower name ∈ names := by
  unfold ofName? names
  split <;> simp_all

theorem ofName?_eq_memory_iff :
    ofName? name = some .memory ↔ Text.toAsciiLower name = "memory" := by
  unfold ofName?
  split <;> simp_all

theorem toAsciiLower_of_mem_names (h : name ∈ names) : Text.toAsciiLower name = name := by
  have hall : ∀ name ∈ names, Text.toAsciiLower name = name := by decide
  exact hall name h

/-- No spelling of a backend looks like an option. -/
theorem looksLikeOption_of_toAsciiLower (h : Text.toAsciiLower name ∈ names) :
    Invocation.looksLikeOption name.toList = false := by
  have hall : ∀ name ∈ names, name.toList.head? ≠ some '-' := by decide
  have hhead := hall _ h
  rw [Text.toAsciiLower, String.toList_ofList, List.head?_map] at hhead
  unfold Invocation.looksLikeOption
  split
  · next heq =>
    rw [heq] at hhead
    exact absurd rfl hhead
  · rfl

theorem ofName?_toAsciiLower (h : Text.toAsciiLower name ∈ names) :
    ofName? (Text.toAsciiLower name) = ofName? name := by
  rw [ofName?, toAsciiLower_of_mem_names h, ofName?]

end Backend

-- ════════════════════════════════════════════════════════════════════════
-- Checks
-- ════════════════════════════════════════════════════════════════════════

namespace CheckRequest

variable {r : CheckRequest} {name : String} {input : Option String}

/-- A check depends on the backend that is named, not on the spelling of its name, and on the input
only if that is read. -/
theorem run_respelled (now : Instant) (hname : Backend.ofName? name = Backend.ofName? r.backend)
    (hknown : (Backend.ofName? r.backend).isSome = true)
    (hinput : r.syntaxOnly = true ∨ Backend.ofName? r.backend ≠ some .memory ∨ input = r.input) :
    { r with backend := name, input }.run now = r.run now := by
  obtain ⟨backend, hbackend⟩ := Option.isSome_iff_exists.mp hknown
  obtain ⟨option, schema, known, allow, old, json, syntaxOnly⟩ := r
  dsimp only at hname hbackend hinput
  simp only [run, hname, hbackend]
  refine congrArg _ (funext fun schema => ?_)
  cases syntaxOnly with
  | true => rfl
  | false =>
    cases backend with
    | sql options => rfl
    | document => rfl
    | memory =>
      obtain h | h | h := hinput
      · cases h
      · exact absurd hbackend h
      · rw [h]
        rfl

/-- A check in memory without records. -/
theorem run_of_input_eq_none (now : Instant) {schema : Schema}
    (hschema : Schema.ofText r.schema = .ok schema) (hfull : r.syntaxOnly = false)
    (hbackend : Backend.ofName? r.backend = some .memory) (hinput : r.input = none) :
    r.run now = .error .noInput := by
  obtain ⟨option, text, backend, allow, old, json, syntaxOnly⟩ := r
  cases hfull
  cases hinput
  simp only at hschema hbackend
  simp only [run, hschema, hbackend]
  rfl

end CheckRequest

-- ════════════════════════════════════════════════════════════════════════
-- Runs
-- ════════════════════════════════════════════════════════════════════════

/-- The arguments name the backend of records in memory, but not as `memory`, and give no records,
though the check needs those of the input or has to fail because that cannot be read. -/
def CheckArguments.OverlooksInput (a : CheckArguments) (stdin : Option (Except String String)) :
    Prop :=
  ∃ name, a.backend = some name ∧ Text.toAsciiLower name = "memory" ∧ name ≠ "memory" ∧
    a.input = none ∧ (a.syntaxOnly = false ∨ ∃ reason, stdin = some (.error reason))

namespace CommandResult

variable {a : CheckArguments} {name : String} {stdin stdin' : Option (Except String String)}

theorem readsInput_iff : readsInput a = true ↔ a.input = none ∧ a.backend = some "memory" := by
  simp [readsInput]

/-- A run depends on the spelling of the backend only through the text of the records. -/
theorem runCheck_respelled (now : Instant) (file : Except String String) {name' : String}
    {input input' : Option String} (hname : a.backend = some name)
    (hname' : Backend.ofName? name' = Backend.ofName? name)
    (hknown : (Backend.ofName? name).isSome = true) (hrecords : recordsText a stdin = .ok input)
    (hrecords' : recordsText (a.named name') stdin' = .ok input')
    (hinput : a.syntaxOnly = true ∨ Backend.ofName? name ≠ some .memory ∨ input' = input) :
    runCheck now (a.named name') file stdin' = runCheck now a file stdin := by
  have hbackend : a.backend.getD "sqlite" = name := by rw [hname, Option.getD_some]
  have hexpressions : (a.named name').expressions = a.expressions := rfl
  cases file with
  | error reason => rfl
  | ok schema =>
    simp only [runCheck, hrecords, hrecords', request?, hexpressions]
    match a.expressions with
    | [] | _ :: _ :: _ => rfl
    | [option] =>
      refine congrArg (ofOutcome a.pretty) ?_
      rw [← hbackend] at hname' hknown hinput
      exact CheckRequest.run_respelled
        (r := ⟨option, schema, a.backend.getD "sqlite", a.allow, input,
          ⟨a.ieee754Compatible⟩, a.syntaxOnly⟩) now hname' hknown hinput

/-- Without the input, the records are those among the arguments. -/
theorem recordsText_of_readsInput (h : readsInput a = false)
    (stdin : Option (Except String String)) : recordsText a stdin = .ok a.input := by
  cases stdin with
  | none => rfl
  | some text => rw [recordsText, h, if_neg Bool.false_ne_true]

/-- The input is not read for any name but `memory` itself. -/
theorem readsInput_of_backend_ne (hname : a.backend = some name) (hne : name ≠ "memory") :
    readsInput a = false := by
  simp [readsInput, hname, hne]

theorem readsInput_of_input {input : String} (h : a.input = some input) : readsInput a = false := by
  simp [readsInput, h]

/-- In lower case, a name other than `memory` has the same records for a check that needs any,
unless it overlooks the input. -/
theorem exists_recordsText_lowered (hname : a.backend = some name) (hne : name ≠ "memory")
    (hreads : ¬a.OverlooksInput stdin) :
    ∃ input, recordsText (a.named (Text.toAsciiLower name)) stdin = .ok input ∧
      (a.syntaxOnly = true ∨ Backend.ofName? name ≠ some .memory ∨ input = a.input) := by
  by_cases hlower : Text.toAsciiLower name = "memory"
  · cases hinput : a.input with
    | some input =>
      have hlowered : readsInput (a.named (Text.toAsciiLower name)) = false :=
        readsInput_of_input hinput
      exact ⟨some input, hinput ▸ recordsText_of_readsInput hlowered stdin, .inr (.inr rfl)⟩
    | none =>
      have hneedless : ¬(a.syntaxOnly = false ∨ ∃ reason, stdin = some (.error reason)) :=
        fun hneeds => hreads ⟨name, hname, hlower, hne, hinput, hneeds⟩
      obtain ⟨hpartial, hreadable⟩ := not_or.mp hneedless
      have hlowered : readsInput (a.named (Text.toAsciiLower name)) = true :=
        readsInput_iff.mpr ⟨hinput, congrArg some hlower⟩
      -- The input is read and given to a check of the syntax, which ignores it.
      match stdin, hreadable with
      | none, _ => exact ⟨none, congrArg Except.ok hinput, .inr (.inr rfl)⟩
      | some (.error reason), hreadable => exact absurd ⟨reason, rfl⟩ hreadable
      | some (.ok text), _ =>
        refine ⟨some text, ?_, .inl (Bool.of_not_eq_false hpartial)⟩
        rw [recordsText, if_pos hlowered]
        rfl
  · have hlowered : readsInput (a.named (Text.toAsciiLower name)) = false :=
      readsInput_of_backend_ne rfl hlower
    exact ⟨a.input, recordsText_of_readsInput hlowered stdin, .inr (.inr rfl)⟩

/-- With the name of its backend in lower case a check is the same, unless it overlooks the
input. -/
theorem runCheck_lowered (now : Instant) (file : Except String String)
    (hname : a.backend = some name) (hknown : Text.toAsciiLower name ∈ Backend.names)
    (hreads : ¬a.OverlooksInput stdin) :
    runCheck now (a.named (Text.toAsciiLower name)) file stdin = runCheck now a file stdin := by
  by_cases heq : name = "memory"
  · have hlower : Text.toAsciiLower name = name := by
      rw [heq]
      decide
    rw [hlower, CheckArguments.named, ← hname]
  · obtain ⟨input, hrecords, hinput⟩ := exists_recordsText_lowered hname heq hreads
    exact runCheck_respelled now file hname (Backend.ofName?_toAsciiLower hknown)
      (Backend.ofName?_isSome_iff.mpr hknown)
      (recordsText_of_readsInput (readsInput_of_backend_ne hname heq) stdin) hrecords hinput

/-- A check that overlooks the input is the one in lower case without input. -/
theorem runCheck_of_overlooksInput (now : Instant) (file : Except String String)
    (hname : a.backend = some name) (h : a.OverlooksInput stdin) :
    runCheck now (a.named (Text.toAsciiLower name)) file none = runCheck now a file stdin := by
  obtain ⟨_, hname', hlower, hne, _, _⟩ := h
  cases hname.symm.trans hname'
  have hknown : Text.toAsciiLower name ∈ Backend.names := by
    rw [hlower]
    decide
  exact runCheck_respelled now file hname (Backend.ofName?_toAsciiLower hknown)
    (Backend.ofName?_isSome_iff.mpr hknown)
    (recordsText_of_readsInput (readsInput_of_backend_ne hname hne) stdin) rfl (.inr (.inr rfl))

/-- A check that overlooks the input gets as far as the schema. -/
theorem runCheck_eq_noInput {now : Instant} {text : String} {schema : Schema}
    (hexpressions : a.expressions.length = 1) (hschema : Schema.ofText text = .ok schema)
    (hfull : a.syntaxOnly = false) (h : a.OverlooksInput stdin) :
    runCheck now a (.ok text) stdin = ⟨1, "", CheckError.noInput.message ++ "\n"⟩ := by
  obtain ⟨name, hname, hlower, hne, hinput, _⟩ := h
  obtain ⟨option, hoption⟩ := List.length_eq_one_iff.mp hexpressions
  have hbackend : Backend.ofName? (a.backend.getD "sqlite") = some .memory := by
    rw [hname, Option.getD_some, Backend.ofName?_eq_memory_iff, hlower]
  have hrun := CheckRequest.run_of_input_eq_none now
    (r := ⟨option, text, a.backend.getD "sqlite", a.allow, a.input,
      ⟨a.ieee754Compatible⟩, a.syntaxOnly⟩) hschema hfull hbackend hinput
  simp only [runCheck, recordsText_of_readsInput (readsInput_of_backend_ne hname hne), request?,
    hoption]
  exact congrArg (ofOutcome a.pretty) hrun

/-- A check that reads the input fails if that cannot be read, even if it needs no records. -/
theorem runCheck_of_unreadable (now : Instant) (text : String) {reason : String}
    (hreads : readsInput a = true) :
    runCheck now a (.ok text) (some (.error reason)) =
      ⟨1, "", (CheckError.unreadable reason).message ++ "\n"⟩ := by
  rw [runCheck, recordsText, if_pos hreads]
  rfl

variable {arguments arguments' : List String}

theorem run_of_check (now : Instant) (readFile : String → Except String String)
    (stdin : Option (Except String String)) (h : Invocation.ofArguments arguments = .check a) :
    run now readFile stdin arguments = runCheck now a (readFile (a.schema.getD "")) stdin := by
  rw [run, h]

/-- A run with the name of its backend in lower case is the same, unless the input is overlooked.
Then the run is the one in lower case without input. In lower case an input that cannot be read ends
the run behind the schema file; in other letters the run goes on, and ends for want of records if the
schema is one and more than the syntax is checked. -/
theorem run_lowered (now : Instant) (readFile : String → Except String String)
    (stdin : Option (Except String String)) (h : Invocation.ofArguments arguments = .check a)
    (hname : a.backend = some name) (hknown : Text.toAsciiLower name ∈ Backend.names)
    (h' : Invocation.ofArguments arguments' = .check (a.named (Text.toAsciiLower name))) :
    (¬a.OverlooksInput stdin →
      run now readFile stdin arguments = run now readFile stdin arguments') ∧
    (a.OverlooksInput stdin →
      run now readFile stdin arguments = run now readFile none arguments' ∧
      ∀ text, readFile (a.schema.getD "") = .ok text →
        (∀ reason, stdin = some (.error reason) →
          run now readFile stdin arguments' =
            ⟨1, "", (CheckError.unreadable reason).message ++ "\n"⟩) ∧
        ∀ schema, Schema.ofText text = .ok schema → a.syntaxOnly = false →
          run now readFile stdin arguments = ⟨1, "", CheckError.noInput.message ++ "\n"⟩) := by
  rw [run_of_check now readFile stdin h, run_of_check now readFile stdin h',
    run_of_check now readFile none h']
  refine ⟨fun hreads => (runCheck_lowered now _ hname hknown hreads).symm, fun hoverlooks =>
    ⟨(runCheck_of_overlooksInput now _ hname hoverlooks).symm, fun text htext => ?_⟩⟩
  have htext' : readFile ((a.named (Text.toAsciiLower name)).schema.getD "") = .ok text := htext
  rw [htext, htext']
  refine ⟨fun reason hreason => ?_, fun schema hschema hfull => ?_⟩
  · obtain ⟨_, hname', hlower, _, hinput, _⟩ := hoverlooks
    cases hname.symm.trans hname'
    rw [hreason]
    exact runCheck_of_unreadable now text (readsInput_iff.mpr ⟨hinput, congrArg some hlower⟩)
  · exact runCheck_eq_noInput (Invocation.expressions_of_ofArguments h) hschema hfull hoverlooks

/-- Orders are filtered by a backend in other letters, with and without need of records, and with an
input that cannot be read. -/
theorem run_lowered_orders :
    let text := "\x7b\"entities\": [\x7b\"name\": \"Order\", \"properties\": [
      \x7b\"name\": \"paid\", \"type\": \"Edm.Boolean\"\x7d]\x7d], \"root\": \"Order\"\x7d"
    let readFile (_ : String) : Except String String := .ok text
    let stdin : Option (Except String String) :=
      some (.ok "[\x7b\"paid\": true\x7d, \x7b\"paid\": false\x7d]")
    let line (name : String) :=
      ["check", "--filter", "paid", "--schema", "orders.json", "--backend", name]
    run .earliest readFile stdin (line "SQLite") = run .earliest readFile stdin (line "sqlite") ∧
      run .earliest readFile stdin (line "Memory") =
        ⟨1, "", CheckError.noInput.message ++ "\n"⟩ ∧
      run .earliest readFile (some (.error "Is a directory (os error 21)")) (line "memory") =
        ⟨1, "", "IO error: Is a directory (os error 21)\n"⟩ := by
  intro text readFile stdin line
  let a (name : String) : CheckArguments :=
    { filter := some "paid", schema := some "orders.json", backend := some name }
  have h (name : String) (hname : name ∈ ["SQLite", "sqlite", "Memory", "memory"]) :
      Invocation.ofArguments (line name) = .check (a name) := by
    simp only [List.mem_cons, List.not_mem_nil, or_false] at hname
    obtain rfl | rfl | rfl | rfl := hname <;> rfl
  obtain ⟨hsame, _⟩ := run_lowered .earliest readFile stdin (h "SQLite" (by decide)) rfl
    (by decide) (h "sqlite" (by decide))
  have hmemory (stdin : Option (Except String String)) :=
    run_lowered .earliest readFile stdin (h "Memory" (by decide)) rfl (by decide)
      (h "memory" (by decide))
  have hoverlooks (stdin : Option (Except String String)) : (a "Memory").OverlooksInput stdin :=
    ⟨_, rfl, by decide, by decide, rfl, .inl rfl⟩
  refine ⟨hsame ?_, ?_, ?_⟩
  · rintro ⟨name, hname, hlower, _⟩
    cases hname
    exact absurd hlower (by decide)
  · have htext : (Schema.ofText text).toOption.isSome = true := by decide +kernel
    cases hschema : Schema.ofText text with
    | error e =>
      rw [hschema] at htext
      cases htext
    | ok schema =>
      obtain ⟨_, hfails⟩ := (hmemory stdin).2 (hoverlooks stdin)
      exact (hfails text rfl).2 schema hschema rfl
  · obtain ⟨_, hfails⟩ := (hmemory _).2 (hoverlooks _)
    exact (hfails text rfl).1 _ rfl

/-- The piped records are lost if `memory` is written in capital letters. -/
theorem run_memory_in_capitals :
    let text := "\x7b\"entities\": [\x7b\"name\": \"Order\", \"properties\": [
      \x7b\"name\": \"paid\", \"type\": \"Edm.Boolean\"\x7d]\x7d], \"root\": \"Order\"\x7d"
    let readFile (_ : String) : Except String String := .ok text
    let stdin : Option (Except String String) :=
      some (.ok "[\x7b\"paid\": true\x7d, \x7b\"paid\": false\x7d]")
    let line (name : String) :=
      ["check", "--filter", "paid", "--schema", "orders.json", "--backend", name]
    Text.toAsciiLower "MEMORY" = "memory" ∧
      run .earliest readFile stdin (line "memory") = ⟨0, "[\x7b\"paid\":true\x7d]\n", ""⟩ ∧
      run .earliest readFile stdin (line "MEMORY") =
        ⟨1, "", CheckError.noInput.message ++ "\n"⟩ := by
  decide +kernel

variable (now : Instant) (readFile : String → Except String String)
  (stdin : Option (Except String String))

/-- The letter case behind `--backend` matters only if the input is overlooked, whatever else stands
among the arguments. -/
theorem run_backend (hknown : Text.toAsciiLower name ∈ Backend.names) (before after : List String)
    (hreads : ∀ a, Invocation.ofArguments ("check" :: (before ++ "--backend" :: name :: after)) =
      .check a → ¬a.OverlooksInput stdin) :
    run now readFile stdin
        ("check" :: (before ++ "--backend" :: Text.toAsciiLower name :: after)) =
      run now readFile stdin ("check" :: (before ++ "--backend" :: name :: after)) := by
  have hoption := Backend.looksLikeOption_of_toAsciiLower hknown
  have hoption' : Invocation.looksLikeOption (Text.toAsciiLower name).toList = false := by
    refine Backend.looksLikeOption_of_toAsciiLower ?_
    rwa [Backend.toAsciiLower_of_mem_names hknown]
  have hlowered := Invocation.ofArguments_backend hoption hoption' before after
  have hnamed := Invocation.ofArguments_backend hoption hoption before after
  cases h : Invocation.ofArguments ("check" :: (before ++ "--backend" :: name :: after)) with
  | check a =>
    rw [h] at hlowered hnamed
    have hname : a.backend = some name :=
      congrArg CheckArguments.backend (Invocation.check.inj hnamed)
    rw [run_of_check now readFile stdin h, run_of_check now readFile stdin hlowered]
    exact runCheck_lowered now _ hname hknown (hreads a h)
  | print text =>
    rw [h] at hlowered
    rw [run, run, h, hlowered]
    rfl
  | misused =>
    rw [h] at hlowered
    rw [run, run, h, hlowered]
    rfl

end CommandResult

end ODataQuery
