import ODataQuery.Memory.Predicate
import ODataQuery.Proofs.Event.Streaming

/-!
# Evaluation by names

A compiled predicate counts the lambdas between a use of a variable and its binding. Here an
expression is evaluated by recursion with the records that its names stand for, and every compiled
predicate has that value.

## Main definitions

- `Environment` — the records that names stand for
- `Expr.eval` — the value of an expression in an environment
- `Environment.names`, `Environment.surroundings` — what compilation and a compiled meaning see
  of an environment

## Main statements

- `Meaning.eval_of_build` — the meaning that is built for an expression is its value
- `Meaning.eval_of_ofExpr` — the same for expressions within the default bound
- `Predicate.value_eq_eval` — the value of a compiled predicate on a record
-/

namespace ODataQuery

-- ════════════════════════════════════════════════════════════════════════
-- Environments
-- ════════════════════════════════════════════════════════════════════════

/-- What the names of an expression stand for. -/
structure Environment where
  /-- The present instant. -/
  now : Instant
  root : Record
  /-- The variables of the enclosing lambdas with their records, the innermost first. -/
  bound : List (String × Record)

namespace Environment

/-- The record that a reference starts at: the root record, or the one that the innermost lambda
of this name has bound. -/
def record? (env : Environment) : Option String → Option Record
  | none => some env.root
  | some name => env.bound.lookup name

/-- Binds a variable to a record. -/
def bind (env : Environment) (name : String) (record : Record) : Environment :=
  { env with bound := (name, record) :: env.bound }

def value (env : Environment) (origin : Option String) (key : String) : Value :=
  match env.record? origin with
  | some record => record.value key
  | none => .null

def related (env : Environment) (origin : Option String) (key : String) : List Record :=
  match env.record? origin with
  | some record => record.related key
  | none => []

/-- The variables in scope. -/
def names (env : Environment) : Meaning.Scope := env.bound.map Prod.fst

/-- The records without their names, the root record last. -/
def surroundings (env : Environment) : Surroundings :=
  ⟨env.now, env.bound.map Prod.snd ++ [env.root]⟩

@[simp]
theorem names_bind (env : Environment) (name : String) (record : Record) :
    (env.bind name record).names = name :: env.names := rfl

@[simp]
theorem surroundings_bind (env : Environment) (name : String) (record : Record) :
    (env.bind name record).surroundings = env.surroundings.enter record := rfl

end Environment

-- ════════════════════════════════════════════════════════════════════════
-- Evaluation
-- ════════════════════════════════════════════════════════════════════════

namespace Expr

mutual

/-- The value of an expression. A lambda is true if its body is exactly true of some related
record, or of every one; without a body `any` asks for a related record. -/
def eval (env : Environment) : Expr → Value
  | literal v => v
  | field f => env.value f.origin f.source
  | binary op left right => (left.eval env).applyBinary op (right.eval env)
  | unary op operand => (operand.eval env).applyUnary op
  | membership operand list => (operand.eval env).isIn list
  | call function arguments => Value.apply env.now function (evalAll env arguments)
  | lambda binder body =>
    let records := env.related binder.navigation.origin binder.navigation.source
    let holds (record : Record) := body.eval (env.bind binder.bound record) == .boolean true
    match binder.quantifier with
    | .any => .boolean (records.any holds)
    | .all => .boolean (records.all holds)
  | bare binder =>
    match binder.quantifier with
    | .any => .boolean !(env.related binder.navigation.origin binder.navigation.source).isEmpty
    | .all => .boolean true

/-- The values of expressions from left to right. -/
def evalAll (env : Environment) : List Expr → List Value
  | [] => []
  | e :: es => e.eval env :: evalAll env es

end

end Expr

-- ════════════════════════════════════════════════════════════════════════
-- Variables as numbers of lambdas
-- ════════════════════════════════════════════════════════════════════════

namespace Meaning

/-- The position of a name among the names is that of its record among the records. -/
theorem getElem?_of_findIdx? {bound : List (String × Record)} {name : String} {n : Nat}
    (h : (bound.map Prod.fst).findIdx? (· == name) = some n) (last : List Record) :
    (bound.map Prod.snd ++ last)[n]? = bound.lookup name := by
  induction bound generalizing n with
  | nil => cases h
  | cons first rest ih =>
    obtain ⟨key, record⟩ := first
    rw [List.map_cons, List.findIdx?_cons] at h
    by_cases hkey : key = name
    · have hn : n = 0 := by simpa [hkey, eq_comm] using h
      simp [hn, hkey]
    · have hne : (name == key) = false := by simpa using Ne.symm hkey
      obtain ⟨k, hk, rfl⟩ : ∃ k, (rest.map Prod.fst).findIdx? (· == name) = some k ∧ k + 1 = n := by
        simpa [hkey] using h
      have hrest := ih hk
      rw [List.lookup_cons, hne]
      exact hrest

theorem hops_eq_ok {origin : Option String} {n : Nat} {scope scope' : Scope}
    (h : hops origin scope = .ok (n, scope')) :
    scope' = scope ∧
      ∀ env : Environment, env.names = scope →
        env.surroundings.records[n]? = env.record? origin := by
  cases origin with
  | none =>
    cases h
    refine ⟨rfl, ?_⟩
    rintro env rfl
    simp [Environment.names, Environment.surroundings, Environment.record?]
  | some name =>
    have hcases : ∃ k, scope.findIdx? (· == name) = some k ∧ k = n ∧ scope = scope' := by
      unfold hops at h
      cases hk : scope.findIdx? (· == name) with
      | none => simp [hk] at h
      | some k => simpa [hk] using h
    obtain ⟨k, hk, rfl, rfl⟩ := hcases
    refine ⟨rfl, ?_⟩
    rintro env rfl
    exact getElem?_of_findIdx? hk [env.root]

-- ════════════════════════════════════════════════════════════════════════
-- Meanings are values
-- ════════════════════════════════════════════════════════════════════════

/-- The meaning that is built for the expression in a scope is its value in every environment with
these names, and building it leaves the scope as it was. -/
def Evaluates (e : Expr) : Prop :=
  ∀ scope m scope', builder.build e scope = .ok (m, scope') →
    scope' = scope ∧ ∀ env : Environment, env.names = scope → m env.surroundings = e.eval env

theorem evaluates_literal (v : Value) : Evaluates (.literal v) := by
  intro scope m scope' h
  cases h
  exact ⟨rfl, fun env _ => rfl⟩

theorem evaluates_field (f : Field) : Evaluates (.field f) := by
  intro scope m scope' h
  obtain ⟨n, _, hn, hm⟩ := Result.run_bind_eq_ok.mp h
  cases hm
  obtain ⟨rfl, hrecord⟩ := hops_eq_ok hn
  refine ⟨rfl, fun env henv => ?_⟩
  show env.surroundings.value n f.source = env.value f.origin f.source
  rw [Surroundings.value, hrecord env henv]
  rfl

theorem evaluates_binary {op : BinaryOp} {left right : Expr} (hleft : Evaluates left)
    (hright : Evaluates right) : Evaluates (.binary op left right) := by
  intro scope m scope' h
  rw [TreeBuilder.build_binary] at h
  obtain ⟨l, _, hl, h⟩ := Result.run_bind_eq_ok.mp h
  obtain ⟨r, _, hr, h⟩ := Result.run_bind_eq_ok.mp h
  cases h
  obtain ⟨rfl, hl⟩ := hleft _ _ _ hl
  obtain ⟨rfl, hr⟩ := hright _ _ _ hr
  refine ⟨rfl, fun env henv => ?_⟩
  show (l env.surroundings).applyBinary op (r env.surroundings) = _
  rw [hl env henv, hr env henv, Expr.eval]

theorem evaluates_unary {op : UnaryOp} {operand : Expr} (hoperand : Evaluates operand) :
    Evaluates (.unary op operand) := by
  intro scope m scope' h
  rw [TreeBuilder.build_unary] at h
  obtain ⟨x, _, hx, h⟩ := Result.run_bind_eq_ok.mp h
  cases h
  obtain ⟨rfl, hx⟩ := hoperand _ _ _ hx
  refine ⟨rfl, fun env henv => ?_⟩
  show (x env.surroundings).applyUnary op = _
  rw [hx env henv, Expr.eval]

theorem evaluates_membership {operand : Expr} {list : List Value} (hoperand : Evaluates operand) :
    Evaluates (.membership operand list) := by
  intro scope m scope' h
  rw [TreeBuilder.build_membership] at h
  obtain ⟨x, _, hx, h⟩ := Result.run_bind_eq_ok.mp h
  cases h
  obtain ⟨rfl, hx⟩ := hoperand _ _ _ hx
  refine ⟨rfl, fun env henv => ?_⟩
  show (x env.surroundings).isIn list = _
  rw [hx env henv, Expr.eval]

/-- Arguments are built in the scope of the call, each to its value. -/
theorem map_eval_of_buildAll {arguments : List Expr} (h : ∀ e ∈ arguments, Evaluates e)
    {scope scope' : Scope} {ms : List Meaning}
    (hbuild : builder.buildAll arguments scope = .ok (ms, scope')) :
    scope' = scope ∧ ∀ env : Environment, env.names = scope →
      ms.map (· env.surroundings) = Expr.evalAll env arguments := by
  induction arguments generalizing scope scope' ms with
  | nil =>
    cases hbuild
    exact ⟨rfl, fun env _ => rfl⟩
  | cons e es ih =>
    obtain ⟨m, _, hm, hbuild⟩ := Result.run_bind_eq_ok.mp hbuild
    obtain ⟨ms, _, hms, hbuild⟩ := Result.run_bind_eq_ok.mp hbuild
    cases hbuild
    obtain ⟨rfl, hm⟩ := h e List.mem_cons_self _ _ _ hm
    obtain ⟨rfl, hms⟩ := ih (fun e' he' => h e' (List.mem_cons_of_mem _ he')) hms
    refine ⟨rfl, fun env henv => ?_⟩
    rw [List.map_cons, hm env henv, hms env henv, Expr.evalAll]

theorem evaluates_call {function : Function} {arguments : List Expr}
    (harguments : ∀ e ∈ arguments, Evaluates e) : Evaluates (.call function arguments) := by
  intro scope m scope' h
  rw [TreeBuilder.build_call] at h
  obtain ⟨ms, _, hms, h⟩ := Result.run_bind_eq_ok.mp h
  cases h
  obtain ⟨rfl, hms⟩ := map_eval_of_buildAll harguments hms
  refine ⟨rfl, fun env henv => ?_⟩
  show Value.apply env.now function (ms.map (· env.surroundings)) = _
  rw [hms env henv, Expr.eval]

/-- The related records that a compiled navigation finds. -/
theorem related_of_hops {origin : Option String} {n : Nat} {env : Environment}
    (h : env.surroundings.records[n]? = env.record? origin) (key : String) :
    env.surroundings.related n key = env.related origin key := by
  rw [Surroundings.related, h]
  rfl

/-- A body that is exactly true has the truth value of its value. -/
theorem truth?_beq_some_true (v : Value) : (v.truth? == some true) = (v == .boolean true) := by
  cases v with
  | boolean b => cases b <;> rfl
  | _ => rfl

theorem evaluates_lambda {binder : Binder} {body : Expr} (hbody : Evaluates body) :
    Evaluates (.lambda binder body) := by
  intro scope m scope' h
  rw [TreeBuilder.build_lambda] at h
  obtain ⟨_, _, henter, h⟩ := Result.run_bind_eq_ok.mp h
  cases henter
  obtain ⟨mb, _, hbuild, h⟩ := Result.run_bind_eq_ok.mp h
  -- the body is built below its variable, the navigation without it
  obtain ⟨rfl, hmb⟩ := hbody _ _ _ hbuild
  obtain ⟨_, _, hleave, h⟩ := Result.run_bind_eq_ok.mp h
  cases hleave
  obtain ⟨n, _, hn, h⟩ := Result.run_bind_eq_ok.mp h
  cases h
  obtain ⟨rfl, hrecord⟩ := hops_eq_ok hn
  refine ⟨rfl, fun env henv => ?_⟩
  have hrelated := related_of_hops (hrecord env henv) binder.navigation.source
  have hholds : holdsFor mb env.surroundings =
      fun record => body.eval (env.bind binder.bound record) == .boolean true := by
    funext record
    have hbind := hmb (env.bind binder.bound record) (by rw [Environment.names_bind, henv])
    rw [Environment.surroundings_bind] at hbind
    rw [holdsFor, hbind, truth?_beq_some_true]
  show Value.boolean (quantified binder.quantifier
    (env.surroundings.related n binder.navigation.source) (holdsFor mb env.surroundings)) = _
  rw [hrelated, hholds, Expr.eval]
  cases binder.quantifier <;> rfl

theorem evaluates_bare (binder : Binder) : Evaluates (.bare binder) := by
  intro scope m scope' h
  rw [TreeBuilder.build_bare] at h
  obtain ⟨_, _, henter, h⟩ := Result.run_bind_eq_ok.mp h
  cases henter
  obtain ⟨_, _, hleave, h⟩ := Result.run_bind_eq_ok.mp h
  cases hleave
  obtain ⟨n, _, hn, h⟩ := Result.run_bind_eq_ok.mp h
  cases h
  obtain ⟨rfl, hrecord⟩ := hops_eq_ok hn
  refine ⟨rfl, fun env henv => ?_⟩
  have hrelated := related_of_hops (hrecord env henv) binder.navigation.source
  show Value.boolean (binder.quantifier == .all ||
    !(env.surroundings.related n binder.navigation.source).isEmpty) = _
  rw [hrelated, Expr.eval]
  cases binder.quantifier <;> rfl

theorem eval_of_build (e : Expr) : Evaluates e := by
  induction e with
  | literal v => exact evaluates_literal v
  | field f => exact evaluates_field f
  | binary op left right ihl ihr => exact evaluates_binary ihl ihr
  | unary op operand ih => exact evaluates_unary ih
  | membership operand list ih => exact evaluates_membership ih
  | call function arguments ih => exact evaluates_call ih
  | lambda binder body ih => exact evaluates_lambda ih
  | bare binder => exact evaluates_bare binder

/-- A meaning that is compiled is the value of the expression on a root record. -/
theorem eval_of_ofExpr {e : Expr} {m : Meaning} (h : ofExpr e = .ok m) (now : Instant)
    (record : Record) : m ⟨now, [record]⟩ = e.eval ⟨now, record, []⟩ := by
  obtain ⟨_, scope, hbuild⟩ := Expr.listen_eq_ok.mp h
  obtain ⟨_, hm⟩ := eval_of_build e _ _ _ hbuild
  exact hm ⟨now, record, []⟩ rfl

end Meaning

namespace Predicate

/-- The value of a compiled predicate on a record is the value of its expression, where names
without a variable are those of the record. -/
theorem value_eq_eval {e : Expr} {p : Predicate} (h : ofExpr e = .ok p) (now : Instant)
    (record : Record) : p.value now record = e.eval ⟨now, record, []⟩ := by
  obtain ⟨m, hm, hp⟩ := Result.bind_eq_ok.mp h
  cases hp
  exact Meaning.eval_of_ofExpr hm now record

/-- `lines/any(l:l/parts/all(p:p/size lt limit))` compares the parts of a line with a property of
the root record, two lambdas outside. -/
theorem value_eq_eval_nested :
    let part : EntityType := ⟨"Part", "parts", [⟨"size", "size", .primitive .int32, false⟩]⟩
    let line : EntityType :=
      ⟨"Line", "lines", [⟨"parts", "parts", .collection part ⟨"id", "line"⟩, false⟩]⟩
    let e : Expr :=
      .lambda ⟨⟨"lines", "lines", none, line, ⟨"id", "order"⟩⟩, .any, "l"⟩
        (.lambda ⟨⟨"parts", "parts", some "l", part, ⟨"id", "line"⟩⟩, .all, "p"⟩
          (.binary .lt (.field ⟨"size", "size", some "p", .primitive .int32⟩)
            (.field ⟨"limit", "limit", none, .primitive .int32⟩)))
    let lines : List Record :=
      [[("parts", .related [[("size", .value (.int32 7))]])],
        [("parts", .related [[("size", .value (.int32 3))], [("size", .value (.int32 4))]])]]
    let record : Record := [("limit", .value (.int32 5)), ("lines", .related lines)]
    ∃ p, ofExpr e = .ok p ∧ p.value .earliest record = e.eval ⟨.earliest, record, []⟩ ∧
      e.eval ⟨.earliest, record, []⟩ = .boolean true := by
  intro part line e lines record
  obtain ⟨p, hp⟩ : ∃ p, ofExpr e = .ok p := ⟨_, rfl⟩
  exact ⟨p, hp, value_eq_eval hp .earliest record, by decide +kernel⟩

end Predicate

end ODataQuery
