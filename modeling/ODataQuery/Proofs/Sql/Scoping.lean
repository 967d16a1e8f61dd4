import ODataQuery.Proofs.Reading.Binders
import ODataQuery.Proofs.Reading.Typing
import ODataQuery.Proofs.Sql.Names
import ODataQuery.Proofs.Sql.Writing

/-!
# Aliases of subqueries

The subquery of a lambda names its rows by the variable of the lambda, or by the navigation if there
is no variable. Each column of a clause is read from the row that the tree means, as long as no
subquery takes the alias of the entity, and none without a variable that of an enclosing subquery.
Nothing prevents the two: a variable is only checked against properties and other variables.

## Main definitions

- `EnclosedBinder.alias` — the alias of the subquery of a lambda
- `Expr.columns` — the columns that an expression means, in the order of a clause

## Main statements

- `Expr.Typed.names` — what is rendered names the columns that are meant
- `SqlClause.columns_eq_of_distinct` — so does the clause of a filter
-/

namespace ODataQuery

/-- The alias of the subquery of a lambda. -/
def EnclosedBinder.alias (b : EnclosedBinder) : String :=
  if b.binder.bound = "" then b.binder.navigation.name else b.binder.bound

theorem EnclosedBinder.alias_of_bound {b : EnclosedBinder} (h : b.binder.bound ≠ "") :
    b.alias = b.binder.bound := if_neg h

-- ════════════════════════════════════════════════════════════════════════
-- The columns of an expression
-- ════════════════════════════════════════════════════════════════════════

namespace Expr

/-- The row that a reference starts at: that of the entity, or that of the innermost lambda that
binds the variable. -/
def rowOf (vars : List String) : Option String → Nat
  | none => 0
  | some name => (vars.dropWhile (· != name)).length

/-- The columns that join the rows of a navigation to the row that it starts at. -/
def joinColumns (vars : List String) (n : Navigation) : List SqlColumn :=
  [⟨some (vars.length + 1), n.link.targetKey⟩, ⟨some (rowOf vars n.origin), n.link.sourceKey⟩]

mutual

/-- The columns that an expression means among the variables of enclosing lambdas, the innermost
first. They stand in the order of a clause, where a template may repeat an argument. -/
def columns (dialect : Dialect) (vars : List String) : Expr → List SqlColumn
  | literal _ => []
  | field f => [⟨some (rowOf vars f.origin), f.source⟩]
  | binary op left right =>
    let l := left.columns dialect vars
    let r := right.columns dialect vars
    if dialect = .sqlite ∧ op = .mod then SqlTemplate.sqliteModulo.columns [l, r] else l ++ r
  | unary _ operand | membership operand _ => operand.columns dialect vars
  | call function arguments =>
    match dialect.template? function arguments.length with
    | some template => template.columns (columnsOfAll dialect vars arguments)
    | none => []
  | lambda binder body =>
    joinColumns vars binder.navigation ++ body.columns dialect (binder.bound :: vars)
  | bare binder =>
    match binder.quantifier with
    | .any => joinColumns vars binder.navigation
    | .all => []

/-- The columns of each argument. -/
def columnsOfAll (dialect : Dialect) (vars : List String) : List Expr → List (List SqlColumn)
  | [] => []
  | e :: es => e.columns dialect vars :: columnsOfAll dialect vars es

end

end Expr

-- ════════════════════════════════════════════════════════════════════════
-- The columns of pieces
-- ════════════════════════════════════════════════════════════════════════

namespace SqlPiece

variable {dialect : Dialect} {rootAlias : String} {vars : List String}
  {l r ps : List SqlPiece} {cl cr cols : List SqlColumn}

theorem Names.grouped (h : Names dialect rootAlias vars ps cols) (g : Bool) :
    Names dialect rootAlias vars (grouped g ps) cols := by
  cases g with
  | false => exact h
  | true =>
    have hexpand : (SqlTemplate.around "(" ")").expand? [ps] =
        some (SqlWriter.parenthesized ps) := by
      show some [_, ps, _].flatten = _
      simp only [List.flatten_cons, List.flatten_nil, List.append_nil]
      rfl
    have hnames := SqlTemplate.names_expand (by decide) (.cons h .nil) hexpand
    have hcols : (SqlTemplate.around "(" ")").columns [cols] = cols := List.append_nil cols
    rwa [hcols] at hnames

/-- The template of an operation. -/
def operationTemplate (dialect : Dialect) (op : BinaryOp) (chained : Bool) : SqlTemplate :=
  if dialect = .sqlite ∧ op = .mod then SqlTemplate.sqliteModulo
  else if op.isDivision then [.slot 0, .text (dialect.operator op), .slot 1, .text ", 0)"]
  else if dialect = .postgres ∧ op.isEquality ∧ chained then
    [.text "(", .slot 0, .text ")", .text (dialect.operator op), .slot 1]
  else [.slot 0, .text (dialect.operator op), .slot 1]

theorem closes_operationTemplate (dialect : Dialect) (op : BinaryOp) (chained : Bool) :
    (operationTemplate dialect op chained).closes 0 = true := by
  cases dialect <;> cases op <;> cases chained <;> decide

theorem expand?_operationTemplate (dialect : Dialect) (op : BinaryOp) (chained : Bool)
    (l r : List SqlPiece) :
    (operationTemplate dialect op chained).expand? [l, r] =
      some (operation dialect op chained l r) := by
  unfold operationTemplate operation
  split
  · show some [_, l, _, r, _, l, _, r, _].flatten = _
    simp only [List.flatten_cons, List.flatten_nil, List.append_nil]
    rfl
  · split
    · show some [l, _, r, _].flatten = _
      simp only [List.flatten_cons, List.flatten_nil, List.append_nil]
      rfl
    · split
      · show some [_, l, _, _, r].flatten = _
        simp only [List.flatten_cons, List.flatten_nil, List.append_nil, SqlWriter.parenthesized,
          List.cons_append, List.nil_append, List.append_assoc]
      · show some [l, _, r].flatten = _
        simp only [List.flatten_cons, List.flatten_nil, List.append_nil]
        rfl

theorem columns_operationTemplate (dialect : Dialect) (op : BinaryOp) (chained : Bool)
    (cl cr : List SqlColumn) :
    (operationTemplate dialect op chained).columns [cl, cr] =
      if dialect = .sqlite ∧ op = .mod then SqlTemplate.sqliteModulo.columns [cl, cr]
      else cl ++ cr := by
  unfold operationTemplate
  split
  · rfl
  · have hcols : cl ++ (cr ++ []) = cl ++ cr := by rw [List.append_nil]
    split
    · exact hcols
    · split
      · exact hcols
      · exact hcols

theorem names_operation (hl : Names dialect rootAlias vars l cl)
    (hr : Names dialect rootAlias vars r cr) (op : BinaryOp) (chained : Bool) :
    Names dialect rootAlias vars (operation dialect op chained l r)
      (if dialect = .sqlite ∧ op = .mod then SqlTemplate.sqliteModulo.columns [cl, cr]
        else cl ++ cr) := by
  rw [← columns_operationTemplate dialect op chained]
  exact SqlTemplate.names_expand (closes_operationTemplate dialect op chained)
    (.cons hl (.cons hr .nil)) (expand?_operationTemplate dialect op chained l r)

theorem isQuiet_literal (v : Value) : (SqlWriter.literal v).IsQuiet := by
  intro s hs
  unfold SqlWriter.literal at hs
  split at hs
  · cases hs
    decide
  · cases hs

theorem names_items (list : List Value) : Names dialect rootAlias vars (ofItems list) [] := by
  have hitems : Names dialect rootAlias vars
      ((list.map SqlWriter.literal).intersperse (.text ", ")) [] := by
    induction list with
    | nil => exact names_nil
    | cons v list ih =>
      cases list with
      | nil => exact names_nil.cons (isQuiet_literal v)
      | cons v' list =>
        have hseparator : (SqlPiece.text ", ").IsQuiet := by
          rintro s ⟨⟩
          decide
        exact (ih.cons hseparator).cons (isQuiet_literal v)
  exact hitems.grouped true

theorem names_membership (h : Names dialect rootAlias vars ps cols) (list : List Value) :
    Names dialect rootAlias vars (ps ++ .text " IN " :: ofItems list) cols := by
  have hexpand : SqlTemplate.expand? [.slot 0, .text " IN ", .slot 1] [ps, ofItems list] =
      some (ps ++ .text " IN " :: ofItems list) := by
    show some [ps, _, ofItems list].flatten = _
    simp only [List.flatten_cons, List.flatten_nil, List.append_nil]
    rfl
  have hnames := SqlTemplate.names_expand (by decide) (.cons h (.cons (names_items list) .nil))
    hexpand
  have hcols : SqlTemplate.columns [.slot 0, .text " IN ", .slot 1] [cols, []] = cols :=
    List.append_nil cols
  rwa [hcols] at hnames

theorem names_prefix (h : Names dialect rootAlias vars ps cols) (op : UnaryOp) :
    Names dialect rootAlias vars (ofPrefix op :: ps) cols := by
  refine h.cons ?_
  cases op with
  | not | negate =>
    rintro s ⟨⟩
    decide

theorem names_call {function : Function} {args : List (List SqlPiece)}
    {colss : List (List SqlColumn)} (hargs : List.Forall₂ (Names dialect rootAlias vars) args colss)
    (h : ofCall dialect function args = .ok ps) :
    Names dialect rootAlias vars ps (match dialect.template? function args.length with
      | some template => template.columns colss
      | none => []) := by
  have htemplate (h : SqlWriter.ofTemplate dialect function args.length args = .ok ps) :
      Names dialect rootAlias vars ps (match dialect.template? function args.length with
        | some template => template.columns colss
        | none => []) := by
    unfold SqlWriter.ofTemplate at h
    split at h
    · cases h
    · next template hfunction =>
      split at h
      · next qs hexpand =>
        cases h
        rw [hfunction]
        exact SqlTemplate.names_expand (SqlTemplate.closes_template hfunction) hargs hexpand
      · cases h
  cases function with
  | minDateTime | maxDateTime =>
    cases h
    cases dialect with
    | sqlite | postgres => exact names_nil.cons nofun
  | _ => exact htemplate h

end SqlPiece

-- ════════════════════════════════════════════════════════════════════════
-- Rows
-- ════════════════════════════════════════════════════════════════════════

section Rows

variable {rootAlias : String} {vars : List String} {levels : SqlLevels}

/-- The alias of a reference stands for the row that it starts at. -/
theorem row_of_origin (hlevels : levels.aliases = vars) (hroot : rootAlias ∉ vars)
    {origin : Option String} (horigin : ∀ name ∈ origin, name ∈ vars) :
    levels.row rootAlias (origin.getD rootAlias) = some (Expr.rowOf vars origin) := by
  rw [SqlLevels.row, hlevels]
  cases origin with
  | none => rw [Option.getD_none, if_neg hroot, if_pos rfl, Expr.rowOf]
  | some name => rw [Option.getD_some, if_pos (horigin name rfl), Expr.rowOf]

/-- Inside of a subquery, references that start outside keep their rows. -/
theorem rowOf_cons {name : String} {origin : Option String} (h : origin ≠ some name) :
    Expr.rowOf (name :: vars) origin = Expr.rowOf vars origin := by
  cases origin with
  | none => rfl
  | some name' =>
    have hne : (name != name') = true := bne_iff_ne.mpr fun heq => h (congrArg some heq.symm)
    rw [Expr.rowOf, Expr.rowOf, List.dropWhile_cons_of_pos (p := fun x => x != name') hne]

/-- The alias of a subquery stands for its own row. -/
theorem row_self (hlevels : levels.aliases = vars) (name : String) :
    SqlLevels.row rootAlias (some name :: levels) name = some (vars.length + 1) := by
  have haliases : SqlLevels.aliases (some name :: levels) = name :: vars := by
    rw [← hlevels]
    rfl
  have hne : ¬(name != name) = true := by rw [bne_self_eq_false]; exact Bool.false_ne_true
  rw [SqlLevels.row, haliases, if_pos List.mem_cons_self,
    List.dropWhile_cons_of_neg (p := fun x => x != name) hne, List.length_cons]

end Rows

namespace SqlPiece

variable {dialect : Dialect} {rootAlias : String} {vars : List String} {levels : SqlLevels}

theorem names_column (hroot : rootAlias ∉ vars) {origin : Option String}
    (horigin : ∀ name ∈ origin, name ∈ vars) (key : String) :
    Names dialect rootAlias vars
      [.text (SqlWriter.quote (origin.getD rootAlias) ++ "." ++ SqlWriter.quote key)]
      [⟨some (Expr.rowOf vars origin), key⟩] := by
  intro count levels rest hlevels hrest
  rw [chars_text, List.append_assoc, ← row_of_origin hlevels hroot horigin]
  exact SqlToken.columns_column _ key hrest

theorem append_parts (a b c d e f g h i j k : String) :
    a ++ b ++ c ++ d ++ e ++ d ++ f ++ g ++ h ++ i ++ j ++ k =
      a ++ ((b ++ c ++ d) ++ (e ++ ((d ++ f ++ g) ++ (h ++ (i ++ j ++ k))))) := by
  simp only [String.append_assoc]

/-- The head of a subquery, in the parentheses around it, introduces its alias and joins its rows. -/
theorem columns_subqueryHead (dialect : Dialect) (b : EnclosedBinder) {rest : List Char}
    (hrest : rest.head? ≠ some '"') :
    SqlToken.columns rootAlias (none :: levels) (SqlToken.read .outside
        (((SqlWriter.start dialect rootAlias).subqueryHead b.binder).toList ++ rest)) =
      ⟨SqlLevels.row rootAlias (some b.alias :: levels) b.alias, b.binder.navigation.link.targetKey⟩ ::
        ⟨SqlLevels.row rootAlias (some b.alias :: levels)
          (b.binder.navigation.origin.getD rootAlias), b.binder.navigation.link.sourceKey⟩ ::
        SqlToken.columns rootAlias (some b.alias :: levels) (SqlToken.read .outside rest) := by
  have hhead : (SqlWriter.start dialect rootAlias).subqueryHead b.binder =
      "SELECT 1 FROM " ++ ((SqlWriter.quote b.binder.navigation.target.source ++ " AS " ++
        SqlWriter.quote b.alias) ++ (" WHERE " ++ ((SqlWriter.quote b.alias ++ "." ++
          SqlWriter.quote b.binder.navigation.link.targetKey) ++ (" = " ++
            (SqlWriter.quote (b.binder.navigation.origin.getD rootAlias) ++ "." ++
              SqlWriter.quote b.binder.navigation.link.sourceKey))))) := by
    unfold SqlWriter.subqueryHead
    dsimp only
    exact append_parts _ _ _ _ _ _ _ _ _ _ _
  have hblank (s : String) (cs : List Char) (hs : s.toList.head? = some ' ') :
      (s.toList ++ cs).head? ≠ some '"' := by
    rw [List.head?_append, hs]
    show some ' ' ≠ some '"'
    decide
  rw [hhead, String.toList_append, List.append_assoc, SqlToken.columns_closed (by decide),
    String.toList_append, List.append_assoc, String.toList_append (s := " WHERE "), List.append_assoc,
    SqlToken.columns_as _ _ (hblank " WHERE " _ rfl), SqlToken.columns_closed (by decide),
    String.toList_append, List.append_assoc, String.toList_append (s := " = "), List.append_assoc,
    SqlToken.columns_column _ _ (hblank " = " _ rfl),
    SqlToken.columns_closed (by decide), SqlToken.columns_column _ _ hrest]
  rfl

/-- What the alias of a subquery must be apart from, and where its navigation starts. -/
structure Apart (rootAlias : String) (vars : List String) (b : EnclosedBinder) : Prop where
  root : rootAlias ∉ b.alias :: vars
  enclosing : b.alias ∉ vars
  origin : ∀ name ∈ b.binder.navigation.origin, name ∈ vars

/-- The head of a subquery joins its rows to the row that the navigation starts at. -/
theorem Apart.columns_subqueryHead {b : EnclosedBinder} (h : Apart rootAlias vars b)
    (dialect : Dialect) (hlevels : levels.aliases = vars) {rest : List Char}
    (hrest : rest.head? ≠ some '"') :
    SqlToken.columns rootAlias (none :: levels) (SqlToken.read .outside
        (((SqlWriter.start dialect rootAlias).subqueryHead b.binder).toList ++ rest)) =
      Expr.joinColumns vars b.binder.navigation ++
        SqlToken.columns rootAlias (some b.alias :: levels) (SqlToken.read .outside rest) := by
  have haliases : SqlLevels.aliases (some b.alias :: levels) = b.alias :: vars := by
    rw [← hlevels]
    rfl
  have horigin : ∀ name ∈ b.binder.navigation.origin, name ∈ b.alias :: vars :=
    fun name hname => List.mem_cons_of_mem _ (h.origin name hname)
  have hne : b.binder.navigation.origin ≠ some b.alias :=
    fun heq => h.enclosing (h.origin b.alias heq)
  rw [SqlPiece.columns_subqueryHead dialect b hrest, row_self hlevels,
    row_of_origin haliases h.root horigin, rowOf_cons hne]
  rfl

theorem names_bare {b : EnclosedBinder} (h : Apart rootAlias vars b) (dialect : Dialect) :
    Names dialect rootAlias vars
      [.text ("EXISTS (" ++ (SqlWriter.start dialect rootAlias).subqueryHead b.binder ++ ")")]
      (Expr.joinColumns vars b.binder.navigation) := by
  intro count levels rest hlevels _
  have hopen : SqlToken.nesting false 0 "EXISTS (".toList = some 1 := by decide
  rw [chars_text, String.toList_append, String.toList_append, List.append_assoc, List.append_assoc,
    List.append_assoc]
  refine (SqlToken.columns_quiet hopen _).trans ?_
  refine (h.columns_subqueryHead dialect hlevels ?_).trans ?_
  · show some ')' ≠ some '"'
    decide
  · rfl

/-- The body of a subquery stands in more parentheses, behind its head. -/
theorem names_subquery {b : EnclosedBinder} (h : Apart rootAlias vars b) {dialect : Dialect}
    {ps : List SqlPiece} {cols : List SqlColumn}
    (hbody : Names dialect rootAlias (b.alias :: vars) ps cols) (before between behind : String)
    (depth : Nat) (hbefore : SqlToken.nesting false 0 before.toList = some 1)
    (hbetween : SqlToken.nesting false 0 (' ' :: between.toList) = some depth)
    (hbehind : SqlToken.nesting false depth (')' :: behind.toList) = some 0) :
    Names dialect rootAlias vars
      (.text (before ++ (SqlWriter.start dialect rootAlias).subqueryHead b.binder ++
          (" " ++ between)) :: (ps ++ [.text (")" ++ behind ++ ")")]))
      (Expr.joinColumns vars b.binder.navigation ++ cols) := by
  intro count levels rest hlevels hrest
  obtain ⟨count', hchars⟩ := exists_chars_append dialect count ps [.text (")" ++ behind ++ ")")]
  have haliases : SqlLevels.aliases (List.replicate depth none ++ some b.alias :: levels) =
      b.alias :: vars := by
    rw [SqlLevels.aliases_replicate, ← hlevels]
    rfl
  rw [chars_text, hchars, chars_text]
  simp only [String.toList_append, List.append_assoc]
  refine (SqlToken.columns_quiet hbefore _).trans ?_
  refine (h.columns_subqueryHead dialect hlevels ?_).trans ?_
  · show some ' ' ≠ some '"'
    decide
  refine congrArg (Expr.joinColumns vars b.binder.navigation ++ ·) ?_
  refine (SqlToken.columns_quiet hbetween _).trans ?_
  refine (hbody count _ _ haliases ?_).trans ?_
  · show some ')' ≠ some '"'
    decide
  · refine congrArg (cols ++ ·) ((SqlToken.columns_quiet hbehind _).trans ?_)
    rfl

theorem names_lambda {b : EnclosedBinder} (h : Apart rootAlias vars b) {dialect : Dialect}
    {ps : List SqlPiece} {cols : List SqlColumn}
    (hbody : Names dialect rootAlias (b.alias :: vars) ps cols) (quantifier : Quantifier) :
    Names dialect rootAlias vars
      (ofLambda quantifier ((SqlWriter.start dialect rootAlias).subqueryHead b.binder) ps)
      (Expr.joinColumns vars b.binder.navigation ++ cols) := by
  cases quantifier with
  | any => exact names_subquery h hbody "EXISTS (" "AND (" "" 1 (by decide) (by decide) (by decide)
  | all =>
    exact names_subquery h hbody "NOT EXISTS (" "AND (CASE WHEN (" " THEN 1 ELSE 0 END) = 0" 2
      (by decide) (by decide) (by decide)

end SqlPiece

-- ════════════════════════════════════════════════════════════════════════
-- Expressions
-- ════════════════════════════════════════════════════════════════════════

namespace Expr

open SqlPiece (Names Apart)

variable {root : EntityType} {dialect : Dialect} {rootAlias : String}

/-- The alias of a subquery is neither that of the entity nor that of an enclosing subquery. -/
def Distinct (rootAlias : String) (b : EnclosedBinder) : Prop :=
  b.alias ≠ rootAlias ∧ b.alias ∉ b.enclosing

/-- A variable that a reference starts at is in scope. -/
theorem mem_names_of_startsAt? {scope : List Frame} {origin : Option String} {entity : EntityType}
    (h : startsAt? root scope origin = some entity) : ∀ name ∈ origin, name ∈ scope.map Frame.name := by
  rintro name rfl
  obtain ⟨frame, hframe, _⟩ := Option.map_eq_some_iff.mp h
  obtain ⟨hmem, rfl⟩ := Frame.mem_of_find? hframe
  exact List.mem_map_of_mem hmem

theorem columnsOfAll_eq_map (dialect : Dialect) (vars : List String) (es : List Expr) :
    columnsOfAll dialect vars es = es.map (columns dialect vars) := by
  induction es with
  | nil => rfl
  | cons e es ih => rw [columnsOfAll, ih, List.map_cons]

theorem names_renderAll {vars : List String} {es : List Expr} {pss : List (List SqlPiece)}
    (h : ∀ e ∈ es, ∀ ps, e.render dialect rootAlias = .ok ps →
      Names dialect rootAlias vars ps (e.columns dialect vars))
    (hrender : renderAll dialect rootAlias es = .ok pss) :
    List.Forall₂ (Names dialect rootAlias vars) pss (columnsOfAll dialect vars es) := by
  rw [columnsOfAll_eq_map, List.forall₂_map_right_iff]
  exact (forall₂_renderAll h hrender).flip

theorem binders_subset_argumentBinders {vars : List String} {e : Expr} {es : List Expr}
    (h : e ∈ es) : e.binders vars ⊆ argumentBinders vars es :=
  Lists.subset_of_mem (fun _ _ => argumentBinders.eq_2 ..) h

/-- What a typed expression is rendered to names the columns that it means. -/
theorem Typed.names {scope : List Frame} {e : Expr} (h : Typed root scope e)
    (hbinders : ∀ b ∈ e.binders (scope.map Frame.name), b.Fresh ∧ Distinct rootAlias b)
    (hroot : rootAlias ∉ scope.map Frame.name) {ps : List SqlPiece}
    (hps : e.render dialect rootAlias = .ok ps) :
    Names dialect rootAlias (scope.map Frame.name) ps
      (e.columns dialect (scope.map Frame.name)) := by
  induction h generalizing ps with
  | literal =>
    cases hps
    exact SqlPiece.names_nil.cons (SqlPiece.isQuiet_literal _)
  | @field scope origin entity p type hentity hp htype =>
    cases hps
    exact SqlPiece.names_column hroot (mem_names_of_startsAt? hentity) p.source
  | binary hleft hright hsettled ihl ihr =>
    obtain ⟨hl, hr⟩ := List.forall_mem_append.mp hbinders
    obtain ⟨l, hrenderl, hps⟩ := Result.bind_eq_ok.mp hps
    obtain ⟨r, hrenderr, hps⟩ := Result.bind_eq_ok.mp hps
    cases hps
    exact SqlPiece.names_operation ((ihl hl hroot hrenderl).grouped _)
      ((ihr hr hroot hrenderr).grouped _) _ _
  | unary _ _ ih =>
    obtain ⟨qs, hrender, hps⟩ := Result.bind_eq_ok.mp hps
    cases hps
    exact SqlPiece.names_prefix ((ih hbinders hroot hrender).grouped _) _
  | membership _ _ ih =>
    obtain ⟨qs, hrender, hps⟩ := Result.bind_eq_ok.mp hps
    cases hps
    exact SqlPiece.names_membership ((ih hbinders hroot hrender).grouped _) _
  | @call scope function arguments type _ _ ih =>
    obtain ⟨args, hrender, hps⟩ := Result.bind_eq_ok.mp hps
    have hargs := names_renderAll (fun e he ps hps => ih e he
      (fun b hb => hbinders b (binders_subset_argumentBinders he hb)) hroot hps) hrender
    have hnames := SqlPiece.names_call hargs hps
    rw [length_renderAll hrender] at hnames
    exact hnames
  | @lambda scope origin entity p target link quantifier frame body hentity _ _ _ _ _ ih =>
    rw [binders] at hbinders
    obtain ⟨⟨hfresh, hdistinct⟩, hinner⟩ := List.forall_mem_cons.mp hbinders
    obtain ⟨qs, hrender, hps⟩ := Result.bind_eq_ok.mp hps
    cases hps
    have halias := EnclosedBinder.alias_of_bound hfresh.1
    have hroot' : rootAlias ∉ (frame :: scope).map Frame.name := by
      rw [List.map_cons, List.mem_cons, not_or]
      exact ⟨fun heq => hdistinct.1 (halias.trans heq.symm), hroot⟩
    have happart : Apart rootAlias (scope.map Frame.name)
        ⟨⟨⟨p.name, p.source, origin, target, link⟩, quantifier, frame.name⟩, true,
          scope.map Frame.name⟩ :=
      ⟨halias ▸ hroot', hdistinct.2, mem_names_of_startsAt? hentity⟩
    refine SqlPiece.names_lambda happart ?_ quantifier
    rw [halias]
    exact ih hinner hroot' hrender
  | @bare scope origin entity p target link quantifier hentity _ _ =>
    obtain ⟨_, hdistinct⟩ := hbinders _ List.mem_cons_self
    cases hps
    cases quantifier with
    | all => exact SqlPiece.names_nil.cons (by rintro s ⟨⟩; decide)
    | any =>
      have happart : Apart rootAlias (scope.map Frame.name)
          ⟨⟨⟨p.name, p.source, origin, target, link⟩, .any, ""⟩, false, scope.map Frame.name⟩ :=
        ⟨List.not_mem_cons_of_ne_of_not_mem (Ne.symm hdistinct.1) hroot, hdistinct.2,
          mem_names_of_startsAt? hentity⟩
      exact SqlPiece.names_bare happart dialect

end Expr

-- ════════════════════════════════════════════════════════════════════════
-- Clauses of filters
-- ════════════════════════════════════════════════════════════════════════

/-- The columns of the clause of a filter are those that the tree means, each read from the row that
it starts at, and no subquery has the alias of an enclosing one. The alias of the entity must be taken
by no subquery, and the navigation of `any()` must not be a variable around it. -/
theorem SqlClause.columns_eq_of_distinct {text : String} {entity : EntityType} {allowed : AllowList}
    {maxDepth : Nat} {e : Expr} (h : Expr.readFilter text entity allowed maxDepth = .ok e)
    {options : SqlOptions} {clause : SqlClause} (hclause : ofExpr e entity options = .ok clause)
    (hroot : ∀ b ∈ e.binders [], b.alias ≠ options.tableAlias.getD entity.source)
    (hbare : ∀ b ∈ e.binders [], b.hasBody = false → b.alias ∉ b.enclosing) :
    clause.columns (options.tableAlias.getD entity.source) = e.columns options.dialect [] ∧
      ∀ b ∈ e.binders [], b.alias ∉ b.enclosing := by
  obtain ⟨htyped, _⟩ := Expr.typed_of_readFilter h
  obtain ⟨ps, hps, hclause⟩ := Result.bind_eq_ok.mp hclause
  cases hclause
  have hfresh := Expr.binders_fresh_of_readFilter h
  have henclosing : ∀ b ∈ e.binders [], b.alias ∉ b.enclosing := by
    intro b hb
    cases hbody : b.hasBody with
    | false => exact hbare b hb hbody
    | true =>
      obtain ⟨hbound, hnotMem⟩ := (hfresh b hb).of_body hbody
      rwa [EnclosedBinder.alias_of_bound hbound]
  have hnames := htyped.names (fun b hb => ⟨hfresh b hb, hroot b hb, henclosing b hb⟩)
    List.not_mem_nil (htyped.render_of_piecesOf hps)
  refine ⟨?_, henclosing⟩
  have hcolumns := hnames 0 [] [] rfl nofun
  rw [List.append_nil] at hcolumns
  exact hcolumns.trans (List.append_nil _)

-- ════════════════════════════════════════════════════════════════════════
-- Orders with lines and parts
-- ════════════════════════════════════════════════════════════════════════

namespace OrderTables

/-- Parts of the lines of orders. -/
def part : EntityType := ⟨"Part", "parts", [⟨"code", "code", .primitive .string, false⟩]⟩

/-- Lines of orders. -/
def line : EntityType := ⟨"Line", "lines",
  [⟨"qty", "qty", .primitive .int32, false⟩,
    ⟨"parts", "parts", .collection part ⟨"id", "line_id"⟩, false⟩]⟩

/-- Orders. -/
def order : EntityType := ⟨"Order", "orders",
  [⟨"limit", "max_qty", .primitive .int32, false⟩,
    ⟨"lines", "lines", .collection line ⟨"id", "order_id"⟩, false⟩]⟩

end OrderTables

open OrderTables in
/-- In `lines/any(l:l/qty gt limit and l/parts/any())` the limit is that of the order. -/
theorem SqlClause.columns_eq_of_distinct_lines :
    ∃ e clause, Expr.readFilter "lines/any(l:l/qty gt limit and l/parts/any())" order (.all order)
        defaultMaxDepth = .ok e ∧
      ofExpr e order ⟨.sqlite, none⟩ = .ok clause ∧
      (∀ b ∈ e.binders [], b.alias ≠ "orders") ∧
      (∀ b ∈ e.binders [], b.hasBody = false → b.alias ∉ b.enclosing) ∧
      clause.columns "orders" = [⟨some 1, "order_id"⟩, ⟨some 0, "id"⟩, ⟨some 1, "qty"⟩,
        ⟨some 0, "max_qty"⟩, ⟨some 2, "line_id"⟩, ⟨some 1, "id"⟩] := by
  have hread : Result.passes (fun e => decide
      (((∀ b ∈ e.binders [], b.alias ≠ "orders") ∧
        ∀ b ∈ e.binders [], b.hasBody = false → b.alias ∉ b.enclosing) ∧
        e.columns .sqlite [] = [⟨some 1, "order_id"⟩, ⟨some 0, "id"⟩, ⟨some 1, "qty"⟩,
          ⟨some 0, "max_qty"⟩, ⟨some 2, "line_id"⟩, ⟨some 1, "id"⟩]) &&
      Result.passes (fun _ => true) (ofExpr e order ⟨.sqlite, none⟩))
      (Expr.readFilter "lines/any(l:l/qty gt limit and l/parts/any())" order (.all order)
        defaultMaxDepth) = true := by decide +kernel
  obtain ⟨e, hread, htest⟩ := Result.exists_of_passes hread
  obtain ⟨he, hcompile⟩ := Bool.and_eq_true_iff.mp htest
  obtain ⟨clause, hclause, _⟩ := Result.exists_of_passes hcompile
  obtain ⟨⟨hroot, hbare⟩, hcolumns⟩ := of_decide_eq_true he
  exact ⟨e, clause, hread, hclause, hroot, hbare,
    (columns_eq_of_distinct hread hclause hroot hbare).1.trans hcolumns⟩

open OrderTables in
/-- A variable that is called like the table of the entity takes the limit of the order to be that of
the line. A collection in `any()` that is called like the variable in front of it is joined to
itself. -/
theorem SqlClause.columns_of_captured :
    (∃ e clause, Expr.readFilter "lines/any(orders:orders/qty gt limit)" order (.all order)
        defaultMaxDepth = .ok e ∧
      ofExpr e order ⟨.sqlite, none⟩ = .ok clause ∧
      clause.clause = "EXISTS (SELECT 1 FROM \"lines\" AS \"orders\" WHERE " ++
        "\"orders\".\"order_id\" = \"orders\".\"id\" AND " ++
          "(\"orders\".\"qty\" > \"orders\".\"max_qty\"))" ∧
      clause.columns "orders" =
        [⟨some 1, "order_id"⟩, ⟨some 1, "id"⟩, ⟨some 1, "qty"⟩, ⟨some 1, "max_qty"⟩] ∧
      e.columns .sqlite [] =
        [⟨some 1, "order_id"⟩, ⟨some 0, "id"⟩, ⟨some 1, "qty"⟩, ⟨some 0, "max_qty"⟩]) ∧
    ∃ e clause, Expr.readFilter "lines/any(parts:parts/parts/any())" order (.all order)
        defaultMaxDepth = .ok e ∧
      ofExpr e order ⟨.sqlite, none⟩ = .ok clause ∧
      clause.columns "orders" =
        [⟨some 1, "order_id"⟩, ⟨some 0, "id"⟩, ⟨some 2, "line_id"⟩, ⟨some 2, "id"⟩] ∧
      e.columns .sqlite [] =
        [⟨some 1, "order_id"⟩, ⟨some 0, "id"⟩, ⟨some 2, "line_id"⟩, ⟨some 1, "id"⟩] := by
  have hvariable : Result.passes (fun e => Result.passes (fun clause => decide
      (clause.clause = "EXISTS (SELECT 1 FROM \"lines\" AS \"orders\" WHERE " ++
        "\"orders\".\"order_id\" = \"orders\".\"id\" AND " ++
          "(\"orders\".\"qty\" > \"orders\".\"max_qty\"))" ∧
      clause.columns "orders" =
        [⟨some 1, "order_id"⟩, ⟨some 1, "id"⟩, ⟨some 1, "qty"⟩, ⟨some 1, "max_qty"⟩] ∧
      e.columns .sqlite [] =
        [⟨some 1, "order_id"⟩, ⟨some 0, "id"⟩, ⟨some 1, "qty"⟩, ⟨some 0, "max_qty"⟩]))
      (ofExpr e order ⟨.sqlite, none⟩))
      (Expr.readFilter "lines/any(orders:orders/qty gt limit)" order (.all order)
        defaultMaxDepth) = true := by decide +kernel
  have hnavigation : Result.passes (fun e => Result.passes (fun clause => decide
      (clause.columns "orders" =
        [⟨some 1, "order_id"⟩, ⟨some 0, "id"⟩, ⟨some 2, "line_id"⟩, ⟨some 2, "id"⟩] ∧
      e.columns .sqlite [] =
        [⟨some 1, "order_id"⟩, ⟨some 0, "id"⟩, ⟨some 2, "line_id"⟩, ⟨some 1, "id"⟩]))
      (ofExpr e order ⟨.sqlite, none⟩))
      (Expr.readFilter "lines/any(parts:parts/parts/any())" order (.all order)
        defaultMaxDepth) = true := by decide +kernel
  obtain ⟨e, hread, hcompile⟩ := Result.exists_of_passes hvariable
  obtain ⟨clause, hclause, htest⟩ := Result.exists_of_passes hcompile
  obtain ⟨e', hread', hcompile'⟩ := Result.exists_of_passes hnavigation
  obtain ⟨clause', hclause', htest'⟩ := Result.exists_of_passes hcompile'
  exact ⟨⟨e, clause, hread, hclause, of_decide_eq_true htest⟩, e', clause', hread', hclause',
    of_decide_eq_true htest'⟩

end ODataQuery
